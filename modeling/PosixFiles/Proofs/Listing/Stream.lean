/-
Listings as what the stream of a directory delivers.

# Readings

A `Reading` is what the stream of a directory may deliver to whoever reads
it to its end: entries and passing failures in any order, and then either
the end or a failure that does not pass. Which of the two a failure is goes
with it as a proof.

# What is made of one

`readDir_reads` says of every system what a listing makes of the replies it
gets. It opens the directory, again for as long as that is interrupted;
reads it once for each delivery and once for the ending; closes it once.
The names listed are those delivered, in the order in which they were, and
there are none at all after a failure that does not pass. Between the
readings nothing happens but looks at the types of entries, and whatever
they come to the listing goes on.

The induction is on the loop itself. One turn puts one delivery in front
of the reading of the turns after it.
-/
import PosixFiles.Operation.Listing
import PosixFiles.Proofs.Operation.Record
import PosixFiles.System.Prepared

namespace PosixFiles

-- ============================================================== readings

/-- What the stream of a directory delivers before it ends. -/
inductive Delivery where
  | entry (e : StreamEntry)
  /-- A failure after which there may be more. -/
  | lapse (e : Errno) (passes : System.isPassing e = true)

/-- What ends the stream of a directory. -/
inductive Ending where
  | last
  /-- A failure after which there is nothing more. -/
  | broken (e : Errno) (stays : System.isPassing e = false)

def Delivery.reply : Delivery → Except Errno (Option StreamEntry)
  | .entry e => .ok (some e)
  | .lapse e _ => .error e

def Ending.reply : Ending → Except Errno (Option StreamEntry)
  | .last => .ok none
  | .broken e _ => .error e

/-- What is read from a directory from the first call to the last. -/
structure Reading where
  deliveries : List Delivery
  ending : Ending

namespace Reading

/-- A reading that begins with one more delivery. -/
def cons (d : Delivery) (x : Reading) : Reading := ⟨d :: x.deliveries, x.ending⟩

/-- The replies with which a reading is delivered. -/
def replies (x : Reading) : List (Except Errno (Option StreamEntry)) :=
  x.deliveries.map Delivery.reply ++ [x.ending.reply]

def entries (x : Reading) : List StreamEntry :=
  x.deliveries.filterMap fun
    | .entry e => some e
    | .lapse .. => none

def lapses (x : Reading) : List Errno :=
  x.deliveries.filterMap fun
    | .entry _ => none
    | .lapse e _ => some e

/-- The names delivered, but for the two that every directory lists. -/
def names (x : Reading) : List Name :=
  (x.entries.map StreamEntry.name).filter fun n => !n.isDots

/-- What has been read when the stream ends. -/
def listed (p : Path) (x : Reading) : Except Failure (List Name) :=
  match x.ending with
  | .last => .ok x.names
  | .broken e _ => .error (.ofErrno (.path p) e)

/-- What is listed once the directory is closed. Closing matters only
after the last entry, and being interrupted then does not. -/
def outcome (p : Path) (x : Reading) (closed : Except Errno Unit) :
    Except Failure (List Name) :=
  match x.listed p with
  | .error f => .error f
  | .ok names =>
      match closed with
      | .ok () => .ok names
      | .error e => if e = .eintr then .ok names else .error (.ofErrno (.path p) e)

theorem listed_cons_lapse (p : Path) (e : Errno) (h : System.isPassing e = true) (x : Reading) :
    (x.cons (.lapse e h)).listed p = x.listed p := rfl

theorem listed_cons_dots (p : Path) {e : StreamEntry} (he : e.name.isDots = true)
    (x : Reading) : (x.cons (.entry e)).listed p = x.listed p := by
  have hnames : (x.cons (.entry e)).names = x.names :=
    List.filter_cons_of_neg (by simp [he])
  obtain ⟨ds, ending⟩ := x
  cases ending with
  | last => exact congrArg Except.ok hnames
  | broken e h => rfl

theorem listed_cons_entry (p : Path) {e : StreamEntry} (he : ¬ e.name.isDots = true)
    (x : Reading) :
    (x.cons (.entry e)).listed p = (x.listed p).map (e.name :: ·) := by
  have hnames : (x.cons (.entry e)).names = e.name :: x.names :=
    List.filter_cons_of_pos (by simp [he])
  obtain ⟨ds, ending⟩ := x
  cases ending with
  | last => exact congrArg Except.ok hnames
  | broken e h => rfl

/-- Every delivery takes one reply, and so does the ending. -/
theorem length_replies (x : Reading) :
    x.replies.length = x.entries.length + x.lapses.length + 1 := by
  obtain ⟨ds, ending⟩ := x
  suffices h : ds.length
      = (Reading.mk ds ending).entries.length + (Reading.mk ds ending).lapses.length by
    simp only [replies, List.length_append, List.length_map, List.length_singleton, h]
  induction ds with
  | nil => rfl
  | cons d ds ih =>
      cases d with
      | entry e =>
          show ds.length + 1 = (Reading.mk ds ending).entries.length + 1
            + (Reading.mk ds ending).lapses.length
          omega
      | lapse e h =>
          show ds.length + 1 = (Reading.mk ds ending).entries.length
            + ((Reading.mk ds ending).lapses.length + 1)
          omega

end Reading

/-- The reply to a call that reads a directory. -/
def Exchange.readdirReply? : Exchange → Option (Except Errno (Option StreamEntry))
  | ⟨.readdir _, r⟩ => some r
  | _ => none

/-- Whether a call reads an open directory, or asks about an entry of
it. -/
def Call.LooksInto (dir : Handle) (c : Call) : Prop :=
  c = .readdir dir ∨ ∃ n, c = .fstatat dir n

namespace System

variable {σ : Type} {S : System σ}

-- ============================================================== the loop

/-- One turn of the loop, and what comes after it. -/
theorem entriesFrom_eq (S : System σ) (p : Path) (dir : Handle) (query : TypeQuery) (s : σ) :
    S.entriesFrom p dir query s =
      match (S.call (.readdir dir) s).1 with
      | .ok none => ⟨.ok [], [], (S.call (.readdir dir) s).2⟩
      | .ok (some e) =>
          if e.name.isDots then S.entriesFrom p dir query (S.call (.readdir dir) s).2
          else
            let typed := (typedEntry S dir query e).run (S.call (.readdir dir) s).2
            match typed.result with
            | .error f => ⟨.error f, typed.events, typed.state⟩
            | .ok entry =>
                let rest := S.entriesFrom p dir query typed.state
                ⟨rest.result.map (entry :: ·), typed.events ++ rest.events, rest.state⟩
      | .error e =>
          if isPassing e then
            let rest := S.entriesFrom p dir query (S.call (.readdir dir) s).2
            ⟨rest.result, .transientListing p e :: rest.events, rest.state⟩
          else ⟨.error (.ofErrno (.path p) e), [], (S.call (.readdir dir) s).2⟩ := by
  rw [entriesFrom]
  split
  next h => rw [h]
  next e h =>
    rewrite [h]
    rfl
  next e h =>
    rw [h]
    dsimp only
    split <;> rfl

/-- After a failure to read, the directory is closed all the same. -/
theorem run_entriesOf_of_error (S : System σ) {p : Path} {dir : Handle} {query : TypeQuery}
    {s : σ} {f : Failure} (h : (S.entriesFrom p dir query s).result = .error f) :
    (S.entriesOf p dir query).run s =
      ⟨.error f, (S.entriesFrom p dir query s).events,
        (S.call (.closedir dir) (S.entriesFrom p dir query s).state).2⟩ := by
  unfold entriesOf Op.run
  dsimp only
  rw [h]

/-- After the last entry, closing the directory decides. -/
theorem run_entriesOf_of_ok (S : System σ) {p : Path} {dir : Handle} {query : TypeQuery}
    {s : σ} {entries : List Entry} (h : (S.entriesFrom p dir query s).result = .ok entries) :
    (S.entriesOf p dir query).run s =
      let closed := (S.closeListing p dir).run (S.entriesFrom p dir query s).state
      ⟨closed.result.map fun _ => entries,
        (S.entriesFrom p dir query s).events ++ closed.events, closed.state⟩ := by
  unfold entriesOf Op.run
  dsimp only
  rw [h]

/-- A directory that cannot be opened is not listed. -/
theorem run_readDir_of_error (S : System σ) {p : Path} (hnul : p.hasNul = false)
    {query : TypeQuery} {s t : σ} {e : Errno} (h : S.persist (.opendir p) s = (.error e, t)) :
    (S.readDir p query).run s = ⟨.error (.ofErrno (.path p) e), [], t⟩ := by
  unfold readDir
  rw [Op.requireNoNul_bind _ (by simp [hnul]), Op.run_persist_bind, h]
  rfl

/-- A directory that is open is listed by what its entries are. -/
theorem run_readDir_of_ok (S : System σ) {p : Path} (hnul : p.hasNul = false)
    (query : TypeQuery) {s t : σ} {dir : Handle}
    (h : S.persist (.opendir p) s = (.ok dir, t)) :
    ((S.readDir p query).run s).result = ((S.entriesOf p dir query).run t).result
      ∧ ((S.readDir p query).run s).state = ((S.entriesOf p dir query).run t).state := by
  unfold readDir
  rw [Op.requireNoNul_bind _ (by simp [hnul]), Op.run_persist_bind, h]
  obtain ⟨hresult, hstate⟩ := Op.run_bind_of_gives (x := S.entriesOf p dir query) (g := id)
    (f := fun entries => do
      Op.emit (.listed p entries.length)
      pure entries) (fun _ _ => ⟨rfl, rfl⟩) t
  refine ⟨hresult.trans ?_, hstate⟩
  cases ((S.entriesOf p dir query).run t).result <;> rfl

-- ================================================================= turns

/-- An operation that gives a value whatever the replies are, and makes no
calls but to ask about entries of a directory. -/
def OnlyLooks {α : Type} (dir : Handle) (x : Op (Recorded σ) α) : Prop :=
  ∀ r, ∃ v events t looks, x.run r = ⟨.ok v, events, t⟩
    ∧ t.exchanges = r.exchanges ++ looks ∧ ∀ y ∈ looks, ∃ n, y.call = .fstatat dir n

theorem onlyLooks_pure {α : Type} (dir : Handle) (v : α) :
    OnlyLooks dir (pure v : Op (Recorded σ) α) :=
  fun r => ⟨v, [], r, [], rfl, (List.append_nil _).symm, nofun⟩

theorem onlyLooks_typeByStatus (dir : Handle) (n : Name) :
    OnlyLooks dir (typeByStatus S.recorded dir n) := by
  intro r
  unfold typeByStatus
  rw [Op.run_issue_bind]
  have hrecord := exchanges_call (S := S) (.fstatat dir n) r
  have hlook : ∀ y ∈ [(⟨.fstatat dir n, (S.recorded.call (.fstatat dir n) r).1⟩ : Exchange)],
      ∃ n, y.call = .fstatat dir n := by
    intro y hy
    rw [List.mem_singleton.1 hy]
    exact ⟨n, rfl⟩
  cases (S.recorded.call (.fstatat dir n) r).1 with
  | ok st => exact ⟨_, _, _, _, rfl, hrecord, hlook⟩
  | error e => exact ⟨_, _, _, _, rfl, hrecord, hlook⟩

theorem onlyLooks_typeOfEntry (dir : Handle) (e : StreamEntry) (followLinks : Bool) :
    OnlyLooks dir (typeOfEntry S.recorded dir e followLinks) := by
  unfold typeOfEntry
  split
  · exact onlyLooks_pure dir _
  split
  · exact onlyLooks_pure dir _
  split
  · exact onlyLooks_pure dir _
  split
  · exact onlyLooks_typeByStatus dir e.name
  · exact onlyLooks_pure dir _

/-- The type of an entry is found or given up, and its name stays. -/
theorem run_typedEntry (dir : Handle) (query : TypeQuery) (e : StreamEntry) (r : Recorded σ) :
    ∃ type events t looks,
      (typedEntry S.recorded dir query e).run r = ⟨.ok ⟨e.name, type⟩, events, t⟩
        ∧ t.exchanges = r.exchanges ++ looks
        ∧ ∀ y ∈ looks, ∃ n, y.call = .fstatat dir n := by
  cases query with
  | none => exact ⟨_, [], r, [], rfl, (List.append_nil _).symm, nofun⟩
  | ofEntry =>
      obtain ⟨type, events, t, looks, hrun, hlooks⟩ :=
        onlyLooks_typeOfEntry (S := S) dir e false r
      exact ⟨_, _, t, looks, Op.run_bind_ok hrun, hlooks⟩
  | ofTarget =>
      obtain ⟨type, events, t, looks, hrun, hlooks⟩ :=
        onlyLooks_typeOfEntry (S := S) dir e true r
      exact ⟨_, _, t, looks, Op.run_bind_ok hrun, hlooks⟩

/-- From a state, something delivers a reading: it adds looks into the
directory to the record, which get the replies of the reading, and it
results in the names that have been read. -/
def Delivers (p : Path) (dir : Handle) (r : Recorded σ)
    (o : Outcome (Recorded σ) (List Entry)) (x : Reading) : Prop :=
  ∃ looks, o.state.exchanges = r.exchanges ++ looks
    ∧ (∀ y ∈ looks, y.call.LooksInto dir)
    ∧ looks.filterMap Exchange.readdirReply? = x.replies
    ∧ o.result.map (·.map Entry.name) = x.listed p

namespace Delivers

variable {p : Path} {dir : Handle} {r t : Recorded σ} {x : Reading}
  {result : Except Failure (List Entry)} {events : List Event}

theorem result_eq {o : Outcome (Recorded σ) (List Entry)} (h : Delivers p dir r o x) :
    o.result.map (·.map Entry.name) = x.listed p := by
  obtain ⟨-, -, -, -, hresult⟩ := h
  exact hresult

/-- The reply to the last call is an ending. -/
theorem of_ending (ending : Ending) (hr : (S.recorded.call (.readdir dir) r).1 = ending.reply)
    (hresult : result.map (·.map Entry.name) = (Reading.mk [] ending).listed p) :
    Delivers p dir r ⟨result, events, (S.recorded.call (.readdir dir) r).2⟩ ⟨[], ending⟩ := by
  refine ⟨_, exchanges_call (.readdir dir) r, ?_, ?_, hresult⟩
  · intro y hy
    rw [List.mem_singleton.1 hy]
    exact Or.inl rfl
  · rw [hr]
    rfl

/-- A reading goes on after a delivery: the call for it comes first, then
looks that deliver nothing, then the turns that are left. -/
theorem of_delivery (d : Delivery) (hr : (S.recorded.call (.readdir dir) r).1 = d.reply)
    {looks : List Exchange}
    (hlooks : t.exchanges = (S.recorded.call (.readdir dir) r).2.exchanges ++ looks)
    (hstat : ∀ y ∈ looks, ∃ n, y.call = .fstatat dir n)
    {o : Outcome (Recorded σ) (List Entry)} (hrest : Delivers p dir t o x)
    (hresult : result.map (·.map Entry.name) = (x.cons d).listed p) :
    Delivers p dir r ⟨result, events, o.state⟩ (x.cons d) := by
  obtain ⟨more, hmore, hinto, hreplies, -⟩ := hrest
  have hquiet : looks.filterMap Exchange.readdirReply? = [] := by
    refine List.filterMap_eq_nil_iff.2 fun y hy => ?_
    obtain ⟨n, hn⟩ := hstat y hy
    obtain ⟨c, reply⟩ := y
    dsimp only at hn
    subst hn
    rfl
  refine ⟨⟨.readdir dir, d.reply⟩ :: looks ++ more, ?_, ?_, ?_, hresult⟩
  · rw [hmore, hlooks, exchanges_call, hr]
    simp only [List.append_assoc, List.cons_append, List.nil_append]
  · intro y hy
    rcases List.mem_append.1 hy with hy | hy
    · rcases List.mem_cons.1 hy with rfl | hy
      · exact Or.inl rfl
      · exact Or.inr (hstat y hy)
    · exact hinto y hy
  · rw [List.filterMap_append, List.filterMap_cons, hquiet, hreplies]
    rfl

end Delivers

/-- Whatever replies a directory stream gets, they are those of a reading,
and the loop makes of them what the reading lists. -/
theorem entriesFrom_delivers (p : Path) (dir : Handle) (query : TypeQuery) (r : Recorded σ) :
    ∃ x, Delivers p dir r (S.recorded.entriesFrom p dir query r) x := by
  fun_induction System.entriesFrom S.recorded p dir query r with
  | case1 r reply hr => exact ⟨_, .of_ending .last hr rfl⟩
  | case2 r reply e hr hdots ih =>
      obtain ⟨x, hx⟩ := ih
      refine ⟨x.cons (.entry e), .of_delivery _ hr (List.append_nil _).symm nofun hx ?_⟩
      rw [Reading.listed_cons_dots p hdots]
      exact hx.result_eq
  | case3 r reply e hr hdots typed f htyped =>
      -- no look at a type fails
      obtain ⟨type, events, t, looks, hrun, -⟩ := run_typedEntry (S := S) dir query e reply.2
      change ((typedEntry S.recorded dir query e).run reply.2).result = _ at htyped
      rw [hrun] at htyped
      cases htyped
  | case4 r reply e hr hdots typed entry htyped rest ih =>
      obtain ⟨x, hx⟩ := ih
      obtain ⟨type, events, t, looks, hrun, hlooks, hstat⟩ :=
        run_typedEntry (S := S) dir query e reply.2
      change typed = _ at hrun
      have hentry : entry = ⟨e.name, type⟩ := by
        rw [hrun] at htyped
        exact (Except.ok.inj htyped).symm
      have hstate : typed.state.exchanges = reply.2.exchanges ++ looks := by
        rw [hrun]
        exact hlooks
      refine ⟨x.cons (.entry e), .of_delivery _ hr hstate hstat hx ?_⟩
      rw [Reading.listed_cons_entry p hdots, ← hx.result_eq, hentry]
      cases rest.result <;> rfl
  | case5 r reply e hr hp rest ih =>
      obtain ⟨x, hx⟩ := ih
      refine ⟨x.cons (.lapse e hp), .of_delivery _ hr (List.append_nil _).symm nofun hx ?_⟩
      rw [Reading.listed_cons_lapse]
      exact hx.result_eq
  | case6 r reply e hr hp => exact ⟨_, .of_ending (.broken e (by simpa using hp)) hr rfl⟩

-- =========================================================== the listing

/-- Closing after the last entry is one call. -/
theorem run_closeListing (S : System σ) (p : Path) (dir : Handle) (s : σ) :
    ((S.closeListing p dir).run s).state = (S.call (.closedir dir) s).2
      ∧ ((S.closeListing p dir).run s).result
        = match (S.call (.closedir dir) s).1 with
          | .ok () => .ok ()
          | .error e => if e = .eintr then .ok () else .error (.ofErrno (.path p) e) := by
  rw [closeListing, Op.run_issue_bind, Op.run_closed]
  cases (S.call (.closedir dir) s).1 <;> exact ⟨rfl, rfl⟩

/-- A directory that has been read is closed with one more call, and the
names come out unless a failure does. -/
theorem run_entriesOf {p : Path} {dir : Handle} {query : TypeQuery} {r : Recorded σ}
    {x : Reading}
    (hx : (S.recorded.entriesFrom p dir query r).result.map (·.map Entry.name) = x.listed p) :
    let read := S.recorded.entriesFrom p dir query r
    let o := (S.recorded.entriesOf p dir query).run r
    o.state = (S.recorded.call (.closedir dir) read.state).2
      ∧ o.result.map (·.map Entry.name)
        = x.outcome p (S.recorded.call (.closedir dir) read.state).1 := by
  intro read o
  cases hread : (S.recorded.entriesFrom p dir query r).result with
  | error f =>
      have ho : o = _ := run_entriesOf_of_error S.recorded hread
      rw [hread] at hx
      have hlisted : x.listed p = .error f := hx.symm
      unfold Reading.outcome
      rw [ho, hlisted]
      exact ⟨rfl, rfl⟩
  | ok entries =>
      have ho : o = _ := run_entriesOf_of_ok S.recorded hread
      obtain ⟨hstate, hresult⟩ := run_closeListing S.recorded p dir read.state
      rw [hread] at hx
      have hlisted : x.listed p = .ok (entries.map Entry.name) := hx.symm
      unfold Reading.outcome
      rw [ho, hlisted]
      refine ⟨hstate, ?_⟩
      dsimp only
      rw [hresult]
      cases (S.recorded.call (.closedir dir) read.state).1 with
      | ok u => rfl
      | error e =>
          dsimp only
          split
          · rfl
          · rfl

/-- The listing of a directory is that of the reading which the replies
are, and none if the directory cannot be opened. -/
theorem readDir_reads {p : Path} (hnul : p.hasNul = false) (query : TypeQuery) (s : σ) :
    let o := (S.recorded.readDir p query).run ⟨[], s⟩
    ∃ (k : Nat) (opened : Reply (.opendir p)) (es : List Exchange),
      errno? opened ≠ some .eintr
        ∧ o.state.exchanges
          = List.replicate k ⟨.opendir p, .error .eintr⟩ ++ ⟨.opendir p, opened⟩ :: es
        ∧ match opened with
          | .error e => es = [] ∧ o.result = .error (.ofErrno (.path p) e)
          | .ok dir =>
              ∃ (x : Reading) (looks : List Exchange) (closed : Reply (.closedir dir)),
                es = looks ++ [⟨.closedir dir, closed⟩]
                  ∧ (∀ y ∈ looks, y.call.LooksInto dir)
                  ∧ looks.filterMap Exchange.readdirReply? = x.replies
                  ∧ x.replies.length = x.entries.length + x.lapses.length + 1
                  ∧ o.result.map (·.map Entry.name) = x.outcome p closed := by
  intro o
  obtain ⟨k, hopening⟩ := exchanges_persist (S := S) (.opendir p) ⟨[], s⟩
  have hne := S.recorded.errno?_persist_ne (.opendir p) ⟨[], s⟩
  rcases hopened : S.recorded.persist (.opendir p) ⟨[], s⟩ with ⟨opened, r⟩
  rw [hopened] at hopening hne
  cases opened with
  | error e =>
      have ho : o = _ := run_readDir_of_error S.recorded hnul hopened
      rw [ho]
      exact ⟨k, .error e, [], hne, hopening, rfl, rfl⟩
  | ok dir =>
      obtain ⟨hresult, hstate⟩ := run_readDir_of_ok S.recorded hnul query hopened
      obtain ⟨x, looks, hlooks, hinto, hreplies, hlisted⟩ :=
        entriesFrom_delivers (S := S) p dir query r
      obtain ⟨hclosed, houtcome⟩ := run_entriesOf (S := S) hlisted
      refine ⟨k, .ok dir, looks ++ [⟨.closedir dir,
        (S.recorded.call (.closedir dir) (S.recorded.entriesFrom p dir query r).state).1⟩],
        hne, ?_, x, looks, _, rfl, hinto, hreplies, x.length_replies, ?_⟩
      · change (S.recorded.readDir p query |>.run ⟨[], s⟩).state.exchanges = _
        rw [hstate, hclosed, exchanges_call, hlooks, hopening]
        simp [List.append_assoc, Recorded.exchanges]
      · change (S.recorded.readDir p query |>.run ⟨[], s⟩).result.map _ = _
        rw [hresult]
        exact houtcome

/-- A listing that is interrupted when it opens and when it closes, and
falters twice on the way: what is delivered twice is listed twice. -/
theorem readDir_reads_faltering :
    let p : Path := [0x64]
    let fails (e : Errno) : PreparedReply := fun _ => .error e
    let entry (n : Name) : PreparedReply := fun
      | .readdir _ => .ok (some ⟨n, Hint.regular⟩)
      | _ => .error .ebadf
    let replies : List PreparedReply :=
      [fails .eintr, fun | .opendir _ => .ok 3 | _ => .error .ebadf,
        entry [0x66], fails .eio, entry Name.self, entry [0x66], fails .eintr,
        fun | .readdir _ => .ok none | _ => .error .ebadf, fails .eintr]
    let o := (prepared.recorded.readDir p .ofEntry).run ⟨[], replies⟩
    p.hasNul = false
      ∧ o.result.toOption = some [⟨[0x66], some .regular⟩, ⟨[0x66], some .regular⟩]
      ∧ o.state.exchanges.length = 9
      ∧ ∃ (k : Nat) (opened : Reply (.opendir p)) (es : List Exchange),
        errno? opened ≠ some .eintr
          ∧ o.state.exchanges
            = List.replicate k ⟨.opendir p, .error .eintr⟩ ++ ⟨.opendir p, opened⟩ :: es
          ∧ match opened with
            | .error e => es = [] ∧ o.result = .error (.ofErrno (.path p) e)
            | .ok dir =>
                ∃ (x : Reading) (looks : List Exchange) (closed : Reply (.closedir dir)),
                  es = looks ++ [⟨.closedir dir, closed⟩]
                    ∧ (∀ y ∈ looks, y.call.LooksInto dir)
                    ∧ looks.filterMap Exchange.readdirReply? = x.replies
                    ∧ x.replies.length = x.entries.length + x.lapses.length + 1
                    ∧ o.result.map (·.map Entry.name) = x.outcome p closed :=
  ⟨by decide, by decide +kernel, by decide +kernel, readDir_reads (by decide) .ofEntry _⟩

end System
end PosixFiles
