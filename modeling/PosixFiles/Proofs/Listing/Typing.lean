/-
The types of the entries themselves, as a listing gives them.

A listing that does not follow links should show of each entry what a look
at the entry itself shows, whether or not the directory hints at types. It
does so wherever there is a true hint, and for everything but links where
there is none. A link without a hint is looked at as every entry without a
hint is, and that look follows it: so it appears as what it leads to, and
whether a directory hints at its links makes a difference
(`readDir_shows_types`).

While a directory is being listed the world stays as it is, and so does
what the handle is for; only what it still delivers gets less (`Holding`).
So each look at an entry finds the world of the beginning, and the loop is
an induction on its turns with the entries that are still to be delivered.
-/
import PosixFiles.Proofs.Interruption.Session
import PosixFiles.Proofs.Listing.Stream
import PosixFiles.Proofs.Operation.Fault
import PosixFiles.Proofs.World.Entry
import PosixFiles.Trial

namespace PosixFiles

/-- The hint that a directory of the world gives at an entry, once replies
are prescribed. -/
def Disguise.hintFor (disguise : Disguise) (w : World) (e : Name × Ino) : UInt8 :=
  (disguise.hinted ⟨e.1, w.hintOf e.2⟩).hint

namespace Trial

/-- In the middle of a listing: the world is the one it began in, the
handle is for a directory of it and has the given entries left, and no
fault is to come that the trial did not have. -/
structure Holding (t : Trial) (w : World) (h : Handle) (i : Ino) (rest : List StreamEntry)
    (r : Recorded (Scripted Session)) : Prop where
  world_eq : r.state.state.world = w
  stream_eq : r.state.state.streams.lookup h = some (.entries i rest)
  script_subset : r.state.script ⊆ t.script

namespace Holding

variable {t : Trial} {w : World} {h : Handle} {i : Ino} {rest : List StreamEntry}
  {r : Recorded (Scripted Session)}

/-- The next reading fails with a fault, or delivers the next entry, with
the hint that is prescribed for it. -/
theorem readdir (H : t.Holding w h i rest r) :
    (∃ e, ⟨.readdir, some e⟩ ∈ t.script
        ∧ (t.system.call (.readdir h) r).1 = .error e
        ∧ t.Holding w h i rest (t.system.call (.readdir h) r).2)
      ∨ (rest = [] ∧ (t.system.call (.readdir h) r).1 = .ok none
        ∧ t.Holding w h i [] (t.system.call (.readdir h) r).2)
      ∨ ∃ e later, rest = e :: later
        ∧ (t.system.call (.readdir h) r).1 = .ok (some (t.disguise.hinted e))
        ∧ t.Holding w h i later (t.system.call (.readdir h) r).2 := by
  obtain ⟨hsubset, ⟨e, hmem, hreply, hstate⟩ | ⟨hreply, hstate⟩⟩ :=
    (Session.system.disguised t.disguise).faulty_call_cases (.readdir h) r
  · have hsame := hstate rfl
    refine Or.inl ⟨e, H.script_subset hmem, hreply, ?_, ?_,
      List.Subset.trans hsubset H.script_subset⟩
    · exact (congrArg Session.world hsame).trans H.world_eq
    · exact (congrArg (·.streams.lookup h) hsame).trans H.stream_eq
  · have hread : ((Session.system.disguised t.disguise).call (.readdir h) r.state.state)
        = (((r.state.state.readdir h).1.map (·.map t.disguise.hinted)),
          (r.state.state.readdir h).2) := rfl
    rw [hread] at hreply hstate
    unfold Session.readdir at hreply hstate
    rw [H.stream_eq] at hreply hstate
    right
    cases rest with
    | nil =>
        refine Or.inl ⟨rfl, hreply, ?_, ?_, List.Subset.trans hsubset H.script_subset⟩
        · exact (congrArg Session.world hstate).trans H.world_eq
        · exact (congrArg (·.streams.lookup h) hstate).trans H.stream_eq
    | cons e later =>
        refine Or.inr ⟨e, later, rfl, hreply, ?_, ?_,
          List.Subset.trans hsubset H.script_subset⟩
        · exact (congrArg Session.world hstate).trans H.world_eq
        · refine (congrArg (·.streams.lookup h) hstate).trans ?_
          exact Session.lookup_replace_self H.stream_eq

theorem of_end (H : t.Holding w h i rest r)
    (hr : (t.system.call (.readdir h) r).1 = .ok none) :
    rest = [] ∧ t.Holding w h i [] (t.system.call (.readdir h) r).2 := by
  rcases H.readdir with ⟨e, -, heq, -⟩ | ⟨hrest, -, H'⟩ | ⟨e, later, -, heq, -⟩
  · cases hr.symm.trans heq
  · exact ⟨hrest, H'⟩
  · cases hr.symm.trans heq

theorem of_entry (H : t.Holding w h i rest r) {e : StreamEntry}
    (hr : (t.system.call (.readdir h) r).1 = .ok (some e)) :
    ∃ e' later, rest = e' :: later ∧ e = t.disguise.hinted e'
      ∧ t.Holding w h i later (t.system.call (.readdir h) r).2 := by
  rcases H.readdir with ⟨e', -, heq, -⟩ | ⟨-, heq, -⟩ | ⟨e', later, hrest, heq, H'⟩
  · cases hr.symm.trans heq
  · cases hr.symm.trans heq
  · exact ⟨e', later, hrest, Option.some.inj (Except.ok.inj (hr.symm.trans heq)), H'⟩

theorem of_error (H : t.Holding w h i rest r) {e : Errno}
    (hr : (t.system.call (.readdir h) r).1 = .error e) :
    ⟨.readdir, some e⟩ ∈ t.script
      ∧ t.Holding w h i rest (t.system.call (.readdir h) r).2 := by
  rcases H.readdir with ⟨e', hmem, heq, H'⟩ | ⟨-, heq, -⟩ | ⟨e', later, -, heq, -⟩
  · cases Except.error.inj (hr.symm.trans heq)
    exact ⟨hmem, H'⟩
  · cases hr.symm.trans heq
  · cases hr.symm.trans heq

/-- Where no fault strikes it, a look at an entry follows links in the
world of the beginning. -/
theorem fstatat (H : t.Holding w h i rest r) (hlook : ∀ e, ⟨.fstatat, some e⟩ ∉ t.script)
    (n : Name) :
    (t.system.call (.fstatat h n) r).1 = Session.reported (Session.statusFrom i true n w)
      ∧ t.Holding w h i rest (t.system.call (.fstatat h n) r).2 := by
  obtain ⟨hsubset, ⟨e, hmem, -⟩ | ⟨hreply, hstate⟩⟩ :=
    (Session.system.disguised t.disguise).faulty_call_cases (.fstatat h n) r
  · exact absurd (H.script_subset hmem) (hlook e)
  · have hread : ((Session.system.disguised t.disguise).call (.fstatat h n) r.state.state)
        = r.state.state.fstatat h n := rfl
    rw [hread] at hreply hstate
    unfold Session.fstatat at hreply hstate
    rw [H.stream_eq] at hreply hstate
    refine ⟨?_, ?_, ?_, List.Subset.trans hsubset H.script_subset⟩
    · rw [← H.world_eq]
      exact hreply
    · exact (congrArg Session.world hstate).trans H.world_eq
    · exact (congrArg (·.streams.lookup h) hstate).trans H.stream_eq

/-- The type by such a look is the one it shows. -/
theorem typeByStatus (H : t.Holding w h i rest r)
    (hlook : ∀ e, ⟨.fstatat, some e⟩ ∉ t.script) (n : Name) :
    ∃ events r', (t.system.typeByStatus h n).run r = ⟨.ok (w.shownType i true n), events, r'⟩
      ∧ t.Holding w h i rest r' := by
  obtain ⟨hreply, H'⟩ := H.fstatat hlook n
  unfold System.typeByStatus World.shownType
  rw [Op.run_issue_bind, hreply]
  cases Session.statusFrom i true n w with
  | ok st => exact ⟨_, _, rfl, H'⟩
  | error e => exact ⟨_, _, rfl, H'⟩

end Holding

-- ============================================================== the loop

variable {t : Trial} {w : World} {i : Ino} {h : Handle}

/-- What the loop makes of the entries that are left: all of them with
their types, unless a fault ends it. -/
theorem entriesFrom_typed (p : Path) (query : TypeQuery) (type : StreamEntry → Option EntryType)
    (r : Recorded (Scripted Session)) :
    ∀ rest, t.Holding w h i rest r →
      (∀ e ∈ rest, e.name.isDots = false → ∀ later q, t.Holding w h i later q →
        ∃ events q', (t.system.typedEntry h query (t.disguise.hinted e)).run q
            = ⟨.ok ⟨e.name, type (t.disguise.hinted e)⟩, events, q'⟩
          ∧ t.Holding w h i later q') →
      let o := t.system.entriesFrom p h query r
      (∃ e, e ≠ .eintr ∧ ⟨.readdir, some e⟩ ∈ t.script
          ∧ o.result = .error (.ofErrno (.path p) e))
        ∨ o.result = .ok ((rest.filter fun e => !e.name.isDots).map fun e =>
              ⟨e.name, type (t.disguise.hinted e)⟩)
          ∧ t.Holding w h i [] o.state := by
  fun_induction System.entriesFrom t.system p h query r with
  | case1 r reply hr =>
      intro rest H _
      obtain ⟨rfl, H'⟩ := H.of_end hr
      exact Or.inr ⟨rfl, H'⟩
  | case2 r reply e hr hdots ih =>
      intro rest H htype
      obtain ⟨e, later, rfl, rfl, H'⟩ := H.of_entry hr
      have hdots' : e.name.isDots = true := hdots
      rw [List.filter_cons_of_neg (by simp [hdots'])]
      exact ih later H' fun x hx => htype x (List.mem_cons_of_mem _ hx)
  | case3 r reply e hr hdots typed f htyped =>
      -- no look at a type fails
      intro rest H htype
      obtain ⟨e, later, rfl, rfl, H'⟩ := H.of_entry hr
      obtain ⟨events, q, hrun, -⟩ :=
        htype e (List.mem_cons_self ..) (Bool.eq_false_iff.2 hdots) later _ H'
      have htyped' : (Except.ok ⟨e.name, type (t.disguise.hinted e)⟩ : Except Failure Entry)
          = .error f := (congrArg Outcome.result hrun).symm.trans htyped
      cases htyped'
  | case4 r reply e hr hdots typed entry htyped more ih =>
      intro rest H htype
      obtain ⟨e, later, rfl, rfl, H'⟩ := H.of_entry hr
      have hdots' : e.name.isDots = false := Bool.eq_false_iff.2 hdots
      obtain ⟨events, q, hrun, H''⟩ := htype e (List.mem_cons_self ..) hdots' later _ H'
      have htyped' : typed = _ := hrun
      have hentry : (⟨e.name, type (t.disguise.hinted e)⟩ : Entry) = entry :=
        Except.ok.inj ((congrArg Outcome.result htyped').symm.trans htyped)
      have hstate : typed.state = q := congrArg Outcome.state htyped'
      rw [← hstate] at H''
      rw [List.filter_cons_of_pos (by simp [hdots']), List.map_cons]
      rcases ih later H'' fun x hx => htype x (List.mem_cons_of_mem _ hx) with
        ⟨e', hne, hmem, hresult⟩ | ⟨hresult, Hend⟩
      · refine Or.inl ⟨e', hne, hmem, ?_⟩
        show more.result.map _ = _
        rw [hresult]
        rfl
      · refine Or.inr ⟨?_, Hend⟩
        show more.result.map _ = _
        rw [hresult, ← hentry]
        rfl
  | case5 r reply e hr hp more ih =>
      -- a failure that passes takes no entry out of the stream
      intro rest H htype
      obtain ⟨-, H'⟩ := H.of_error hr
      exact ih rest H' htype
  | case6 r reply e hr hp =>
      intro rest H _
      obtain ⟨hmem, -⟩ := H.of_error hr
      refine Or.inl ⟨e, ?_, hmem, rfl⟩
      rintro rfl
      exact hp rfl

-- =========================================================== the listing

/-- The handle that opening a directory gives is for what is in it. -/
theorem holding_opendir {p : Path} {s : Session} {d : Directory}
    (hfile : s.world.file true p = .ok i) (hdir : s.world.Lists i d)
    {r : Recorded (Scripted Session)} (hscript : r.state.script ⊆ t.script)
    (hr : r.state.state = (s.call (.opendir p)).2) :
    (s.call (.opendir p)).1 = .ok s.fresh
      ∧ t.Holding s.world s.fresh i (s.world.listing i d) r := by
  have hopened : s.world.opendir p = .ok (.entries i (s.world.listing i d)) := by
    unfold World.opendir
    rw [hfile]
    simp [bind, Except.bind, hdir.directory?_eq, hdir.readable]
  have hcall : s.call (.opendir p) = (.ok s.fresh,
      { s with streams := (s.fresh, .entries i (s.world.listing i d)) :: s.streams
               fresh := s.fresh + 1 }) := by
    show s.opened (·.opendir p) = _
    unfold Session.opened
    dsimp only
    rw [hopened]
  rw [hcall] at hr ⊢
  refine ⟨rfl, ?_, ?_, hscript⟩
  · rw [hr]
  · rw [hr]
    exact List.lookup_cons_self

/-- Opening a directory that may be listed gives a handle for it, unless a
fault that is no interruption strikes. -/
theorem opendir_cases (t : Trial) {p : Path} {s : Session} {d : Directory}
    (hfile : s.world.file true p = .ok i) (hdir : s.world.Lists i d) :
    ∃ r, (∃ e, e ≠ .eintr ∧ ⟨.opendir, some e⟩ ∈ t.script
        ∧ t.system.persist (.opendir p) ⟨[], ⟨t.script, s⟩⟩ = (.error e, r))
      ∨ t.system.persist (.opendir p) ⟨[], ⟨t.script, s⟩⟩ = (.ok s.fresh, r)
        ∧ t.Holding s.world s.fresh i (s.world.listing i d) r := by
  obtain ⟨hsubset, hopening⟩ :=
    (Session.system.disguised t.disguise).faulty_persist_cases
      (Session.errno?_disguised_ne t.disguise) (c := .opendir p) rfl ⟨[], ⟨t.script, s⟩⟩
  change (t.system.persist (.opendir p) _).2.state.script ⊆ _ at hsubset
  change (∃ e, _ ∧ _ ∧ (t.system.persist (.opendir p) _).1 = _)
    ∨ (t.system.persist (.opendir p) _).1 = (s.call (.opendir p)).1
      ∧ (t.system.persist (.opendir p) _).2.state.state = (s.call (.opendir p)).2 at hopening
  rcases hr : t.system.persist (.opendir p) ⟨[], ⟨t.script, s⟩⟩ with ⟨opened, r⟩
  rw [hr] at hsubset hopening
  refine ⟨r, ?_⟩
  rcases hopening with ⟨e, hne, hmem, hopened⟩ | ⟨hopened, hstate⟩
  · exact Or.inl ⟨e, hne, hmem, by rw [← hopened]⟩
  · obtain ⟨hfresh, H⟩ := holding_opendir (t := t) hfile hdir hsubset hstate
    exact Or.inr ⟨by rw [← hfresh, ← hopened], H⟩

/-- Of an entry with a hint that is true the type is the one that a look
at the entry shows, and of an entry without a hint the one that a look
shows which follows links. -/
theorem typeOfEntry_shows {d : Directory} (hdir : w.Lists i d)
    (hlook : ∀ e, ⟨.fstatat, some e⟩ ∉ t.script) {e : Name × Ino} (he : e ∈ d.entries)
    {hint : UInt8} (hhint : hint = w.hintOf e.2 ∨ hint = Hint.unknown)
    {later : List StreamEntry} {q : Recorded (Scripted Session)}
    (H : t.Holding w h i later q) :
    ∃ events q', (t.system.typeOfEntry h ⟨e.1, hint⟩ false).run q
        = ⟨.ok (w.shownType i (hint == Hint.unknown) e.1), events, q'⟩
      ∧ t.Holding w h i later q' := by
  by_cases hnone : hint = Hint.unknown
  · subst hnone
    exact H.typeByStatus hlook e.1
  · cases hhint.resolve_right hnone
    rw [hdir.typeOfEntry_of_hint he, beq_false_of_ne hnone]
    exact ⟨[], q, rfl, H⟩

/-- Closing the directory after its last entry succeeds, unless a fault
that is no interruption strikes. -/
theorem closeListing_cases (p : Path) {q : Recorded (Scripted Session)}
    (H : t.Holding w h i [] q) :
    (∃ e, e ≠ .eintr ∧ ⟨.closedir, some e⟩ ∈ t.script
        ∧ ((t.system.closeListing p h).run q).result = .error (.ofErrno (.path p) e))
      ∨ ((t.system.closeListing p h).run q).result = .ok () := by
  obtain ⟨-, hresult⟩ := System.run_closeListing t.system p h q
  rw [hresult]
  obtain ⟨-, ⟨e, hmem, hreply, -⟩ | ⟨hreply, -⟩⟩ :=
    (Session.system.disguised t.disguise).faulty_call_cases (.closedir h) q
  · have hstruck : (t.system.call (.closedir h) q).1 = .error e := hreply
    rw [hstruck]
    dsimp only
    by_cases he : e = .eintr
    · rw [if_pos he]
      exact Or.inr rfl
    · rw [if_neg he]
      exact Or.inl ⟨e, he, H.script_subset hmem, rfl⟩
  · have hopen : Session.IsOpen h q.state.state := by
      rw [Session.IsOpen, H.stream_eq]
      rfl
    have hclosed : (t.system.call (.closedir h) q).1 = .ok () :=
      hreply.trans (Session.close_of_isOpen hopen)
    rw [hclosed]
    exact Or.inr rfl

/-- The names that a directory lists, but for the two that every directory
does, are those of its entries. -/
theorem filter_listing {d : Directory} (hdir : w.Lists i d) :
    (w.listing i d).filter (fun e => !e.name.isDots)
      = d.entries.map fun e => ⟨e.1, w.hintOf e.2⟩ := by
  unfold World.listing
  split
  next hd =>
    rw [hdir.entries_eq_nil hd]
    rfl
  next =>
    have hself : (!Name.self.isDots) = false := by decide
    have hparent : (!Name.parent.isDots) = false := by decide
    rw [List.filter_cons_of_neg (by simp [hself]), List.filter_cons_of_neg (by simp [hparent]),
      List.filter_eq_self]
    intro x hx
    obtain ⟨e, he, rfl⟩ := List.mem_map.1 hx
    simp [(hdir.isComponent e he).isOrdinary.isDots_eq]

/-- What is in an open directory, read to its end and closed, if the type
of every entry can be told. -/
theorem entriesOf_of_typed (p : Path) (query : TypeQuery) (type : StreamEntry → Option EntryType)
    {s : Session} {d : Directory} (hdir : s.world.Lists i d)
    (htype : ∀ e ∈ d.entries, ∀ later q, t.Holding s.world h i later q →
      ∃ events q', (t.system.typedEntry h query ⟨e.1, t.disguise.hintFor s.world e⟩).run q
          = ⟨.ok ⟨e.1, type ⟨e.1, t.disguise.hintFor s.world e⟩⟩, events, q'⟩
        ∧ t.Holding s.world h i later q')
    {r : Recorded (Scripted Session)}
    (H : t.Holding s.world h i (s.world.listing i d) r) :
    (∃ primitive e, (primitive = .readdir ∨ primitive = .closedir) ∧ e ≠ .eintr
        ∧ ⟨primitive, some e⟩ ∈ t.script
        ∧ ((t.system.entriesOf p h query).run r).result = .error (.ofErrno (.path p) e))
      ∨ ((t.system.entriesOf p h query).run r).result
        = .ok (d.entries.map fun e => ⟨e.1, type ⟨e.1, t.disguise.hintFor s.world e⟩⟩) := by
  have hlisted : ∀ x ∈ s.world.listing i d, x.name.isDots = false →
      ∀ later q, t.Holding s.world h i later q →
      ∃ events q', (t.system.typedEntry h query (t.disguise.hinted x)).run q
          = ⟨.ok ⟨x.name, type (t.disguise.hinted x)⟩, events, q'⟩
        ∧ t.Holding s.world h i later q' := by
    intro x hx hdots
    have hentry : x ∈ d.entries.map fun e => (⟨e.1, s.world.hintOf e.2⟩ : StreamEntry) := by
      rw [← filter_listing hdir]
      exact List.mem_filter.2 ⟨hx, by simp [hdots]⟩
    obtain ⟨e, he, rfl⟩ := List.mem_map.1 hentry
    exact htype e he
  rcases entriesFrom_typed p query type r _ H hlisted with ⟨e, hne, hmem, hread⟩ | ⟨hread, Hend⟩
  · refine Or.inl ⟨.readdir, e, Or.inl rfl, hne, hmem, ?_⟩
    rw [System.run_entriesOf_of_error t.system hread]
  · rw [System.run_entriesOf_of_ok t.system hread]
    dsimp only
    rcases closeListing_cases p Hend with ⟨e, hne, hmem, hclosed⟩ | hclosed
    · refine Or.inl ⟨.closedir, e, Or.inr rfl, hne, hmem, ?_⟩
      rw [hclosed]
      rfl
    · right
      rw [hclosed, filter_listing hdir, List.map_map]
      rfl

/-- What is in an open directory, with the types of the entries
themselves. -/
theorem entriesOf_typed (p : Path) {s : Session} {d : Directory} (hdir : s.world.Lists i d)
    (hlook : ∀ e, ⟨.fstatat, some e⟩ ∉ t.script)
    (hhint : ∀ e ∈ d.entries, t.disguise.hintFor s.world e = s.world.hintOf e.2
      ∨ t.disguise.hintFor s.world e = Hint.unknown)
    {r : Recorded (Scripted Session)}
    (H : t.Holding s.world h i (s.world.listing i d) r) :
    (∃ primitive e, (primitive = .readdir ∨ primitive = .closedir) ∧ e ≠ .eintr
        ∧ ⟨primitive, some e⟩ ∈ t.script
        ∧ ((t.system.entriesOf p h .ofEntry).run r).result = .error (.ofErrno (.path p) e))
      ∨ ((t.system.entriesOf p h .ofEntry).run r).result
        = .ok (d.entries.map fun e => ⟨e.1, some (s.world.shownType i
            (t.disguise.hintFor s.world e == Hint.unknown) e.1)⟩) := by
  refine entriesOf_of_typed p .ofEntry
    (fun x => some (s.world.shownType i (x.hint == Hint.unknown) x.name)) hdir
    (fun e he later q Hq => ?_) H
  obtain ⟨events, q', hrun, Hq'⟩ := typeOfEntry_shows hdir hlook he (hhint e he) Hq
  exact ⟨_, q', Op.run_bind_ok hrun, Hq'⟩

/-- Where the hints are true as far as there are any and no look at an
entry fails, a listing gives each entry the type that a look at it shows,
links being followed for want of a hint. So it is the type of the entry
itself but for links without a hint. -/
theorem readDir_shows_types (F : Files) {p : Path} (hnul : p.hasNul = false) {s : Session}
    {i : Ino} {d : Directory} (hfile : s.world.file true p = .ok i)
    (hdir : s.world.Lists i d) {script : List Fault} {disguise : Disguise}
    (hlook : ∀ e, ⟨.fstatat, some e⟩ ∉ script)
    (hhint : ∀ e ∈ d.entries, disguise.hintFor s.world e = s.world.hintOf e.2
      ∨ disguise.hintFor s.world e = Hint.unknown) :
    let t : Trial := { request := .readDir p .ofEntry, script, disguise }
    let shown (e : Name × Ino) : EntryType :=
      s.world.shownType i (disguise.hintFor s.world e == Hint.unknown) e.1
    ((∃ primitive e, (primitive = .opendir ∨ primitive = .readdir ∨ primitive = .closedir)
          ∧ e ≠ .eintr ∧ ⟨primitive, some e⟩ ∈ script
          ∧ (t.report F s).result = .error (.ofErrno (.path p) e))
        ∨ (t.report F s).result = .ok (d.entries.map fun e => ⟨e.1, some (shown e)⟩))
      ∧ ∀ e ∈ d.entries, disguise.hintFor s.world e ≠ Hint.unknown
          ∨ s.world.shownType i false e.1 ≠ .symlink →
        shown e = s.world.shownType i false e.1 := by
  intro t shown
  refine ⟨?_, fun e he h => ?_⟩
  · show (∃ primitive e, _ ∧ _ ∧ _ ∧ ((t.system.readDir p .ofEntry).run _).result = _)
      ∨ ((t.system.readDir p .ofEntry).run _).result = _
    obtain ⟨hsubset, hopening⟩ :=
      (Session.system.disguised disguise).faulty_persist_cases
        (Session.errno?_disguised_ne disguise) (c := .opendir p) rfl ⟨[], ⟨script, s⟩⟩
    rcases hr : t.system.persist (.opendir p) ⟨[], ⟨script, s⟩⟩ with ⟨opened, r⟩
    change (t.system.persist (.opendir p) _).2.state.script ⊆ _ at hsubset
    change (∃ e, _ ∧ _ ∧ (t.system.persist (.opendir p) _).1 = _)
      ∨ (t.system.persist (.opendir p) _).1 = (s.call (.opendir p)).1
        ∧ (t.system.persist (.opendir p) _).2.state.state = (s.call (.opendir p)).2 at hopening
    rw [hr] at hsubset hopening
    rcases hopening with ⟨e, hne, hmem, hopened⟩ | ⟨hopened, hstate⟩
    · subst hopened
      refine Or.inl ⟨.opendir, e, Or.inl rfl, hne, hmem, ?_⟩
      rw [System.run_readDir_of_error t.system hnul hr]
    · obtain ⟨hfresh, H⟩ := holding_opendir (t := t) hfile hdir hsubset hstate
      rw [hfresh] at hopened
      subst hopened
      rw [(System.run_readDir_of_ok t.system hnul .ofEntry hr).1]
      refine (entriesOf_typed p hdir hlook hhint H).imp_left ?_
      rintro ⟨primitive, e, hprimitive, hrest⟩
      exact ⟨primitive, e, Or.inr hprimitive, hrest⟩
  · rcases h with hhinted | hlink
    · show s.world.shownType i (_ == _) e.1 = _
      rw [beq_false_of_ne hhinted]
    · exact hdir.shownType_of_not_symlink he hlink _

/-- A directory with a file and a link to it, that gives no hint at the
file: both are listed as what they are. -/
theorem readDir_shows_types_without_hint :
    let d : Directory := { parent := 0, entries := [([0x66], 1), ([0x6c], 2)] }
    let s : Session :=
      { world :=
          { nodes := #[⟨.directory d, 0o755, true, [], {}, {}, {}⟩,
              ⟨.regular [0x78], 0o644, true, [], {}, {}, {}⟩,
              ⟨.symlink ⟨[0x66], by decide, by decide⟩, 0o777, true, [], {}, {}, {}⟩]
            cwd := 0, mask := 0o022, now := {} } }
    let script : List Fault := [⟨.readdir, some .eio⟩, ⟨.closedir, some .eintr⟩]
    let disguise : Disguise := { hints := [([0x66], Hint.unknown)] }
    let t : Trial := { request := .readDir [0x2e] .ofEntry, script, disguise }
    let shown (e : Name × Ino) : EntryType :=
      s.world.shownType 0 (disguise.hintFor s.world e == Hint.unknown) e.1
    Path.hasNul [0x2e] = false ∧ s.world.file true [0x2e] = .ok 0 ∧ s.world.Lists 0 d
      ∧ (∀ e, ⟨.fstatat, some e⟩ ∉ script)
      ∧ (∀ e ∈ d.entries, disguise.hintFor s.world e = s.world.hintOf e.2
        ∨ disguise.hintFor s.world e = Hint.unknown)
      ∧ d.entries.map shown = [.regular, .symlink]
      ∧ ((∃ primitive e, (primitive = .opendir ∨ primitive = .readdir ∨ primitive = .closedir)
            ∧ e ≠ .eintr ∧ ⟨primitive, some e⟩ ∈ script
            ∧ (t.report {} s).result = .error (.ofErrno (.path [0x2e]) e))
          ∨ (t.report {} s).result = .ok (d.entries.map fun e => ⟨e.1, some (shown e)⟩))
      ∧ ∀ e ∈ d.entries, disguise.hintFor s.world e ≠ Hint.unknown
          ∨ s.world.shownType 0 false e.1 ≠ .symlink →
        shown e = s.world.shownType 0 false e.1 :=
  ⟨by decide, rfl, by decide, by simp, by decide, by decide +kernel,
    readDir_shows_types {} (by decide) rfl (by decide) (by simp) (by decide)⟩

/-- In the same directory the link is listed as a file if there is no hint
at it, though a look at it shows a link, and though it is listed as one
where the hint is there. -/
theorem readDir_follows_link_without_hint :
    let d : Directory := { parent := 0, entries := [([0x66], 1), ([0x6c], 2)] }
    let s : Session :=
      { world :=
          { nodes := #[⟨.directory d, 0o755, true, [], {}, {}, {}⟩,
              ⟨.regular [0x78], 0o644, true, [], {}, {}, {}⟩,
              ⟨.symlink ⟨[0x66], by decide, by decide⟩, 0o777, true, [], {}, {}, {}⟩]
            cwd := 0, mask := 0o022, now := {} } }
    let t : Trial :=
      { request := .readDir [0x2e] .ofEntry, disguise := { hints := [([0x6c], Hint.unknown)] } }
    (t.report {} s).result.toOption
        = some [⟨[0x66], some .regular⟩, ⟨[0x6c], some .regular⟩]
      ∧ (({ t with disguise := {} } : Trial).report {} s).result.toOption
        = some [⟨[0x66], some .regular⟩, ⟨[0x6c], some .symlink⟩]
      ∧ s.world.shownType 0 false [0x6c] = .symlink :=
  ⟨by decide +kernel, by decide +kernel, by decide +kernel⟩

end Trial
end PosixFiles
