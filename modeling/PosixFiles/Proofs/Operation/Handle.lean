/-
Every handle that is opened is closed, once, and nothing comes after that.

# Settled records

A record of exchanges is `Settled` if it leaves no handle behind: what it
closes is what it opened, as a file or as a directory; a handle is used
only after it was opened; and after something is closed nothing follows,
so it is neither used nor closed again, whatever closing it came to.

`Leads` tells how a record gets there, one exchange at a time, from what
has to be closed at its beginning to nothing at its end. What makes a
record settled is read off from it, each part by one induction.

# Records of operations

An operation that opens something does so until that is not interrupted.
If it fails to, nothing has to be closed. If not, whatever goes on until
the handle is closed has to be uses of it, and this is shown of the loops
that read files and directories to their end, by induction on their turns;
there a failure ends the loop, and closing comes next on each way out.
-/
import PosixFiles.Proofs.Digest.Reading
import PosixFiles.Proofs.Listing.Stream

namespace PosixFiles

-- =============================================================== handles

/-- The handle that a call works on. -/
def Call.handle? : Call → Option Handle
  | .fstatat dir _ | .readdir dir | .closedir dir => some dir
  | .read file _ | .close file => some file
  | _ => none

theorem Call.closesHandle_of_handle?_eq_none {c : Call} (h : c.handle? = none) :
    c.closesHandle = false := by
  cases c <;> first | rfl | cases h

namespace Exchange

/-- The call that has to follow sooner or later, if something has been
opened. -/
def owed? : Exchange → Option Call
  | ⟨.openFile _, .ok file⟩ => some (.close file)
  | ⟨.opendir _, .ok dir⟩ => some (.closedir dir)
  | _ => none

/-- Nothing is opened, used or closed. -/
structure Idle (x : Exchange) : Prop where
  handle?_eq : x.call.handle? = none
  owed?_eq : x.owed? = none

/-- The handle that is closed by one call is used by another. -/
structure Uses (closing : Call) (x : Exchange) : Prop where
  handle?_eq : x.call.handle? = closing.handle?
  owed?_eq : x.owed? = none
  stays : x.call.closesHandle = false

theorem owed?_error (c : Call) (e : Errno) : owed? ⟨c, .error e⟩ = none := by
  cases c <;> rfl

theorem Idle.stays {x : Exchange} (h : x.Idle) : x.call.closesHandle = false :=
  Call.closesHandle_of_handle?_eq_none h.handle?_eq

/-- What opens something has no handle yet. -/
theorem handle?_of_owed? {x : Exchange} {closing : Call} (h : x.owed? = some closing) :
    x.call.handle? = none := by
  obtain ⟨c, r⟩ := x
  cases c <;> first | rfl | cases h

/-- What has to follow closes something, and opens nothing. -/
theorem closing_of_owed? {x : Exchange} {closing : Call} (h : x.owed? = some closing) :
    closing.closesHandle = true ∧ ∀ r, owed? ⟨closing, r⟩ = none := by
  obtain ⟨c, r⟩ := x
  cases c <;> cases r <;> cases h <;> exact ⟨rfl, fun _ => rfl⟩

end Exchange

-- ================================================================ records

/-- What is closed on a record. -/
def closings (es : List Exchange) : List Call :=
  (es.map Exchange.call).filter Call.closesHandle

/-- What has to be closed because of a record. -/
def owing (es : List Exchange) : List Call :=
  es.filterMap Exchange.owed?

/-- Exchanges after which no handle is left, nor used any more. -/
structure Settled (es : List Exchange) : Prop where
  /-- What is closed is what was opened. -/
  closings_eq : closings es = owing es
  /-- At most one thing is opened. -/
  length_owing_le : (owing es).length ≤ 1
  /-- After something was closed nothing follows, whatever the reply. -/
  closes_last : ∀ before x after, es = before ++ x :: after → x.call.closesHandle = true →
    after = []
  /-- Only a handle that was opened is used or closed. -/
  opened_before : ∀ before x after h, es = before ++ x :: after → x.call.handle? = some h →
    ∃ c ∈ owing before, c.handle? = some h

/-- Exchanges that lead from what has to be closed, if anything, to where
nothing has. -/
inductive Leads : Option Call → List Exchange → Prop where
  | nothing : Leads none []
  | idles {x : Exchange} {es : List Exchange} (hx : x.Idle) (rest : Leads none es) :
      Leads none (x :: es)
  | opens {x : Exchange} {c : Call} {es : List Exchange} (hx : x.owed? = some c)
      (rest : Leads (some c) es) : Leads none (x :: es)
  | uses {x : Exchange} {c : Call} {es : List Exchange} (hx : x.Uses c)
      (rest : Leads (some c) es) : Leads (some c) (x :: es)
  | closes {c : Call} (hc : c.closesHandle = true) (hnew : ∀ r, Exchange.owed? ⟨c, r⟩ = none)
      (r : Reply c) : Leads (some c) [⟨c, r⟩]

namespace Leads

variable {held : Option Call} {es fs : List Exchange} {c : Call}

theorem append_idles (hfs : ∀ x ∈ fs, x.Idle) (h : Leads none es) : Leads none (fs ++ es) := by
  induction fs with
  | nil => exact h
  | cons x fs ih =>
      obtain ⟨hx, hfs⟩ := List.forall_mem_cons.1 hfs
      exact .idles hx (ih hfs)

theorem append_uses (hfs : ∀ x ∈ fs, x.Uses c) (h : Leads (some c) es) :
    Leads (some c) (fs ++ es) := by
  induction fs with
  | nil => exact h
  | cons x fs ih =>
      obtain ⟨hx, hfs⟩ := List.forall_mem_cons.1 hfs
      exact .uses hx (ih hfs)

/-- What is closed is what had to be and what had to be since. -/
theorem closings_eq (h : Leads held es) : closings es = held.toList ++ owing es := by
  unfold closings owing
  induction h with
  | nothing => rfl
  | idles hx rest ih =>
      rw [List.map_cons, List.filter_cons_of_neg (by simp [hx.stays]),
        List.filterMap_cons_none hx.owed?_eq]
      exact ih
  | opens hx rest ih =>
      have hstays := Call.closesHandle_of_handle?_eq_none (Exchange.handle?_of_owed? hx)
      rw [List.map_cons, List.filter_cons_of_neg (by simp [hstays]), List.filterMap_cons_some hx]
      exact ih
  | uses hx rest ih =>
      rw [List.map_cons, List.filter_cons_of_neg (by simp [hx.stays]),
        List.filterMap_cons_none hx.owed?_eq]
      exact ih
  | closes hc hnew r =>
      rw [List.map_singleton, List.filter_cons_of_pos hc, List.filterMap_cons_none (hnew r)]
      rfl

/-- Together with what had to be closed, at most one thing is opened. -/
theorem length_owing_le (h : Leads held es) : (held.toList ++ owing es).length ≤ 1 := by
  unfold owing
  induction h with
  | nothing => exact Nat.zero_le _
  | idles hx rest ih =>
      rw [List.filterMap_cons_none hx.owed?_eq]
      exact ih
  | opens hx rest ih =>
      rw [List.filterMap_cons_some hx]
      exact ih
  | uses hx rest ih =>
      rw [List.filterMap_cons_none hx.owed?_eq]
      exact ih
  | closes hc hnew r =>
      rw [List.filterMap_cons_none (hnew r)]
      exact Nat.le_refl 1

/-- What does not come first comes later. -/
private theorem split_tail {x y : Exchange} {before after : List Exchange} (hne : y ≠ x)
    (hsplit : y :: es = before ++ x :: after) :
    ∃ before', before = y :: before' ∧ es = before' ++ x :: after := by
  cases before with
  | nil => exact absurd (List.cons.inj hsplit).1 hne
  | cons z before =>
      obtain ⟨rfl, hrest⟩ := List.cons.inj hsplit
      exact ⟨before, rfl, hrest⟩

theorem closes_last (h : Leads held es) {before after : List Exchange} {x : Exchange}
    (hsplit : es = before ++ x :: after) (hx : x.call.closesHandle = true) : after = [] := by
  have hne : ∀ {y : Exchange}, y.call.closesHandle = false → y ≠ x := by
    rintro y hy rfl
    rw [hx] at hy
    cases hy
  induction h generalizing before with
  | nothing => cases before <;> cases hsplit
  | idles hy rest ih =>
      obtain ⟨before', -, hrest⟩ := split_tail (hne hy.stays) hsplit
      exact ih hrest
  | opens hy rest ih =>
      have hstays := Call.closesHandle_of_handle?_eq_none (Exchange.handle?_of_owed? hy)
      obtain ⟨before', -, hrest⟩ := split_tail (hne hstays) hsplit
      exact ih hrest
  | uses hy rest ih =>
      obtain ⟨before', -, hrest⟩ := split_tail (hne hy.stays) hsplit
      exact ih hrest
  | closes hc hnew r =>
      cases before with
      | nil => exact (List.cons.inj hsplit).2.symm
      | cons z before => cases before <;> cases (List.cons.inj hsplit).2

/-- A handle that is used had to be closed at the beginning, or was opened
since. -/
theorem opened_before (h : Leads held es) {before after : List Exchange} {x : Exchange}
    (hsplit : es = before ++ x :: after) {k : Handle} (hx : x.call.handle? = some k) :
    ∃ c ∈ held.toList ++ owing before, c.handle? = some k := by
  have hne : ∀ {y : Exchange}, y.call.handle? = none → y ≠ x := by
    rintro y hy rfl
    rw [hx] at hy
    cases hy
  induction h generalizing before with
  | nothing => cases before <;> cases hsplit
  | idles hy rest ih =>
      obtain ⟨before', rfl, hrest⟩ := split_tail (hne hy.handle?_eq) hsplit
      rw [owing, List.filterMap_cons_none hy.owed?_eq]
      exact ih hrest
  | opens hy rest ih =>
      obtain ⟨before', rfl, hrest⟩ := split_tail (hne (Exchange.handle?_of_owed? hy)) hsplit
      rw [owing, List.filterMap_cons_some hy]
      exact ih hrest
  | @uses y c es hy rest ih =>
      cases before with
      | nil =>
          obtain ⟨rfl, -⟩ := List.cons.inj hsplit
          exact ⟨c, List.mem_cons_self .., hy.handle?_eq.symm.trans hx⟩
      | cons z before =>
          obtain ⟨rfl, hrest⟩ := List.cons.inj hsplit
          rw [owing, List.filterMap_cons_none hy.owed?_eq]
          exact ih hrest
  | @closes c hc hnew r =>
      cases before with
      | nil =>
          obtain ⟨rfl, -⟩ := List.cons.inj hsplit
          exact ⟨c, List.mem_cons_self .., hx⟩
      | cons z before => cases before <;> cases (List.cons.inj hsplit).2

theorem settled (h : Leads none es) : Settled es where
  closings_eq := h.closings_eq
  length_owing_le := h.length_owing_le
  closes_last := fun _ _ _ hsplit hx => h.closes_last hsplit hx
  opened_before := fun _ _ _ _ hsplit hx => h.opened_before hsplit hx

end Leads

-- ============================================================ operations

namespace System

variable {σ : Type} {S : System σ} {r t u : Recorded σ} {closing : Call}

/-- Between two states nothing happens but uses of what a call closes. -/
def OnlyUses (closing : Call) (r t : Recorded σ) : Prop :=
  ∃ es, t.exchanges = r.exchanges ++ es ∧ ∀ x ∈ es, x.Uses closing

theorem OnlyUses.trans (hrt : OnlyUses closing r t) (htu : OnlyUses closing t u) :
    OnlyUses closing r u :=
  Adds.trans hrt htu

theorem onlyUses_read (S : System σ) (file : Handle) (room : Nat) (r : Recorded σ) :
    OnlyUses (.close file) r (S.recorded.persist (.read file room) r).2 :=
  adds_persist (fun _ => ⟨rfl, rfl, rfl⟩) r

theorem onlyUses_digestFrom (file : Handle) (room : Nat) (buffer : Bytes) (ctx : Md5.Context)
    (r : Recorded σ) :
    OnlyUses (.close file) r (S.recorded.digestFrom file room buffer ctx r).2 := by
  fun_induction System.digestFrom S.recorded file room buffer ctx r with
  | case1 buffer ctx r reply e hr => exact onlyUses_read S file room r
  | case2 buffer ctx r reply hr => exact onlyUses_read S file room r
  | case3 buffer ctx r reply piece hr hp ih => exact (onlyUses_read S file room r).trans ih

theorem onlyUses_entriesFrom (p : Path) (dir : Handle) (query : TypeQuery) (r : Recorded σ) :
    OnlyUses (.closedir dir) r (S.recorded.entriesFrom p dir query r).state := by
  obtain ⟨x, looks, hlooks, hinto, -, -⟩ := entriesFrom_delivers (S := S) p dir query r
  refine ⟨looks, hlooks, fun y hy => ?_⟩
  obtain ⟨c, reply⟩ := y
  rcases hinto _ hy with h | ⟨n, h⟩ <;> cases h <;> exact ⟨rfl, rfl, rfl⟩

/-- The exchanges between two states are settled. -/
def HandsBack (r t : Recorded σ) : Prop :=
  ∃ es, t.exchanges = r.exchanges ++ es ∧ Settled es

theorem handsBack_self (r : Recorded σ) : HandsBack r r :=
  ⟨[], (List.append_nil _).symm, Leads.nothing.settled⟩

/-- Where nothing is on record before, the whole record is settled. -/
theorem HandsBack.settled {s : σ} (h : HandsBack ⟨[], s⟩ t) : Settled t.exchanges := by
  obtain ⟨es, hes, hsettled⟩ := h
  rw [hes]
  exact hsettled

/-- Where opening fails nothing has to be closed. -/
theorem handsBack_of_not_opened {c : Call} (hc : c.handle? = none) {e : Errno}
    (h : S.recorded.persist c r = (.error e, t)) : HandsBack r t := by
  obtain ⟨k, hk⟩ := exchanges_persist (S := S) c r
  rw [h] at hk
  have hidle : ∀ e, (⟨c, .error e⟩ : Exchange).Idle := fun e => ⟨hc, Exchange.owed?_error c e⟩
  refine ⟨_, hk, (Leads.append_idles (fun x hx => ?_) (.idles (hidle e) .nothing)).settled⟩
  rw [List.eq_of_mem_replicate hx]
  exact hidle .eintr

/-- What was opened is used and then closed. -/
theorem handsBack_of_opened {c : Call} {a : c.Answer}
    (h : S.recorded.persist c r = (.ok a, t)) (howed : Exchange.owed? ⟨c, .ok a⟩ = some closing)
    (huses : OnlyUses closing t u) : HandsBack r (S.recorded.call closing u).2 := by
  obtain ⟨k, hk⟩ := exchanges_persist (S := S) c r
  rw [h] at hk
  obtain ⟨es, hes, husing⟩ := huses
  obtain ⟨hcloses, hnew⟩ := Exchange.closing_of_owed? howed
  have hc : c.handle? = none := Exchange.handle?_of_owed? howed
  have hleads : Leads none (List.replicate k ⟨c, .error .eintr⟩ ++ ⟨c, .ok a⟩
      :: (es ++ [⟨closing, (S.recorded.call closing u).1⟩])) := by
    refine Leads.append_idles (fun x hx => ?_)
      (.opens howed (Leads.append_uses husing (.closes hcloses hnew _)))
    rw [List.eq_of_mem_replicate hx]
    exact ⟨hc, Exchange.owed?_error c .eintr⟩
  refine ⟨_, ?_, hleads.settled⟩
  rw [exchanges_call, hes, hk]
  simp only [List.append_assoc, List.cons_append, List.nil_append]

theorem handsBack_readDir (p : Path) (query : TypeQuery) (r : Recorded σ) :
    HandsBack r ((S.recorded.readDir p query).run r).state := by
  cases hnul : p.hasNul with
  | true =>
      unfold readDir
      rw [Op.requireNoNul_bind_of_hasNul _ (by simp [hnul])]
      exact handsBack_self r
  | false =>
      rcases hopened : S.recorded.persist (.opendir p) r with ⟨opened, t⟩
      cases opened with
      | error e =>
          rw [run_readDir_of_error S.recorded hnul hopened]
          exact handsBack_of_not_opened rfl hopened
      | ok dir =>
          obtain ⟨x, hx⟩ := entriesFrom_delivers (S := S) p dir query t
          rw [(run_readDir_of_ok S.recorded hnul query hopened).2, (run_entriesOf hx.result_eq).1]
          exact handsBack_of_opened hopened rfl (onlyUses_entriesFrom p dir query t)

theorem handsBack_md5 (p : Path) (room : Nat) (r : Recorded σ) :
    HandsBack r ((S.recorded.md5 p room).run r).state := by
  by_cases hroom : room = 0
  · simp only [md5, if_pos hroom, Op.fail_bind]
    exact handsBack_self r
  cases hnul : p.hasNul with
  | true =>
      simp only [md5, if_neg hroom]
      rw [Op.requireNoNul_bind_of_hasNul _ (by simp [hnul])]
      exact handsBack_self r
  | false =>
      rcases hopened : S.recorded.persist (.openFile p) r with ⟨opened, t⟩
      cases opened with
      | error e =>
          rw [run_md5_of_not_open hnul hroom hopened]
          exact handsBack_of_not_opened rfl hopened
      | ok file =>
          rw [state_md5_of_open hnul hroom hopened]
          exact handsBack_of_opened hopened rfl (onlyUses_digestFrom file room [] {} t)

end System

-- ============================================================== requests

namespace Files

/-- Listing a directory and digesting a file leave no handle behind. At
most one is opened and just that is closed, once; it is used only after
opening, and after closing there are no calls any more, whatever closing
came to. This is so for every path, room and system, and so on every way
out. -/
theorem no_handle_left (F : Files) {σ : Type} (S : System σ) (s : σ) (p : Path) :
    (∀ query, Settled ((F.perform S.recorded (.readDir p query)).run ⟨[], s⟩).state.exchanges)
      ∧ ∀ room, Settled ((F.perform S.recorded (.md5 p room)).run ⟨[], s⟩).state.exchanges :=
  ⟨fun query => (System.handsBack_readDir p query ⟨[], s⟩).settled,
    fun room => (System.handsBack_md5 p (room.getD F.config.digestChunkSize) ⟨[], s⟩).settled⟩

end Files
end PosixFiles
