/-
What the listing of a directory notes.

A failure to read that passes is noted, and so is every entry whose type
could not be found out; both can be read off the record
(`System.notes_entriesFrom`, by the recursion of the loop). That the directory
was listed is noted at the end, once it is closed and only if the listing is
whole (`System.readDir_eq`).
-/
import PosixFiles.Proofs.Listing.Stream
import PosixFiles.Proofs.Operation.Event

namespace PosixFiles

-- ================================================================ events

namespace Event

/-- The failure to read a directory that an event says has passed. -/
def lapse? : Event → Option (Path × Errno)
  | .transientListing p e => some (p, e)
  | _ => none

/-- The entry whose type an event says could not be found out. -/
def unresolved? : Event → Option (Name × Errno)
  | .typeUnresolved n e => some (n, e)
  | _ => none

/-- The directory that an event says was listed. -/
def listed? : Event → Option (Path × Nat)
  | .listed p n => some (p, n)
  | _ => none

end Event

namespace Exchange

/-- The failure to read a directory that passes. -/
def lapse? : Exchange → Option Errno
  | ⟨.readdir _, .error e⟩ => if e = .eintr ∨ e = .eio then some e else none
  | _ => none

/-- The entry that has no status to be had. -/
def unresolved? : Exchange → Option (Name × Errno)
  | ⟨.fstatat _ n, .error e⟩ => some (n, e)
  | _ => none

/-- What the listing of a directory notes of an exchange. -/
def listingNote? (p : Path) (x : Exchange) : Option Event :=
  (x.lapse?.map (Event.transientListing p)).or
    (x.unresolved?.map fun (n, e) => .typeUnresolved n e)

theorem listingNote?_bind_lapse? (p : Path) (x : Exchange) :
    (x.listingNote? p).bind Event.lapse? = x.lapse?.map (p, ·) := by
  unfold listingNote?
  cases x.lapse? with
  | some e => rfl
  | none => cases x.unresolved? <;> rfl

theorem lapse?_of_unresolved? {x : Exchange} {u : Name × Errno} (h : x.unresolved? = some u) :
    x.lapse? = none := by
  obtain ⟨c, reply⟩ := x
  cases c with
  | readdir dir => cases h
  | _ => rfl

theorem listingNote?_bind_unresolved? (p : Path) (x : Exchange) :
    (x.listingNote? p).bind Event.unresolved? = x.unresolved? := by
  unfold listingNote?
  cases hu : x.unresolved? with
  | some u => rw [lapse?_of_unresolved? hu]; rfl
  | none => cases x.lapse? <;> rfl

theorem listingNote?_bind_listed? (p : Path) (x : Exchange) :
    (x.listingNote? p).bind Event.listed? = none := by
  unfold listingNote?
  cases x.lapse? with
  | some e => rfl
  | none => cases x.unresolved? <;> rfl

end Exchange

/-- The events of the listing of a directory. -/
structure TellsListing {σ : Type} (p : Path) (o : Outcome (Recorded σ) (List Entry)) :
    Prop where
  /-- Each failure to read that passes is noted, in order. -/
  lapses : o.events.filterMap Event.lapse?
    = (o.state.exchanges.filterMap Exchange.lapse?).map (p, ·)
  /-- Each entry whose type could not be found out is noted, in order. -/
  unresolved : o.events.filterMap Event.unresolved?
    = o.state.exchanges.filterMap Exchange.unresolved?
  /-- That the directory was listed is noted on success, once, with the
  number of its entries. -/
  listed : o.events.filterMap Event.listed? =
    match o.result with
    | .ok entries => [(p, entries.length)]
    | .error _ => []
  /-- It is the last event. -/
  exists_notes : ∃ notes : List Event, (∀ e ∈ notes, e.listed? = none) ∧ o.events = notes ++
    match o.result with
    | .ok entries => [.listed p entries.length]
    | .error _ => []

namespace System

variable {σ : Type} (S : System σ)

theorem notes_typeByStatus (p : Path) (dir : Handle) (n : Name) :
    Op.Notes (Exchange.listingNote? p) none (typeByStatus S.recorded dir n) := by
  unfold typeByStatus
  refine .issue_bind fun reply => ?_
  cases reply with
  | ok st => exact Op.notes_pure _
  | error e => exact (Op.notes_emit _).bind fun _ _ => Op.notes_pure _

theorem notes_typeOfEntry (p : Path) (dir : Handle) (e : StreamEntry) (followLinks : Bool) :
    Op.Notes (Exchange.listingNote? p) none (typeOfEntry S.recorded dir e followLinks) := by
  unfold typeOfEntry
  split
  · exact Op.notes_pure _
  split
  · exact Op.notes_pure _
  split
  · exact Op.notes_pure _
  split
  · exact notes_typeByStatus S p dir e.name
  · exact Op.notes_pure _

theorem notes_typedEntry (p : Path) (dir : Handle) (query : TypeQuery) (e : StreamEntry) :
    Op.Notes (Exchange.listingNote? p) none (typedEntry S.recorded dir query e) := by
  cases query with
  | none => exact Op.notes_pure _
  | ofEntry => exact (notes_typeOfEntry S p dir e false).bind fun _ _ => Op.notes_pure _
  | ofTarget => exact (notes_typeOfEntry S p dir e true).bind fun _ _ => Op.notes_pure _

theorem isPassing_iff {e : Errno} : isPassing e = true ↔ e = .eintr ∨ e = .eio := by
  simp [isPassing]

/-- A directory stream notes what each exchange deserves, up to its end or
to whatever aborts it. -/
theorem notes_entriesFrom (p : Path) (dir : Handle) (query : TypeQuery) (r : Recorded σ) :
    ∃ es : List Exchange,
      (S.recorded.entriesFrom p dir query r).state.exchanges = r.exchanges ++ es
        ∧ (S.recorded.entriesFrom p dir query r).events
          = es.filterMap (Exchange.listingNote? p) := by
  fun_induction System.entriesFrom S.recorded p dir query r with
  | case1 r reply hr =>
      exact ⟨_, exchanges_of_call hr (List.append_nil _).symm, rfl⟩
  | case2 r reply e hr hdots ih =>
      obtain ⟨es, hes, hevents⟩ := ih
      exact ⟨_, exchanges_of_call hr hes, hevents⟩
  | case3 r reply e hr hdots typed f htyped =>
      obtain ⟨es, hes, hevents⟩ := notes_typedEntry S p dir query e reply.2
      exact ⟨_, exchanges_of_call hr hes, hevents⟩
  | case4 r reply e hr hdots typed entry htyped rest ih =>
      obtain ⟨es, hes, hevents⟩ := notes_typedEntry S p dir query e reply.2
      obtain ⟨fs, hfs, hmore⟩ := ih
      have hstate : rest.state.exchanges = reply.2.exchanges ++ (es ++ fs) := by
        rw [← List.append_assoc, ← hes]
        exact hfs
      refine ⟨_, exchanges_of_call hr hstate, ?_⟩
      show typed.events ++ rest.events = (es ++ fs).filterMap _
      rw [List.filterMap_append, ← hmore]
      exact congrArg (· ++ rest.events) hevents
  | case5 r reply e hr hp rest ih =>
      obtain ⟨es, hes, hevents⟩ := ih
      have hnote : Exchange.listingNote? p ⟨.readdir dir, .error e⟩
          = some (.transientListing p e) := by
        simp [Exchange.listingNote?, Exchange.lapse?, isPassing_iff.1 hp]
      refine ⟨_, exchanges_of_call hr hes, ?_⟩
      rw [List.filterMap_cons_some hnote, ← hevents]
  | case6 r reply e hr hp =>
      have hnote : Exchange.listingNote? p ⟨.readdir dir, .error e⟩ = none := by
        simp [Exchange.listingNote?, Exchange.lapse?, Exchange.unresolved?,
          mt isPassing_iff.2 hp]
      refine ⟨_, exchanges_of_call hr (List.append_nil _).symm, ?_⟩
      rw [List.filterMap_cons_none hnote]
      rfl

theorem notes_closeListing (p : Path) (dir : Handle) :
    Op.Notes (Exchange.listingNote? p) none (S.recorded.closeListing p dir) := by
  exact .issue_bind fun reply => Op.notes_closed _ reply

/-- Closing a directory notes nothing, whatever it was read to. -/
theorem notes_entriesOf (p : Path) (dir : Handle) (query : TypeQuery) :
    Op.Notes (Exchange.listingNote? p) none (S.recorded.entriesOf p dir query) := by
  intro r
  obtain ⟨es, hes, hevents⟩ := notes_entriesFrom S p dir query r
  cases hread : (S.recorded.entriesFrom p dir query r).result with
  | error f =>
      rw [run_entriesOf_of_error S.recorded hread]
      refine ⟨es ++ [⟨.closedir dir, (S.recorded.call (.closedir dir)
        (S.recorded.entriesFrom p dir query r).state).1⟩], ?_, ?_⟩
      · rw [exchanges_call, hes, List.append_assoc]
      · rw [List.filterMap_append, hevents]
        exact (List.append_nil _).symm
  | ok entries =>
      rw [run_entriesOf_of_ok S.recorded hread]
      obtain ⟨fs, hfs, hmore⟩ :=
        notes_closeListing S p dir (S.recorded.entriesFrom p dir query r).state
      refine ⟨es ++ fs, ?_, ?_⟩
      · rw [← List.append_assoc, ← hes]
        exact hfs
      · rw [List.filterMap_append, ← hevents]
        exact congrArg _ hmore

/-- A listing without the event at its end. -/
def untoldListing (p : Path) (query : TypeQuery) : Op σ (List Entry) := do
  Op.requireNoNul (.path p) [p]
  let dir ← Op.accept (.path p) (← Op.persist S (.opendir p))
  entriesOf S p dir query

theorem readDir_eq (p : Path) (query : TypeQuery) :
    S.readDir p query = S.untoldListing p query >>= fun entries =>
      Op.emit (.listed p entries.length) >>= fun _ => pure entries := by
  simp only [untoldListing, bind_assoc]
  rfl

theorem notes_untoldListing (p : Path) (query : TypeQuery) :
    Op.Notes (Exchange.listingNote? p) none (S.recorded.untoldListing p query) :=
  (Op.notes_requireNoNul _ _).bind fun _ _ => (Op.notes_persist fun _ => rfl).bind
    fun reply _ => (Op.notes_accept _ reply).bind fun dir _ => notes_entriesOf S p dir query

theorem tellsListing_readDir (p : Path) (query : TypeQuery) (s : σ) :
    TellsListing p ((S.recorded.readDir p query).run ⟨[], s⟩) := by
  obtain ⟨es, hes, hevents⟩ := notes_untoldListing S p query ⟨[], s⟩
  change _ = es at hes
  have hlapses : (es.filterMap (Exchange.listingNote? p)).filterMap Event.lapse?
      = (es.filterMap Exchange.lapse?).map (p, ·) := by
    rw [List.map_filterMap]
    exact Op.filterMap_notes (Exchange.listingNote?_bind_lapse? p) es
  have hunresolved : (es.filterMap (Exchange.listingNote? p)).filterMap Event.unresolved?
      = es.filterMap Exchange.unresolved? :=
    Op.filterMap_notes (Exchange.listingNote?_bind_unresolved? p) es
  have hquiet : ∀ e ∈ es.filterMap (Exchange.listingNote? p), e.listed? = none := by
    intro e he
    obtain ⟨x, -, hx⟩ := List.mem_filterMap.1 he
    have hnone := x.listingNote?_bind_listed? p
    rwa [hx] at hnone
  rw [readDir_eq, Op.run_bind_emit, hevents, Option.toList_none, List.nil_append]
  cases ((S.recorded.untoldListing p query).run ⟨[], s⟩).result with
  | error f =>
      rw [List.append_nil]
      refine ⟨?_, ?_, List.filterMap_eq_nil_iff.2 hquiet, _, hquiet, (List.append_nil _).symm⟩
      · rw [hes, hlapses]
      · rw [hes, hunresolved]
  | ok entries =>
      refine ⟨?_, ?_, ?_, _, hquiet, rfl⟩
      · rw [hes, List.filterMap_append, hlapses]
        exact List.append_nil _
      · rw [hes, List.filterMap_append, hunresolved]
        exact List.append_nil _
      · rw [List.filterMap_append, List.filterMap_eq_nil_iff.2 hquiet]
        rfl

end System
end PosixFiles
