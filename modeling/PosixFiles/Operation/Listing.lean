/-
Listing a directory, with the types of its entries as far as they can be
had.

A listing is whole or not there at all: a failure to read or to close the
directory discards what was read. Passing failures to read are skipped.
A type that cannot be found out is `unknown`, and never a failure of the
listing.
-/
import PosixFiles.Operation.Basic

namespace PosixFiles

/-- Which types of entries are wanted. -/
inductive TypeQuery where
  /-- None at all. -/
  | none
  /-- Those of the entries themselves. -/
  | ofEntry
  /-- Those of what links lead to. -/
  | ofTarget
  deriving DecidableEq, Repr

/-- The type of an entry as a listing gives it. -/
inductive EntryType where
  | regular
  | directory
  | symlink
  /-- Anything else, and whatever could not be found out. -/
  | unknown
  deriving DecidableEq, Repr

/-- An entry of a listing. -/
structure Entry where
  /-- Never one of the two names that every directory lists. -/
  name : Name
  /-- Missing where no types were asked for. -/
  type : Option EntryType
  deriving DecidableEq, Repr

/-- Entries in the order of the bytes of their names. -/
def Entry.sorted (es : List Entry) : List Entry :=
  es.mergeSort fun a b => a.name.isLE b.name

namespace EntryType

/-- The type that a status shows; a link is none of the types that it
leads to. -/
def ofStatus (s : Status) : EntryType :=
  if s.isFile then .regular
  else if s.isDirectory then .directory
  else .unknown

end EntryType

-- ============================================================ type hints

namespace Hint

/-- No hint. -/
def unknown : UInt8 := 0
def fifo : UInt8 := 1
def directory : UInt8 := 4
def regular : UInt8 := 8
def symlink : UInt8 := 10
def socket : UInt8 := 12

end Hint

namespace System

variable {σ : Type} (S : System σ)

/-- The type of an entry by its status, links followed. -/
def typeByStatus (dir : Handle) (n : Name) : Op σ EntryType := do
  match ← Op.issue S (.fstatat dir n) with
  | .ok s => pure (.ofStatus s)
  | .error e => do
      Op.emit (.typeUnresolved n e)
      pure .unknown

/-- The type of an entry: its hint where that settles the matter, its
status where there is no hint or a link is to be followed. -/
def typeOfEntry (dir : Handle) (e : StreamEntry) (followLinks : Bool) : Op σ EntryType :=
  if e.hint = Hint.regular then pure .regular
  else if e.hint = Hint.directory then pure .directory
  else if e.hint = Hint.symlink ∧ !followLinks then pure .symlink
  else if e.hint = Hint.symlink ∨ e.hint = Hint.unknown then typeByStatus S dir e.name
  else pure .unknown

/-- An entry with its type, if types are wanted. -/
def typedEntry (dir : Handle) (query : TypeQuery) (e : StreamEntry) : Op σ Entry :=
  match query with
  | .none => pure ⟨e.name, .none⟩
  | .ofEntry => do pure ⟨e.name, some (← typeOfEntry S dir e false)⟩
  | .ofTarget => do pure ⟨e.name, some (← typeOfEntry S dir e true)⟩

/-- Whether a failure to read a directory passes. -/
def isPassing (e : Errno) : Bool :=
  e = .eintr || e = .eio

/-- Finding out types gives no patience back. -/
theorem patience_typedEntry_le (dir : Handle) (query : TypeQuery) (e : StreamEntry) (s : σ) :
    S.patience ((typedEntry S dir query e).run s).state ≤ S.patience s := by
  have hstat : ∀ n, S.patience ((typeByStatus S dir n).run s).state ≤ S.patience s := by
    intro n
    have hle := S.steady (.fstatat dir n) s rfl
    have hrun : ((typeByStatus S dir n).run s).state = (S.call (.fstatat dir n) s).2 := by
      simp only [typeByStatus]
      rw [Op.run_bind_ok (Op.run_issue S _ s)]
      cases (S.call (.fstatat dir n) s).1 <;> rfl
    rwa [hrun]
  have htype : ∀ b, S.patience ((typeOfEntry S dir e b).run s).state ≤ S.patience s := by
    intro b
    unfold typeOfEntry
    repeat' split
    all_goals first | exact Nat.le_refl _ | exact hstat _
  cases query with
  | none => exact Nat.le_refl _
  | ofEntry =>
    have h := htype false
    simp only [typedEntry, Op.run, bind, Op.bind] at h ⊢
    split <;> simp_all [pure, Op.pure]
  | ofTarget =>
    have h := htype true
    simp only [typedEntry, Op.run, bind, Op.bind] at h ⊢
    split <;> simp_all [pure, Op.pure]

/-- The entries that a directory stream still delivers, the two names
that every directory lists left out. -/
def entriesFrom (p : Path) (dir : Handle) (query : TypeQuery) (s : σ) :
    Outcome σ (List Entry) :=
  let r := S.call (.readdir dir) s
  match _h : r.1 with
  | .ok none => ⟨.ok [], [], r.2⟩
  | .ok (some e) =>
      if e.name.isDots then entriesFrom p dir query r.2
      else
        let typed := (typedEntry S dir query e).run r.2
        match typed.result with
        | .error f => ⟨.error f, typed.events, typed.state⟩
        | .ok entry =>
            let rest := entriesFrom p dir query typed.state
            ⟨rest.result.map (entry :: ·), typed.events ++ rest.events, rest.state⟩
  | .error e =>
      if _hp : isPassing e then
        let rest := entriesFrom p dir query r.2
        ⟨rest.result, .transientListing p e :: rest.events, rest.state⟩
      else ⟨.error (.ofErrno (.path p) e), [], r.2⟩
termination_by S.patience s
decreasing_by
  · exact S.lists dir s e _h
  · exact Nat.lt_of_le_of_lt (S.patience_typedEntry_le dir query e _) (S.lists dir s e _h)
  · simp only [isPassing, Bool.or_eq_true, decide_eq_true_eq] at _hp
    rcases _hp with rfl | rfl
    · exact S.interrupted _ s (by rw [_h]; rfl)
    · exact S.falters dir s (by rw [_h]; rfl)

/-- Closes a directory after its last entry. -/
def closeListing (p : Path) (dir : Handle) : Op σ Unit := do
  Op.closed (.path p) (← Op.issue S (.closedir dir))

/-- The entries of an open directory. It is closed in any case; after a
failure to read, whether that succeeds is of no interest. -/
def entriesOf (p : Path) (dir : Handle) (query : TypeQuery) : Op σ (List Entry) := fun s =>
  let read := S.entriesFrom p dir query s
  match read.result with
  | .error f => ⟨.error f, read.events, (S.call (.closedir dir) read.state).2⟩
  | .ok entries =>
      let closed := (closeListing S p dir).run read.state
      ⟨closed.result.map fun _ => entries, read.events ++ closed.events, closed.state⟩

/-- Lists a directory, in the order in which the system delivers it. -/
def readDir (p : Path) (query : TypeQuery) : Op σ (List Entry) := do
  Op.requireNoNul (.path p) [p]
  let dir ← Op.accept (.path p) (← Op.persist S (.opendir p))
  let entries ← entriesOf S p dir query
  Op.emit (.listed p entries.length)
  pure entries

end System
end PosixFiles
