/-
Operations: computations that make system calls, note events, and may
fail.

An operation starts in a state of the system and ends in an `Outcome`:
a value or a failure, the events noted on the way, and the state reached.
A failure ends the operation at once; events and state stay as they are.

`Op.issue` makes one call once, `Op.persist` makes it until it is not
interrupted. Both hand the reply over as it is, and `Op.accept` turns one
into a value or into a failure against a subject. For replies to a call
that gives a handle back there is `Op.closed`.
-/
import PosixFiles.Event
import PosixFiles.Failure
import PosixFiles.System.Basic

namespace PosixFiles

/-- How an operation ended. -/
structure Outcome (σ α : Type) where
  result : Except Failure α
  events : List Event
  state : σ

/-- An operation on a system with states `σ`. -/
def Op (σ α : Type) := σ → Outcome σ α

namespace Op

variable {σ α β : Type}

/-- Runs an operation from a state. -/
def run (x : Op σ α) (s : σ) : Outcome σ α := x s

/-- The value, with nothing done. -/
protected def pure (a : α) : Op σ α := fun s => ⟨.ok a, [], s⟩

/-- One operation, and on success another that depends on its value. -/
protected def bind (x : Op σ α) (f : α → Op σ β) : Op σ β := fun s =>
  match x s with
  | ⟨.ok a, events, t⟩ =>
      let o := f a t
      ⟨o.result, events ++ o.events, o.state⟩
  | ⟨.error e, events, t⟩ => ⟨.error e, events, t⟩

instance : Monad (Op σ) where
  pure := Op.pure
  bind := Op.bind

/-- Ends the operation with a failure. -/
def fail (f : Failure) : Op σ α := fun s => ⟨.error f, [], s⟩

/-- Notes an event. -/
def emit (e : Event) : Op σ Unit := fun s => ⟨.ok (), [e], s⟩

/-- The result of an operation, a failure being a value like any other. -/
def attempt (x : Op σ α) : Op σ (Except Failure α) := fun s =>
  ⟨.ok (x s).result, (x s).events, (x s).state⟩

/-- Makes one call, once. -/
def issue (S : System σ) (c : Call) : Op σ (Reply c) := fun s =>
  ⟨.ok (S.call c s).1, [], (S.call c s).2⟩

/-- Makes one call until it is not interrupted. -/
def persist (S : System σ) (c : Call) : Op σ (Reply c) := fun s =>
  ⟨.ok (S.persist c s).1, [], (S.persist c s).2⟩

/-- The answer of a reply; a code is a failure against the subject. -/
def accept (subject : Subject) (r : Except Errno α) : Op σ α :=
  match r with
  | .ok a => pure a
  | .error e => fail (.ofErrno subject e)

/-- What giving a handle back came to: being interrupted counts as having
given it back. -/
def closed (subject : Subject) (r : Except Errno Unit) : Op σ Unit :=
  match r with
  | .ok () => pure ()
  | .error e => if e = .eintr then pure () else fail (.ofErrno subject e)

/-- Ends the operation unless none of the byte strings holds a NUL. -/
def requireNoNul (subject : Subject) (arguments : List Bytes) : Op σ Unit :=
  if arguments.any Path.hasNul then fail ⟨subject, .nulInPath⟩ else pure ()

-- ================================================================== runs

@[simp] theorem run_pure (a : α) (s : σ) : (pure a : Op σ α).run s = ⟨.ok a, [], s⟩ := rfl

@[simp] theorem run_fail (f : Failure) (s : σ) :
    (fail f : Op σ α).run s = ⟨.error f, [], s⟩ := rfl

@[simp] theorem run_emit (e : Event) (s : σ) : (emit e).run s = ⟨.ok (), [e], s⟩ := rfl

@[simp] theorem run_attempt (x : Op σ α) (s : σ) :
    x.attempt.run s = ⟨.ok (x.run s).result, (x.run s).events, (x.run s).state⟩ := rfl

@[simp] theorem run_issue (S : System σ) (c : Call) (s : σ) :
    (issue S c).run s = ⟨.ok (S.call c s).1, [], (S.call c s).2⟩ := rfl

@[simp] theorem run_persist (S : System σ) (c : Call) (s : σ) :
    (persist S c).run s = ⟨.ok (S.persist c s).1, [], (S.persist c s).2⟩ := rfl

/-- After a success the second operation runs from the state reached. -/
theorem run_bind_ok {x : Op σ α} {f : α → Op σ β} {s t : σ} {a : α} {events : List Event}
    (h : x.run s = ⟨.ok a, events, t⟩) :
    (x >>= f).run s =
      ⟨((f a).run t).result, events ++ ((f a).run t).events, ((f a).run t).state⟩ := by
  simp only [run] at h
  simp only [run, bind, Op.bind, h]

/-- After a failure nothing more happens. -/
theorem run_bind_error {x : Op σ α} {f : α → Op σ β} {s t : σ} {e : Failure}
    {events : List Event} (h : x.run s = ⟨.error e, events, t⟩) :
    (x >>= f).run s = ⟨.error e, events, t⟩ := by
  simp only [run] at h
  simp only [run, bind, Op.bind, h]

end Op
end PosixFiles
