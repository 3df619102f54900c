/-
Operations on one entry of the file system, each built on one call.

Calls are repeated while they are interrupted. Two conditions count as
success where the purpose of the operation is served all the same:
deleting what is gone, and creating a directory that exists. Both are
told apart from the work having been done by the truth value returned.
-/
import PosixFiles.Operation.Basic

namespace PosixFiles
namespace System

variable {σ : Type} (S : System σ)

-- ================================================================ status

/-- The status of a path; any failure fails the operation. -/
def stat (follow : Bool) (p : Path) : Op σ Status := do
  Op.requireNoNul (.path p) [p]
  Op.accept (.path p) (← Op.persist S (.stat follow p))

/-- The status of a path, an ordinary failure being kept as data. A code
of the unexpected class still fails the operation: it signals a broken
caller or environment, not how the file system stands. -/
def statOutcome (follow : Bool) (p : Path) : Op σ StatOutcome := do
  Op.requireNoNul (.path p) [p]
  match ← Op.persist S (.stat follow p) with
  | .ok s => pure (.status s)
  | .error e =>
      if e.isUnexpected then Op.fail (.ofErrno (.path p) e)
      else do
        Op.emit (.statCaptured p e)
        pure (.ofErrno e)

-- ================================================================= links

/-- Gives the file `old` the further name `new`, against which failures
are reported. -/
def link (old new : Path) : Op σ Unit := do
  Op.requireNoNul (.path new) [old, new]
  Op.accept (.path new) (← Op.persist S (.link old new))

/-- Creates a symbolic link with the given target; failures are reported
against the link. -/
def symlink (target new : Path) : Op σ Unit := do
  Op.requireNoNul (.path new) [target, new]
  Op.accept (.path new) (← Op.persist S (.symlink target new))

/-- The room given to a target at the first attempt, the second, and so
on. -/
def linkRoom : (attempt : Nat) → Nat
  | 0 => 4096
  | attempt + 1 => 2 * linkRoom attempt

/-- There is room at every attempt. -/
theorem linkRoom_pos (attempt : Nat) : 0 < linkRoom attempt := by
  induction attempt with
  | zero => decide
  | succ attempt ih => simp only [linkRoom]; omega

/-- Twice the room at every attempt, until the target does not fill it.
There is one buffer, which is lengthened and never cleared: only as many
bytes are taken from its front as the last attempt read. -/
def readlinkFrom (p : Path) (k : Nat) (buffer : Bytes) (s : σ) : Except Errno Bytes × σ :=
  let r := S.persist (.readlink p (linkRoom k)) s
  match _h : r.1 with
  | .error e => (.error e, r.2)
  | .ok target =>
      if _hfull : target.length < linkRoom k then
        (.ok ((Bytes.overwrite buffer target).take target.length), r.2)
      else
        readlinkFrom p (k + 1) (Bytes.overwrite buffer target ++ Bytes.zeros (linkRoom k)) r.2
termination_by (S.patience s, S.longestLink + 1 - linkRoom k)
decreasing_by
  have hroom : linkRoom (k + 1) = 2 * linkRoom k := rfl
  have hpos := linkRoom_pos k
  have hle := S.patience_persist_le (c := .readlink p (linkRoom k)) rfl s
  rcases S.patience_persist_readlink _h (Nat.le_of_not_lt _hfull) with hb | hlt
  · rcases Nat.lt_or_eq_of_le hle with hlt | heq
    · exact Prod.Lex.left _ _ hlt
    · rw [Prod.lex_def]
      right
      exact ⟨heq, by omega⟩
  · exact Prod.Lex.left _ _ hlt

/-- One attempt, and what comes after it. What is left in the buffer does
not come into it. -/
theorem readlinkFrom_eq (p : Path) (k : Nat) (buffer : Bytes) (s : σ) :
    S.readlinkFrom p k buffer s =
      match (S.persist (.readlink p (linkRoom k)) s).1 with
      | .error e => (.error e, (S.persist (.readlink p (linkRoom k)) s).2)
      | .ok target =>
          if target.length < linkRoom k then
            (.ok target, (S.persist (.readlink p (linkRoom k)) s).2)
          else
            S.readlinkFrom p (k + 1) (Bytes.overwrite buffer target ++ Bytes.zeros (linkRoom k))
              (S.persist (.readlink p (linkRoom k)) s).2 := by
  rw [readlinkFrom]
  split
  next e he => rw [he]
  next target ht =>
    rw [ht, Bytes.take_overwrite]
    dsimp only
    split <;> rfl

/-- The whole target of a symbolic link. -/
def readlink (p : Path) : Op σ Bytes := do
  Op.requireNoNul (.path p) [p]
  let buffer := Bytes.zeros (linkRoom 0)
  let r ← fun s =>
    ⟨.ok (S.readlinkFrom p 0 buffer s).1, [], (S.readlinkFrom p 0 buffer s).2⟩
  Op.accept (.path p) r

/-- Moves `old` to `new`; failures name both. -/
def rename (old new : Path) : Op σ Unit := do
  Op.requireNoNul (.renaming old new) [old, new]
  Op.accept (.renaming old new) (← Op.persist S (.rename old new))

-- ============================================================== deletion

/-- What a deleting call came to: a code that is absorbed means that
there was nothing to delete. -/
def deleted (p : Path) (absorbed : Errno → Bool) (r : Except Errno Unit) : Op σ Bool :=
  match r with
  | .ok () => pure true
  | .error e =>
      if absorbed e then do
        Op.emit (.alreadyGone p e)
        pure false
      else Op.fail (.ofErrno (.path p) e)

/-- Deletes a file. Tells whether there was one: a path that does not
exist is no failure. -/
def unlink (p : Path) : Op σ Bool := do
  Op.requireNoNul (.path p) [p]
  deleted p (· = .enoent) (← Op.persist S (.unlink p))

/-- Deletes a file or an empty directory. Tells whether there was one.
That a component of the path is no directory is taken to mean that the
target is gone as well. -/
def remove (p : Path) : Op σ Bool := do
  Op.requireNoNul (.path p) [p]
  deleted p (fun e => e = .enoent || e = .enotdir) (← Op.persist S (.remove p))

-- ========================================= permissions and special files

/-- Sets the permissions of a file. -/
def chmod (p : Path) (mode : UInt32) : Op σ Unit := do
  Op.requireNoNul (.path p) [p]
  Op.accept (.path p) (← Op.persist S (.chmod p mode))

/-- Creates a fifo. -/
def mkfifo (p : Path) (mode : UInt32) : Op σ Unit := do
  Op.requireNoNul (.path p) [p]
  Op.accept (.path p) (← Op.persist S (.mkfifo p mode))

/-- Sets the mask for the permissions of new files; gives the old one. -/
def umask (mask : UInt32) : Op σ UInt32 := fun s =>
  ⟨.ok (S.setMask mask s).1, [], (S.setMask mask s).2⟩

-- ================================================================= times

/-- The present moment in whole seconds, not before the epoch. -/
def present : Op σ Int64 := fun s =>
  ⟨.ok (max 0 (S.clock s).secs), [], s⟩

/-- Sets the modification time where only the older call is to be had. It
sets both times in whole seconds, so the access time is read first and
its seconds are passed through. -/
def utimeCoarse (p : Path) (now : Bool) (mtime : Int64) : Op σ Unit := do
  let current ← Op.accept (.path p) (← Op.persist S (.stat true p))
  let mtime ← if now then S.present else pure mtime
  Op.accept (.path p) (← Op.persist S (.utime p current.atime.secs mtime))

/-- Sets the modification time of a file to the present, or to the given
second, and leaves its access time. -/
def utime (p : Path) (now : Bool) (mtime : Int64) : Op σ Unit := do
  Op.requireNoNul (.path p) [p]
  let setting := if now then TimeSetting.now else .set ⟨mtime, 0⟩
  match ← Op.persist S (.utimensat p .keep setting) with
  | .ok () => pure ()
  | .error e =>
      if e = .enosys then do
        Op.emit (.coarseTimes p)
        S.utimeCoarse p now mtime
      else Op.fail (.ofErrno (.path p) e)

end System
end PosixFiles
