/-
The MD5 digest of a file, read piece by piece.

All pieces are read into one buffer, which is never cleared: behind a
short piece stands what is left of a longer one before it, so only as many
bytes are taken from the front as were read.

The file is closed on every way out. A failure to read wins over a
failure to close that follows it; otherwise a digest is given only when
the file was read to its end and closed, being interrupted counting as
having closed it.
-/
import PosixFiles.Md5
import PosixFiles.Operation.Basic

namespace PosixFiles
namespace System

variable {σ : Type} (S : System σ)

/-- Reads an open file to its end, at most `room` bytes at a time, into a
context. The buffer is given as far as it has been written to. -/
def digestFrom (file : Handle) (room : Nat) (buffer : Bytes) (ctx : Md5.Context) (s : σ) :
    Except Errno Md5.Context × σ :=
  let r := S.persist (.read file room) s
  match _h : r.1 with
  | .error e => (.error e, r.2)
  | .ok piece =>
      if _hp : piece = [] then (.ok ctx, r.2)
      else
        digestFrom file room (Bytes.overwrite buffer piece)
          (ctx.append ((Bytes.overwrite buffer piece).take piece.length)) r.2
termination_by S.patience s
decreasing_by exact S.patience_persist_read _h _hp

/-- One turn of the loop. What is left in the buffer does not come into
it. -/
theorem digestFrom_eq (file : Handle) (room : Nat) (buffer : Bytes) (ctx : Md5.Context)
    (s : σ) :
    S.digestFrom file room buffer ctx s =
      match (S.persist (.read file room) s).1 with
      | .error e => (.error e, (S.persist (.read file room) s).2)
      | .ok piece =>
          if piece = [] then (.ok ctx, (S.persist (.read file room) s).2)
          else
            S.digestFrom file room (Bytes.overwrite buffer piece) (ctx.append piece)
              (S.persist (.read file room) s).2 := by
  rw [digestFrom]
  split
  next e he => rw [he]
  next piece hp =>
    rw [hp, Bytes.take_overwrite]
    dsimp only
    split <;> rfl

/-- Closes a file that was read. -/
def closeRead (p : Path) (file : Handle) : Op σ Unit := do
  Op.closed (.path p) (← Op.issue S (.close file))

/-- The digest of a file, read at most `room` bytes at a time. Without
any room every file would seem empty, so that is refused. -/
def md5 (p : Path) (room : Nat) : Op σ Digest := do
  if room = 0 then Op.fail (.ofErrno (.path p) .einval)
  Op.requireNoNul (.path p) [p]
  let file ← Op.accept (.path p) (← Op.persist S (.openFile p))
  let read ← fun s =>
    ⟨.ok (S.digestFrom file room [] {} s).1, [], (S.digestFrom file room [] {} s).2⟩
  match read with
  | .error e => do
      let _ ← Op.issue S (.close file)
      Op.fail (.ofErrno (.path p) e)
  | .ok ctx => do
      closeRead S p file
      Op.emit (.digested p ctx.length)
      pure ctx.digest

end System
end PosixFiles
