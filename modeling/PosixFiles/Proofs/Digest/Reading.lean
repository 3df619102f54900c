/-
The digest of a file, however it is read.

# What a file supplies

`System.Supplies` says what reading an open file to its end brings: pieces
that are not empty, in order, with interruptions between any two of them,
and then nothing more. It says nothing about how long the pieces are, so
reads that give less than there is room for are included. Any content can
be supplied in any pieces (`supplies_prepared`).

# What becomes of it

The loop reads into one buffer and never clears it. Of the buffer only the
front goes into the context, as many bytes as were read last, and so the
context holds what was supplied, whatever else the buffer holds
(`digestFrom_of_supplies`). The induction is on the pieces still to come,
for every buffer and every message so far.

`md5_gives_digest` is then a matter of what stands around the loop: if
opening and closing succeed, the digest is that of the whole content. The
room given to a read and the configuration have no part in it.
-/
import Mathlib.Data.List.ReduceOption
import PosixFiles.Proofs.Digest.Message
import PosixFiles.Proofs.Operation.Run
import PosixFiles.Request
import PosixFiles.System.Prepared

namespace PosixFiles

namespace System

variable {σ : Type} {S : System σ}

-- ============================================================== supplies

/-- Reading an open file from one state to its end gives these pieces, and
leaves another state. -/
inductive Supplies (S : System σ) (file : Handle) (room : Nat) : σ → List Bytes → σ → Prop where
  | last {s t : σ} (h : S.call (.read file room) s = (.ok [], t)) : Supplies S file room s [] t
  | interrupted {s t u : σ} {pieces : List Bytes}
      (h : S.call (.read file room) s = (.error .eintr, t))
      (more : Supplies S file room t pieces u) : Supplies S file room s pieces u
  | piece {s t u : σ} {b : Bytes} {pieces : List Bytes}
      (h : S.call (.read file room) s = (.ok b, t)) (nonempty : b ≠ [])
      (more : Supplies S file room t pieces u) : Supplies S file room s (b :: pieces) u

/-- What is supplied gets into the context, and nothing else does. -/
theorem digestFrom_of_supplies {file : Handle} {room : Nat} {s t : σ} {pieces : List Bytes}
    (h : S.Supplies file room s pieces t) (buffer : Bytes) {ctx : Md5.Context} {message : Bytes}
    (hctx : ctx.Holds message) :
    ∃ ctx', S.digestFrom file room buffer ctx s = (.ok ctx', t)
      ∧ ctx'.Holds (message ++ pieces.flatten) := by
  induction h generalizing buffer ctx message with
  | @last s t h =>
      refine ⟨ctx, ?_, ?_⟩
      · rw [digestFrom_eq, S.persist_of_ok h]
        rfl
      · rw [List.flatten_nil, List.append_nil]
        exact hctx
  | @interrupted s t u pieces h more ih =>
      -- what is read in the end is read from where the interruption left
      have hreply : S.persist (.read file room) s = S.persist (.read file room) t := by
        rw [S.persist_of_interrupted (by rw [h]; rfl), h]
      obtain ⟨ctx', hrun, hholds⟩ := ih buffer hctx
      refine ⟨ctx', ?_, hholds⟩
      rw [digestFrom_eq] at hrun ⊢
      rw [hreply]
      exact hrun
  | @piece s t u b pieces h nonempty more ih =>
      obtain ⟨ctx', hrun, hholds⟩ := ih (Bytes.overwrite buffer b) (hctx.append b)
      refine ⟨ctx', ?_, ?_⟩
      · rw [digestFrom_eq, S.persist_of_ok h]
        dsimp only
        rw [if_neg nonempty]
        exact hrun
      · rw [List.flatten_cons, ← List.append_assoc]
        exact hholds

/-- The reply to a read that gives a piece, or is interrupted. -/
def readReply : Option Bytes → PreparedReply
  | some b => fun
      | .read .. => .ok b
      | _ => .error .ebadf
  | none => fun _ => .error .eintr

/-- Any pieces can be supplied, with interruptions anywhere. -/
theorem supplies_prepared (file : Handle) (room : Nat) (parts : List (Option Bytes))
    (hparts : some [] ∉ parts) (rest : List PreparedReply) :
    prepared.Supplies file room (parts.map readReply ++ readReply (some []) :: rest)
      parts.reduceOption rest := by
  induction parts with
  | nil => exact .last rfl
  | cons part parts ih =>
      have hrest : some [] ∉ parts := fun h => hparts (List.mem_cons_of_mem _ h)
      cases part with
      | none =>
          rw [List.reduceOption_cons_of_none]
          exact .interrupted rfl (ih hrest)
      | some b =>
          rw [List.reduceOption_cons_of_some]
          refine .piece rfl ?_ (ih hrest)
          rintro rfl
          exact hparts (List.mem_cons_self ..)

-- ============================================================ the digest

/-- A file that cannot be opened has no digest. -/
theorem run_md5_of_not_open {p : Path} (hnul : p.hasNul = false) {room : Nat} (hroom : room ≠ 0)
    {s t : σ} {e : Errno} (h : S.persist (.openFile p) s = (.error e, t)) :
    (S.md5 p room).run s = ⟨.error (.ofErrno (.path p) e), [], t⟩ := by
  simp only [md5, if_neg hroom]
  rw [Op.requireNoNul_bind _ (by simp [hnul]), Op.run_persist_bind, h]
  rfl

/-- A file that was opened is read, and what reading it comes to decides
what is left to do. -/
theorem run_md5_of_open {p : Path} (hnul : p.hasNul = false) {room : Nat} (hroom : room ≠ 0)
    {s t : σ} {file : Handle} (hopen : S.persist (.openFile p) s = (.ok file, t)) :
    (S.md5 p room).run s =
      (match (S.digestFrom file room [] {} t).1 with
        | .error e => do
            let _ ← Op.issue S (.close file)
            Op.fail (.ofErrno (.path p) e)
        | .ok ctx => do
            S.closeRead p file
            Op.emit (.digested p ctx.length)
            pure ctx.digest : Op σ Digest).run (S.digestFrom file room [] {} t).2 := by
  simp only [md5, if_neg hroom]
  rw [Op.requireNoNul_bind _ (by simp [hnul]), Op.run_persist_bind, hopen, Op.accept_ok_bind]
  rfl

/-- A file that cannot be read to its end has no digest. It is closed, and
what that comes to is of no interest. -/
theorem run_md5_of_not_read {p : Path} (hnul : p.hasNul = false) {room : Nat} (hroom : room ≠ 0)
    {s t u : σ} {file : Handle} {e : Errno} (hopen : S.persist (.openFile p) s = (.ok file, t))
    (hread : S.digestFrom file room [] {} t = (.error e, u)) :
    (S.md5 p room).run s
      = ⟨.error (.ofErrno (.path p) e), [], (S.call (.close file) u).2⟩ := by
  rw [run_md5_of_open hnul hroom hopen, hread]
  rfl

/-- Once a file has been read to its end, closing it decides. -/
theorem run_md5_of_read {p : Path} (hnul : p.hasNul = false) {room : Nat} (hroom : room ≠ 0)
    {s t u : σ} {file : Handle} {ctx : Md5.Context}
    (hopen : S.persist (.openFile p) s = (.ok file, t))
    (hread : S.digestFrom file room [] {} t = (.ok ctx, u)) :
    ((S.md5 p room).run s).result = ((S.closeRead p file).run u).result.map (fun _ => ctx.digest)
      ∧ ((S.md5 p room).run s).state = ((S.closeRead p file).run u).state := by
  rw [run_md5_of_open hnul hroom hopen, hread]
  exact Op.run_bind_of_gives (fun _ _ => ⟨rfl, rfl⟩) u

/-- Closing a file after it was read is one call. -/
theorem state_closeRead (S : System σ) (p : Path) (file : Handle) (s : σ) :
    ((S.closeRead p file).run s).state = (S.call (.close file) s).2 := by
  rw [closeRead, Op.run_issue_bind, Op.run_closed]

/-- On both ways out of the loop closing comes next, and is the last
call. -/
theorem state_md5_of_open {p : Path} (hnul : p.hasNul = false) {room : Nat} (hroom : room ≠ 0)
    {s t : σ} {file : Handle} (hopen : S.persist (.openFile p) s = (.ok file, t)) :
    ((S.md5 p room).run s).state
      = (S.call (.close file) (S.digestFrom file room [] {} t).2).2 := by
  rcases hread : S.digestFrom file room [] {} t with ⟨read, u⟩
  cases read with
  | error e => rw [run_md5_of_not_read hnul hroom hopen hread]
  | ok ctx => rw [(run_md5_of_read hnul hroom hopen hread).2, state_closeRead]

/-- What closing comes to: an interruption is as good as an answer. -/
theorem closeRead_eq (S : System σ) (p : Path) (file : Handle) (s : σ) :
    ((S.closeRead p file).run s).result =
      match (S.call (.close file) s).1 with
      | .ok () => .ok ()
      | .error e => if e = .eintr then .ok () else .error (.ofErrno (.path p) e) := by
  rw [closeRead, Op.run_issue_bind, Op.run_closed]
  cases (S.call (.close file) s).1 <;> rfl

/-- A file that is closed, or whose closing is interrupted, has been
closed. -/
theorem result_closeRead {p : Path} {file : Handle} {s : σ}
    (h : ∀ e, errno? (S.call (.close file) s).1 = some e → e = .eintr) :
    ((S.closeRead p file).run s).result = .ok () := by
  rw [closeRead_eq]
  cases hr : (S.call (.close file) s).1 with
  | ok u => rfl
  | error e => exact if_pos (h e (by rw [hr]; rfl))

/-- What a file supplies is what is digested. -/
theorem result_md5_of_supplies {p : Path} (hnul : p.hasNul = false) {room : Nat}
    (hroom : room ≠ 0) {s t u : σ} {file : Handle} {pieces : List Bytes}
    (hopen : S.persist (.openFile p) s = (.ok file, t))
    (hread : S.Supplies file room t pieces u)
    (hclose : ∀ e, errno? (S.call (.close file) u).1 = some e → e = .eintr) :
    ((S.md5 p room).run s).result = .ok (Md5.digest pieces.flatten) := by
  obtain ⟨ctx, hdigest, hholds⟩ := digestFrom_of_supplies hread [] Md5.Context.holds_nil
  rw [(run_md5_of_read hnul hroom hopen hdigest).1, result_closeRead hclose]
  exact congrArg Except.ok hholds.digest_eq

end System

-- =============================================================== requests

namespace Files

variable {σ : Type} {S : System σ}

/-- Where a request does not say how much room there is, a valid
configuration does. -/
theorem room_ne_zero (F : Files) {room : Option Nat} (h : room ≠ some 0) (setting : Setting) :
    room.getD (F.config.get setting) ≠ 0 := by
  cases room with
  | some n => exact fun hn => h (congrArg some hn)
  | none => exact Nat.pos_iff_ne_zero.1 (F.valid.get_le setting).1

/-- If opening succeeds in the end, if reading brings these pieces and then
the end, wherever it is interrupted, and if closing succeeds or is
interrupted, then the digest is that of the pieces put together, and so of
the blocks of 64 bytes that they and the padding are made of. The pieces
are not empty; how long they are, how much room there was for each and what
the configuration says does not matter. -/
theorem md5_gives_digest (F : Files) {p : Path} (hnul : p.hasNul = false) {room : Option Nat}
    (hroom : room ≠ some 0) {s t u : σ} {file : Handle} {pieces : List Bytes}
    (hopen : S.persist (.openFile p) s = (.ok file, t))
    (hread : S.Supplies file (room.getD F.config.digestChunkSize) t pieces u)
    (hclose : ∀ e, errno? (S.call (.close file) u).1 = some e → e = .eintr) :
    ((F.perform S (.md5 p room)).run s).result = .ok (Md5.digest pieces.flatten)
      ∧ ∃ blocks : List Bytes,
        blocks.flatten = pieces.flatten ++ Md5.padding pieces.flatten.length
          ∧ (∀ block ∈ blocks, block.length = 64)
          ∧ Md5.digest pieces.flatten = (blocks.foldl Md5.fold .start).digest :=
  ⟨System.result_md5_of_supplies hnul (F.room_ne_zero hroom .digestChunkSize) hopen hread hclose,
    Md5.exists_blocks_digest_eq pieces.flatten⟩

/-- Eighty bytes in three pieces, the first two of which make up one block.
Opening, reading and closing are interrupted, and the last piece is shorter
than what the buffer holds from before. -/
theorem md5_gives_digest_interrupted :
    let p : Path := [0x66]
    let content : Bytes := (List.replicate 8 [49, 50, 51, 52, 53, 54, 55, 56, 57, 48]).flatten
    let parts : List (Option Bytes) :=
      [none, some (content.take 20), some ((content.drop 20).take 44), none, none,
        some (content.drop 64), none]
    let opened : PreparedReply := fun
      | .openFile _ => .ok 3
      | _ => .error .ebadf
    let interrupted : PreparedReply := fun _ => .error .eintr
    let reads := parts.map System.readReply ++ System.readReply (some []) :: [interrupted]
    let s : List PreparedReply := interrupted :: opened :: reads
    p.hasNul = false ∧ some 64 ≠ some 0
      ∧ System.prepared.persist (.openFile p) s = (.ok 3, reads)
      ∧ System.prepared.Supplies 3 64 reads parts.reduceOption [interrupted]
      ∧ errno? (System.prepared.call (.close 3) [interrupted]).1 = some .eintr
      ∧ parts.reduceOption.flatten = content
      ∧ ((perform {} System.prepared (.md5 p (some 64))).run s).result
        = .ok (Md5.digest parts.reduceOption.flatten)
      ∧ ∃ blocks : List Bytes,
        blocks.flatten
            = parts.reduceOption.flatten ++ Md5.padding parts.reduceOption.flatten.length
          ∧ (∀ block ∈ blocks, block.length = 64)
          ∧ Md5.digest parts.reduceOption.flatten = (blocks.foldl Md5.fold .start).digest := by
  intro p content parts opened interrupted reads s
  have hopen : System.prepared.persist (.openFile p) s = (.ok 3, reads) := by
    rw [System.prepared.persist_of_interrupted rfl]
    exact System.prepared.persist_of_ok rfl
  have hread : System.prepared.Supplies 3 64 reads parts.reduceOption [interrupted] :=
    System.supplies_prepared 3 64 parts (by decide) [interrupted]
  have hclose : ∀ e, errno? (System.prepared.call (.close 3) [interrupted]).1 = some e
      → e = .eintr := fun e he => (Option.some.inj he).symm
  exact ⟨by decide, by decide, hopen, hread, rfl, by decide,
    md5_gives_digest {} (by decide) (by decide) hopen hread hclose⟩

end Files
end PosixFiles
