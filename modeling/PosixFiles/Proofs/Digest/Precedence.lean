/-
Which failure a digest fails with.

Three things can fail on the way to a digest: opening the file, any of the
reads, and closing it. The record of a run tells them apart. First the file
is opened, with interruptions before the reply; then it is read up to its
end or up to a failure (`System.Reads`); then it is closed by one more call.
The first of these to fail is what the digest fails with
(`Files.md5_fails_in_order`). So a file that was read in part never has a
digest, and a failure to close never hides one to read.

The induction is on the reads that are still to come, with whatever the
buffer and the context hold already.
-/
import PosixFiles.Proofs.Digest.Reading
import PosixFiles.Proofs.Operation.Record

namespace PosixFiles
namespace System

variable {σ : Type} {S : System σ} {file : Handle} {room : Nat}

-- ================================================================= reads

/-- Exchanges that read an open file, with what they come to: interruptions
apart, pieces that are not empty, and then the end or the first failure. -/
inductive Reads (file : Handle) (room : Nat) :
    List Exchange → Except Errno (List Bytes) → Prop where
  | ended : Reads file room [⟨.read file room, .ok []⟩] (.ok [])
  | failed {e : Errno} (he : e ≠ .eintr) :
      Reads file room [⟨.read file room, .error e⟩] (.error e)
  | interrupted {es : List Exchange} {read : Except Errno (List Bytes)}
      (more : Reads file room es read) :
      Reads file room (⟨.read file room, .error .eintr⟩ :: es) read
  | piece {b : Bytes} {es : List Exchange} {read : Except Errno (List Bytes)} (hb : b ≠ [])
      (more : Reads file room es read) :
      Reads file room (⟨.read file room, .ok b⟩ :: es) (read.map (b :: ·))

theorem Reads.interruptions {es : List Exchange} {read : Except Errno (List Bytes)}
    (h : Reads file room es read) (k : Nat) :
    Reads file room (List.replicate k ⟨.read file room, .error .eintr⟩ ++ es) read := by
  induction k with
  | zero => exact h
  | succ k ih => exact .interrupted ih

/-- The loop puts reads on record and fails as they do; if they get to the
end, then the context holds their pieces behind what it held before. -/
theorem digestFrom_reads (file : Handle) (room : Nat) (buffer : Bytes) (ctx : Md5.Context)
    (r : Recorded σ) : ∀ message : Bytes, ctx.Holds message →
    ∃ es read, (S.recorded.digestFrom file room buffer ctx r).2.exchanges = r.exchanges ++ es
      ∧ Reads file room es read
      ∧ (S.recorded.digestFrom file room buffer ctx r).1.map Md5.Context.digest
        = read.map fun pieces => Md5.digest (message ++ pieces.flatten) := by
  fun_induction System.digestFrom S.recorded file room buffer ctx r with
  | case1 buffer ctx r reply e hr =>
      intro message hctx
      obtain ⟨k, hk⟩ := exchanges_persist (S := S) (.read file room) r
      have hne := S.recorded.errno?_persist_ne (.read file room) r
      change reply.2.exchanges = _ ++ (_ ++ [⟨_, reply.1⟩]) at hk
      change errno? reply.1 ≠ _ at hne
      rw [hr] at hk hne
      exact ⟨_, .error e, hk, (Reads.failed fun he => hne (congrArg some he)).interruptions k, rfl⟩
  | case2 buffer ctx r reply hr =>
      intro message hctx
      obtain ⟨k, hk⟩ := exchanges_persist (S := S) (.read file room) r
      change reply.2.exchanges = _ ++ (_ ++ [⟨_, reply.1⟩]) at hk
      rw [hr] at hk
      refine ⟨_, .ok [], hk, Reads.ended.interruptions k, ?_⟩
      dsimp only [Except.map]
      rw [hctx.digest_eq, List.flatten_nil, List.append_nil]
  | case3 buffer ctx r reply b hr hb ih =>
      intro message hctx
      obtain ⟨k, hk⟩ := exchanges_persist (S := S) (.read file room) r
      change reply.2.exchanges = _ ++ (_ ++ [⟨_, reply.1⟩]) at hk
      rw [hr] at hk
      rw [Bytes.take_overwrite] at ih ⊢
      obtain ⟨es, read, hes, hreads, hread⟩ := ih _ (hctx.append b)
      refine ⟨_, read.map (b :: ·), ?_, (Reads.piece hb hreads).interruptions k, ?_⟩
      · rw [hes, hk, List.append_assoc, List.append_assoc]
        rfl
      · rw [hread]
        cases read with
        | error e => rfl
        | ok pieces =>
            dsimp only [Except.map]
            rw [List.flatten_cons, List.append_assoc]

/-- What reading and closing come to together: the first failure, where
being interrupted when closing is none, or else the digest of the pieces. -/
def digestVerdict (p : Path) : Except Errno (List Bytes) → Except Errno Unit →
    Except Failure Digest
  | .error e, _ => .error (.ofErrno (.path p) e)
  | .ok pieces, .ok () => .ok (Md5.digest pieces.flatten)
  | .ok pieces, .error e =>
      if e = .eintr then .ok (Md5.digest pieces.flatten) else .error (.ofErrno (.path p) e)

/-- A file that was opened is read, and then closed by one call. -/
theorem md5_reads_and_closes {p : Path} (hnul : p.hasNul = false) (hroom : room ≠ 0)
    {r t : Recorded σ} (hopen : S.recorded.persist (.openFile p) r = (.ok file, t)) :
    ∃ es read closed,
      ((S.recorded.md5 p room).run r).state.exchanges
          = t.exchanges ++ (es ++ [⟨.close file, closed⟩])
        ∧ Reads file room es read
        ∧ ((S.recorded.md5 p room).run r).result = digestVerdict p read closed := by
  obtain ⟨es, read, hes, hreads, hread⟩ :=
    digestFrom_reads (S := S) file room [] {} t [] Md5.Context.holds_nil
  refine ⟨es, read,
    (S.recorded.call (.close file) (S.recorded.digestFrom file room [] {} t).2).1, ?_, hreads, ?_⟩
  · rw [state_md5_of_open hnul hroom hopen, exchanges_call, hes, List.append_assoc]
  · rcases hdigest : S.recorded.digestFrom file room [] {} t with ⟨digested, u⟩
    rw [hdigest] at hread
    cases digested with
    | error e =>
        rw [run_md5_of_not_read hnul hroom hopen hdigest]
        cases read with
        | error e' =>
            cases hread
            rfl
        | ok pieces => cases hread
    | ok ctx =>
        cases read with
        | error e' => cases hread
        | ok pieces =>
            have hpieces : ctx.digest = Md5.digest pieces.flatten := Except.ok.inj hread
            rw [(run_md5_of_read hnul hroom hopen hdigest).1, closeRead_eq, hpieces]
            dsimp only
            cases (S.recorded.call (.close file) u).1 with
            | ok v => rfl
            | error e =>
                dsimp only [digestVerdict]
                split <;> rfl

end System

-- ============================================================== requests

namespace Files

variable {σ : Type} {S : System σ}

/-- A digest fails with the first failure on the way to it. The file is
opened, by a call that is repeated while it is interrupted. If that fails,
so does the digest, and nothing else is called. If it does not, then the
file is read up to its end or the first failure, and closed by one call. A
failure to read is what the digest fails with, whatever was read before it
and whatever closing replies; without one, closing decides, where being
interrupted is no failure. Only if there is no failure at all is there a
digest, that of all that was read. Every failure is reported against the
path. -/
theorem md5_fails_in_order (F : Files) {p : Path} (hnul : p.hasNul = false) {room : Option Nat}
    (hroom : room ≠ some 0) (s : σ) :
    let o := (F.perform S.recorded (.md5 p room)).run ⟨[], s⟩
    ∃ (k : Nat) (opened : Reply (.openFile p)) (rest : List Exchange),
      errno? opened ≠ some .eintr
        ∧ o.state.exchanges
          = List.replicate k ⟨.openFile p, .error .eintr⟩ ++ ⟨.openFile p, opened⟩ :: rest
        ∧ match opened with
          | .error e => rest = [] ∧ o.result = .error (.ofErrno (.path p) e)
          | .ok file =>
              ∃ (reads : List Exchange) (read : Except Errno (List Bytes))
                (closed : Reply (.close file)),
                rest = reads ++ [⟨.close file, closed⟩]
                  ∧ System.Reads file (room.getD F.config.digestChunkSize) reads read
                  ∧ o.result = System.digestVerdict p read closed := by
  intro o
  have hpos := F.room_ne_zero hroom .digestChunkSize
  obtain ⟨k, hopening⟩ := System.exchanges_persist (S := S) (.openFile p) ⟨[], s⟩
  have hne := S.recorded.errno?_persist_ne (.openFile p) ⟨[], s⟩
  rcases hopened : S.recorded.persist (.openFile p) ⟨[], s⟩ with ⟨opened, t⟩
  rw [hopened] at hopening hne
  cases opened with
  | error e =>
      have ho : o = _ := System.run_md5_of_not_open hnul hpos hopened
      rw [ho]
      exact ⟨k, .error e, [], hne, hopening, rfl, rfl⟩
  | ok file =>
      obtain ⟨reads, read, closed, hexchanges, hreads, hresult⟩ :=
        System.md5_reads_and_closes (S := S) hnul hpos hopened
      refine ⟨k, .ok file, _, hne, ?_, reads, read, closed, rfl, hreads, hresult⟩
      refine hexchanges.trans ?_
      rw [hopening]
      simp [Recorded.exchanges]

/-- A file that cannot be read to its end, and not be closed either. Opening
and reading are interrupted, and one piece was read. -/
theorem md5_fails_in_order_unread :
    let p : Path := [0x66]
    let fails (e : Errno) : PreparedReply := fun _ => .error e
    let replies : List PreparedReply :=
      [fails .eintr, fun | .openFile _ => .ok 3 | _ => .error .ebadf,
        System.readReply (some [0x61]), fails .eintr, fails .eio, fails .eacces]
    let o := (perform {} System.prepared.recorded (.md5 p (some 64))).run ⟨[], replies⟩
    p.hasNul = false ∧ some 64 ≠ some 0
      ∧ errno? (o.result.mapError Failure.errno) = some .eio
      ∧ o.state.exchanges.length = 6
      ∧ ∃ (k : Nat) (opened : Reply (.openFile p)) (rest : List Exchange),
        errno? opened ≠ some .eintr
          ∧ o.state.exchanges
            = List.replicate k ⟨.openFile p, .error .eintr⟩ ++ ⟨.openFile p, opened⟩ :: rest
          ∧ match opened with
            | .error e => rest = [] ∧ o.result = .error (.ofErrno (.path p) e)
            | .ok file =>
                ∃ (reads : List Exchange) (read : Except Errno (List Bytes))
                  (closed : Reply (.close file)),
                  rest = reads ++ [⟨.close file, closed⟩]
                    ∧ System.Reads file 64 reads read
                    ∧ o.result = System.digestVerdict p read closed :=
  ⟨by decide, by decide, by decide +kernel, by decide +kernel,
    md5_fails_in_order {} (by decide) (by decide) _⟩

end Files
end PosixFiles
