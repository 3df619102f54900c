/-
Whether events agree with what happened.

# Digests

A context counts the bytes that were put into it, and the loop puts into it
what it reads (`System.length_digestFrom`). So the number that is noted with a
digest is that of all bytes on record, even though the count is kept apart
from the data.

# Deletions

A deletion makes one call, and notes that nothing was there if it absorbs the
code that this call failed with.

# Requests

`Files.events_agree` puts together what is known of all requests whose events
are about effects. It is about every system, so nothing that a fault or
another process may do to a run is left out.
-/
import PosixFiles.Proofs.Digest.Reading
import PosixFiles.Proofs.Directory.Event
import PosixFiles.Proofs.Listing.Event
import PosixFiles.Request

namespace PosixFiles

-- ================================================================ digests

/-- The bytes that were read. -/
def Exchange.bytesRead : Exchange → Bytes
  | ⟨.read .., .ok b⟩ => b
  | _ => []

/-- All bytes that were read, by the record. -/
def Recorded.bytesRead {σ : Type} (r : Recorded σ) : Bytes :=
  r.exchanges.flatMap Exchange.bytesRead

/-- The events of the digest of a file: that it was computed is noted on
success, with the number of all bytes that were read, and nothing else is. -/
def TellsDigest {σ : Type} (p : Path) (o : Outcome (Recorded σ) Digest) : Prop :=
  o.events =
    match o.result with
    | .ok _ => [.digested p o.state.bytesRead.length]
    | .error _ => []

namespace System

variable {σ : Type} (S : System σ)

theorem bytesRead_call (c : Call) (r : Recorded σ) :
    (S.recorded.call c r).2.bytesRead
      = r.bytesRead ++ Exchange.bytesRead ⟨c, (S.recorded.call c r).1⟩ := by
  simp [Recorded.bytesRead, exchanges_call]

/-- Interruptions read nothing. -/
theorem bytesRead_persist (c : Call) (r : Recorded σ) :
    (S.recorded.persist c r).2.bytesRead
      = r.bytesRead ++ Exchange.bytesRead ⟨c, (S.recorded.persist c r).1⟩ := by
  have hfailed : Exchange.bytesRead ⟨c, .error .eintr⟩ = [] := by
    cases c <;> rfl
  obtain ⟨k, hk⟩ := exchanges_persist (S := S) c r
  have hnothing : (List.replicate k (⟨c, .error .eintr⟩ : Exchange)).flatMap Exchange.bytesRead
      = [] := List.flatMap_eq_nil_iff.2 fun x hx => List.eq_of_mem_replicate hx ▸ hfailed
  simp [Recorded.bytesRead, hk, hnothing]

/-- A context has grown by what was read. -/
theorem length_digestFrom (file : Handle) (room : Nat) (buffer : Bytes) (ctx : Md5.Context)
    (r : Recorded σ) :
    ∀ ctx' : Md5.Context, (S.recorded.digestFrom file room buffer ctx r).1 = .ok ctx' →
      ctx'.length + r.bytesRead.length
        = ctx.length + (S.recorded.digestFrom file room buffer ctx r).2.bytesRead.length := by
  fun_induction System.digestFrom S.recorded file room buffer ctx r with
  | case1 buffer ctx r reply e hr => exact nofun
  | case2 buffer ctx r reply hr =>
      intro ctx' h
      have hread := bytesRead_persist S (.read file room) r
      have hreply : (S.recorded.persist (.read file room) r).1 = .ok [] := hr
      rw [hreply] at hread
      change reply.2.bytesRead = r.bytesRead ++ [] at hread
      rw [← Except.ok.inj h, hread, List.append_nil]
  | case3 buffer ctx r reply piece hr hp ih =>
      intro ctx' h
      have hread := bytesRead_persist S (.read file room) r
      have hreply : (S.recorded.persist (.read file room) r).1 = .ok piece := hr
      rw [hreply] at hread
      have hrest := ih ctx' h
      rw [Bytes.take_overwrite] at hrest ⊢
      change reply.2.bytesRead = r.bytesRead ++ piece at hread
      have hgrown : (ctx.append piece).length = ctx.length + List.length piece := rfl
      rw [hread, List.length_append] at hrest
      omega

theorem events_closeRead (p : Path) (file : Handle) (s : σ) :
    ((S.closeRead p file).run s).events = [] := by
  rw [closeRead, Op.run_issue_bind, Op.run_closed]

theorem tellsDigest_md5 (p : Path) (room : Nat) (s : σ) :
    TellsDigest p ((S.recorded.md5 p room).run ⟨[], s⟩) := by
  unfold TellsDigest
  by_cases hroom : room = 0
  · rw [md5, if_pos hroom, Op.fail_bind]
    rfl
  rcases Bool.eq_false_or_eq_true p.hasNul with hnul | hnul
  · have hrun : (S.recorded.md5 p room).run ⟨[], s⟩
        = ⟨.error ⟨.path p, .nulInPath⟩, [], ⟨[], s⟩⟩ := by
      simp only [md5, if_neg hroom]
      rw [Op.requireNoNul_bind_of_hasNul _ (by simp [hnul])]
      rfl
    rw [hrun]
  have hopening := bytesRead_persist S (.openFile p) ⟨[], s⟩
  rcases hopened : S.recorded.persist (.openFile p) ⟨[], s⟩ with ⟨e | file, r⟩
  · rw [run_md5_of_not_open hnul hroom hopened]
  rw [hopened] at hopening
  change r.bytesRead = [] at hopening
  have hlength := length_digestFrom S file room [] {} r
  rcases hread : S.recorded.digestFrom file room [] {} r with ⟨e | ctx, t⟩
  · rw [run_md5_of_not_read hnul hroom hopened hread]
  rw [hread] at hlength
  have htotal : ctx.length = ((S.recorded.closeRead p file).run t).state.bytesRead.length := by
    have hclosing := bytesRead_call S (.close file) t
    have hsum := hlength ctx rfl
    rw [hopening] at hsum
    rw [state_closeRead, hclosing, List.length_append]
    exact hsum.trans (Nat.zero_add _)
  rw [run_md5_of_open hnul hroom hopened, hread]
  dsimp only
  rw [Op.run_bind_emit, events_closeRead, List.nil_append]
  cases hclosed : ((S.recorded.closeRead p file).run t).result with
  | error f => rfl
  | ok u =>
      dsimp only [Except.map]
      rw [htotal]

end System

-- =============================================================== deletions

/-- The events of a deletion that makes one call, and absorbs some codes. -/
def TellsDeletion {σ : Type} (p : Path) (c : Call) (absorbed : List Errno)
    (o : Outcome (Recorded σ) Bool) : Prop :=
  (∃ e ∈ absorbed, ∃ es : List Exchange, o.state.exchanges = es ++ [⟨c, .error e⟩]
      ∧ o.result = .ok false ∧ o.events = [.alreadyGone p e])
    ∨ o.result ≠ .ok false ∧ o.events = []

namespace System

variable {σ : Type} (S : System σ)

theorem run_deleted_cases (p : Path) (absorbed : Errno → Bool) (reply : Except Errno Unit)
    (s : σ) :
    (∃ e, absorbed e = true ∧ reply = .error e
        ∧ (deleted p absorbed reply).run s = ⟨.ok false, [.alreadyGone p e], s⟩)
      ∨ ((deleted p absorbed reply).run s).result ≠ .ok false
        ∧ ((deleted p absorbed reply).run s).events = [] := by
  cases reply with
  | ok u => exact Or.inr ⟨nofun, rfl⟩
  | error e =>
      unfold deleted
      dsimp only
      by_cases he : absorbed e = true
      · rw [if_pos he]
        exact Or.inl ⟨e, he, rfl, rfl⟩
      · rw [if_neg he]
        exact Or.inr ⟨nofun, rfl⟩

/-- A deletion is told by what its last call came to. -/
theorem tellsDeletion_of_deleted {p : Path} {c : Call} (outcome : Reply c → Except Errno Unit)
    (houtcome : ∀ {reply e}, outcome reply = .error e → reply = .error e)
    {absorbed : Errno → Bool} {codes : List Errno}
    (hcodes : ∀ e, absorbed e = true → e ∈ codes) (s : σ) :
    TellsDeletion p c codes
      ((do
        Op.requireNoNul (.path p) [p]
        deleted p absorbed (outcome (← Op.persist S.recorded c)) : Op (Recorded σ) Bool).run
          ⟨[], s⟩) := by
  rcases Bool.eq_false_or_eq_true ([p].any Path.hasNul) with hnul | hnul
  · rw [Op.requireNoNul_bind_of_hasNul _ hnul]
    exact Or.inr ⟨nofun, rfl⟩
  rw [Op.requireNoNul_bind _ hnul, Op.run_persist_bind]
  obtain ⟨k, hk⟩ := exchanges_persist (S := S) c ⟨[], s⟩
  rcases run_deleted_cases p absorbed (outcome (S.recorded.persist c ⟨[], s⟩).1)
    (S.recorded.persist c ⟨[], s⟩).2 with ⟨e, he, hreply, hrun⟩ | hother
  · rw [houtcome hreply] at hk
    rw [hrun]
    exact Or.inl ⟨e, hcodes e he, _, hk, rfl, rfl⟩
  · exact Or.inr hother

end System

-- =============================================================== requests

namespace Files

variable {σ : Type}

/-- The events of a request agree with the record of its calls and with its
result, on every system, and so in every world and under every script of
faults, wherever the request is aborted. -/
theorem events_agree (F : Files) (S : System σ) (s : σ) (p : Path) :
    (∀ mode, TellsCreation p ((F.perform S.recorded (.mkdirs p mode)).run ⟨[], s⟩))
      ∧ (∀ query, TellsListing p ((F.perform S.recorded (.readDir p query)).run ⟨[], s⟩))
      ∧ (∀ room, TellsDigest p ((F.perform S.recorded (.md5 p room)).run ⟨[], s⟩))
      ∧ TellsDeletion p (.unlink p) [.enoent]
        ((F.perform S.recorded (.unlink p)).run ⟨[], s⟩)
      ∧ TellsDeletion p (.remove p) [.enoent, .enotdir]
        ((F.perform S.recorded (.remove p)).run ⟨[], s⟩) := by
  refine ⟨fun mode => S.tellsCreation_mkdirs p mode s,
    fun query => S.tellsListing_readDir p query s, fun room => S.tellsDigest_md5 p _ s, ?_, ?_⟩
  · exact S.tellsDeletion_of_deleted (c := .unlink p) id (fun h => h) (by simp) s
  · exact S.tellsDeletion_of_deleted (c := .remove p) id (fun h => h) (by simp) s

end Files
end PosixFiles
