/-
What a request makes of the codes that its calls fail with.

Most requests are decided by the reply to one primitive. For those there
is a ruling: what failures are reported against, which primitives are
called, and which codes are answers all the same. The ruling says
everything there is to say about failing calls
(`Files.failures_follow_ruling`): a code other than an interruption ends
the request at once, with the answer that the ruling has for it or else
with a failure that carries this very code; and a request that was put to
the system fails only because its last call did. Setting times has one
exception. Where the newer call does not exist the older one takes its
place, after a look at the file; these two do not fall back on anything.

Replies are those of an arbitrary system, so nothing is assumed about the
codes, neither which of them there are nor when they come.

# The induction

`Course` describes the exchanges of a request from the last one backwards:
an answer or a code that is ruled on, before it calls that were interrupted
or lead on, and at most one call that does not exist. `Continues` is what is
proved of each operation: from any state it adds exchanges to the record
that make up a course together with the exchange that led there, and it
results in what the course comes to.
-/
import PosixFiles.Proofs.Interruption.Operation
import PosixFiles.Proofs.Operation.Record
import PosixFiles.Request
import PosixFiles.System.Prepared

namespace PosixFiles

variable {σ α β : Type}

-- =============================================================== rulings

/-- How failing calls are dealt with. -/
structure Ruling (α : Type) where
  /-- What failures are reported against. -/
  subject : Subject
  /-- The primitives that are called. -/
  primitives : List Primitive
  /-- The answer that is given in spite of a code. -/
  absorbs : Errno → Option α

/-- What a code comes to. -/
def Ruling.verdict (R : Ruling α) (e : Errno) : Except Failure α :=
  match R.absorbs e with
  | some v => .ok v
  | none => .error (.ofErrno R.subject e)

/-- A failure reports a code: with its kind and wording, and against the
subject. -/
structure Failure.Reports (f : Failure) (subject : Subject) (e : Errno) : Prop where
  errno_eq : f.errno = e
  kind_eq : f.kind = e.classify
  description_eq : f.description = e.description
  isUnexpected_eq : f.isUnexpected = e.classifyUnexpected.isSome
  subject_eq : f.subject = subject
  message_eq : f.message = subject.text ++ " (" ++ e.description ++ ")"

theorem Failure.reports_ofErrno (subject : Subject) (e : Errno) :
    (Failure.ofErrno subject e).Reports subject e :=
  ⟨rfl, rfl, rfl, rfl, rfl, rfl⟩

namespace Request

/-- The ruling of a request that one primitive decides; there is none for
those that read or create piece by piece, and for setting the mask, which
makes no call that could fail. -/
def ruling? : (r : Request) → Option (Ruling r.Answer)
  | .stat follow p => some ⟨.path p, [if follow then .stat else .lstat], fun _ => none⟩
  | .statOutcome follow p =>
      some ⟨.path p, [if follow then .stat else .lstat],
        fun e => if e.classifyUnexpected = none then some (.error e.classify e) else none⟩
  | .link _ new => some ⟨.path new, [.link], fun _ => none⟩
  | .symlink _ new => some ⟨.path new, [.symlink], fun _ => none⟩
  | .readlink p => some ⟨.path p, [.readlink], fun _ => none⟩
  | .rename old new => some ⟨.renaming old new, [.rename], fun _ => none⟩
  | .unlink p => some ⟨.path p, [.unlink], fun e => if e = .enoent then some false else none⟩
  | .remove p =>
      some ⟨.path p, [.remove],
        fun e => if e = .enoent ∨ e = .enotdir then some false else none⟩
  | .chmod p _ => some ⟨.path p, [.chmod], fun _ => none⟩
  | .mkfifo p _ => some ⟨.path p, [.mkfifo], fun _ => none⟩
  | .utime p _ _ => some ⟨.path p, [.utimensat, .stat, .utime], fun _ => none⟩
  | .mkdir p _ => some ⟨.path p, [.mkdir], fun e => if e = .eexist then some false else none⟩
  | .getxattr follow p _ _ =>
      some ⟨.path p, [if follow then .getxattr else .lgetxattr],
        fun e => if e = .enodata then some none else none⟩
  | .mkdirs .. | .umask .. | .readDir .. | .md5 .. | .systemParameter .. => none

/-- The byte strings that a request hands to the system. -/
def arguments : Request → List Bytes
  | .stat _ p | .statOutcome _ p | .readlink p | .unlink p | .remove p | .chmod p _
  | .mkfifo p _ | .utime p _ _ | .mkdir p _ | .mkdirs p _ | .readDir p _ | .md5 p _ => [p]
  | .link old new | .symlink old new | .rename old new => [old, new]
  | .getxattr _ p name _ => [p, name]
  | .umask _ => []
  | .systemParameter name => (Parameter.path? name).toList

/-- The room that a request gives for what is read, if it says so. -/
def room? : Request → Option Nat
  | .getxattr _ _ _ room | .md5 _ room => room
  | _ => none

/-- Whether a request can be put to the system: no argument holds a NUL,
and there is room for what is read. -/
def isPresentable (r : Request) : Bool :=
  !r.arguments.any Path.hasNul && r.room? != some 0

end Request

-- =============================================================== courses

/-- A call that does not exist, and that there is another one for. -/
def Exchange.IsMissing (x : Exchange) : Prop :=
  x.call.primitive = .utimensat ∧ errno? x.reply = some .enosys

/-- Exchanges that a ruling allows, with what they come to. -/
inductive Course (R : Ruling α) : List Exchange → Except Failure α → Prop where
  /-- The last call answers. -/
  | answers {x : Exchange} {v : α} : errno? x.reply = none → Course R [x] (.ok v)
  /-- The last call fails. -/
  | fails {x : Exchange} {e : Errno} :
      errno? x.reply = some e → ¬ x.IsMissing → Course R [x] (R.verdict e)
  | interrupted {x : Exchange} {es : List Exchange} {result : Except Failure α} :
      errno? x.reply = some .eintr → Course R es result → Course R (x :: es) result
  /-- An answer that asks for more. -/
  | goesOn {x : Exchange} {es : List Exchange} {result : Except Failure α} :
      errno? x.reply = none → Course R es result → Course R (x :: es) result
  /-- A look at the file comes before the call that takes the place of the
  missing one. -/
  | fallsBack {x : Exchange} {p : Path} {es : List Exchange} {result : Except Failure α} :
      x.IsMissing → R.subject = .path p → es.head?.map Exchange.call = some (.stat true p) →
      Course R es result → Course R (x :: es) result

namespace Course

variable {R : Ruling α} {es : List Exchange} {result : Except Failure α}

theorem ne_nil (h : Course R es result) : es ≠ [] := by
  cases h <;> exact nofun

theorem getLast?_cons (h : Course R es result) (x : Exchange) :
    (x :: es).getLast? = es.getLast? := by
  obtain ⟨y, ys, rfl⟩ := List.exists_cons_of_ne_nil h.ne_nil
  exact List.getLast?_cons_cons ..

theorem interruptions {c : Call} {r : Reply c} (h : Course R (⟨c, r⟩ :: es) result) (k : Nat) :
    Course R (List.replicate k ⟨c, .error .eintr⟩ ++ ⟨c, r⟩ :: es) result := by
  induction k with
  | zero => exact h
  | succ k ih => exact .interrupted rfl ih

/-- A course from the reply to a repeated call on is one from its first
attempt on. -/
theorem of_persist {S : System σ} {c : Call} {t : Recorded σ}
    (h : Course R (⟨c, (S.recorded.persist c t).1⟩ :: es) result)
    (hc : c.primitive ∈ R.primitives) (hes : ∀ y ∈ es, y.call.primitive ∈ R.primitives) :
    ∃ fs, (S.recorded.persist c t).2.exchanges ++ es = t.exchanges ++ fs
      ∧ fs.head?.map Exchange.call = some c ∧ Course R fs result
      ∧ ∀ y ∈ fs, y.call.primitive ∈ R.primitives := by
  obtain ⟨k, hpersist⟩ := System.exchanges_persist (S := S) c t
  refine ⟨_, ?_, ?_, h.interruptions k, ?_⟩
  · rw [hpersist, List.append_assoc, List.append_assoc]
    rfl
  · cases k <;> rfl
  · intro y hy
    rcases List.mem_append.1 hy with hy | hy
    · rw [List.eq_of_mem_replicate hy]
      exact hc
    · rcases List.mem_cons.1 hy with rfl | hy
      · exact hc
      · exact hes y hy

/-- A code other than an interruption is the end of a course, but for a
call that does not exist. -/
theorem of_split (h : Course R es result) {e : Errno} (he : e ≠ .eintr) :
    ∀ {before after : List Exchange} {x : Exchange}, es = before ++ x :: after →
      errno? x.reply = some e →
      if x.call.primitive = .utimensat ∧ e = .enosys then
        ∃ p, R.subject = .path p ∧ after.head?.map Exchange.call = some (.stat true p)
      else after = [] ∧ result = R.verdict e := by
  induction h with
  | answers hy =>
      intro before after x hsplit hx
      cases before with
      | nil =>
          cases hsplit
          rw [hy] at hx
          cases hx
      | cons _ before => cases before <;> cases hsplit
  | @fails y code hy hmissing =>
      intro before after x hsplit hx
      cases before with
      | nil =>
          cases hsplit
          have hcode : code = e := Option.some.inj (hy.symm.trans hx)
          subst hcode
          have hother : ¬ (y.call.primitive = .utimensat ∧ code = .enosys) := by
            rintro ⟨hprimitive, rfl⟩
            exact hmissing ⟨hprimitive, hy⟩
          rw [if_neg hother]
          exact ⟨rfl, rfl⟩
      | cons _ before => cases before <;> cases hsplit
  | interrupted hy hrest ih =>
      intro before after x hsplit hx
      cases before with
      | nil =>
          cases hsplit
          rw [hy] at hx
          exact absurd (Option.some.inj hx).symm he
      | cons _ before => exact ih (List.cons.inj hsplit).2 hx
  | goesOn hy hrest ih =>
      intro before after x hsplit hx
      cases before with
      | nil =>
          cases hsplit
          rw [hy] at hx
          cases hx
      | cons _ before => exact ih (List.cons.inj hsplit).2 hx
  | fallsBack hmissing hsubject hhead hrest ih =>
      intro before after x hsplit hx
      cases before with
      | nil =>
          cases hsplit
          rw [hmissing.2] at hx
          rw [if_pos ⟨hmissing.1, (Option.some.inj hx).symm⟩]
          exact ⟨_, hsubject, hhead⟩
      | cons _ before => exact ih (List.cons.inj hsplit).2 hx

/-- What a course comes to is an answer, or the verdict on its last call. -/
theorem of_error (h : Course R es result) {f : Failure} (hf : result = .error f) :
    ∃ x e, es.getLast? = some x ∧ errno? x.reply = some e ∧ R.absorbs e = none
      ∧ f = .ofErrno R.subject e := by
  induction h with
  | answers hx => cases hf
  | @fails x e hx hmissing =>
      refine ⟨x, e, rfl, hx, ?_⟩
      unfold Ruling.verdict at hf
      cases habsorbs : R.absorbs e with
      | some v =>
          rw [habsorbs] at hf
          cases hf
      | none =>
          rw [habsorbs] at hf
          exact ⟨rfl, (Except.error.inj hf).symm⟩
  | interrupted hx hrest ih =>
      rw [hrest.getLast?_cons]
      exact ih hf
  | goesOn hx hrest ih =>
      rw [hrest.getLast?_cons]
      exact ih hf
  | fallsBack hmissing hsubject hhead hrest ih =>
      rw [hrest.getLast?_cons]
      exact ih hf

end Course

-- ============================================================== continues

/-- From a state that some exchanges led to, an operation adds exchanges
that make up a course together with them. -/
def Continues (R : Ruling α) (led : List Exchange) (x : Op (Recorded σ) α)
    (t : Recorded σ) : Prop :=
  ∃ es, (x.run t).state.exchanges = t.exchanges ++ es
    ∧ Course R (led ++ es) (x.run t).result
    ∧ ∀ y ∈ es, y.call.primitive ∈ R.primitives

namespace Continues

variable {R : Ruling α} {S : System σ} {c : Call} {e : Errno} {x : Op (Recorded σ) α}
  {t : Recorded σ}

/-- An answer that nothing more is asked after. -/
theorem of_answer {a : c.Answer} {v : α} {events : List Event}
    (hrun : x.run t = ⟨.ok v, events, t⟩) : Continues R [⟨c, .ok a⟩] x t := by
  refine ⟨[], ?_, ?_, nofun⟩
  · rw [hrun, List.append_nil]
  · rw [hrun]
    exact .answers rfl

/-- A code that the verdict is given on. -/
theorem of_code (hc : c.primitive ≠ .utimensat ∨ e ≠ .enosys)
    (hrun : ∃ events, x.run t = ⟨R.verdict e, events, t⟩) : Continues R [⟨c, .error e⟩] x t := by
  obtain ⟨events, hrun⟩ := hrun
  have hmissing : ¬ Exchange.IsMissing ⟨c, .error e⟩ := by
    rintro ⟨hprimitive, hcode⟩
    exact hc.elim (· hprimitive) (· (Option.some.inj hcode))
  refine ⟨[], ?_, ?_, nofun⟩
  · rw [hrun, List.append_nil]
  · rw [hrun]
    exact .fails rfl hmissing

/-- A code that is a failure. -/
theorem of_failure (hc : c.primitive ≠ .utimensat ∨ e ≠ .enosys) (hnone : R.absorbs e = none) :
    Continues R [⟨c, .error e⟩] (Op.fail (.ofErrno R.subject e)) t := by
  refine of_code hc ⟨[], ?_⟩
  rw [Ruling.verdict, hnone]
  rfl

/-- An event and an answer for some codes, and failures for all others. -/
theorem of_absorbing (hc : c.primitive ≠ .utimensat) {event : Event} {v : α}
    {condition : Prop} [Decidable condition] (hyes : condition → R.absorbs e = some v)
    (hno : ¬ condition → R.absorbs e = none) :
    Continues R [⟨c, .error e⟩]
      (if condition then do Op.emit event; pure v else Op.fail (.ofErrno R.subject e)) t := by
  by_cases h : condition
  · rw [if_pos h]
    refine of_code (Or.inl hc) ⟨[event], ?_⟩
    rw [Ruling.verdict, hyes h]
    rfl
  · rw [if_neg h]
    exact of_failure (Or.inl hc) (hno h)

theorem of_goesOn {a : c.Answer} (h : Continues R [] x t) : Continues R [⟨c, .ok a⟩] x t := by
  obtain ⟨es, hstate, hcourse, hprimitives⟩ := h
  exact ⟨es, hstate, .goesOn rfl hcourse, hprimitives⟩

/-- A call that is repeated, and first of all made. -/
theorem persist_bind (hc : c.primitive ∈ R.primitives) {f : Reply c → Op (Recorded σ) α}
    (hf : ∀ r t, Continues R [⟨c, r⟩] (f r) t) (t : Recorded σ) :
    ∃ es, ((Op.persist S.recorded c >>= f).run t).state.exchanges = t.exchanges ++ es
      ∧ es.head?.map Exchange.call = some c
      ∧ Course R es ((Op.persist S.recorded c >>= f).run t).result
      ∧ ∀ y ∈ es, y.call.primitive ∈ R.primitives := by
  obtain ⟨es, hstate, hcourse, hprimitives⟩ := hf (S.recorded.persist c t).1
    (S.recorded.persist c t).2
  obtain ⟨fs, hexchanges, hfs⟩ := hcourse.of_persist hc hprimitives
  rw [Op.run_persist_bind]
  exact ⟨fs, hstate.trans hexchanges, hfs⟩

/-- A call that is repeated, and nothing known about what is there first. -/
theorem of_persist (hc : c.primitive ∈ R.primitives) {f : Reply c → Op (Recorded σ) α}
    (hf : ∀ r t, Continues R [⟨c, r⟩] (f r) t) (t : Recorded σ) :
    Continues R [] (Op.persist S.recorded c >>= f) t := by
  obtain ⟨es, hstate, -, hcourse, hprimitives⟩ := persist_bind (S := S) hc hf t
  exact ⟨es, hstate, hcourse, hprimitives⟩

/-- A call that is made once. -/
theorem of_issue (hc : c.primitive ∈ R.primitives) {f : Reply c → Op (Recorded σ) α}
    (hf : ∀ r t, Continues R [⟨c, r⟩] (f r) t) (t : Recorded σ) :
    Continues R [] (Op.issue S.recorded c >>= f) t := by
  obtain ⟨es, hstate, hcourse, hprimitives⟩ := hf (S.recorded.call c t).1 (S.recorded.call c t).2
  rw [Continues, Op.run_issue_bind]
  refine ⟨_, ?_, hcourse, List.forall_mem_cons.2 ⟨hc, hprimitives⟩⟩
  rw [hstate, System.exchanges_call, List.append_assoc]
  rfl

/-- A reply that is accepted where no code is absorbed. -/
theorem accept {R : Ruling c.Answer} (hnone : R.absorbs = fun _ => none)
    (hc : c.primitive ≠ .utimensat) (r : Reply c) (t : Recorded σ) :
    Continues R [⟨c, r⟩] (Op.accept R.subject r) t := by
  cases r with
  | ok a => exact of_answer rfl
  | error e => exact of_failure (Or.inl hc) (congrFun hnone e)

end Continues

-- ============================================================ operations

namespace System

variable {S : System σ}

/-- A check that lets the arguments through, and one call that is repeated. -/
theorem continues_checked {R : Ruling α} {subject : Subject} {arguments : List Bytes}
    (hnul : arguments.any Path.hasNul = false) {c : Call} (hc : c.primitive ∈ R.primitives)
    {f : Reply c → Op (Recorded σ) α} (hf : ∀ r t, Continues R [⟨c, r⟩] (f r) t)
    (t : Recorded σ) :
    Continues R []
      (Op.requireNoNul subject arguments >>= fun _ => Op.persist S.recorded c >>= f) t := by
  rw [Op.requireNoNul_bind _ hnul]
  exact Continues.of_persist hc hf t

/-- A check, and one call whose reply is accepted. -/
theorem continues_accepted {c : Call} {R : Ruling c.Answer} {arguments : List Bytes}
    (hnul : arguments.any Path.hasNul = false) (hnone : R.absorbs = fun _ => none)
    (hc : c.primitive ∈ R.primitives) (hother : c.primitive ≠ .utimensat) (t : Recorded σ) :
    Continues R [] (Op.requireNoNul R.subject arguments >>= fun _ =>
      Op.persist S.recorded c >>= fun r => Op.accept R.subject r) t :=
  continues_checked hnul hc (Continues.accept hnone hother) t

theorem continues_statOutcome (follow : Bool) (p : Path) {R : Ruling StatOutcome}
    (hr : Request.ruling? (.statOutcome follow p) = some R) (hnul : [p].any Path.hasNul = false)
    (t : Recorded σ) : Continues R [] (S.recorded.statOutcome follow p) t := by
  cases hr
  have hprimitive : (Call.stat follow p).primitive = if follow then .stat else .lstat := by
    cases follow <;> rfl
  refine continues_checked hnul (List.mem_singleton.2 hprimitive) (fun r t => ?_) t
  cases r with
  | ok st => exact Continues.of_answer rfl
  | error e =>
      have hordinary : ¬ e.isUnexpected = true ↔ e.classifyUnexpected = none := by
        rw [Errno.isUnexpected, Option.not_isSome_iff_eq_none]
      dsimp only
      rw [← ite_not (e.isUnexpected = true)]
      refine Continues.of_absorbing ?_ (fun h => ?_) fun h => ?_
      · cases follow <;> exact nofun
      · exact if_pos (hordinary.1 h)
      · exact if_neg (mt hordinary.2 h)

/-- What a deleting call came to. -/
theorem continues_deleted {p : Path} {absorbed : Errno → Bool} {R : Ruling Bool}
    (hsubject : R.subject = .path p)
    (habsorbs : ∀ e, R.absorbs e = if absorbed e then some false else none) {c : Call}
    (hc : c.primitive ≠ .utimensat) (e : Errno) (t : Recorded σ) :
    Continues R [⟨c, .error e⟩] (deleted p absorbed (.error e)) t := by
  unfold deleted
  rw [← hsubject]
  exact Continues.of_absorbing hc (fun h => (habsorbs e).trans (if_pos h))
    fun h => (habsorbs e).trans (if_neg h)

theorem continues_unlink (p : Path) {R : Ruling Bool}
    (hr : Request.ruling? (.unlink p) = some R) (hnul : [p].any Path.hasNul = false)
    (t : Recorded σ) : Continues R [] (S.recorded.unlink p) t := by
  cases hr
  refine continues_checked hnul (List.mem_singleton.2 rfl) (fun r t => ?_) t
  cases r with
  | ok u => exact Continues.of_answer rfl
  | error e => exact continues_deleted (c := .unlink p) rfl (fun e => by simp) nofun e t

theorem continues_remove (p : Path) {R : Ruling Bool}
    (hr : Request.ruling? (.remove p) = some R) (hnul : [p].any Path.hasNul = false)
    (t : Recorded σ) : Continues R [] (S.recorded.remove p) t := by
  cases hr
  refine continues_checked hnul (List.mem_singleton.2 rfl) (fun r t => ?_) t
  cases r with
  | ok u => exact Continues.of_answer rfl
  | error e => exact continues_deleted (c := .remove p) rfl (fun e => by simp) nofun e t

theorem continues_mkdir (p : Path) (mode : UInt32) {R : Ruling Bool}
    (hr : Request.ruling? (.mkdir p mode) = some R) (hnul : [p].any Path.hasNul = false)
    (t : Recorded σ) : Continues R [] (S.recorded.mkdir p mode) t := by
  cases hr
  refine continues_checked hnul (List.mem_singleton.2 rfl) (fun r t => ?_) t
  cases r with
  | ok u => exact Continues.of_answer rfl
  | error e =>
      refine Continues.of_absorbing ?_ (fun h => ?_) fun h => ?_
      · exact nofun
      · exact if_pos h
      · exact if_neg h

/-- Reading an attribute is not repeated: an interruption is a code like
any other. -/
theorem continues_getxattr (follow : Bool) (p : Path) (name : Bytes) {room : Nat}
    (room? : Option Nat) {R : Ruling (Option Bytes)}
    (hr : Request.ruling? (.getxattr follow p name room?) = some R) (hroom : 0 < room)
    (hnul : [p, name].any Path.hasNul = false) (t : Recorded σ) :
    Continues R [] (S.recorded.getxattr follow p name room) t := by
  cases hr
  have hprimitive : (Call.getxattr follow p name room).primitive
      = if follow then .getxattr else .lgetxattr := by
    cases follow <;> rfl
  have hne : room ≠ 0 := by omega
  simp only [getxattr, if_neg hne]
  rw [Op.requireNoNul_bind _ hnul]
  refine Continues.of_issue (List.mem_singleton.2 hprimitive) (fun r t => ?_) t
  cases r with
  | ok value => exact Continues.of_answer (v := some _) rfl
  | error e =>
      refine Continues.of_absorbing ?_ (fun h => ?_) fun h => ?_
      · cases follow <;> exact nofun
      · exact if_pos h
      · exact if_neg h

/-- Attempts to read a link with more and more room. -/
theorem course_readlinkFrom (p : Path) (k : Nat) (buffer : Bytes) {R : Ruling Bytes}
    (hr : Request.ruling? (.readlink p) = some R) (t : Recorded σ) :
    ∃ es, (S.recorded.readlinkFrom p k buffer t).2.exchanges = t.exchanges ++ es
      ∧ Course R es ((S.recorded.readlinkFrom p k buffer t).1.mapError (.ofErrno (.path p)))
      ∧ ∀ y ∈ es, y.call.primitive ∈ R.primitives := by
  have hc : ∀ k, (Call.readlink p (linkRoom k)).primitive ∈ R.primitives := by
    cases hr
    exact fun k => List.mem_singleton_self _
  have hverdict : ∀ e, R.verdict e = .error (.ofErrno (.path p) e) := by
    cases hr
    exact fun e => rfl
  fun_induction System.readlinkFrom S.recorded p k buffer t with
  | case1 k buffer t r e hreply =>
      have hlast : Course R [⟨.readlink p (linkRoom k), r.1⟩] (.error (.ofErrno (.path p) e)) := by
        rw [hreply, ← hverdict]
        exact .fails rfl fun h => Primitive.noConfusion h.1
      obtain ⟨es, hexchanges, -, hes⟩ := hlast.of_persist (hc k) (List.forall_mem_nil _)
      rw [List.append_nil] at hexchanges
      exact ⟨es, hexchanges, hes⟩
  | case2 k buffer t r target hreply hfull =>
      rw [Bytes.take_overwrite]
      have hlast : Course R [⟨.readlink p (linkRoom k), r.1⟩] (.ok target) := by
        rw [hreply]
        exact .answers rfl
      obtain ⟨es, hexchanges, -, hes⟩ := hlast.of_persist (hc k) (List.forall_mem_nil _)
      rw [List.append_nil] at hexchanges
      exact ⟨es, hexchanges, hes⟩
  | case3 k buffer t r target hreply hfull ih =>
      obtain ⟨es, hstate, hcourse, hprimitives⟩ := ih
      have hmore : Course R (⟨.readlink p (linkRoom k), r.1⟩ :: es) _ :=
        .goesOn (by rw [hreply]; rfl) hcourse
      obtain ⟨fs, hexchanges, -, hfs⟩ := hmore.of_persist (hc k) hprimitives
      exact ⟨fs, hstate.trans hexchanges, hfs⟩

/-- What the attempts to read a link come to is what reading it comes to. -/
theorem run_readlink (S : System σ) {p : Path} (hnul : [p].any Path.hasNul = false) (s : σ) :
    (S.readlink p).run s
      = ⟨(S.readlinkFrom p 0 (Bytes.zeros (linkRoom 0)) s).1.mapError (.ofErrno (.path p)), [],
          (S.readlinkFrom p 0 (Bytes.zeros (linkRoom 0)) s).2⟩ := by
  have hrun : (S.readlink p).run s
      = (Op.accept (.path p) (S.readlinkFrom p 0 (Bytes.zeros (linkRoom 0)) s).1).run
          (S.readlinkFrom p 0 (Bytes.zeros (linkRoom 0)) s).2 := by
    unfold readlink
    rw [Op.requireNoNul_bind _ hnul]
    rfl
  rw [hrun]
  cases (S.readlinkFrom p 0 (Bytes.zeros (linkRoom 0)) s).1 <;> rfl

theorem continues_readlink (p : Path) {R : Ruling Bytes}
    (hr : Request.ruling? (.readlink p) = some R) (hnul : [p].any Path.hasNul = false)
    (t : Recorded σ) : Continues R [] (S.recorded.readlink p) t := by
  obtain ⟨es, hstate, hcourse, hprimitives⟩ :=
    course_readlinkFrom (S := S) p 0 (Bytes.zeros (linkRoom 0)) hr t
  rw [Continues, run_readlink S.recorded hnul]
  exact ⟨es, hstate, hcourse, hprimitives⟩

-- ================================================================= times

/-- After a look at the clock, the rest runs from the same state. -/
theorem run_present_bind (S : System σ) (f : Int64 → Op σ α) (s : σ) :
    (S.present >>= f).run s = (f (max 0 (S.clock s).secs)).run s :=
  Op.run_bind_ok (show S.present.run s = ⟨.ok (max 0 (S.clock s).secs), [], s⟩ from rfl)

/-- The calls that take the place of the missing one: a look at the file
comes first, and neither of the two falls back on anything. -/
theorem course_utimeCoarse (p : Path) (now : Bool) (mtime : Int64) {R : Ruling Unit}
    (hr : Request.ruling? (.utime p now mtime) = some R) (t : Recorded σ) :
    ∃ es, ((S.recorded.utimeCoarse p now mtime).run t).state.exchanges = t.exchanges ++ es
      ∧ es.head?.map Exchange.call = some (.stat true p)
      ∧ Course R es ((S.recorded.utimeCoarse p now mtime).run t).result
      ∧ ∀ y ∈ es, y.call.primitive ∈ R.primitives := by
  have hset : ∀ a m t, Continues R []
      (Op.persist S.recorded (.utime p a m) >>= fun r => Op.accept (.path p) r) t := by
    cases hr
    intro a m t
    have hmem : (Call.utime p a m).primitive ∈ [Primitive.utimensat, .stat, .utime] :=
      List.mem_cons_of_mem _ (List.mem_cons_of_mem _ (List.mem_singleton_self _))
    have hother : (Call.utime p a m).primitive ≠ .utimensat := nofun
    exact Continues.of_persist hmem (Continues.accept rfl hother) t
  cases hr
  refine Continues.persist_bind (List.mem_cons_of_mem _ (List.mem_cons_self ..)) (fun r t => ?_) t
  cases r with
  | error e => exact Continues.of_failure (Or.inl nofun) rfl
  | ok st =>
      refine Continues.of_goesOn ?_
      rw [Op.accept_ok_bind]
      cases now with
      | true =>
          rw [if_pos rfl, Continues, run_present_bind]
          exact hset _ _ t
      | false =>
          rw [if_neg Bool.false_ne_true, pure_bind]
          exact hset _ _ t

theorem continues_utime (p : Path) (now : Bool) (mtime : Int64) {R : Ruling Unit}
    (hr : Request.ruling? (.utime p now mtime) = some R) (hnul : [p].any Path.hasNul = false)
    (t : Recorded σ) : Continues R [] (S.recorded.utime p now mtime) t := by
  have hcoarse := course_utimeCoarse (S := S) p now mtime hr
  cases hr
  refine continues_checked hnul (List.mem_cons_self ..) (fun r t => ?_) t
  cases r with
  | ok u => exact Continues.of_answer rfl
  | error e =>
      dsimp only
      by_cases he : e = .enosys
      · subst he
        rw [if_pos rfl]
        obtain ⟨es, hstate, hhead, hcourse, hprimitives⟩ := hcoarse t
        exact ⟨es, hstate, .fallsBack ⟨rfl, rfl⟩ rfl hhead hcourse, hprimitives⟩
      · rw [if_neg he]
        exact Continues.of_failure (Or.inr he) rfl

end System

-- ============================================================== requests

namespace Files

variable {S : System σ}

/-- A request that can be put to the system keeps to its ruling. -/
theorem continues_perform (F : Files) {r : Request} {R : Ruling r.Answer}
    (hr : r.ruling? = some R) (hp : r.isPresentable = true) (t : Recorded σ) :
    Continues R [] (F.perform S.recorded r) t := by
  unfold Request.isPresentable at hp
  rw [Bool.and_eq_true, Bool.not_eq_true', bne_iff_ne] at hp
  obtain ⟨hnul, hroom⟩ := hp
  cases r with
  | stat follow p =>
      cases hr
      have hprimitive : (Call.stat follow p).primitive = if follow then .stat else .lstat := by
        cases follow <;> rfl
      have hother : (Call.stat follow p).primitive ≠ .utimensat := by
        cases follow <;> exact nofun
      exact System.continues_accepted hnul rfl (List.mem_singleton.2 hprimitive) hother t
  | link old new =>
      cases hr
      exact System.continues_accepted (c := .link old new) hnul rfl (List.mem_singleton_self _)
        nofun t
  | symlink target p =>
      cases hr
      exact System.continues_accepted (c := .symlink target p) hnul rfl
        (List.mem_singleton_self _) nofun t
  | rename old new =>
      cases hr
      exact System.continues_accepted (c := .rename old new) hnul rfl
        (List.mem_singleton_self _) nofun t
  | chmod p mode =>
      cases hr
      exact System.continues_accepted (c := .chmod p mode) hnul rfl (List.mem_singleton_self _)
        nofun t
  | mkfifo p mode =>
      cases hr
      exact System.continues_accepted (c := .mkfifo p mode) hnul rfl (List.mem_singleton_self _)
        nofun t
  | statOutcome follow p => exact System.continues_statOutcome follow p hr hnul t
  | readlink p => exact System.continues_readlink p hr hnul t
  | unlink p => exact System.continues_unlink p hr hnul t
  | remove p => exact System.continues_remove p hr hnul t
  | mkdir p mode => exact System.continues_mkdir p mode hr hnul t
  | utime p now mtime => exact System.continues_utime p now mtime hr hnul t
  | getxattr follow p name room? =>
      refine System.continues_getxattr follow p name room? hr ?_ hnul t
      cases room? with
      | none => exact (F.valid.get_le .xattrBufferSize).1
      | some room => exact Nat.pos_of_ne_zero fun h => hroom (congrArg some h)
  | mkdirs | umask | readDir | md5 | systemParameter => cases hr

/-- A request that cannot be put to the system fails before any call. -/
theorem run_of_not_presentable (F : Files) {r : Request} {R : Ruling r.Answer}
    (hr : r.ruling? = some R) (hp : r.isPresentable = false) (t : σ) :
    ∃ f, (F.perform S r).run t = ⟨.error f, [], t⟩ := by
  unfold Request.isPresentable at hp
  have hrefused : ∀ {β : Type} {subject : Subject} (g : Unit → Op σ β),
      r.arguments.any Path.hasNul = true →
      ∃ f, (Op.requireNoNul subject r.arguments >>= g).run t = ⟨.error f, [], t⟩ := by
    intro β subject g hnul
    rw [Op.requireNoNul_bind_of_hasNul g hnul]
    exact ⟨_, rfl⟩
  have hnul : r.room? ≠ some 0 → r.arguments.any Path.hasNul = true := by
    intro hroom
    rw [bne_iff_ne.2 hroom, Bool.and_true] at hp
    rwa [Bool.not_eq_false'] at hp
  cases r with
  | getxattr follow p name room =>
      show ∃ f, (S.getxattr follow p name (room.getD F.config.xattrBufferSize)).run t = _
      by_cases hzero : room.getD F.config.xattrBufferSize = 0
      · simp only [System.getxattr, if_pos hzero, Op.fail_bind]
        exact ⟨_, rfl⟩
      · simp only [System.getxattr, if_neg hzero]
        refine hrefused _ (hnul fun hroom => hzero ?_)
        have hroom : room = some 0 := hroom
        rw [hroom]
        rfl
  | stat | statOutcome | link | symlink | readlink | rename | unlink | remove | chmod | mkfifo
  | utime | mkdir => exact hrefused _ (hnul (Option.some_ne_none 0).symm)
  | mkdirs | umask | readDir | md5 | systemParameter => cases hr

/-- How the calls of a request that has a ruling fail, and the request with
them. A code other than an interruption is reported by one of the primitives
of the ruling, and it is what the request ends with: an answer where the
ruling absorbs the code, and a failure that reports this code where it does
not. The one exception is the call for setting times that does not exist,
after which a look at the file comes. If a request that can be put to the
system fails, then for that reason; and a call is made for it in any case. -/
theorem failures_follow_ruling (F : Files) (S : System σ) {r : Request} {R : Ruling r.Answer}
    (hr : r.ruling? = some R) (s : σ) :
    let o := (F.perform S.recorded r).run ⟨[], s⟩
    (∀ before x after e, o.state.exchanges = before ++ x :: after → errno? x.reply = some e →
        e ≠ .eintr →
        x.call.primitive ∈ R.primitives ∧
          if x.call.primitive = .utimensat ∧ e = .enosys then
            ∃ p, R.subject = .path p ∧ after.head?.map Exchange.call = some (.stat true p)
          else
            after = [] ∧ (∀ v, R.absorbs e = some v → o.result = .ok v)
              ∧ (R.absorbs e = none → ∃ f, o.result = .error f ∧ f.Reports R.subject e))
      ∧ (r.isPresentable = true →
          o.state.exchanges ≠ []
            ∧ ∀ f, o.result = .error f → ∃ x e, o.state.exchanges.getLast? = some x
              ∧ errno? x.reply = some e ∧ R.absorbs e = none ∧ f.Reports R.subject e) := by
  intro o
  cases hp : r.isPresentable with
  | false =>
      obtain ⟨f, hrun⟩ := F.run_of_not_presentable (S := S.recorded) hr hp ⟨[], s⟩
      have hnone : o.state.exchanges = [] := by
        show ((F.perform S.recorded r).run ⟨[], s⟩).state.exchanges = []
        rw [hrun]
        rfl
      refine ⟨fun before x after e hsplit => ?_, nofun⟩
      rw [hnone] at hsplit
      cases before <;> cases hsplit
  | true =>
      obtain ⟨es, hexchanges, hcourse, hprimitives⟩ := F.continues_perform (S := S) hr hp ⟨[], s⟩
      have hes : o.state.exchanges = es := hexchanges
      have hcourse : Course R es o.result := hcourse
      rw [hes]
      refine ⟨fun before x after e hsplit hx he => ⟨?_, ?_⟩, fun _ => ⟨hcourse.ne_nil, ?_⟩⟩
      · refine hprimitives x ?_
        rw [hsplit]
        exact List.mem_append_right _ (List.mem_cons_self ..)
      · have hend := hcourse.of_split he hsplit hx
        by_cases hmissing : x.call.primitive = .utimensat ∧ e = .enosys
        · rw [if_pos hmissing] at hend ⊢
          exact hend
        · rw [if_neg hmissing] at hend ⊢
          obtain ⟨hafter, hresult⟩ := hend
          refine ⟨hafter, fun v hv => ?_, fun hnone => ⟨_, ?_, Failure.reports_ofErrno _ e⟩⟩
          · rw [hresult, Ruling.verdict, hv]
          · rw [hresult, Ruling.verdict, hnone]
      · intro f hf
        obtain ⟨x, e, hlast, hx, hnone, rfl⟩ := hcourse.of_error hf
        exact ⟨x, e, hlast, hx, hnone, Failure.reports_ofErrno _ e⟩

/-- Times to be set where the newer call is interrupted and then does not
exist, and the older one does not exist either: that is the failure. -/
theorem failures_follow_ruling_utime :
    let p : Path := [0x66]
    let r : Request := .utime p false 1000
    let R : Ruling Unit := ⟨.path p, [.utimensat, .stat, .utime], fun _ => none⟩
    let s : List PreparedReply :=
      [fun _ => .error .eintr, fun _ => .error .enosys,
        fun | .stat .. => .ok {} | _ => .error .ebadf, fun _ => .error .enosys]
    let o := (perform {} System.prepared.recorded r).run ⟨[], s⟩
    r.ruling? = some R ∧ r.isPresentable = true ∧ o.state.exchanges.length = 4
      ∧ errno? (o.result.mapError Failure.errno) = some .enosys
      ∧ (∀ before x after e, o.state.exchanges = before ++ x :: after →
          errno? x.reply = some e → e ≠ .eintr →
          x.call.primitive ∈ R.primitives ∧
            if x.call.primitive = .utimensat ∧ e = .enosys then
              ∃ p, R.subject = .path p ∧ after.head?.map Exchange.call = some (.stat true p)
            else
              after = [] ∧ (∀ v, R.absorbs e = some v → o.result = .ok v)
                ∧ (R.absorbs e = none → ∃ f, o.result = .error f ∧ f.Reports R.subject e))
      ∧ (r.isPresentable = true →
          o.state.exchanges ≠ []
            ∧ ∀ f, o.result = .error f → ∃ x e, o.state.exchanges.getLast? = some x
              ∧ errno? x.reply = some e ∧ R.absorbs e = none ∧ f.Reports R.subject e) :=
  ⟨rfl, by decide, by decide +kernel, by decide +kernel,
    failures_follow_ruling {} System.prepared rfl _⟩

end Files
end PosixFiles
