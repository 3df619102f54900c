/-
Operations that agree on scripts with and without interruptions.

`Agrees pre x post` says that an operation started in alike states, in
which `pre` holds beneath the scripts, has the same result in both and
leaves alike states; that `post` holds of the value and of the state
beneath if it succeeds; and that it does not fail with an interruption.
The rules below build this up along an operation: from the single calls
that are repeated, over sequences, to the loops. Conditions are needed
only for handles: closing one agrees as long as it is open, for then the
call that is let through succeeds, and that is what an interrupted one
counts as.
-/
import PosixFiles.Operation.Basic
import PosixFiles.Proofs.Interruption.Script
import PosixFiles.Proofs.Operation.Run

namespace PosixFiles

variable {σ α β : Type} {S : System σ} {holds : Handle → σ → Prop}

/-- What a result says: a value fulfils a condition, and no failure is an
interruption. -/
def Except.Spared (post : α → σ → Prop) (s : σ) : Except Failure α → Prop
  | .ok v => post v s
  | .error f => f.errno ≠ .eintr

/-- What is made of a value fulfils what the value makes sure of. -/
theorem Except.Spared.map {post : α → σ → Prop} {post' : β → σ → Prop} {g : α → β} {s : σ}
    {r : Except Failure α} (h : Except.Spared post s r) (hg : ∀ v, post v s → post' (g v) s) :
    Except.Spared post' s (r.map g) := by
  cases r with
  | ok v => exact hg v h
  | error f => exact h

/-- From alike states an operation has one result, and leads to alike
states. -/
def Agrees (pre : σ → Prop) (x : Op (Recorded (Scripted σ)) α) (post : α → σ → Prop) : Prop :=
  ∀ n a b, Alike n a b → pre a.state.state →
    (x.run b).result = (x.run a).result ∧ Alike n (x.run a).state (x.run b).state
      ∧ Except.Spared post (x.run a).state.state.state (x.run a).result

/-- Nothing is required of a state. -/
abbrev anyState : σ → Prop := fun _ => True

/-- Nothing is said of a value. -/
abbrev anyValue : α → σ → Prop := fun _ _ => True

namespace Agrees

variable {pre : σ → Prop} {post : α → σ → Prop}

-- ================================================================= rules

theorem pure (v : α) (h : ∀ s, pre s → post v s) :
    Agrees pre (Pure.pure v : Op (Recorded (Scripted σ)) α) post :=
  fun _ a _ hab hpre => ⟨rfl, hab, h a.state.state hpre⟩

theorem fail {f : Failure} (h : f.errno ≠ .eintr) :
    Agrees pre (Op.fail f : Op (Recorded (Scripted σ)) α) post :=
  fun _ _ _ hab _ => ⟨rfl, hab, h⟩

theorem emit (e : Event) :
    Agrees pre (Op.emit e : Op (Recorded (Scripted σ)) Unit) fun _ s => pre s :=
  fun _ _ _ hab hpre => ⟨rfl, hab, hpre⟩

/-- Two operations in a row agree if each does, the second for every value
that the first may have. -/
theorem bind {x : Op (Recorded (Scripted σ)) α} {f : α → Op (Recorded (Scripted σ)) β}
    {mid : α → σ → Prop} {post : β → σ → Prop} (hx : Agrees pre x mid)
    (hf : ∀ v, Agrees (mid v) (f v) post) : Agrees pre (x >>= f) post := by
  intro n a b hab hpre
  obtain ⟨hresult, halike, hspared⟩ := hx n a b hab hpre
  rw [Op.run_bind, Op.run_bind, hresult]
  cases hr : (x.run a).result with
  | error e =>
      rw [hr] at hspared
      exact ⟨rfl, halike, hspared⟩
  | ok v =>
      rw [hr] at hspared
      exact hf v _ _ _ halike hspared

/-- Less may be required and more be promised. -/
theorem consequence {pre' : σ → Prop} {post' : α → σ → Prop}
    {x : Op (Recorded (Scripted σ)) α} (h : Agrees pre x post) (hpre : ∀ s, pre' s → pre s)
    (hpost : ∀ v s, post v s → post' v s) : Agrees pre' x post' := by
  intro n a b hab hp
  obtain ⟨hresult, halike, hspared⟩ := h n a b hab (hpre _ hp)
  refine ⟨hresult, halike, ?_⟩
  cases hr : (x.run a).result with
  | error e =>
      rw [hr] at hspared
      exact hspared
  | ok v =>
      rw [hr] at hspared
      exact hpost v _ hspared

/-- What holds of every value may be promised of it. -/
theorem of_anyValue {x : Op (Recorded (Scripted σ)) α} (h : Agrees pre x anyValue)
    (hpost : ∀ v s, post v s) : Agrees pre x post :=
  h.consequence (fun _ hp => hp) fun v s _ => hpost v s

/-- A condition that does not depend on the state may be taken out. -/
theorem of_condition {P : Prop} {x : Op (Recorded (Scripted σ)) α}
    (h : P → Agrees pre x post) : Agrees (fun s => P ∧ pre s) x post :=
  fun n a b hab hp => h hp.1 n a b hab hp.2

-- ================================================================= calls

/-- A call of what is repeated agrees, once it is repeated; its reply is no
interruption. -/
theorem persist (hS : Calm S holds) (c : Call) (hc : c.primitive.isRepeated = true) :
    Agrees pre (Op.persist S.faulty.recorded c)
      fun r s => errno? r ≠ some .eintr ∧ anyState s := by
  intro n a b hab _
  obtain ⟨hreply, halike⟩ := hab.persist hS hc
  refine ⟨?_, halike, S.faulty.recorded.errno?_persist_ne c a, trivial⟩
  rw [Op.run_persist, Op.run_persist, hreply]

/-- A reply that is no interruption agrees when it is turned into a value
or a failure. -/
theorem accept {subject : Subject} (r : Except Errno α) :
    Agrees (fun s => errno? r ≠ some .eintr ∧ ∀ v, r = .ok v → post v s)
      (Op.accept subject r : Op (Recorded (Scripted σ)) α) post := by
  intro n a b hab h
  cases r with
  | ok v => exact ⟨rfl, hab, h.2 v rfl⟩
  | error e => exact ⟨rfl, hab, fun he => h.1 (congrArg some he)⟩

theorem closed (subject : Subject) (r : Except Errno Unit) :
    Agrees pre (Op.closed subject r : Op (Recorded (Scripted σ)) Unit) fun _ s => pre s := by
  cases r with
  | ok u => exact Agrees.pure u fun s hs => hs
  | error e =>
      unfold Op.closed
      dsimp only
      by_cases he : e = .eintr
      · rw [if_pos he]
        exact Agrees.pure () fun s hs => hs
      · rw [if_neg he]
        exact Agrees.fail he

theorem requireNoNul (subject : Subject) (arguments : List Bytes) :
    Agrees pre (Op.requireNoNul subject arguments : Op (Recorded (Scripted σ)) Unit)
      fun _ s => pre s := by
  unfold Op.requireNoNul
  by_cases h : arguments.any Path.hasNul = true
  · rw [if_pos h]
    exact Agrees.fail (show Errno.einval ≠ .eintr by decide)
  · rw [if_neg h]
    exact Agrees.pure () fun s hs => hs

/-- The answer of a call that is repeated fulfils what the system beneath
promises of its answers. -/
theorem persist_accept (hS : Calm S holds) {subject : Subject} (c : Call)
    (hc : c.primitive.isRepeated = true) {post : c.Answer → σ → Prop}
    (hpost : ∀ s v, (S.call c s).1 = .ok v → post v (S.call c s).2) :
    Agrees pre (Op.persist S.faulty.recorded c >>= Op.accept subject) post := by
  have hreply : Agrees pre (Op.persist S.faulty.recorded c)
      fun r s => errno? r ≠ some .eintr ∧ ∀ v, r = .ok v → post v s := by
    intro n a b hab hpre
    obtain ⟨hresult, halike, hne, -⟩ := Agrees.persist hS c hc n a b hab hpre
    refine ⟨hresult, halike, hne, fun v hr => ?_⟩
    obtain ⟨s, hs, hstate⟩ := Alike.exists_call_of_persist_ok hr
    rw [Op.run_persist]
    dsimp only
    rw [hstate]
    exact hpost s v hs
  exact hreply.bind Agrees.accept

/-- A single call that is neither repeated nor closes anything agrees, and
leaves open what is open. -/
theorem issue (hS : Calm S holds) {c : Call} (hc : c.primitive.isRepeated = false)
    (hcloses : c.closesHandle = false) (h : Handle) :
    Agrees (holds h) (Op.issue S.faulty.recorded c) fun _ s => holds h s := by
  intro n a b hab hh
  obtain ⟨hreply, halike⟩ := hab.call_eq (S := S) hcloses fun _ => hc
  refine ⟨?_, halike, Alike.holds_call hS hcloses hh⟩
  rw [Op.run_issue, Op.run_issue, hreply]

/-- A call that closes agrees together with what comes after it, if that
takes an interruption for the reply that there would have been. -/
theorem issue_close_bind {c : Call} (hc : c.closesHandle = true)
    {f : Reply c → Op (Recorded (Scripted σ)) α}
    (hf : ∀ s, pre s → f (S.call c s).1 = f (.error .eintr))
    (hrest : ∀ r, Agrees anyState (f r) post) :
    Agrees pre (Op.issue S.faulty.recorded c >>= f) post := by
  intro n a b hab hpre
  have hrep : c.primitive.isRepeated = false := by
    cases c <;> first | rfl | cases hc
  obtain ⟨halike, hreply⟩ := hab.call (S := S) (c := c) fun _ => hrep
  rw [Op.run_issue_bind, Op.run_issue_bind]
  have heq : f (S.faulty.recorded.call c b).1 = f (S.faulty.recorded.call c a).1 := by
    rcases hreply with heq | ⟨-, ha, hb⟩
    · rw [heq]
    · rw [ha, hb]
      exact hf _ hpre
  rw [heq]
  exact hrest _ _ _ _ halike trivial

/-- A computation with a value for every end agrees as an operation. -/
theorem of_computation {f : Recorded (Scripted σ) → α × Recorded (Scripted σ)}
    (h : ∀ n a b, Alike n a b → pre a.state.state →
      (f b).1 = (f a).1 ∧ Alike n (f a).2 (f b).2 ∧ post (f a).1 (f a).2.state.state) :
    Agrees pre (fun s => ⟨.ok (f s).1, [], (f s).2⟩) post := by
  intro n a b hab hpre
  obtain ⟨hvalue, halike, hpost⟩ := h n a b hab hpre
  exact ⟨congrArg Except.ok hvalue, halike, hpost⟩

end Agrees
end PosixFiles
