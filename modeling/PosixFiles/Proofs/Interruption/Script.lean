/-
Scripts of faults with and without interruptions.

# Quiet scripts

`Fault.quiet` takes the interruptions out of a script. What becomes of one
depends on what callers do about it. Most primitives are called again, so
the interruption is dropped. A call that closes is never made again, for
it has given the handle back; the interruption makes room for a call that
is let through. Asking about an entry of a directory is not repeated, and
has another answer when it is interrupted, so there the interruption
stays.

# Alike states

Two states are alike if one has the quiet form of the script of the other,
and nothing tells them apart beneath (`Alike`). An interrupted call of a
primitive that is called again leads to a state that is still alike the
same one (`Alike.of_interrupted`). Any other call gets the same reply in
both and leads to alike states again (`Alike.call`), closing included,
except for the reply to an interrupted one. So calls that are repeated
until they are not interrupted agree (`Alike.persist`); the induction is
on the calls made in the first state, which is the one with interruptions
to come.

A count goes with it: the calls that the first state has made more than
the second, and the interruptions that are to come, are together as many
from beginning to end.
-/
import PosixFiles.System.Faulty
import PosixFiles.System.Recorded

namespace PosixFiles

-- ========================================================= quiet scripts

/-- Whether an interrupted call of a primitive is to be made again. -/
def Primitive.isRepeated : Primitive → Bool
  | .fstatat | .close | .closedir => false
  | _ => true

namespace Fault

/-- A fault without the interruption, if that leaves anything. -/
def quieted (f : Fault) : Option Fault :=
  if f.errno = some .eintr then
    match f.primitive with
    | .fstatat => some f
    | .close | .closedir => some { f with errno := none }
    | _ => none
  else some f

/-- A script without interruptions. -/
def quiet (script : List Fault) : List Fault :=
  script.filterMap quieted

/-- How many interruptions a quiet script lacks. -/
def interruptions (script : List Fault) : Nat :=
  script.countP fun f => f.quieted.isNone

/-- What strikes a call in place of a code, once interruptions are taken
out: a call that closes is let through instead of being interrupted. -/
def settled (p : Primitive) (e : Option Errno) : Option Errno :=
  if e = some .eintr ∧ (p = .close ∨ p = .closedir) then none else e

/-- An interruption of what is repeated leaves nothing. -/
theorem quieted_of_repeated {f : Fault} (h : f.errno = some .eintr)
    (hp : f.primitive.isRepeated = true) : f.quieted = none := by
  rw [quieted, if_pos h]
  split
  next hf =>
    rw [hf] at hp
    cases hp
  next hf =>
    rw [hf] at hp
    cases hp
  next hf =>
    rw [hf] at hp
    cases hp
  next => rfl

/-- Any other fault leaves one of the same primitive. -/
theorem quieted_of_not_repeated {f : Fault}
    (h : f.errno = some .eintr → f.primitive.isRepeated = false) :
    f.quieted = some { f with errno := settled f.primitive f.errno } := by
  unfold quieted settled
  by_cases he : f.errno = some .eintr
  · have hp := h he
    rw [if_pos he]
    cases hf : f.primitive <;> rw [hf] at hp <;> simp_all [Primitive.isRepeated]
    rw [← hf, ← he]
  · rw [if_neg he, if_neg (fun hc => he hc.1)]

/-- Drawing an interruption of what is repeated leaves a script that is
the same without interruptions. -/
theorem quiet_draw_of_interrupted {p : Primitive} (hp : p.isRepeated = true)
    {script : List Fault} (h : (draw p script).1 = some .eintr) :
    quiet (draw p script).2 = quiet script := by
  induction script with
  | nil => cases h
  | cons f rest ih =>
      rw [draw] at h ⊢
      by_cases hf : f.primitive = p
      · rw [if_pos hf] at h ⊢
        rw [← hf] at hp
        unfold quiet
        rw [List.filterMap_cons, quieted_of_repeated h hp]
      · rw [if_neg hf] at h ⊢
        have hrest := ih h
        unfold quiet at hrest ⊢
        rw [List.filterMap_cons, List.filterMap_cons, hrest]

/-- Otherwise drawing does the same with and without interruptions, but
for what strikes instead of them. -/
theorem draw_quiet {p : Primitive} {script : List Fault}
    (h : (draw p script).1 = some .eintr → p.isRepeated = false) :
    draw p (quiet script) = (settled p (draw p script).1, quiet (draw p script).2) := by
  induction script with
  | nil =>
      have hnone : settled p none = none := by
        rw [settled, if_neg (by simp)]
      show (none, []) = (settled p none, [])
      rw [hnone]
  | cons f rest ih =>
      rw [draw] at h ⊢
      by_cases hf : f.primitive = p
      · rw [if_pos hf] at h ⊢
        unfold quiet
        rw [List.filterMap_cons, quieted_of_not_repeated (by rwa [hf]), draw]
        dsimp only
        rw [if_pos hf, hf]
      · rw [if_neg hf] at h ⊢
        have hrest := ih h
        unfold quiet at hrest ⊢
        rw [List.filterMap_cons, List.filterMap_cons]
        by_cases hq : f.errno = some .eintr ∧ f.primitive.isRepeated = true
        · rw [quieted_of_repeated hq.1 hq.2]
          exact hrest
        · rw [quieted_of_not_repeated (fun he => by simpa using fun hr => hq ⟨he, hr⟩), draw]
          dsimp only
          rw [if_neg hf, hrest]

/-- Drawing an interruption of what is repeated leaves one less. -/
theorem interruptions_draw_of_interrupted {p : Primitive} (hp : p.isRepeated = true)
    {script : List Fault} (h : (draw p script).1 = some .eintr) :
    interruptions (draw p script).2 + 1 = interruptions script := by
  induction script with
  | nil => cases h
  | cons f rest ih =>
      rw [draw] at h ⊢
      by_cases hf : f.primitive = p
      · rw [if_pos hf] at h ⊢
        rw [← hf] at hp
        unfold interruptions
        rw [List.countP_cons_of_pos (by rw [quieted_of_repeated h hp]; rfl)]
      · rw [if_neg hf] at h ⊢
        have hrest := ih h
        unfold interruptions at hrest ⊢
        rw [List.countP_cons, List.countP_cons]
        omega

/-- Drawing anything else leaves as many as there are. -/
theorem interruptions_draw {p : Primitive} {script : List Fault}
    (h : (draw p script).1 = some .eintr → p.isRepeated = false) :
    interruptions (draw p script).2 = interruptions script := by
  induction script with
  | nil => rfl
  | cons f rest ih =>
      rw [draw] at h ⊢
      by_cases hf : f.primitive = p
      · rw [if_pos hf] at h ⊢
        unfold interruptions
        rw [List.countP_cons_of_neg]
        rw [quieted_of_not_repeated (by rwa [hf])]
        exact Bool.false_ne_true
      · rw [if_neg hf] at h ⊢
        have hrest := ih h
        unfold interruptions at hrest ⊢
        rw [List.countP_cons, List.countP_cons, hrest]

end Fault

-- ========================================================== calm systems

/-- A system that interrupts no call of its own accord, and that closes
the handles which it opened. `holds` tells which handles are open. -/
structure Calm {σ : Type} (S : System σ) (holds : Handle → σ → Prop) : Prop where
  errno?_ne : ∀ c s, errno? (S.call c s).1 ≠ some .eintr
  openFile : ∀ {p s h}, (S.call (.openFile p) s).1 = .ok h → holds h (S.call (.openFile p) s).2
  opendir : ∀ {p s h}, (S.call (.opendir p) s).1 = .ok h → holds h (S.call (.opendir p) s).2
  keeps : ∀ {c s h}, c.closesHandle = false → holds h s → holds h (S.call c s).2
  close : ∀ {s h}, holds h s → (S.call (.close h) s).1 = .ok ()
  closedir : ∀ {s h}, holds h s → (S.call (.closedir h) s).1 = .ok ()

-- ========================================================== alike states

/-- Two states that cannot be told apart beneath their scripts, and the
script of the second is that of the first without interruptions. Those
cost the first `n` calls more, the ones to come included. -/
structure Alike {σ : Type} (n : Nat) (a b : Recorded (Scripted σ)) : Prop where
  state_eq : b.state.state = a.state.state
  script_eq : b.state.script = Fault.quiet a.state.script
  calls_eq : a.latest.length + Fault.interruptions a.state.script = b.latest.length + n

namespace Alike

variable {σ : Type} {S : System σ} {holds : Handle → σ → Prop}
  {n : Nat} {a b : Recorded (Scripted σ)} {c : Call}

/-- A call that is let through. -/
theorem call_through {script : List Fault}
    (h : Fault.draw c.primitive a.state.script = (none, script)) :
    (S.faulty.recorded.call c a).1 = (S.call c a.state.state).1
      ∧ (S.faulty.recorded.call c a).2.state = ⟨script, (S.call c a.state.state).2⟩ := by
  show (S.faultyCall c a.state).1 = _ ∧ (S.faultyCall c a.state).2 = _
  rw [System.faultyCall_through h]
  exact ⟨rfl, rfl⟩

/-- A call that a code strikes. -/
theorem call_struck {e : Errno} {script : List Fault}
    (h : Fault.draw c.primitive a.state.script = (some e, script)) :
    (S.faulty.recorded.call c a).1 = .error e
      ∧ (S.faulty.recorded.call c a).2.state
        = ⟨script, if c.closesHandle then (S.call c a.state.state).2 else a.state.state⟩ := by
  show (S.faultyCall c a.state).1 = _ ∧ (S.faultyCall c a.state).2 = _
  rw [System.faultyCall_struck h]
  exact ⟨rfl, rfl⟩

theorem script_call : (S.faulty.recorded.call c a).2.state.script
    = (Fault.draw c.primitive a.state.script).2 := by
  rcases hd : Fault.draw c.primitive a.state.script with ⟨_ | e, script⟩
  · rw [(call_through (S := S) hd).2]
  · rw [(call_struck (S := S) hd).2]

/-- What is repeated does not close. -/
theorem closesHandle_of_repeated (hc : c.primitive.isRepeated = true) :
    c.closesHandle = false := by
  cases c <;> first | rfl | cases hc

/-- An interrupted call is one that an interruption strikes. -/
theorem draw_of_interrupted (hS : Calm S holds)
    (hr : errno? (S.faulty.recorded.call c a).1 = some .eintr) :
    (Fault.draw c.primitive a.state.script).1 = some .eintr := by
  rcases hd : Fault.draw c.primitive a.state.script with ⟨_ | e, script⟩
  · rw [(call_through hd).1] at hr
    exact absurd hr (hS.errno?_ne c _)
  · rw [(call_struck (S := S) hd).1] at hr
    exact hr

/-- After an interrupted call of what is repeated the states are alike as
before. -/
theorem of_interrupted (hS : Calm S holds) (h : Alike n a b)
    (hc : c.primitive.isRepeated = true)
    (hr : errno? (S.faulty.recorded.call c a).1 = some .eintr) :
    Alike n (S.faulty.recorded.call c a).2 b := by
  have hdraw := draw_of_interrupted hS hr
  have hquiet := Fault.quiet_draw_of_interrupted hc hdraw
  have hless := Fault.interruptions_draw_of_interrupted hc hdraw
  rcases hd : Fault.draw c.primitive a.state.script with ⟨e, script⟩
  rw [hd] at hdraw hquiet hless
  cases hdraw
  have hstate := (call_struck (S := S) hd).2
  rw [closesHandle_of_repeated hc] at hstate
  constructor
  · rw [hstate]
    exact h.state_eq
  · rw [hstate, h.script_eq]
    exact hquiet.symm
  · rw [hstate]
    have hcalls := h.calls_eq
    show a.latest.length + 1 + Fault.interruptions script = b.latest.length + n
    dsimp only at hless
    omega

/-- A primitive that closes is called by nothing but a call that closes. -/
theorem closesHandle_of_primitive (h : c.primitive = .close ∨ c.primitive = .closedir) :
    c.closesHandle = true := by
  cases c with
  | close | closedir => rfl
  | stat follow => cases follow <;> rcases h with h | h <;> cases h
  | getxattr follow => cases follow <;> rcases h with h | h <;> cases h
  | _ => rcases h with h | h <;> cases h

/-- A call that an interruption strikes is interrupted. -/
theorem interrupted_of_draw
    (h : (Fault.draw c.primitive a.state.script).1 = some .eintr) :
    errno? (S.faulty.recorded.call c a).1 = some .eintr := by
  rcases hd : Fault.draw c.primitive a.state.script with ⟨e, script⟩
  rw [hd] at h
  cases h
  rw [(call_struck hd).1]
  rfl

/-- After a call that no interruption to be repeated strikes, the count of
the calls made and the interruptions to come has grown by one. -/
theorem calls_eq_call (h : (Fault.draw c.primitive a.state.script).1 = some .eintr →
      c.primitive.isRepeated = false) :
    (S.faulty.recorded.call c a).2.latest.length
        + Fault.interruptions (S.faulty.recorded.call c a).2.state.script
      = a.latest.length + Fault.interruptions a.state.script + 1 := by
  have hscript : Fault.interruptions (S.faulty.recorded.call c a).2.state.script
      = Fault.interruptions a.state.script := by
    rw [script_call, Fault.interruptions_draw h]
  rw [hscript]
  show a.latest.length + 1 + _ = _
  omega

/-- After any other call the states are alike again. The replies are the
same, except that a call that closes is not interrupted in the second. -/
theorem call (h : Alike n a b)
    (hr : errno? (S.faulty.recorded.call c a).1 = some .eintr →
      c.primitive.isRepeated = false) :
    Alike n (S.faulty.recorded.call c a).2 (S.faulty.recorded.call c b).2
      ∧ ((S.faulty.recorded.call c b).1 = (S.faulty.recorded.call c a).1
        ∨ c.closesHandle = true ∧ (S.faulty.recorded.call c a).1 = .error .eintr
          ∧ (S.faulty.recorded.call c b).1 = (S.call c a.state.state).1) := by
  have hrep : (Fault.draw c.primitive a.state.script).1 = some .eintr →
      c.primitive.isRepeated = false := fun he => hr (interrupted_of_draw he)
  have hdraw := Fault.draw_quiet hrep
  rw [← h.script_eq] at hdraw
  have hcalls : (S.faulty.recorded.call c a).2.latest.length
      + Fault.interruptions (S.faulty.recorded.call c a).2.state.script
      = (S.faulty.recorded.call c b).2.latest.length + n := by
    rw [calls_eq_call hrep, h.calls_eq]
    show b.latest.length + n + 1 = b.latest.length + 1 + n
    omega
  rcases hd : Fault.draw c.primitive a.state.script with ⟨_ | e, script⟩
  · rw [hd] at hdraw
    have hb : Fault.draw c.primitive b.state.script = (none, Fault.quiet script) := hdraw
    obtain ⟨hreply, hstate⟩ := call_through (S := S) hd
    obtain ⟨hreply', hstate'⟩ := call_through (S := S) hb
    rw [h.state_eq] at hreply' hstate'
    refine ⟨⟨by rw [hstate, hstate'], by rw [hstate, hstate'], hcalls⟩, Or.inl ?_⟩
    rw [hreply, hreply']
  · obtain ⟨hreply, hstate⟩ := call_struck (S := S) hd
    rw [hd] at hdraw
    unfold Fault.settled at hdraw
    by_cases hclose : some e = some Errno.eintr
        ∧ (c.primitive = .close ∨ c.primitive = .closedir)
    · -- the interruption of a call that closes: it is let through instead
      rw [if_pos hclose] at hdraw
      obtain ⟨he, hprim⟩ := hclose
      cases he
      have hcloses := closesHandle_of_primitive hprim
      obtain ⟨hreply', hstate'⟩ := call_through (S := S) hdraw
      rw [h.state_eq] at hreply' hstate'
      rw [hcloses] at hstate
      refine ⟨⟨by rw [hstate, hstate']; rfl, by rw [hstate, hstate'], hcalls⟩, Or.inr ?_⟩
      exact ⟨hcloses, hreply, hreply'⟩
    · rw [if_neg hclose] at hdraw
      obtain ⟨hreply', hstate'⟩ := call_struck (S := S) hdraw
      rw [h.state_eq] at hstate'
      refine ⟨⟨by rw [hstate, hstate'], by rw [hstate, hstate'], hcalls⟩, Or.inl ?_⟩
      rw [hreply, hreply']

/-- If the call does not close, the replies are the same. -/
theorem call_eq (h : Alike n a b) (hc : c.closesHandle = false)
    (hr : errno? (S.faulty.recorded.call c a).1 = some .eintr →
      c.primitive.isRepeated = false) :
    (S.faulty.recorded.call c b).1 = (S.faulty.recorded.call c a).1
      ∧ Alike n (S.faulty.recorded.call c a).2 (S.faulty.recorded.call c b).2 := by
  obtain ⟨halike, heq | ⟨hcloses, -⟩⟩ := h.call hr
  · exact ⟨heq, halike⟩
  · rw [hc] at hcloses
    cases hcloses

/-- Calls that are repeated until they are not interrupted get the same
reply, and lead to alike states. -/
theorem persist (hS : Calm S holds) (hc : c.primitive.isRepeated = true) (h : Alike n a b) :
    (S.faulty.recorded.persist c b).1 = (S.faulty.recorded.persist c a).1
      ∧ Alike n (S.faulty.recorded.persist c a).2 (S.faulty.recorded.persist c b).2 := by
  fun_induction System.persist S.faulty.recorded c a with
  | case1 a r hr ih => exact ih (h.of_interrupted hS hc hr)
  | case2 a r hr =>
      obtain ⟨hreply, halike⟩ := h.call_eq (S := S) (closesHandle_of_repeated hc)
        fun he => absurd he hr
      rw [System.persist_eq_call _ (by rw [hreply]; exact hr)]
      exact ⟨hreply, halike⟩

/-- What is made of the reply may rely on it being the same in both, and no
interruption. -/
theorem persist_of_eq (hS : Calm S holds) (hc : c.primitive.isRepeated = true)
    (h : Alike n a b) {r : Reply c} (hr : (S.faulty.recorded.persist c a).1 = r) :
    (S.faulty.recorded.persist c b).1 = r ∧ errno? r ≠ some .eintr
      ∧ Alike n (S.faulty.recorded.persist c a).2 (S.faulty.recorded.persist c b).2 := by
  obtain ⟨hreply, halike⟩ := h.persist hS hc
  refine ⟨hreply.trans hr, ?_, halike⟩
  rw [← hr]
  exact S.faulty.recorded.errno?_persist_ne c a

-- =============================================================== handles

/-- A call that does not close leaves open what is open. -/
theorem holds_call (hS : Calm S holds) (hc : c.closesHandle = false) {h : Handle}
    (hh : holds h a.state.state) : holds h (S.faulty.recorded.call c a).2.state.state := by
  rcases hd : Fault.draw c.primitive a.state.script with ⟨_ | e, script⟩
  · rw [(call_through (S := S) hd).2]
    exact hS.keeps hc hh
  · rw [(call_struck (S := S) hd).2, hc]
    exact hh

theorem holds_persist (hS : Calm S holds) (hc : c.closesHandle = false) {h : Handle}
    (hh : holds h a.state.state) : holds h (S.faulty.recorded.persist c a).2.state.state := by
  fun_induction System.persist S.faulty.recorded c a with
  | case1 a r hr ih => exact ih (holds_call hS hc hh)
  | case2 a r hr => exact holds_call hS hc hh

/-- What repeated calls succeed with, the system beneath has succeeded
with. -/
theorem exists_call_of_persist_ok {v : c.Answer}
    (hr : (S.faulty.recorded.persist c a).1 = .ok v) :
    ∃ s, (S.call c s).1 = .ok v
      ∧ (S.faulty.recorded.persist c a).2.state.state = (S.call c s).2 := by
  obtain ⟨t, -, heq, -⟩ := S.faulty.recorded.exists_call_eq_persist c a
  rw [heq] at hr ⊢
  rcases hd : Fault.draw c.primitive t.state.script with ⟨_ | e, script⟩
  · obtain ⟨hreply, hstate⟩ := call_through (S := S) hd
    refine ⟨t.state.state, ?_, ?_⟩
    · rw [← hreply]
      exact hr
    · rw [hstate]
  · rw [(call_struck (S := S) hd).1] at hr
    cases hr

end Alike
end PosixFiles
