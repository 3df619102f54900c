/-
What a system changes only by calls that take effect.

A single call either succeeds and takes effect, or fails and leaves all
files alone. What is to stay as it was is given as a view of the state, for
instance the world of a session, or the calls on record that took effect. A
system guards a view if only calls that take effect change it; faults,
prescribed replies and a record in front of a session guard what the
session does.

An operation keeps a view if no run of it changes the view, and keeps it on
failure if no run does that fails. Both are put together step by step: what
keeps the view may be followed by what keeps it on failure, and a call that
may take effect by what cannot fail after its success.
-/
import PosixFiles.Proofs.Operation.Record
import PosixFiles.Session
import PosixFiles.System.Disguised
import PosixFiles.System.Faulty

namespace PosixFiles

variable {σ ω α β : Type}

-- ================================================================= calls

/-- Whether a call is made in order to change files. -/
def Call.changesFiles : Call → Bool
  | .link .. | .symlink .. | .rename .. | .unlink .. | .remove .. | .chmod .. | .mkfifo ..
  | .mkdir .. | .utimensat .. | .utime .. => true
  | .stat .. | .fstatat .. | .readlink .. | .getxattr .. | .openFile .. | .read .. | .close ..
  | .opendir .. | .readdir .. | .closedir .. => false

/-- Whether a call was made in order to change files, and succeeded. -/
def Exchange.takesEffect (x : Exchange) : Bool :=
  x.call.changesFiles && (errno? x.reply).isNone

theorem takesEffect_of_asks {c : Call} (hc : c.changesFiles = false) (r : Reply c) :
    Exchange.takesEffect ⟨c, r⟩ = false := by
  rw [Exchange.takesEffect, hc, Bool.false_and]

theorem takesEffect_error (c : Call) (e : Errno) :
    Exchange.takesEffect ⟨c, .error e⟩ = false :=
  Bool.and_false _

/-- Whoever gives a handle back changes no file. -/
theorem changesFiles_of_closesHandle {c : Call} (hc : c.closesHandle = true) :
    c.changesFiles = false := by
  cases c <;> first | rfl | cases hc

-- =============================================================== systems

/-- Where no status is prescribed a look shows what there is. -/
theorem Disguise.call_stat {d : Disguise} (hd : d.status = none) (S : System σ) (follow : Bool)
    (p : Path) (s : σ) : d.call S (.stat follow p) s = S.call (.stat follow p) s := by
  unfold Disguise.call
  dsimp only
  rw [hd]

namespace System

variable {S : System σ} {view : σ → ω}

/-- Only calls that take effect change what is in view. -/
def Guards (S : System σ) (view : σ → ω) : Prop :=
  ∀ c s, Exchange.takesEffect ⟨c, (S.call c s).1⟩ = false → view (S.call c s).2 = view s

namespace Guards

theorem call_of_asks (hS : S.Guards view) {c : Call} (hc : c.changesFiles = false) (s : σ) :
    view (S.call c s).2 = view s :=
  hS c s (takesEffect_of_asks hc _)

/-- A call that is repeated took no effect while it was interrupted. -/
theorem persist (hS : S.Guards view) {c : Call} {s : σ}
    (h : Exchange.takesEffect ⟨c, (S.persist c s).1⟩ = false) :
    view (S.persist c s).2 = view s := by
  fun_induction System.persist S c s with
  | case1 s r hi ih =>
      have hr : r.1 = .error .eintr := eq_error_of_errno? hi
      have heffect : Exchange.takesEffect ⟨c, r.1⟩ = false := by
        rw [hr]
        exact takesEffect_error c _
      exact (ih h).trans (hS c s heffect)
  | case2 s r hi => exact hS c s h

theorem persist_of_asks (hS : S.Guards view) {c : Call} (hc : c.changesFiles = false) (s : σ) :
    view (S.persist c s).2 = view s :=
  hS.persist (takesEffect_of_asks hc _)

/-- Prescribed replies are given in the place of calls that only ask. -/
theorem disguised (hS : S.Guards view) (d : Disguise) : (S.disguised d).Guards view := by
  intro c s h
  show view (d.call S c s).2 = view s
  cases c with
  | stat | readlink =>
      unfold Disguise.call
      dsimp only
      split
      · rfl
      · exact hS.call_of_asks rfl s
  | readdir dir => exact hS.call_of_asks (c := .readdir dir) rfl s
  | _ => exact hS _ s h

/-- A fault keeps a call from being made, unless it gives a handle back. -/
theorem faulty (hS : S.Guards view) : S.faulty.Guards fun x => view x.state := by
  intro c x h
  show view (S.faultyCall c x).2.state = view x.state
  change Exchange.takesEffect ⟨c, (S.faultyCall c x).1⟩ = false at h
  rcases hd : Fault.draw c.primitive x.script with ⟨_ | e, script⟩
  · rw [faultyCall_through hd] at h ⊢
    exact hS c x.state h
  · rw [faultyCall_struck hd]
    dsimp only
    split
    next hc => exact hS.call_of_asks (changesFiles_of_closesHandle hc) x.state
    next => rfl

/-- Together with what it guards, a record shows which calls took effect. -/
theorem recorded (hS : S.Guards view) :
    S.recorded.Guards fun r => (view r.state, r.exchanges.filter Exchange.takesEffect) := by
  intro c r h
  refine Prod.ext (hS c r.state h) ?_
  show (S.recorded.call c r).2.exchanges.filter _ = r.exchanges.filter _
  rw [exchanges_call, List.filter_append, List.filter_cons, h]
  exact List.append_nil _

end Guards
end System

/-- In a session the world changes with calls that take effect. -/
theorem Session.guards_world : Session.system.Guards Session.world := by
  intro c s h
  have hact : ∀ f : World → Except Refusal World,
      (errno? (s.act f).1).isNone = false → (s.act f).2.world = s.world := by
    intro f hf
    unfold Session.act at hf ⊢
    cases hw : f s.world with
    | ok w =>
        rw [hw] at hf
        cases hf
    | error e => rfl
  have hopened : ∀ f : World → Except Refusal Stream, (s.opened f).2.world = s.world := by
    intro f
    unfold Session.opened
    split <;> rfl
  cases c with
  | link | symlink | rename | unlink | remove | chmod | mkfifo | mkdir | utimensat | utime =>
      exact hact _ h
  | openFile | opendir => exact hopened _
  | stat | readlink | getxattr => rfl
  | fstatat k name =>
      show (s.fstatat k name).2.world = s.world
      unfold Session.fstatat
      split <;> rfl
  | read k room =>
      show (s.read k room).2.world = s.world
      unfold Session.read
      split <;> rfl
  | readdir k =>
      show (s.readdir k).2.world = s.world
      unfold Session.readdir
      split <;> rfl
  | close k | closedir k =>
      show (s.close k).2.world = s.world
      unfold Session.close
      split <;> rfl

-- ============================================================ operations

namespace Op

/-- No run of the operation changes what is in view. -/
def Keeps (view : σ → ω) (x : Op σ α) : Prop :=
  ∀ s, view (x.run s).state = view s

/-- No run of the operation that fails changes what is in view. -/
def KeepsOnFailure (view : σ → ω) (x : Op σ α) : Prop :=
  ∀ s f, (x.run s).result = .error f → view (x.run s).state = view s

variable {view : σ → ω} {x : Op σ α} {f : α → Op σ β}

theorem Keeps.onFailure (hx : Keeps view x) : KeepsOnFailure view x :=
  fun s _ _ => hx s

theorem keeps_pure (view : σ → ω) (a : α) : Keeps view (pure a : Op σ α) := fun _ => rfl

theorem keeps_fail (view : σ → ω) (e : Failure) : Keeps view (fail e : Op σ α) := fun _ => rfl

theorem keeps_emit (view : σ → ω) (e : Event) : Keeps view (emit e) := fun _ => rfl

theorem keeps_accept (view : σ → ω) (subject : Subject) (r : Except Errno α) :
    Keeps view (accept subject r) := by
  cases r with
  | ok a => exact keeps_pure view a
  | error e => exact keeps_fail view _

theorem keeps_closed (view : σ → ω) (subject : Subject) (r : Except Errno Unit) :
    Keeps view (closed subject r) := by
  cases r with
  | ok u => exact keeps_pure view u
  | error e =>
      unfold closed
      dsimp only
      split
      · exact keeps_pure view ()
      · exact keeps_fail view _

theorem keeps_requireNoNul (view : σ → ω) (subject : Subject) (arguments : List Bytes) :
    Keeps view (requireNoNul subject arguments) := by
  unfold requireNoNul
  split
  · exact keeps_fail view _
  · exact keeps_pure view ()

theorem Keeps.bind (hx : Keeps view x) (hf : ∀ a, Keeps view (f a)) : Keeps view (x >>= f) := by
  intro s
  have hfirst := hx s
  rw [run_bind]
  cases hr : (x.run s).result with
  | ok a => exact (hf a _).trans hfirst
  | error e => exact hfirst

/-- What comes before the operation that may change something only asks. -/
theorem Keeps.bind_onFailure (hx : Keeps view x) (hf : ∀ a, KeepsOnFailure view (f a)) :
    KeepsOnFailure view (x >>= f) := by
  intro s e
  have hfirst := hx s
  rw [run_bind]
  cases hr : (x.run s).result with
  | ok a => exact fun he => (hf a _ e he).trans hfirst
  | error e' => exact fun _ => hfirst

theorem keeps_issue {S : System σ} (hS : S.Guards view) {c : Call} (hc : c.changesFiles = false) :
    Keeps view (issue S c) :=
  fun s => hS.call_of_asks hc s

theorem keeps_persist {S : System σ} (hS : S.Guards view) {c : Call}
    (hc : c.changesFiles = false) : Keeps view (persist S c) :=
  fun s => hS.persist_of_asks hc s

/-- A call that may take effect, when what comes after its success never
fails and what comes after its failure changes nothing if it fails. -/
theorem keepsOnFailure_persist_bind {S : System σ} (hS : S.Guards view) (c : Call)
    {f : Reply c → Op σ β} (hok : ∀ a s, ∃ b, ((f (.ok a)).run s).result = .ok b)
    (herror : ∀ e, KeepsOnFailure view (f (.error e))) :
    KeepsOnFailure view (persist S c >>= f) := by
  intro s e
  rw [run_persist_bind]
  cases hr : (S.persist c s).1 with
  | ok a =>
      obtain ⟨b, hb⟩ := hok a (S.persist c s).2
      intro he
      rw [hb] at he
      cases he
  | error e' =>
      intro he
      refine (herror e' _ e he).trans (hS.persist ?_)
      rw [hr]
      exact takesEffect_error c e'

end Op

end PosixFiles
