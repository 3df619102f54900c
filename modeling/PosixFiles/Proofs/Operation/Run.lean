/-
How operations run, one step at a time.

Operations obey the laws of a monad, so a sequence of steps may be
grouped as a proof likes. The equations below say what the run of such a
sequence is when its first step is one call, one event, or a check; the
calls note no events, so a run that begins with a call is the run of the
rest from the state that the call leaves.
-/
import PosixFiles.Operation.Basic

namespace PosixFiles.Op

variable {σ α β γ : Type}

/-- Two operations are one if they run alike from every state. -/
theorem ext_run {x y : Op σ α} (h : ∀ s, x.run s = y.run s) : x = y :=
  funext h

/-- The run of two operations in a row, by how the first one ends. -/
theorem run_bind (x : Op σ α) (f : α → Op σ β) (s : σ) :
    (x >>= f).run s =
      match (x.run s).result with
      | .ok a =>
          let o := (f a).run (x.run s).state
          ⟨o.result, (x.run s).events ++ o.events, o.state⟩
      | .error e => ⟨.error e, (x.run s).events, (x.run s).state⟩ := by
  rcases hx : x.run s with ⟨r, events, t⟩
  cases r with
  | ok a => exact run_bind_ok hx
  | error e => exact run_bind_error hx

/-- Where what follows only gives a value, the first operation decides. -/
theorem run_bind_of_gives {x : Op σ α} {f : α → Op σ β} {g : α → β}
    (hf : ∀ a s, ((f a).run s).result = .ok (g a) ∧ ((f a).run s).state = s) (s : σ) :
    ((x >>= f).run s).result = (x.run s).result.map g
      ∧ ((x >>= f).run s).state = (x.run s).state := by
  rw [run_bind]
  cases (x.run s).result with
  | ok a => exact hf a (x.run s).state
  | error e => exact ⟨rfl, rfl⟩

/-- What follows without calls leaves the state where it is. -/
theorem state_bind_of_still {x : Op σ α} {f : α → Op σ β}
    (hf : ∀ a s, ((f a).run s).state = s) (s : σ) :
    ((x >>= f).run s).state = (x.run s).state := by
  rw [run_bind]
  cases (x.run s).result with
  | ok a => exact hf a (x.run s).state
  | error e => rfl

private theorem id_map_eq (x : Op σ α) : id <$> x = x := by
  refine ext_run fun s => ?_
  show (x >>= fun a => pure (id a)).run s = x.run s
  rw [run_bind]
  rcases x.run s with ⟨r, events, t⟩
  cases r <;> simp

private theorem pure_bind_eq (a : α) (f : α → Op σ β) : pure a >>= f = f a :=
  ext_run fun s => run_bind_ok (run_pure a s)

private theorem bind_assoc_eq (x : Op σ α) (f : α → Op σ β) (g : β → Op σ γ) :
    x >>= f >>= g = x >>= fun a => f a >>= g := by
  refine ext_run fun s => ?_
  rcases hx : x.run s with ⟨r, events, t⟩
  cases r with
  | error e => rw [run_bind_error (run_bind_error hx), run_bind_error hx]
  | ok a =>
      rw [run_bind_ok hx, run_bind, run_bind_ok hx, run_bind]
      cases ((f a).run t).result <;> simp

instance : LawfulMonad (Op σ) :=
  LawfulMonad.mk' (Op σ) id_map_eq pure_bind_eq bind_assoc_eq

-- =========================================================== first steps

/-- After a call made once, the rest runs from where the call left. -/
@[simp] theorem run_issue_bind (S : System σ) (c : Call) (f : Reply c → Op σ β) (s : σ) :
    (issue S c >>= f).run s = (f (S.call c s).1).run (S.call c s).2 := by
  rw [run_bind_ok (run_issue S c s)]
  rfl

/-- After a call made until it is not interrupted, the rest runs from where
the last of the calls left. -/
@[simp] theorem run_persist_bind (S : System σ) (c : Call) (f : Reply c → Op σ β) (s : σ) :
    (persist S c >>= f).run s = (f (S.persist c s).1).run (S.persist c s).2 := by
  rw [run_bind_ok (run_persist S c s)]
  rfl

/-- An event leaves a mark on nothing but the events. -/
@[simp] theorem run_emit_bind (e : Event) (f : Unit → Op σ β) (s : σ) :
    (emit e >>= f).run s =
      ⟨((f ()).run s).result, e :: ((f ()).run s).events, ((f ()).run s).state⟩ := by
  rw [run_bind_ok (run_emit e s)]
  rfl

@[simp] theorem fail_bind (e : Failure) (f : α → Op σ β) : (fail e >>= f) = fail e :=
  ext_run fun s => run_bind_error (run_fail e s)

/-- An answer is handed on. -/
@[simp] theorem accept_ok_bind (subject : Subject) (a : α) (f : α → Op σ β) :
    (accept subject (.ok a) >>= f) = f a :=
  pure_bind a f

/-- After a handle was given back, nothing is done. -/
theorem run_closed (subject : Subject) (r : Except Errno Unit) (s : σ) :
    (closed subject r).run s =
      ⟨match r with
        | .ok () => .ok ()
        | .error e => if e = .eintr then .ok () else .error (.ofErrno subject e),
        [], s⟩ := by
  cases r with
  | ok u => rfl
  | error e =>
      unfold closed
      dsimp only
      split <;> rfl

/-- Arguments without a NUL are let through. -/
theorem requireNoNul_bind {subject : Subject} {arguments : List Bytes} (f : Unit → Op σ β)
    (h : arguments.any Path.hasNul = false) :
    (requireNoNul subject arguments >>= f) = f () := by
  rw [requireNoNul, if_neg (by simp [h])]
  exact pure_bind () f

/-- An argument with a NUL ends the operation. -/
theorem requireNoNul_bind_of_hasNul {subject : Subject} {arguments : List Bytes}
    (f : Unit → Op σ β) (h : arguments.any Path.hasNul = true) :
    (requireNoNul subject arguments >>= f) = fail ⟨subject, .nulInPath⟩ := by
  rw [requireNoNul, if_pos h, fail_bind]

end PosixFiles.Op
