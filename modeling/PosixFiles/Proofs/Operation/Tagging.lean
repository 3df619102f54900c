/-
A status, and a status with failures kept as data: one result in two forms.

Both operations check the path, and repeat the same call until it is not
interrupted; then they part. So it is enough to compare what they make of
one reply, and the second form is a function of the first
(`run_statOutcome`): a status stays one, an ordinary failure that the
system reported is kept as data, and every other failure stays a failure.
Of the failures that make no call, only a NUL byte in the path is left, and
although the code that stands for it is an ordinary one, it is never kept
as data.

What is told apart by kind is told apart alike in both forms, because no
code of the unexpected class has the kind of a path that does not exist.
-/
import PosixFiles.Proofs.Operation.Record
import PosixFiles.Request

namespace PosixFiles

/-- The kind of a path that does not exist belongs to one code. -/
theorem Errno.classify_eq_notFound_iff (e : Errno) : e.classify = .notFound ↔ e = .enoent := by
  refine ⟨fun h => ?_, fun h => by rw [h]; decide⟩
  unfold classify at h
  by_cases hcode : e = enoent
  · exact hcode
  · rw [if_neg hcode] at h
    repeat' split at h
    all_goals cases h

namespace StatOutcome

/-- The second form of a result: an ordinary failure that the system
reported is kept as data. -/
def ofResult : Except Failure Status → Except Failure StatOutcome
  | .ok st => .ok (.status st)
  | .error ⟨subject, .errno e⟩ =>
      if e.isUnexpected then .error (.ofErrno subject e) else .ok (.ofErrno e)
  | .error f => .error f

theorem ofResult_of_unexpected {e : Errno} (h : e.isUnexpected = true) (subject : Subject) :
    ofResult (.error (.ofErrno subject e)) = .error (.ofErrno subject e) :=
  if_pos h

theorem ofResult_of_ordinary {e : Errno} (h : e.isUnexpected = false) (subject : Subject) :
    ofResult (.error (.ofErrno subject e)) = .ok (.ofErrno e) :=
  if_neg (by rw [h]; exact Bool.false_ne_true)

/-- A failure stays one, or was reported by the system and is ordinary. -/
theorem ofResult_error_cases (f : Failure) :
    ofResult (.error f) = .error f
      ∨ ∃ subject e, f = .ofErrno subject e ∧ e.isUnexpected = false
          ∧ ofResult (.error f) = .ok (.ofErrno e) := by
  obtain ⟨subject, cause⟩ := f
  cases cause with
  | errno e =>
      cases h : e.isUnexpected with
      | true => exact Or.inl (ofResult_of_unexpected h subject)
      | false => exact Or.inr ⟨subject, e, rfl, h, ofResult_of_ordinary h subject⟩
  | nulInPath | nulInFileName | invalidText => exact Or.inl rfl

theorem ofResult_eq_status_iff (r : Except Failure Status) (st : Status) :
    ofResult r = .ok (.status st) ↔ r = .ok st := by
  cases r with
  | ok st' =>
      show Except.ok (StatOutcome.status st') = .ok (.status st) ↔ Except.ok st' = .ok st
      rw [Except.ok.injEq, Except.ok.injEq, StatOutcome.status.injEq]
  | error f =>
      refine ⟨fun h => ?_, nofun⟩
      rcases ofResult_error_cases f with hf | ⟨subject, e, -, -, hf⟩
      · rw [hf] at h
        cases h
      · rw [hf] at h
        cases h

theorem ofResult_eq_error_iff (r : Except Failure Status) (kind : ErrorKind) (e : Errno) :
    ofResult r = .ok (.error kind e)
      ↔ ∃ subject, r = .error (.ofErrno subject e) ∧ e.classify = kind
          ∧ e.isUnexpected = false := by
  constructor
  · intro h
    cases r with
    | ok st => cases h
    | error f =>
        rcases ofResult_error_cases f with hf | ⟨subject, e', rfl, hordinary, hf⟩
        · rw [hf] at h
          cases h
        · rw [hf] at h
          cases h
          exact ⟨subject, rfl, rfl, hordinary⟩
  · rintro ⟨subject, rfl, rfl, hordinary⟩
    exact ofResult_of_ordinary hordinary subject

theorem ofResult_cases (r : Except Failure Status) :
    (∃ st, r = .ok st) ∨ (∃ kind e, ofResult r = .ok (.error kind e))
      ∨ ∃ f, r = .error f ∧ ofResult r = .error f := by
  cases r with
  | ok st => exact Or.inl ⟨st, rfl⟩
  | error f =>
      rcases ofResult_error_cases f with hf | ⟨subject, e, -, -, hf⟩
      · exact Or.inr (Or.inr ⟨f, rfl, hf⟩)
      · exact Or.inr (Or.inl ⟨_, e, hf⟩)

/-- Both forms tell alike whether the path exists. -/
theorem ofResult_isNotFound_iff (r : Except Failure Status) :
    (∃ o, ofResult r = .ok o ∧ o.isNotFound = true)
      ↔ ∃ f, r = .error f ∧ f.kind = .notFound := by
  constructor
  · rintro ⟨o, ho, hfound⟩
    cases o with
    | status st => cases hfound
    | error kind e =>
        obtain ⟨subject, hr, hkind, -⟩ := (ofResult_eq_error_iff r kind e).1 ho
        have hsome : some kind = some .notFound := beq_iff_eq.1 hfound
        exact ⟨_, hr, hkind.trans (Option.some.inj hsome)⟩
  · rintro ⟨f, rfl, hkind⟩
    obtain ⟨subject, cause⟩ := f
    cases cause with
    | errno e =>
        have he : e = .enoent := (Errno.classify_eq_notFound_iff e).1 hkind
        subst he
        exact ⟨_, ofResult_of_ordinary (by decide) subject, by decide⟩
    | nulInPath | nulInFileName | invalidText => cases hkind

end StatOutcome

namespace System

variable {σ : Type} (S : System σ)

/-- Getting a status of a path that can be given to the system is one call,
and its reply decides. -/
theorem run_stat {p : Path} (hnul : p.hasNul = false) (follow : Bool) (s : σ) :
    (S.stat follow p).run s =
      (Op.accept (.path p) (S.persist (.stat follow p) s).1).run
        (S.persist (.stat follow p) s).2 := by
  unfold stat
  rw [Op.requireNoNul_bind _ (by simp [hnul]), Op.run_persist_bind]

theorem run_stat_of_hasNul {p : Path} (hnul : p.hasNul = true) (follow : Bool) (s : σ) :
    (S.stat follow p).run s = ⟨.error ⟨.path p, .nulInPath⟩, [], s⟩ := by
  unfold stat
  rw [Op.requireNoNul_bind_of_hasNul _ (by simp [hnul])]
  rfl

/-- The two forms of one result, and the same state after both. -/
theorem run_statOutcome (follow : Bool) (p : Path) (s : σ) :
    ((S.statOutcome follow p).run s).result
        = StatOutcome.ofResult ((S.stat follow p).run s).result
      ∧ ((S.statOutcome follow p).run s).state = ((S.stat follow p).run s).state := by
  unfold statOutcome
  cases hnul : p.hasNul with
  | true =>
      rw [run_stat_of_hasNul S hnul, Op.requireNoNul_bind_of_hasNul _ (by simp [hnul])]
      exact ⟨rfl, rfl⟩
  | false =>
      rw [run_stat S hnul, Op.requireNoNul_bind _ (by simp [hnul]), Op.run_persist_bind]
      cases (S.persist (.stat follow p) s).1 with
      | ok st => exact ⟨rfl, rfl⟩
      | error e =>
          dsimp only
          cases he : e.isUnexpected with
          | true =>
              rw [if_pos rfl]
              exact ⟨(StatOutcome.ofResult_of_unexpected he (.path p)).symm, rfl⟩
          | false =>
              rw [if_neg Bool.false_ne_true]
              exact ⟨(StatOutcome.ofResult_of_ordinary he (.path p)).symm, rfl⟩

/-- Getting a status fails with a code of the system just if the path can
be given to it. -/
theorem hasNul_of_stat_error {follow : Bool} {p : Path} {s : σ} {f : Failure}
    (h : ((S.stat follow p).run s).result = .error f) :
    (p.hasNul = false ∧ ∃ e, f = .ofErrno (.path p) e)
      ∨ p.hasNul = true ∧ f = ⟨.path p, .nulInPath⟩ := by
  cases hnul : p.hasNul with
  | true =>
      rw [run_stat_of_hasNul S hnul] at h
      exact Or.inr ⟨rfl, (Except.error.inj h).symm⟩
  | false =>
      rw [run_stat S hnul] at h
      refine Or.inl ⟨rfl, ?_⟩
      cases hr : (S.persist (.stat follow p) s).1 with
      | ok st =>
          rw [hr] at h
          cases h
      | error e =>
          rw [hr] at h
          exact ⟨e, (Except.error.inj h).symm⟩

end System

namespace Files

variable {σ : Type}

/-- A status, and a status with failures kept as data, of one path in one
state. The calls and what they lead to are the same. A status of the one is
a status of the other; a failure is kept as data, with its kind and its
code, if and only if the path has no NUL byte and the failure is not of the
unexpected class; and otherwise both fail with the same failure. So both
tell alike whether the path exists. -/
theorem statOutcome_agrees_with_stat (F : Files) (S : System σ) (follow : Bool) (p : Path)
    (s : σ) :
    let plain := (F.perform S.recorded (.stat follow p)).run ⟨[], s⟩
    let tagged := (F.perform S.recorded (.statOutcome follow p)).run ⟨[], s⟩
    tagged.state.exchanges = plain.state.exchanges
      ∧ tagged.state.state = plain.state.state
      ∧ (∀ st, plain.result = .ok st ↔ tagged.result = .ok (.status st))
      ∧ (∀ kind e, tagged.result = .ok (.error kind e)
          ↔ p.hasNul = false
            ∧ ∃ f, plain.result = .error f ∧ f.kind = kind ∧ f.errno = e
              ∧ f.isUnexpected = false)
      ∧ ((∃ st, plain.result = .ok st) ∨ (∃ kind e, tagged.result = .ok (.error kind e))
          ∨ ∃ f, plain.result = .error f ∧ tagged.result = .error f)
      ∧ ((∃ o, tagged.result = .ok o ∧ o.isNotFound = true)
          ↔ ∃ f, plain.result = .error f ∧ f.kind = .notFound) := by
  intro plain tagged
  obtain ⟨hresult, hstate⟩ := S.recorded.run_statOutcome follow p ⟨[], s⟩
  change tagged.result = StatOutcome.ofResult plain.result at hresult
  change tagged.state = plain.state at hstate
  have hkept : ∀ kind e, tagged.result = .ok (.error kind e)
      ↔ p.hasNul = false
        ∧ ∃ f, plain.result = .error f ∧ f.kind = kind ∧ f.errno = e
          ∧ f.isUnexpected = false := by
    intro kind e
    rw [hresult, StatOutcome.ofResult_eq_error_iff]
    constructor
    · rintro ⟨subject, hplain, hkind, hordinary⟩
      rcases S.recorded.hasNul_of_stat_error hplain with ⟨hnul, -⟩ | ⟨-, hf⟩
      · exact ⟨hnul, _, hplain, hkind, rfl, hordinary⟩
      · cases hf
    · rintro ⟨hnul, f, hplain, rfl, rfl, hordinary⟩
      rcases S.recorded.hasNul_of_stat_error hplain with ⟨-, e, rfl⟩ | ⟨hnul', -⟩
      · exact ⟨_, hplain, rfl, hordinary⟩
      · rw [hnul] at hnul'
        cases hnul'
  refine ⟨congrArg Recorded.exchanges hstate, congrArg Recorded.state hstate,
    fun st => ?_, hkept, ?_, ?_⟩
  · rw [hresult]
    exact (StatOutcome.ofResult_eq_status_iff plain.result st).symm
  · rw [hresult]
    exact StatOutcome.ofResult_cases plain.result
  · rw [hresult]
    exact StatOutcome.ofResult_isNotFound_iff plain.result

end Files
end PosixFiles
