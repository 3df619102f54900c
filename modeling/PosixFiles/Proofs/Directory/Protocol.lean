/-
The calls of recursive directory creation, for every sequence of replies.

# The protocol

What `mkdirs` may ask is written down as a list of stages, one call each,
in the order in which the calls are made. A stage says which replies to
its call lead on to the next stage and which end the whole. The list
depends on one number only, how many ancestors of the path there are
down to the deepest that exists: the stages are

- the status of the path;
- the status of each ancestor deeper than that one, deepest first, and
  then of that one;
- the creation of the deeper ancestors, shallowest first, and of the path;
- the status of the path once more.

`mkdirs_follows_protocol` says that every run follows such a list from
its start, one call for each stage, that the reply to the last call is
one that ends its stage, and that the result is the verdict on this last
exchange alone. The replies are those of an arbitrary system, so nothing
is assumed about them; `System.prepared` is a system for every finite
sequence of them.

# The induction

`Conducts` is what is proved of each part of `mkdirs`: from any state, it
adds exchanges to the record that follow given stages. Creating the
ancestors is an induction on those still to be created. The walk back is
an induction on the ancestors still to be looked at, which carries along
those found missing: they are created later, in the opposite order.
-/
import PosixFiles.Operation.Directory
import PosixFiles.System.Prepared
import PosixFiles.Proofs.Operation.Record

namespace PosixFiles

-- ================================================================ stages

/-- A call, and what becomes of the replies to it. -/
structure Stage where
  call : Call
  /-- The replies after which the next stage follows. -/
  passes : Reply call → Prop
  /-- The replies after which nothing follows. -/
  ends : Reply call → Prop

namespace Stage

/-- The first look at the path that is wanted. -/
def target (p : Path) : Stage where
  call := .stat true p
  passes r := errno? r = some .enoent
  ends r := errno? r ≠ some .enoent

/-- The look at an ancestor that does not exist. -/
def missing (a : Path) : Stage where
  call := .stat true a
  passes r := errno? r = some .enoent
  ends r := ∃ e, r = .error e ∧ e ≠ .enoent

/-- The look at an ancestor that exists, whatever it is. -/
def present (a : Path) : Stage where
  call := .stat true a
  passes r := errno? r = none
  ends _ := False

/-- The creation of an ancestor, which may exist by now. -/
def ancestor (mode : UInt32) (a : Path) : Stage where
  call := .mkdir a mode
  passes r := errno? r = none ∨ errno? r = some .eexist
  ends r := ∃ e, r = .error e ∧ e ≠ .eexist

/-- The creation of the path itself. -/
def last (mode : UInt32) (p : Path) : Stage where
  call := .mkdir p mode
  passes r := errno? r = some .eexist
  ends r := errno? r ≠ some .eexist

/-- The look at what was there when the path was to be created. -/
def recheck (p : Path) : Stage where
  call := .stat true p
  passes _ := False
  ends _ := True

end Stage

/-- The stages of the creation of a path of which the `k` shallowest
ancestors are not looked at further than the deepest of them. -/
def protocol (p : Path) (mode : UInt32) (k : Nat) : List Stage :=
  .target p :: ((p.ancestors.drop k).reverse.map .missing
    ++ ((p.ancestors.take k).getLast?.toList.map .present
      ++ ((p.ancestors.drop k).map (.ancestor mode)
        ++ [.last mode p, .recheck p])))

/-- Exchanges that follow stages from the first one on: one exchange for
each, up to a reply that ends its stage. -/
inductive Follows : List Stage → List Exchange → Prop where
  | ends {stage : Stage} {rest : List Stage} {r : Reply stage.call} :
      stage.ends r → Follows (stage :: rest) [⟨stage.call, r⟩]
  | passes {stage : Stage} {rest : List Stage} {r : Reply stage.call}
      {es : List Exchange} :
      stage.passes r → Follows rest es → Follows (stage :: rest) (⟨stage.call, r⟩ :: es)

/-- What the reply to one call means for the whole: a failure is reported
with its code and against the path that was handed to the call, and so
is a file that is no directory. -/
def Exchange.verdict : Exchange → Except Failure Unit
  | ⟨.stat _ p, .ok s⟩ =>
      if s.isDirectory then .ok () else .error (.ofErrno (.path p) .enotdir)
  | ⟨.stat _ p, .error e⟩ => .error (.ofErrno (.path p) e)
  | ⟨.mkdir p _, .error e⟩ => .error (.ofErrno (.path p) e)
  | _ => .ok ()

/-- An exchange that need not be the last: a success, a path that was
looked for and does not exist, or one that was to be created and does. -/
def Exchange.Harmless : Exchange → Prop
  | ⟨.stat .., r⟩ => errno? r = none ∨ errno? r = some .enoent
  | ⟨.mkdir .., r⟩ => errno? r = none ∨ errno? r = some .eexist
  | _ => False

/-- A stage passes none but harmless exchanges. -/
def Stage.Careful (stage : Stage) : Prop :=
  ∀ r, stage.passes r → Exchange.Harmless ⟨stage.call, r⟩

/-- Every stage of the protocol is careful. -/
theorem careful_of_mem_protocol {p : Path} {mode : UInt32} {k : Nat} {stage : Stage}
    (h : stage ∈ protocol p mode k) : stage.Careful := by
  simp only [protocol, List.mem_cons, List.mem_append, List.mem_map] at h
  rcases h with rfl | ⟨a, -, rfl⟩ | ⟨a, -, rfl⟩ | ⟨a, -, rfl⟩ | rfl | rfl | h
  · exact fun r hr => Or.inr hr
  · exact fun r hr => Or.inr hr
  · exact fun r hr => Or.inl hr
  · exact fun r hr => hr
  · exact fun r hr => Or.inr hr
  · exact fun r hr => absurd hr id
  · cases h

/-- Where all stages are careful, only the last exchange can do harm. -/
theorem Follows.harmless {stages : List Stage} {es : List Exchange} (h : Follows stages es)
    (hcareful : ∀ stage ∈ stages, stage.Careful) : ∀ x ∈ es.dropLast, x.Harmless := by
  induction h with
  | ends _ => exact nofun
  | @passes stage rest r es hr hrest ih =>
      intro x hx
      have hes : es ≠ [] := by
        cases hrest <;> exact nofun
      rw [List.dropLast_cons_of_ne_nil hes] at hx
      rcases List.mem_cons.1 hx with rfl | hx
      · exact hcareful stage (List.mem_cons_self ..) r hr
      · exact ih (fun st hst => hcareful st (List.mem_cons_of_mem _ hst)) x hx

-- ============================================================== conducts

/-- From a state, an operation adds exchanges to the record that follow
the stages, and its result is the verdict on the last of them. -/
def Conducts {σ : Type} (x : Op (Recorded σ) Unit) (r : Recorded σ)
    (stages : List Stage) : Prop :=
  ∃ es, (x.run r).state.exchanges = r.exchanges ++ es
    ∧ Follows stages es
    ∧ es.getLast?.map Exchange.verdict = some (x.run r).result

namespace Conducts

variable {σ : Type} {S : System σ} {r : Recorded σ} {stages : List Stage}

/-- A call whose reply ends its stage, when nothing but the verdict
comes after it. -/
theorem of_ends (stage : Stage) {f : Reply stage.call → Op (Recorded σ) Unit}
    {reply : Reply stage.call} (hr : (S.recorded.call stage.call r).1 = reply)
    (hends : stage.ends reply)
    (hf : ∀ t, ∃ events, (f reply).run t = ⟨Exchange.verdict ⟨stage.call, reply⟩, events, t⟩) :
    Conducts (Op.issue S.recorded stage.call >>= f) r (stage :: stages) := by
  obtain ⟨events, hrun⟩ := hf (S.recorded.call stage.call r).2
  refine ⟨[⟨stage.call, reply⟩], ?_, .ends hends, ?_⟩
  · rw [Op.run_issue_bind, hr, hrun, ← hr]
    exact System.exchanges_call stage.call r
  · rw [Op.run_issue_bind, hr, hrun]
    rfl

/-- A call whose reply passes its stage, when what comes after it
conducts the stages that remain. -/
theorem of_passes (stage : Stage) {f : Reply stage.call → Op (Recorded σ) Unit}
    {reply : Reply stage.call} (hr : (S.recorded.call stage.call r).1 = reply)
    (hpasses : stage.passes reply)
    (hrest : Conducts (f reply) (S.recorded.call stage.call r).2 stages) :
    Conducts (Op.issue S.recorded stage.call >>= f) r (stage :: stages) := by
  obtain ⟨es, hstate, hfollows, hresult⟩ := hrest
  refine ⟨⟨stage.call, reply⟩ :: es, ?_, .passes hpasses hfollows, ?_⟩
  · rw [Op.run_issue_bind, hr, hstate, System.exchanges_call, hr, List.append_assoc]
    rfl
  · rw [Op.run_issue_bind, hr, ← hresult]
    cases hfollows <;> rfl

theorem of_emit {e : Event} {f : Unit → Op (Recorded σ) Unit}
    (h : Conducts (f ()) r stages) : Conducts (Op.emit e >>= f) r stages := by
  obtain ⟨es, hstate, hfollows, hresult⟩ := h
  refine ⟨es, ?_, hfollows, ?_⟩
  · rw [Op.run_emit_bind]
    exact hstate
  · rw [Op.run_emit_bind]
    exact hresult

end Conducts

-- ========================================================= parts of a run

namespace System

variable {σ : Type} (S : System σ)

/-- What is there in place of a path is a directory, or the failure. -/
private theorem run_requireDirectory (follow : Bool) (p : Path) (st : Status)
    (t : Recorded σ) :
    (requireDirectory p st).run t
      = ⟨Exchange.verdict ⟨.stat follow p, .ok st⟩, [], t⟩ := by
  show _ = (⟨if st.isDirectory then .ok () else .error (.ofErrno (.path p) .enotdir), [], t⟩ :
    Outcome (Recorded σ) Unit)
  unfold requireDirectory
  split <;> rfl

/-- Creating the path conducts the two stages that concern it last. -/
theorem conducts_createTarget (p : Path) (mode : UInt32) (r : Recorded σ) :
    Conducts (createTarget S.recorded p mode) r [.last mode p, .recheck p] := by
  unfold createTarget
  cases hr : (S.recorded.call (.mkdir p mode) r).1 with
  | ok u =>
      exact Conducts.of_ends (.last mode p) hr nofun
        fun t => ⟨[.directoryCreated p], rfl⟩
  | error e =>
      by_cases he : e = .eexist
      · subst he
        refine Conducts.of_passes (.last mode p) hr rfl ?_
        dsimp only
        rw [if_pos rfl]
        generalize (S.recorded.call (Stage.last mode p).call r).2 = r'
        cases hr' : (S.recorded.call (.stat true p) r').1 with
        | ok st =>
            refine Conducts.of_ends (.recheck p) hr' trivial fun t => ⟨[], ?_⟩
            exact run_requireDirectory true p st t
        | error e =>
            exact Conducts.of_ends (.recheck p) hr' trivial fun t => ⟨[], rfl⟩
      · refine Conducts.of_ends (.last mode p) hr ?_ fun t => ⟨[], ?_⟩
        · intro h
          exact he (Option.some.inj h)
        · dsimp only
          rw [if_neg he]
          rfl

/-- Creating ancestors and then the path conducts one stage for each of
them, and the last two. -/
theorem conducts_createAncestors (p : Path) (mode : UInt32) (as : List Path) :
    ∀ r : Recorded σ,
      Conducts (createAncestors S.recorded mode as >>= fun _ => createTarget S.recorded p mode)
        r (as.map (.ancestor mode) ++ [.last mode p, .recheck p]) := by
  induction as with
  | nil =>
      intro r
      exact conducts_createTarget S p mode r
  | cons a longer ih =>
      intro r
      rw [createAncestors, bind_assoc]
      cases hr : (S.recorded.call (.mkdir a mode) r).1 with
      | ok u =>
          refine Conducts.of_passes (.ancestor mode a) hr (Or.inl rfl) ?_
          dsimp only
          rw [bind_assoc]
          exact Conducts.of_emit (ih _)
      | error e =>
          by_cases he : e = .eexist
          · subst he
            refine Conducts.of_passes (.ancestor mode a) hr (Or.inr rfl) ?_
            dsimp only
            rw [if_pos rfl, bind_assoc]
            exact Conducts.of_emit (ih _)
          · refine Conducts.of_ends (.ancestor mode a) hr ⟨e, rfl, he⟩
              fun t => ⟨[], ?_⟩
            dsimp only
            rw [if_neg he, Op.fail_bind, Op.fail_bind]
            rfl

/-- The stages that remain when the ancestors `as` are still to be looked
at, those of `found` are known to be missing, and `k` of the former lie
above or at the deepest that exists. -/
private def remaining (p : Path) (mode : UInt32) (as found : List Path) (k : Nat) :
    List Stage :=
  (as.drop k).reverse.map .missing
    ++ ((as.take k).getLast?.toList.map .present
      ++ ((as.drop k ++ found).map (.ancestor mode) ++ [.last mode p, .recheck p]))

/-- Walking back from the deepest ancestor and creating what was missing
conducts the stages of all ancestors, for some depth. -/
theorem conducts_missingAncestors (p : Path) (mode : UInt32) (shorter : List Path) :
    ∀ (found : List Path) (r : Recorded σ), ∃ k ≤ shorter.length,
      Conducts (missingAncestors S.recorded shorter found >>= fun missing =>
          createAncestors S.recorded mode missing >>= fun _ => createTarget S.recorded p mode)
        r (remaining p mode shorter.reverse found k) := by
  induction shorter with
  | nil =>
      intro found r
      exact ⟨0, Nat.le_refl _, conducts_createAncestors S p mode found r⟩
  | cons a shorter ih =>
      intro found r
      rw [missingAncestors, bind_assoc]
      cases hr : (S.recorded.call (.stat true a) r).1 with
      | ok st =>
          -- the deepest that exists: all that were looked at before are missing
          refine ⟨(a :: shorter).length, Nat.le_refl _, ?_⟩
          have hstages : remaining p mode (a :: shorter).reverse found (a :: shorter).length
              = .present a :: (found.map (.ancestor mode) ++ [.last mode p, .recheck p]) := by
            simp [remaining, List.take_of_length_le, List.drop_of_length_le]
          rw [hstages]
          exact Conducts.of_passes (.present a) hr rfl
            (conducts_createAncestors S p mode found _)
      | error e =>
          by_cases he : e = .enoent
          · subst he
            obtain ⟨k, hk, hrest⟩ := ih (a :: found) (S.recorded.call (.stat true a) r).2
            refine ⟨k, Nat.le_succ_of_le hk, ?_⟩
            have hlen : k ≤ shorter.reverse.length := by
              rwa [List.length_reverse]
            have hstages : remaining p mode (a :: shorter).reverse found k
                = .missing a :: remaining p mode shorter.reverse (a :: found) k := by
              simp [remaining, List.drop_append_of_le_length hlen,
                List.take_append_of_le_length hlen]
            rw [hstages]
            exact Conducts.of_passes (.missing a) hr rfl hrest
          · refine ⟨0, Nat.zero_le _, ?_⟩
            have hstages : remaining p mode (a :: shorter).reverse found 0
                = .missing a :: remaining p mode shorter.reverse (a :: found) 0 := by
              simp [remaining]
            rw [hstages]
            refine Conducts.of_ends (.missing a) hr ⟨e, rfl, he⟩ fun t => ⟨[], ?_⟩
            dsimp only
            rw [if_neg he, Op.fail_bind]
            rfl

-- ============================================================== whole run

/-- Every run of `mkdirs` follows the protocol for some depth, whatever the
replies. No exchange but the last does harm, so in particular an
interrupted call is the last one, and what the run results in is the
verdict on its last exchange. -/
theorem mkdirs_follows_protocol {p : Path} (hnul : p.hasNul = false) (mode : UInt32) (s : σ) :
    let o := (S.recorded.mkdirs p mode).run ⟨[], s⟩
    ∃ k ≤ p.ancestors.length, Follows (protocol p mode k) o.state.exchanges
      ∧ (∀ x ∈ o.state.exchanges.dropLast, x.Harmless)
      ∧ o.state.exchanges.getLast?.map Exchange.verdict = some o.result := by
  intro o
  have hconducts : ∃ k ≤ p.ancestors.length,
      Conducts (S.recorded.mkdirs p mode) ⟨[], s⟩ (protocol p mode k) := by
    unfold mkdirs
    rw [Op.requireNoNul_bind _ (by simp [hnul])]
    cases hr : (S.recorded.call (.stat true p) ⟨[], s⟩).1 with
    | ok st =>
        refine ⟨0, Nat.zero_le _, ?_⟩
        exact Conducts.of_ends (.target p) hr nofun
          fun t => ⟨[], run_requireDirectory true p st t⟩
    | error e =>
        by_cases he : e = .enoent
        · subst he
          obtain ⟨k, hk, hrest⟩ := conducts_missingAncestors S p mode p.ancestors.reverse []
            (S.recorded.call (.stat true p) ⟨[], s⟩).2
          rw [List.length_reverse] at hk
          refine ⟨k, hk, Conducts.of_passes (.target p) hr rfl ?_⟩
          rw [List.reverse_reverse, remaining, List.append_nil] at hrest
          exact hrest
        · refine ⟨0, Nat.zero_le _, ?_⟩
          refine Conducts.of_ends (.target p) hr ?_ fun t => ⟨[], ?_⟩
          · intro h
            exact he (Option.some.inj h)
          · dsimp only
            rw [if_neg he]
            rfl
  obtain ⟨k, hk, es, hstate, hfollows, hresult⟩ := hconducts
  have hes : o.state.exchanges = es := hstate
  rw [hes]
  exact ⟨k, hk, hfollows, hfollows.harmless fun _ => careful_of_mem_protocol, hresult⟩

/-- The creation of `a/b` where nothing exists and the creation of `a` is
interrupted: the interruption is the failure, against `a`. -/
theorem mkdirs_follows_protocol_interrupted :
    let p : Path := [0x61, 0x2f, 0x62]
    let replies : List PreparedReply :=
      [fun _ => .error .enoent, fun _ => .error .enoent, fun _ => .error .eintr]
    let o := (prepared.recorded.mkdirs p 0o755).run ⟨[], replies⟩
    p.hasNul = false
      ∧ o.result = .error (.ofErrno (.path [0x61]) .eintr)
      ∧ ∃ k ≤ p.ancestors.length, Follows (protocol p 0o755 k) o.state.exchanges
        ∧ (∀ x ∈ o.state.exchanges.dropLast, x.Harmless)
        ∧ o.state.exchanges.getLast?.map Exchange.verdict = some o.result :=
  ⟨by decide, rfl, mkdirs_follows_protocol prepared (by decide) 0o755 _⟩

end System
end PosixFiles
