/-
What the creation of a directory notes.

# The record

Each directory that is created is noted, and each ancestor that somebody else
has created by then. So the events of `mkdirs` can be computed from the calls
it makes (`System.notes_mkdirs`), and the two accounts agree on what has been
created, in the same order.

# The end

The events about ancestors come before the one about the path itself, and
after that there is nothing but success (`System.concludes_mkdirs`). A path is
no ancestor of its own, so that event is never noted of an ancestor.
-/
import PosixFiles.Proofs.Directory.Creation
import PosixFiles.Proofs.Operation.Event
import PosixFiles.Proofs.Path.Ancestor

namespace PosixFiles

-- ============================================================ conclusions

namespace Op

variable {σ α : Type} {S : System σ}

/-- An operation notes events of a kind, and on success perhaps another event
after them. -/
def Concludes (kind : Event → Prop) (last : Event) (x : Op σ Unit) : Prop :=
  ∀ s, ∃ es, (∀ e ∈ es, kind e)
    ∧ ((x.run s).events = es
      ∨ (x.run s).events = es ++ [last] ∧ (x.run s).result = .ok ())

namespace Concludes

variable {kind : Event → Prop} {last : Event}

theorem of_silent {x : Op σ Unit} (h : ∀ s, (x.run s).events = []) : Concludes kind last x :=
  fun s => ⟨[], nofun, Or.inl (h s)⟩

theorem bind {x : Op σ α} {f : α → Op σ Unit} (hx : ∀ s, ∀ e ∈ (x.run s).events, kind e)
    (hf : ∀ a, (∃ s, (x.run s).result = .ok a) → Concludes kind last (f a)) :
    Concludes kind last (x >>= f) := by
  intro s
  rw [run_bind]
  cases hresult : (x.run s).result with
  | error e => exact ⟨_, hx s, Or.inl rfl⟩
  | ok a =>
      obtain ⟨es, hkind, hevents⟩ := hf a ⟨s, hresult⟩ (x.run s).state
      refine ⟨(x.run s).events ++ es, List.forall_mem_append.2 ⟨hx s, hkind⟩, ?_⟩
      refine hevents.imp (congrArg _) fun ⟨hlast, hok⟩ => ⟨?_, hok⟩
      rw [List.append_assoc, ← hlast]

theorem issue_bind {c : Call} {f : Reply c → Op σ Unit}
    (hf : ∀ reply, Concludes kind last (f reply)) :
    Concludes kind last (issue S c >>= f) := by
  intro s
  rw [run_issue_bind]
  exact hf _ _

end Concludes

theorem events_requireNoNul (subject : Subject) (arguments : List Bytes) (s : σ) :
    ((requireNoNul subject arguments : Op σ Unit).run s).events = [] := by
  unfold requireNoNul
  split <;> rfl

end Op

-- ================================================================ events

namespace Event

/-- The directory that an event says was created. -/
def created? : Event → Option Path
  | .parentCreated q => some q
  | .directoryCreated q => some q
  | _ => none

/-- The directory that an event says was created by somebody else. -/
def appeared? : Event → Option Path
  | .parentAppeared q => some q
  | _ => none

end Event

namespace Exchange

/-- The ancestor of a path that was to be created, and existed. -/
def appeared? (p : Path) : Exchange → Option Path
  | ⟨.mkdir q _, .error e⟩ => if e = .eexist ∧ q ∈ p.ancestors then some q else none
  | _ => none

/-- What the creation of a path notes of an exchange. -/
def creationNote? (p : Path) : Exchange → Option Event
  | ⟨.mkdir q _, .ok _⟩ =>
      some (if q ∈ p.ancestors then .parentCreated q else .directoryCreated q)
  | ⟨.mkdir q _, .error e⟩ =>
      if e = .eexist ∧ q ∈ p.ancestors then some (.parentAppeared q) else none
  | _ => none

theorem creationNote?_bind_created? (p : Path) (x : Exchange) :
    (x.creationNote? p).bind Event.created? = x.created? := by
  obtain ⟨c, reply⟩ := x
  cases c with
  | mkdir q mode =>
      cases reply with
      | ok u =>
          simp only [creationNote?, created?, Option.bind_some]
          split <;> rfl
      | error e =>
          simp only [creationNote?, created?]
          split <;> rfl
  | _ => rfl

theorem creationNote?_bind_appeared? (p : Path) (x : Exchange) :
    (x.creationNote? p).bind Event.appeared? = x.appeared? p := by
  obtain ⟨c, reply⟩ := x
  cases c with
  | mkdir q mode =>
      cases reply with
      | ok u =>
          simp only [creationNote?, appeared?, Option.bind_some]
          split <;> rfl
      | error e =>
          simp only [creationNote?, appeared?]
          split <;> rfl
  | _ => rfl

end Exchange

/-- The events of the creation of a directory with its ancestors. -/
structure TellsCreation {σ : Type} (p : Path) (o : Outcome (Recorded σ) Unit) : Prop where
  /-- What is said to have been created has been, in this order. -/
  created : o.events.filterMap Event.created? = o.state.created
  /-- What is said to have been created by somebody else is each ancestor
  that existed when it was to be created. -/
  appeared : o.events.filterMap Event.appeared?
    = o.state.exchanges.filterMap (Exchange.appeared? p)
  /-- The events about ancestors come first, and nothing is noted about the
  path itself but that it was created, which is the end of it. -/
  exists_parents : ∃ parents : List Event,
    (∀ e ∈ parents, ∃ a ∈ p.ancestors, e = .parentCreated a ∨ e = .parentAppeared a)
      ∧ (o.events = parents ∨ o.events = parents ++ [.directoryCreated p] ∧ o.result = .ok ())
  not_mem_ancestors : p ∉ p.ancestors

theorem Path.not_mem_ancestors (p : Path) : p ∉ p.ancestors := by
  intro h
  obtain ⟨c, v, hp, -, -⟩ := exists_of_mem_ancestors h
  have hlength := congrArg List.length hp
  rw [List.length_append, List.length_cons] at hlength
  omega

namespace System

variable {σ : Type} (S : System σ)

/-- The ancestors that are missing are some of those that were looked
for. -/
theorem mem_of_missingAncestors {shorter : List Path} :
    ∀ {found missing : List Path} {s : σ},
      ((missingAncestors S shorter found).run s).result = .ok missing →
        ∀ a ∈ missing, a ∈ shorter ∨ a ∈ found := by
  induction shorter with
  | nil =>
      intro found missing s h a ha
      exact Or.inr (Except.ok.inj h ▸ ha)
  | cons b shorter ih =>
      intro found missing s h a ha
      rw [missingAncestors, Op.run_issue_bind] at h
      cases hreply : (S.call (.stat true b) s).1 with
      | ok st =>
          rw [hreply] at h
          exact Or.inr (Except.ok.inj h ▸ ha)
      | error e =>
          rw [hreply] at h
          dsimp only at h
          by_cases he : e = .enoent
          · rw [if_pos he] at h
            rcases ih h a ha with ha | ha
            · exact Or.inl (List.mem_cons_of_mem _ ha)
            · rcases List.mem_cons.1 ha with rfl | ha
              · exact Or.inl (List.mem_cons_self ..)
              · exact Or.inr ha
          · rw [if_neg he] at h
            cases h

theorem mem_ancestors_of_missing {p : Path} {missing : List Path} {s : σ}
    (h : ((missingAncestors S p.ancestors.reverse []).run s).result = .ok missing) {a : Path}
    (ha : a ∈ missing) : a ∈ p.ancestors := by
  rcases mem_of_missingAncestors S h a ha with ha | ha
  · exact List.mem_reverse.1 ha
  · cases ha

theorem notes_missingAncestors (p : Path) (shorter : List Path) :
    ∀ found, Op.Notes (Exchange.creationNote? p) none
      (missingAncestors S.recorded shorter found) := by
  induction shorter with
  | nil => exact fun found => Op.notes_pure found
  | cons a shorter ih =>
      intro found
      rw [missingAncestors]
      refine .issue_bind fun reply => ?_
      cases reply with
      | ok st => exact Op.notes_pure found
      | error e =>
          dsimp only
          split
          · exact ih _
          · exact Op.notes_fail _

theorem notes_createAncestors {p : Path} {mode : UInt32} {as : List Path}
    (h : ∀ a ∈ as, a ∈ p.ancestors) :
    Op.Notes (Exchange.creationNote? p) none (createAncestors S.recorded mode as) := by
  induction as with
  | nil => exact Op.notes_pure ()
  | cons a longer ih =>
      obtain ⟨ha, hlonger⟩ := List.forall_mem_cons.1 h
      rw [createAncestors]
      refine .issue_bind fun reply => ?_
      cases reply with
      | ok u =>
          have hdue : Exchange.creationNote? p ⟨.mkdir a mode, .ok u⟩
              = some (.parentCreated a) := congrArg some (if_pos ha)
          rw [hdue]
          exact (Op.notes_emit _).bind fun _ _ => ih hlonger
      | error e =>
          dsimp only
          by_cases he : e = .eexist
          · have hdue : Exchange.creationNote? p ⟨.mkdir a mode, .error e⟩
                = some (.parentAppeared a) := if_pos ⟨he, ha⟩
            rw [hdue, if_pos he]
            exact (Op.notes_emit _).bind fun _ _ => ih hlonger
          · have hdue : Exchange.creationNote? p ⟨.mkdir a mode, .error e⟩ = none :=
              if_neg fun h => he h.1
            rw [hdue, if_neg he, Op.fail_bind]
            exact Op.notes_fail _

theorem notes_requireDirectory (note : Exchange → Option Event) (p : Path) (st : Status) :
    Op.Notes note none (requireDirectory p st : Op (Recorded σ) Unit) := by
  unfold requireDirectory
  split
  · exact Op.notes_pure ()
  · exact Op.notes_fail _

theorem notes_createTarget (p : Path) (mode : UInt32) :
    Op.Notes (Exchange.creationNote? p) none (createTarget S.recorded p mode) := by
  have hp := p.not_mem_ancestors
  unfold createTarget
  refine .issue_bind fun reply => ?_
  cases reply with
  | ok u =>
      have hdue : Exchange.creationNote? p ⟨.mkdir p mode, .ok u⟩
          = some (.directoryCreated p) := congrArg some (if_neg hp)
      rw [hdue]
      exact Op.notes_emit _
  | error e =>
      have hdue : Exchange.creationNote? p ⟨.mkdir p mode, .error e⟩ = none :=
        if_neg fun h => hp h.2
      rw [hdue]
      dsimp only
      split
      · refine .issue_bind fun reply => (Op.notes_accept _ reply).bind fun st _ => ?_
        exact notes_requireDirectory _ p st
      · exact Op.notes_fail _

/-- The creation of a directory notes what each exchange deserves. -/
theorem notes_mkdirs (p : Path) (mode : UInt32) :
    Op.Notes (Exchange.creationNote? p) none (mkdirs S.recorded p mode) := by
  unfold mkdirs
  refine (Op.notes_requireNoNul _ _).bind fun _ _ => .issue_bind fun reply => ?_
  cases reply with
  | ok st => exact notes_requireDirectory _ p st
  | error e =>
      dsimp only
      split
      · refine (notes_missingAncestors S p _ _).bind fun missing hmissing => ?_
        obtain ⟨r, hr⟩ := hmissing
        have hmem : ∀ a ∈ missing, a ∈ p.ancestors := fun a ha =>
          mem_ancestors_of_missing S.recorded hr ha
        exact (notes_createAncestors S hmem).bind fun _ _ => notes_createTarget S p mode
      · exact Op.notes_fail _

theorem events_missingAncestors (shorter : List Path) :
    ∀ (found : List Path) (s : σ), ((missingAncestors S shorter found).run s).events = [] := by
  induction shorter with
  | nil => exact fun found s => rfl
  | cons a shorter ih =>
      intro found s
      rw [missingAncestors, Op.run_issue_bind]
      cases (S.call (.stat true a) s).1 with
      | ok st => rfl
      | error e =>
          dsimp only
          split
          · exact ih _ _
          · rfl

theorem events_createAncestors (mode : UInt32) (as : List Path) :
    ∀ s : σ, ∀ e ∈ ((createAncestors S mode as).run s).events,
      ∃ a ∈ as, e = .parentCreated a ∨ e = .parentAppeared a := by
  induction as with
  | nil => exact fun s => nofun
  | cons a longer ih =>
      have hlater : ∀ (s : σ) (e : Event),
          e ∈ ((createAncestors S mode longer).run s).events →
            ∃ b ∈ a :: longer, e = .parentCreated b ∨ e = .parentAppeared b := by
        intro s e he
        obtain ⟨b, hb, hevent⟩ := ih s e he
        exact ⟨b, List.mem_cons_of_mem _ hb, hevent⟩
      intro s e he
      rw [createAncestors, Op.run_issue_bind] at he
      cases hreply : (S.call (.mkdir a mode) s).1 with
      | ok u =>
          rw [hreply] at he
          rcases List.mem_cons.1 he with rfl | he
          · exact ⟨a, List.mem_cons_self .., Or.inl rfl⟩
          · exact hlater _ e he
      | error c =>
          rw [hreply] at he
          dsimp only at he
          by_cases hc : c = .eexist
          · rw [if_pos hc] at he
            rcases List.mem_cons.1 he with rfl | he
            · exact ⟨a, List.mem_cons_self .., Or.inr rfl⟩
            · exact hlater _ e he
          · rw [if_neg hc, Op.fail_bind] at he
            cases he

theorem concludes_requireDirectory {kind : Event → Prop} {last : Event} (p : Path)
    (st : Status) : Op.Concludes kind last (requireDirectory p st : Op σ Unit) := by
  refine .of_silent fun s => ?_
  unfold requireDirectory
  split <;> rfl

theorem concludes_createTarget {kind : Event → Prop} (p : Path) (mode : UInt32) :
    Op.Concludes kind (.directoryCreated p) (createTarget S p mode) := by
  unfold createTarget
  refine .issue_bind fun reply => ?_
  cases reply with
  | ok u => exact fun s => ⟨[], nofun, Or.inr ⟨rfl, rfl⟩⟩
  | error e =>
      dsimp only
      split
      · refine .issue_bind fun reply => ?_
        cases reply with
        | ok st => exact concludes_requireDirectory p st
        | error e => exact .of_silent fun s => rfl
      · exact .of_silent fun s => rfl

/-- Events about ancestors come first, and the one about the path is the
end of a success. -/
theorem concludes_mkdirs (p : Path) (mode : UInt32) :
    Op.Concludes (fun e => ∃ a ∈ p.ancestors, e = .parentCreated a ∨ e = .parentAppeared a)
      (.directoryCreated p) (mkdirs S p mode) := by
  unfold mkdirs
  refine .bind (fun s e he => ?_) fun _ _ => .issue_bind fun reply => ?_
  · rw [Op.events_requireNoNul] at he
    cases he
  cases reply with
  | ok st => exact concludes_requireDirectory p st
  | error e =>
      dsimp only
      split
      · refine .bind (fun s e he => ?_) fun missing hmissing => ?_
        · rw [events_missingAncestors] at he
          cases he
        obtain ⟨s, hs⟩ := hmissing
        refine .bind (fun t e he => ?_) fun _ _ => concludes_createTarget S p mode
        obtain ⟨a, ha, hevent⟩ := events_createAncestors S mode missing t e he
        exact ⟨a, mem_ancestors_of_missing S hs ha, hevent⟩
      · exact .of_silent fun s => rfl

theorem tellsCreation_mkdirs (p : Path) (mode : UInt32) (s : σ) :
    TellsCreation p ((mkdirs S.recorded p mode).run ⟨[], s⟩) := by
  obtain ⟨es, hes, hevents⟩ := notes_mkdirs S p mode ⟨[], s⟩
  change _ = es at hes
  refine ⟨?_, ?_, concludes_mkdirs S.recorded p mode _, p.not_mem_ancestors⟩
  · rw [hevents, Recorded.created, hes]
    exact Op.filterMap_notes (Exchange.creationNote?_bind_created? p) es
  · rw [hevents, hes]
    exact Op.filterMap_notes (Exchange.creationNote?_bind_appeared? p) es

end System
end PosixFiles
