/-
What creating a directory with its ancestors may change.

# While it goes on

Each call made by `mkdirs` is a look, which changes nothing, or the creation
of one directory, which grows the world by just that (`World.GrownBy`) or
fails and changes nothing. So at every moment the world is the first one
with directories in it at the paths whose creation succeeded so far
(`Creating`), and wherever the run stops, what it leaves is that.
`Creates` says this of an operation, together with the paths it may create
directories at, in their order; it is put together step by step.

# At the end

`mkdirs` succeeds in three places: the first look shows a directory, the path
itself is created, or it exists by then and a second look shows a directory.
Unless the status is prescribed the path leads to a directory each time, and
it is seen to be one; so whoever calls `mkdirs` again looks once, and that is
all (`Trial.report_mkdirs_again`).
-/
import PosixFiles.Proofs.Operation.Fault
import PosixFiles.Proofs.Operation.Session
import PosixFiles.Proofs.Operation.View
import PosixFiles.Proofs.World.Creation
import PosixFiles.Trial

namespace PosixFiles

variable {σ α β : Type}

-- ================================================================= record

/-- The path of the directory that a call created. -/
def Exchange.created? : Exchange → Option Path
  | ⟨.mkdir p _, .ok _⟩ => some p
  | _ => none

/-- The paths of all directories that were created, in their order. -/
def Recorded.created (r : Recorded σ) : List Path :=
  r.exchanges.filterMap Exchange.created?

theorem created_call {S : System σ} (c : Call) (r : Recorded σ) :
    (S.recorded.call c r).2.created
      = r.created ++ (Exchange.created? ⟨c, (S.recorded.call c r).1⟩).toList := by
  rw [Recorded.created, System.exchanges_call, List.filterMap_append]
  cases hc : Exchange.created? ⟨c, (S.recorded.call c r).1⟩ <;> simp [hc, Recorded.created]

-- ================================================================== calls

/-- A moment of a trial during which directories are created, in a session
in which it started: nothing has changed but the world, and that has grown
by the directories on record. -/
structure Creating (s : Session) (mode : UInt32) (r : Recorded (Scripted Session)) : Prop where
  session_eq : r.state.state = { s with world := r.state.state.world }
  grownBy : s.world.GrownBy mode r.created r.state.state.world

/-- A path leads to a directory, and is seen to do so. -/
def World.ShowsDirectory (w : World) (p : Path) : Prop :=
  ∃ st, Session.statusFrom w.cwd true p w = .ok st ∧ st.isDirectory = true

namespace Trial

variable {s : Session} {mode : UInt32} {r : Recorded (Scripted Session)} {p : Path}

/-- A look changes nothing. What it shows is there, unless it was
prescribed. -/
theorem call_stat_cases (t : Trial) (p : Path) (r : Recorded (Scripted Session)) :
    (t.system.call (.stat true p) r).2.state.state = r.state.state
      ∧ ∀ st, t.disguise.status = none → (t.system.call (.stat true p) r).1 = .ok st →
        Session.statusFrom r.state.state.world.cwd true p r.state.state.world = .ok st := by
  obtain ⟨-, ⟨e, -, hreply, hstate⟩ | ⟨hreply, hstate⟩⟩ :=
    (Session.system.disguised t.disguise).faulty_call_cases (.stat true p) r
  · refine ⟨hstate rfl, fun st _ hst => ?_⟩
    cases hst.symm.trans hreply
  · have hsame : (t.disguise.call Session.system (.stat true p) r.state.state).2
        = r.state.state := by
      unfold Disguise.call
      dsimp only
      split <;> rfl
    refine ⟨hstate.trans hsame, fun st hd hst => ?_⟩
    have hanswer : (t.disguise.call Session.system (.stat true p) r.state.state).1 = .ok st :=
      hreply.symm.trans hst
    rw [Disguise.call_stat hd] at hanswer
    exact Session.ok_of_reported hanswer

/-- Creating a directory changes nothing, or the world as it does. -/
theorem call_mkdir_cases (t : Trial) (p : Path) (mode : UInt32) (r : Recorded (Scripted Session)) :
    (∃ e, (t.system.call (.mkdir p mode) r).1 = .error e
        ∧ (t.system.call (.mkdir p mode) r).2.state.state = r.state.state)
      ∨ ∃ w, (t.system.call (.mkdir p mode) r).1 = .ok ()
        ∧ r.state.state.world.mkdir p mode = .ok w
        ∧ (t.system.call (.mkdir p mode) r).2.state.state
          = { r.state.state with world := w } := by
  obtain ⟨-, ⟨e, -, hreply, hstate⟩ | ⟨hreply, hstate⟩⟩ :=
    (Session.system.disguised t.disguise).faulty_call_cases (.mkdir p mode) r
  · exact Or.inl ⟨e, hreply, hstate rfl⟩
  · change _ = (r.state.state.act (·.mkdir p mode)).1 at hreply
    change _ = (r.state.state.act (·.mkdir p mode)).2 at hstate
    cases hact : (r.state.state.act (·.mkdir p mode)).1 with
    | error e =>
        exact Or.inl ⟨e, hreply.trans hact, hstate.trans (Session.eq_of_act_error hact)⟩
    | ok u =>
        obtain ⟨w, hw, hworld⟩ := Session.exists_of_act_ok hact
        exact Or.inr ⟨w, hreply.trans hact, hw, hstate.trans hworld⟩

end Trial

-- ============================================================ operations

/-- What an operation makes of a moment in which `pre` holds of the world: it
may create directories at some of the paths, in their order, and if it
succeeds, `post` holds of its value and the world then. -/
def Creates (s : Session) (mode : UInt32) (pre : World → Prop) (paths : List Path)
    (x : Op (Recorded (Scripted Session)) α) (post : α → World → Prop) : Prop :=
  ∀ r, Creating s mode r → pre r.state.state.world →
    Creating s mode (x.run r).state
      ∧ (∃ made, (x.run r).state.created = r.created ++ made ∧ made.Sublist paths)
      ∧ ∀ a, (x.run r).result = .ok a → post a (x.run r).state.state.state.world

namespace Creates

variable {s : Session} {mode : UInt32} {pre : World → Prop} {paths paths' : List Path}
  {x : Op (Recorded (Scripted Session)) α} {f : α → Op (Recorded (Scripted Session)) β}
  {mid : α → World → Prop} {post : β → World → Prop} {t : Trial} {p : Path}

theorem fail (e : Failure) :
    Creates s mode pre paths (Op.fail e : Op (Recorded (Scripted Session)) β) post :=
  fun _ hr _ => ⟨hr, ⟨[], (List.append_nil _).symm, List.nil_sublist _⟩, fun _ h => by cases h⟩

theorem pure {b : β} (h : ∀ w, pre w → post b w) :
    Creates s mode pre [] (Pure.pure b : Op (Recorded (Scripted Session)) β) post :=
  fun _ hr hpre => ⟨hr, ⟨[], (List.append_nil _).symm, .slnil⟩, fun _ hb => by
    cases hb
    exact h _ hpre⟩

theorem emit {post : Unit → World → Prop} (e : Event) (h : ∀ w, pre w → post () w) :
    Creates s mode pre [] (Op.emit e) post :=
  fun _ hr hpre => ⟨hr, ⟨[], (List.append_nil _).symm, .slnil⟩, fun _ _ => h _ hpre⟩

theorem imp {pre' : World → Prop} {mid' : α → World → Prop} (h : Creates s mode pre paths x mid)
    (hpre : ∀ w, pre' w → pre w) (hmid : ∀ a w, mid a w → mid' a w) :
    Creates s mode pre' paths x mid' := by
  intro r hr hr'
  obtain ⟨hafter, hmade, hpost⟩ := h r hr (hpre _ hr')
  exact ⟨hafter, hmade, fun a ha => hmid a _ (hpost a ha)⟩

theorem more (h : Creates s mode pre paths x mid) (hsub : paths.Sublist paths') :
    Creates s mode pre paths' x mid := by
  intro r hr hpre
  obtain ⟨hafter, ⟨made, hmade, hmadesub⟩, hpost⟩ := h r hr hpre
  exact ⟨hafter, ⟨made, hmade, hmadesub.trans hsub⟩, hpost⟩

/-- What is known of the value, whatever the world, may be used for the rest. -/
theorem of_fact {P : Prop} (hP : ∀ w, pre w → P) (h : P → Creates s mode pre paths x mid) :
    Creates s mode pre paths x mid :=
  fun r hr hpre => h (hP _ hpre) r hr hpre

theorem bind (hx : Creates s mode pre paths x mid)
    (hf : ∀ a, Creates s mode (mid a) paths' (f a) post) :
    Creates s mode pre (paths ++ paths') (x >>= f) post := by
  intro r hr hpre
  obtain ⟨hr', ⟨made, hmade, hsub⟩, hmid⟩ := hx r hr hpre
  rw [Op.run_bind]
  cases hresult : (x.run r).result with
  | error e =>
      refine ⟨hr', ⟨made, hmade, ?_⟩, fun b hb => by cases hb⟩
      exact hsub.trans (List.sublist_append_left _ _)
  | ok a =>
      obtain ⟨hr'', ⟨made', hmade', hsub'⟩, hpost⟩ := hf a _ hr' (hmid a hresult)
      refine ⟨hr'', ⟨made ++ made', ?_, hsub.append hsub'⟩, hpost⟩
      rw [← List.append_assoc, ← hmade]
      exact hmade'

/-- A look. -/
theorem stat (t : Trial) (p : Path) :
    Creates s mode pre [] (Op.issue t.system (.stat true p)) fun reply w =>
      pre w ∧ ∀ st, t.disguise.status = none → reply = .ok st →
        Session.statusFrom w.cwd true p w = .ok st := by
  intro r hr hpre
  obtain ⟨hsame, hshown⟩ := t.call_stat_cases p r
  have hcreated : (t.system.call (.stat true p) r).2.created = r.created :=
    (created_call (.stat true p) r).trans (List.append_nil _)
  refine ⟨⟨?_, ?_⟩, ⟨[], ?_, .slnil⟩, fun reply h => ?_⟩
  · show (t.system.call (.stat true p) r).2.state.state = { s with world := _ }
    rw [Op.run_issue, hsame]
    exact hr.session_eq
  · rw [Op.run_issue, hsame, hcreated]
    exact hr.grownBy
  · rw [Op.run_issue, hcreated, List.append_nil]
  · rw [Op.run_issue] at h ⊢
    cases h
    dsimp only
    rw [hsame]
    exact ⟨hpre, hshown⟩

/-- The creation of one directory. -/
theorem mkdir (hroot : s.world.isDirectory World.root = true)
    (hcwd : s.world.isDirectory s.world.cwd = true) (t : Trial) (p : Path) :
    Creates s mode pre [p] (Op.issue t.system (.mkdir p mode)) fun reply w =>
      reply = .ok () → w.ShowsDirectory p := by
  intro r hr _
  have hcreated : (t.system.call (.mkdir p mode) r).2.created = r.created
      ++ (Exchange.created? ⟨.mkdir p mode, (t.system.call (.mkdir p mode) r).1⟩).toList :=
    created_call (.mkdir p mode) r
  rw [Op.run_issue]
  rcases t.call_mkdir_cases p mode r with ⟨e, hreply, hsame⟩ | ⟨w, hreply, hw, hstate⟩
  · have hnone : (t.system.call (.mkdir p mode) r).2.created = r.created := by
      rw [hcreated, hreply]
      exact List.append_nil _
    refine ⟨⟨?_, ?_⟩, ⟨[], ?_, List.nil_sublist _⟩, fun reply h hok => ?_⟩
    · rw [hsame]
      exact hr.session_eq
    · rw [hsame, hnone]
      exact hr.grownBy
    · rw [hnone, List.append_nil]
    · cases h
      cases hok.symm.trans hreply
  · have hone : (t.system.call (.mkdir p mode) r).2.created = r.created ++ [p] := by
      rw [hcreated, hreply]
      rfl
    have hgrows := hr.grownBy.grows
    have hcwd' : r.state.state.world.isDirectory r.state.state.world.cwd = true := by
      rw [hgrows.cwd_eq]
      exact hgrows.isDirectory hcwd
    have hstep := World.GrownBy.of_mkdir (hgrows.isDirectory hroot) hcwd' hw
    refine ⟨⟨?_, ?_⟩, ⟨[p], hone, List.Sublist.refl _⟩, fun _ _ _ => ?_⟩
    · rw [hstate, hr.session_eq]
    · rw [hstate, hone]
      exact hr.grownBy.trans hstep
    · rw [hstate]
      exact (hstep.madeAt 0 p rfl).statusFrom

end Creates

-- ========================================================== parts of a run

section Parts

variable {s : Session} {mode : UInt32} {t : Trial}

/-- Whoever is told the truth about a path, and goes on only if it is a
directory, knows that it is one. -/
theorem creates_requireDirectory (p : Path) (st : Status) :
    Creates s mode
      (fun w => t.disguise.status = none → Session.statusFrom w.cwd true p w = .ok st) []
      (System.requireDirectory p st)
      fun _ w => t.disguise.status = none → w.ShowsDirectory p := by
  unfold System.requireDirectory
  split
  next hst => exact Creates.pure fun w hw hd => ⟨st, hw hd, hst⟩
  next => exact Creates.fail _

/-- Walking back finds some of the paths in its way missing. -/
theorem creates_missingAncestors (shorter : List Path) :
    ∀ found, Creates s mode (fun _ => True) [] (System.missingAncestors t.system shorter found)
      fun missing _ => missing.Sublist (shorter.reverse ++ found) := by
  induction shorter with
  | nil => exact fun found => Creates.pure fun _ _ => List.Sublist.refl _
  | cons a shorter ih =>
      intro found
      rw [System.missingAncestors]
      refine Creates.bind (Creates.stat t a) fun reply => ?_
      cases reply with
      | ok st => exact Creates.pure fun _ _ => List.sublist_append_right _ _
      | error e =>
          dsimp only
          split
          · refine (ih (a :: found)).imp (fun _ _ => trivial) fun missing _ h => ?_
            rw [List.reverse_cons, List.append_assoc]
            exact h
          · exact Creates.fail _

section Create

variable (hroot : s.world.isDirectory World.root = true)
  (hcwd : s.world.isDirectory s.world.cwd = true)

include hroot hcwd

theorem creates_createAncestors (as : List Path) :
    Creates s mode (fun _ => True) as (System.createAncestors t.system mode as)
      fun _ _ => True := by
  induction as with
  | nil => exact Creates.pure fun _ _ => trivial
  | cons a longer ih =>
      rw [System.createAncestors]
      refine Creates.bind (Creates.mkdir hroot hcwd t a) fun reply => ?_
      cases reply with
      | ok u => exact Creates.bind (Creates.emit _ fun _ _ => trivial) fun _ => ih
      | error e =>
          dsimp only
          split
          · exact Creates.bind (Creates.emit _ fun _ _ => trivial) fun _ => ih
          · rw [Op.fail_bind]
            exact Creates.fail _

/-- After the creation of the path itself, or a second look at what is there,
the path leads to a directory. -/
theorem creates_createTarget (p : Path) :
    Creates s mode (fun _ => True) [p] (System.createTarget t.system p mode)
      fun _ w => t.disguise.status = none → w.ShowsDirectory p := by
  unfold System.createTarget
  refine Creates.bind (Creates.mkdir hroot hcwd t p) fun reply => ?_
  cases reply with
  | ok u => exact Creates.emit _ fun w hw _ => hw rfl
  | error e =>
      dsimp only
      split
      · refine Creates.bind (Creates.stat t p) fun look => ?_
        cases look with
        | ok st =>
            rw [Op.accept_ok_bind]
            exact (creates_requireDirectory p st).imp (fun w hw hd => hw.2 st hd rfl)
              fun _ _ h => h
        | error e => exact Creates.fail _
      · exact Creates.fail _

/-- A run of `mkdirs` creates directories at ancestors of the path and then at
the path, as far as it gets. If it gets through, the path can be handed to
the system, and it leads to a directory. -/
theorem creates_mkdirs (p : Path) :
    Creates s mode (fun _ => True) (p.ancestors ++ [p]) (t.system.mkdirs p mode)
      fun _ w => p.hasNul = false ∧ (t.disguise.status = none → w.ShowsDirectory p) := by
  unfold System.mkdirs
  cases hnul : p.hasNul with
  | true =>
      rw [Op.requireNoNul_bind_of_hasNul _ (by simp [hnul])]
      exact Creates.fail _
  | false =>
      rw [Op.requireNoNul_bind _ (by simp [hnul])]
      rw [← List.nil_append (p.ancestors ++ [p])]
      refine Creates.bind (Creates.stat t p) fun look => ?_
      cases look with
      | ok st =>
          exact ((creates_requireDirectory p st).imp (fun w hw hd => hw.2 st hd rfl)
            fun _ _ h => ⟨rfl, h⟩).more (List.nil_sublist _)
      | error e =>
          dsimp only
          split
          · rw [← List.nil_append (p.ancestors ++ [p])]
            refine Creates.bind ((creates_missingAncestors p.ancestors.reverse []).imp
              (fun _ _ => trivial) fun _ _ h => h) fun missing => ?_
            refine Creates.of_fact (fun _ h => h) fun hsub => ?_
            rw [List.reverse_reverse, List.append_nil] at hsub
            refine Creates.more ?_ (hsub.append (List.Sublist.refl [p]))
            refine Creates.bind ((creates_createAncestors hroot hcwd missing).imp
              (fun _ _ => trivial) fun _ _ h => h) fun _ => ?_
            exact (creates_createTarget hroot hcwd p).imp (fun _ h => h) fun _ _ h => ⟨rfl, h⟩
          · exact Creates.fail _

end Create
end Parts

-- =============================================================== whole runs

namespace Trial

variable {s : Session} {p : Path}

/-- Whoever creates a directory that is there looks once, and that is all. -/
theorem report_mkdirs_again (F : Files) (hnul : p.hasNul = false)
    (hshown : s.world.ShowsDirectory p) (mode : UInt32) :
    ∃ st, (Trial.mk (.mkdirs p mode) [] {}).report F s
      = ⟨.ok (), [], [⟨.stat true p, .ok st⟩], s⟩ := by
  obtain ⟨st, hst, hdir⟩ := hshown
  refine ⟨st, ?_⟩
  have hcall : (Trial.mk (.mkdirs p mode) [] {}).system.call (.stat true p) ⟨[], ⟨[], s⟩⟩
      = (.ok st, ⟨[⟨.stat true p, .ok st⟩], ⟨[], s⟩⟩) := by
    show (Session.reported (Session.statusFrom s.world.cwd true p s.world),
      (⟨[⟨.stat true p, Session.reported (Session.statusFrom s.world.cwd true p s.world)⟩],
        ⟨[], s⟩⟩ : Recorded (Scripted Session))) = _
    rw [hst]
    rfl
  have hrun : ((Trial.mk (.mkdirs p mode) [] {}).system.mkdirs p mode).run ⟨[], ⟨[], s⟩⟩
      = ⟨.ok (), [], ⟨[⟨.stat true p, .ok st⟩], ⟨[], s⟩⟩⟩ := by
    unfold System.mkdirs
    rw [Op.requireNoNul_bind _ (by simp [hnul]), Op.run_issue_bind, hcall]
    dsimp only
    unfold System.requireDirectory
    rw [if_pos hdir]
    rfl
  exact congrArg (fun o : Outcome (Recorded (Scripted Session)) Unit =>
    (⟨o.result, o.events, o.state.exchanges, o.state.state.state⟩ :
      Report (Trial.mk (.mkdirs p mode) [] {}))) hrun

/-- A session in which the mask was set, any number of times. -/
def masked (F : Files) (masks : List UInt32) (s : Session) : Session :=
  masks.foldl (fun s mask => ((Trial.mk (.umask mask) [] {}).report F s).session) s

/-- The mask that was set last counts, as far as it has permissions. -/
theorem masked_eq (F : Files) (masks : List UInt32) :
    ∀ s, masked F masks s = { s with
      world := { s.world with
        mask := (masks.getLast?.map (· &&& 0o777)).getD s.world.mask } } := by
  induction masks with
  | nil => exact fun _ => rfl
  | cons mask rest ih =>
      intro s
      refine (ih _).trans ?_
      rw [List.getLast?_cons]
      cases rest.getLast? <;> rfl

/-- What `mkdirs` may change, whatever masks were set before, wherever it stops
and whatever faults and prescribed replies it met on its way. Only files change, and
of those that were there only the names in directories, to which new ones
may be added. Each new name is that of a directory that was made at an
ancestor of the path or at the path itself, the shallowest first, with the
permissions that the mode asks for and the mask leaves and the bit that is
handed on. What a path led to it leads to still.

If `mkdirs` succeeds and no status was prescribed, the path leads to a directory
then, and to create it again is to look at it once. All this is in a world
whose root is a directory, and where the process is in one. -/
theorem mkdirs_grows_world (F : Files) (session : Session) (masks : List UInt32) (p : Path)
    (mode : UInt32) (script : List Fault) (disguise : Disguise)
    (hroot : session.world.isDirectory World.root = true)
    (hcwd : session.world.isDirectory session.world.cwd = true) :
    let s := masked F masks session
    let o := (Trial.mk (.mkdirs p mode) script disguise).report F s
    let made := o.exchanges.filterMap Exchange.created?
    s.world.mask = (masks.getLast?.map (· &&& 0o777)).getD session.world.mask
      ∧ o.session = { s with world := o.session.world }
      ∧ made.Sublist (p.ancestors ++ [p])
      ∧ s.world.GrownBy mode made o.session.world
      ∧ (∀ follow q i, s.world.file follow q = .ok i → o.session.world.file follow q = .ok i)
      ∧ (∀ i d' e, o.session.world.directory? i = some d' → e ∈ d'.entries →
          (∃ d, s.world.directory? i = some d ∧ e ∈ d.entries)
            ∨ ∃ q ∈ made, o.session.world.MadeAt mode
              (World.NewSince s.world o.session.world) q e.2)
      ∧ (o.result = .ok () → disguise.status = none →
          (∃ i, o.session.world.file true p = .ok i ∧ o.session.world.isDirectory i = true)
            ∧ ∀ mode', ∃ st, (Trial.mk (.mkdirs p mode') [] {}).report F o.session
              = ⟨.ok (), [], [⟨.stat true p, .ok st⟩], o.session⟩) := by
  intro s o made
  have hs : s = { session with world := { session.world with
      mask := (masks.getLast?.map (· &&& 0o777)).getD session.world.mask } } :=
    masked_eq F masks session
  have hroot' : s.world.isDirectory World.root = true := by
    rw [hs]
    exact hroot
  have hcwd' : s.world.isDirectory s.world.cwd = true := by
    rw [hs]
    exact hcwd
  have hstart : Creating s mode ⟨[], ⟨script, s⟩⟩ := ⟨rfl, .refl s.world mode⟩
  obtain ⟨hcreating, ⟨made', hmade, hsub⟩, hpost⟩ :=
    creates_mkdirs (t := ⟨.mkdirs p mode, script, disguise⟩) hroot' hcwd' p _ hstart trivial
  have hmade : made = made' := hmade
  have hgrown : s.world.GrownBy mode made o.session.world := hcreating.grownBy
  refine ⟨?_, hcreating.session_eq, hmade ▸ hsub, hgrown, fun follow q i => hgrown.grows.file,
    fun i d' e hd' he => ?_, fun hok hd => ?_⟩
  · rw [hs]
  · rcases hgrown.mem_entries hd' he with hold | hnew
    · exact Or.inl hold
    · obtain ⟨k, q, -, hq, hmadeAt⟩ := hgrown.exists_madeAt hnew
      exact Or.inr ⟨q, List.mem_of_getElem? hq, hmadeAt⟩
  · obtain ⟨hnul, hshows⟩ := hpost () hok
    obtain ⟨st, hst, hdir⟩ := hshows hd
    exact ⟨World.isDirectory_of_statusFrom_ok hst hdir,
      report_mkdirs_again F hnul ⟨st, hst, hdir⟩⟩

/-- The creation of `a/b` below a directory that hands its bit on, under a
mask that was set twice: both are made, the deeper one with the bit from the
other. -/
theorem mkdirs_grows_world_twice :
    let session : Session :=
      { world :=
          { nodes := #[⟨.directory { parent := 0 }, 0o2755, true, [], {}, {}, {}⟩]
            cwd := 0, mask := 0, now := {} } }
    let p : Path := [0x61, 0x2f, 0x62]
    let s := masked {} [0o077, 0o022] session
    let o := (Trial.mk (.mkdirs p 0o777) [] {}).report {} s
    let made := o.exchanges.filterMap Exchange.created?
    session.world.isDirectory World.root = true
      ∧ session.world.isDirectory session.world.cwd = true
      ∧ o.result.toOption = some () ∧ made = [[0x61], [0x61, 0x2f, 0x62]]
      ∧ o.session.world.nodes.toList.map (·.permissions) = [0o2755, 0o2755, 0o2755]
      ∧ s.world.mask = 0o022
      ∧ o.session = { s with world := o.session.world }
      ∧ made.Sublist (p.ancestors ++ [p])
      ∧ s.world.GrownBy 0o777 made o.session.world
      ∧ (∀ follow q i, s.world.file follow q = .ok i → o.session.world.file follow q = .ok i)
      ∧ (∀ i d' e, o.session.world.directory? i = some d' → e ∈ d'.entries →
          (∃ d, s.world.directory? i = some d ∧ e ∈ d.entries)
            ∨ ∃ q ∈ made, o.session.world.MadeAt 0o777
              (World.NewSince s.world o.session.world) q e.2)
      ∧ (o.result = .ok () → (none : Option Status) = none →
          (∃ i, o.session.world.file true p = .ok i ∧ o.session.world.isDirectory i = true)
            ∧ ∀ mode', ∃ st, (Trial.mk (.mkdirs p mode') [] {}).report {} o.session
              = ⟨.ok (), [], [⟨.stat true p, .ok st⟩], o.session⟩) :=
  ⟨rfl, rfl, by decide +kernel, by decide +kernel, by decide +kernel,
    mkdirs_grows_world {} _ [0o077, 0o022] [0x61, 0x2f, 0x62] 0o777 [] {} rfl rfl⟩

end Trial
end PosixFiles
