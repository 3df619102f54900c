/-
Recursive directory creation against its plain form.

# The plain form

The plain way to create a directory with its ancestors asks nothing
beforehand: create every ancestor, shallowest first, and then the path,
and let be what exists (`World.mkdirStepwise`). Only where the path itself
exists is there a question, whether it is a directory.

`mkdirs` looks before it creates. It starts with the path and walks back
to the deepest ancestor that exists, and creates what is below it. While
nobody else interferes the two agree (`mkdirs_eq_stepwise`): they succeed
in the same cases, fail with the same code in the others, and leave the
same world.

# What the short cut rests on

The look at the path tells one of three things, and each decides what the
plain form does.

- The path leads to a file. Then each ancestor exists
  (`World.mkdir_of_file_ok`), and nothing is created.
- It fails, and not for want of an entry. Then creating any ancestor finds
  something there or fails in the same way (`World.mkdir_of_file_error`).
- An entry is missing. Then the status of every ancestor is known to be
  that of a directory, or to fail likewise (`World.file_of_file_noEntry`).
  So the walk back ends only at an ancestor that exists, and all above it
  exist too.
-/
import PosixFiles.Operation.Directory
import PosixFiles.Proofs.Operation.Session
import PosixFiles.Proofs.World.Arrival

namespace PosixFiles

-- ======================================================== the plain form

namespace World

/-- Creates a directory. Something that exists already has to be one. -/
def mkdirOrFind (mode : UInt32) (p : Path) (w : World) : Except Refusal Unit × World :=
  match w.mkdir p mode with
  | .ok w' => (.ok (), w')
  | .error e =>
      if e = .exists then
        match Session.statusFrom w.cwd true p w with
        | .ok st => (if st.isDirectory then .ok () else .error .notDirectory, w)
        | .error e => (.error e, w)
      else (.error e, w)

/-- Creates directories in the order given, those that exist being let
alone, and then a last one. -/
def mkdirThrough (mode : UInt32) (p : Path) : List Path → World → Except Refusal Unit × World
  | [], w => w.mkdirOrFind mode p
  | a :: longer, w =>
      match w.mkdir a mode with
      | .ok w' => mkdirThrough mode p longer w'
      | .error e => if e = .exists then mkdirThrough mode p longer w else (.error e, w)

/-- Creates a directory and all its ancestors, step by step from the
shallowest. -/
def mkdirStepwise (mode : UInt32) (p : Path) (w : World) : Except Refusal Unit × World :=
  w.mkdirThrough mode p p.ancestors

variable {w : World} {p : Path} {mode : UInt32} {e : Refusal}

/-- Ancestors that exist make no difference. -/
theorem mkdirThrough_append {front : List Path} (back : List Path)
    (h : ∀ a ∈ front, w.mkdir a mode = .error .exists) :
    w.mkdirThrough mode p (front ++ back) = w.mkdirThrough mode p back := by
  induction front with
  | nil => rfl
  | cons a front ih =>
      rw [List.cons_append, mkdirThrough, h a (List.mem_cons_self ..)]
      dsimp only
      rw [if_pos rfl]
      exact ih fun b hb => h b (List.mem_cons_of_mem _ hb)

/-- If every step finds something there or fails in one way, and so does
the last, nothing is created and the failure is this one. -/
theorem mkdirThrough_of_error {as : List Path}
    (h : ∀ a ∈ as, w.mkdir a mode = .error .exists ∨ w.mkdir a mode = .error e)
    (hlast : w.mkdirOrFind mode p = (.error e, w)) :
    w.mkdirThrough mode p as = (.error e, w) := by
  induction as with
  | nil => exact hlast
  | cons a as ih =>
      have hrest := ih fun b hb => h b (List.mem_cons_of_mem _ hb)
      rw [mkdirThrough]
      rcases h a (List.mem_cons_self ..) with ha | ha
      · rw [ha]
        dsimp only
        rw [if_pos rfl]
        exact hrest
      · rw [ha]
        dsimp only
        by_cases he : e = .exists
        · rw [if_pos he]
          exact hrest
        · rw [if_neg he]

-- ============================================ what the status tells ahead

/-- If the path leads to a file, creating it finds that. -/
theorem mkdir_self_of_file_ok (hlen : p.length < pathMax) {i : Ino}
    (h : w.file true p = .ok i) (mode : UInt32) : w.mkdir p mode = .error .exists := by
  have hne := ne_nil_of_file_ok h
  by_cases hc : p.components = []
  · exact mkdir_of_components_eq_nil hne hlen hc mode
  · exact mkdir_of_file_ok (.refl hne hlen hc) hlen h mode

/-- If the path leads to a file, the plain form creates nothing. -/
theorem mkdirStepwise_of_file_ok (hlen : p.length < pathMax) {i : Ino}
    (h : w.file true p = .ok i) :
    w.mkdirStepwise mode p = w.mkdirOrFind mode p := by
  unfold mkdirStepwise
  rw [← List.append_nil p.ancestors]
  refine mkdirThrough_append [] fun a ha => ?_
  obtain ⟨k, hk⟩ := List.mem_iff_getElem?.1 ha
  exact mkdir_of_file_ok (onTheWay_ancestor hlen hk).1 hlen h mode

/-- A failure other than that an entry is missing is that of the plain
form. -/
theorem mkdirStepwise_of_file_error (hlen : p.length < pathMax)
    (h : w.file true p = .error e) (he : e ≠ .noEntry) :
    w.mkdirStepwise mode p = (.error e, w) := by
  have hne : p ≠ [] := by
    rintro rfl
    cases h
    exact he rfl
  refine mkdirThrough_of_error (fun a ha => ?_) ?_
  · obtain ⟨k, hk⟩ := List.mem_iff_getElem?.1 ha
    exact mkdir_of_file_error (onTheWay_ancestor hlen hk).1 hne hlen h he mode
  · have hself : w.mkdir p mode = .error .exists ∨ w.mkdir p mode = .error e := by
      by_cases hc : p.components = []
      · exact Or.inl (mkdir_of_components_eq_nil hne hlen hc mode)
      · exact mkdir_of_file_error (.refl hne hlen hc) hne hlen h he mode
    have hstat := statusFrom_of_file_error h
    unfold mkdirOrFind
    rcases hself with hself | hself
    · rw [hself]
      dsimp only
      rw [if_pos rfl, hstat]
    · rw [hself]
      dsimp only
      rw [hstat]
      split <;> rfl

/-- If nothing but a missing entry can keep the path from leading to a
file, each ancestor has a status or misses an entry. -/
theorem statusFrom_of_mem_ancestors (hroot : w.isDirectory root = true)
    (hlen : p.length < pathMax) (h : ∀ e, w.file true p = .error e → e = .noEntry)
    {a : Path} (ha : a ∈ p.ancestors) :
    Session.statusFrom w.cwd true a w = .error .noEntry
      ∨ ∃ st, Session.statusFrom w.cwd true a w = .ok st := by
  obtain ⟨k, hk⟩ := List.mem_iff_getElem?.1 ha
  obtain ⟨hway, hc, hlt⟩ := onTheWay_ancestor hlen hk
  have hne : p ≠ [] := by
    rintro rfl
    cases hlt
  have hproper : a.components ≠ p.components := by
    intro heq
    have := congrArg List.length (heq.symm.trans hc)
    rw [List.length_take] at this
    omega
  rcases file_of_file_noEntry hroot hway hproper hne hlen h with hfile | ⟨i, hfile, hdir⟩
  · exact Or.inl (statusFrom_of_file_error hfile)
  · exact Or.inr (statusFrom_of_isDirectory hfile hdir)

/-- Ancestors down to one that has a status make no difference to the
plain form. -/
theorem mkdirStepwise_of_ancestor (hlen : p.length < pathMax) {front back : List Path}
    (has : p.ancestors = front ++ back)
    (h : ∀ a ∈ front.getLast?, ∃ st, Session.statusFrom w.cwd true a w = .ok st) :
    w.mkdirStepwise mode p = w.mkdirThrough mode p back := by
  unfold mkdirStepwise
  rw [has]
  refine mkdirThrough_append back fun a ha => ?_
  obtain ⟨j, hj⟩ := List.mem_iff_getElem?.1 ha
  have hjlt : j < front.length := (List.getElem?_eq_some_iff.1 hj).1
  have hne : front ≠ [] := List.ne_nil_of_mem ha
  have hlast := List.getLast?_eq_some_getLast hne
  obtain ⟨st, hst⟩ := h _ hlast
  obtain ⟨i, hfile⟩ := file_of_statusFrom_ok hst
  -- both lie on the way to `p`, and the last of them is no shorter
  have hjp : p.ancestors[j]? = some a := by
    rw [has, List.getElem?_append_left hjlt, hj]
  have hkp : p.ancestors[front.length - 1]? = some (front.getLast hne) := by
    rw [has, List.getElem?_append_left (by omega), ← List.getLast?_eq_getElem?, hlast]
  obtain ⟨hway, hca, -⟩ := onTheWay_ancestor hlen hjp
  obtain ⟨hwayb, hcb, -⟩ := onTheWay_ancestor hlen hkp
  refine mkdir_of_file_ok ⟨hway.ne_nil, hway.length_lt, ?_, ?_, hway.components_ne_nil⟩
    hwayb.length_lt hfile mode
  · rw [hway.isAbsolute_eq, hwayb.isAbsolute_eq]
  · rw [hca, hcb]
    exact List.take_prefix_take_left (by omega)

end World

-- ============================================================ both forms

namespace System

/-- An operation from a state of a session ends as a computation in the
world did: well, or with the same code, and in the same world. -/
def EndsAs (s : Session) (o : Outcome Session Unit) (x : Except Refusal Unit × World) : Prop :=
  o.result.mapError Failure.errno = x.1.mapError Refusal.errno
    ∧ o.state = { s with world := x.2 }

private theorem call_mkdir (p : Path) (mode : UInt32) (s : Session) :
    Session.system.call (.mkdir p mode) s =
      match s.world.mkdir p mode with
      | .ok w => (.ok (), { s with world := w })
      | .error r => (.error r.errno, s) := rfl

private theorem call_stat (p : Path) (s : Session) :
    Session.system.call (.stat true p) s =
      (Session.reported (Session.statusFrom s.world.cwd true p s.world), s) := rfl

private theorem EndsAs.of_emit {s t : Session} {e : Event} {f : Unit → Op Session Unit}
    {x : Except Refusal Unit × World} (h : EndsAs s ((f ()).run t) x) :
    EndsAs s ((Op.emit e >>= f).run t) x := by
  rw [Op.run_emit_bind]
  exact h

/-- What is there has to be a directory. -/
theorem requireDirectory_endsAs (p : Path) (st : Status) (s : Session) :
    EndsAs s ((requireDirectory p st).run s)
      (if st.isDirectory then .ok () else .error .notDirectory, s.world) := by
  unfold requireDirectory
  split <;> exact ⟨rfl, rfl⟩

/-- The path itself is created alike. -/
theorem createTarget_endsAs (p : Path) (mode : UInt32) (s : Session) :
    EndsAs s ((createTarget Session.system p mode).run s) (s.world.mkdirOrFind mode p) := by
  unfold createTarget World.mkdirOrFind
  rw [Op.run_issue_bind, call_mkdir]
  cases s.world.mkdir p mode with
  | ok w => exact ⟨rfl, rfl⟩
  | error r =>
      dsimp only
      by_cases hr : r = .exists
      · subst hr
        rw [if_pos ((Refusal.errno_eq_eexist_iff _).2 rfl), if_pos rfl, Op.run_issue_bind,
          call_stat]
        cases Session.statusFrom s.world.cwd true p s.world with
        | ok st => exact requireDirectory_endsAs p st s
        | error e => exact ⟨rfl, rfl⟩
      · rw [if_neg hr, if_neg (mt r.errno_eq_eexist_iff.1 hr)]
        exact ⟨rfl, rfl⟩

/-- Ancestors and then the path itself are created alike. -/
theorem createAncestors_endsAs (p : Path) (mode : UInt32) (as : List Path) :
    ∀ s : Session,
      EndsAs s ((createAncestors Session.system mode as >>= fun _ =>
          createTarget Session.system p mode).run s)
        (s.world.mkdirThrough mode p as) := by
  induction as with
  | nil => exact createTarget_endsAs p mode
  | cons a longer ih =>
      intro s
      rw [createAncestors, bind_assoc, Op.run_issue_bind, call_mkdir, World.mkdirThrough]
      cases s.world.mkdir a mode with
      | ok w =>
          dsimp only
          rw [bind_assoc]
          exact .of_emit (ih { s with world := w })
      | error r =>
          dsimp only
          by_cases hr : r = .exists
          · subst hr
            rw [if_pos ((Refusal.errno_eq_eexist_iff _).2 rfl), if_pos rfl, bind_assoc]
            exact .of_emit (ih s)
          · rw [if_neg hr, if_neg (mt r.errno_eq_eexist_iff.1 hr), Op.fail_bind, Op.fail_bind]
            exact ⟨rfl, rfl⟩

/-- Where every look finds a file or a missing entry, the walk back splits
the ancestors at the deepest that has a status. -/
theorem run_missingAncestors {s : Session} (shorter : List Path) :
    ∀ found : List Path,
      (∀ a ∈ shorter, Session.statusFrom s.world.cwd true a s.world = .error .noEntry
        ∨ ∃ st, Session.statusFrom s.world.cwd true a s.world = .ok st) →
      ∃ front back, shorter.reverse = front ++ back
        ∧ (∀ a ∈ front.getLast?,
            ∃ st, Session.statusFrom s.world.cwd true a s.world = .ok st)
        ∧ (missingAncestors Session.system shorter found).run s
            = ⟨.ok (back ++ found), [], s⟩ := by
  induction shorter with
  | nil =>
      intro found _
      exact ⟨[], [], rfl, nofun, rfl⟩
  | cons a shorter ih =>
      intro found h
      rw [missingAncestors, Op.run_issue_bind, call_stat]
      rcases h a (List.mem_cons_self ..) with ha | ⟨st, ha⟩
      · obtain ⟨front, back, hsplit, hlast, hrun⟩ :=
          ih (a :: found) fun b hb => h b (List.mem_cons_of_mem _ hb)
        refine ⟨front, back ++ [a], ?_, hlast, ?_⟩
        · rw [List.reverse_cons, hsplit, List.append_assoc]
        · rw [ha]
          dsimp only [Session.reported]
          rw [if_pos ((Refusal.errno_eq_enoent_iff _).2 rfl), hrun, List.append_assoc]
          rfl
      · refine ⟨(a :: shorter).reverse, [], (List.append_nil _).symm, ?_, ?_⟩
        · intro b hb
          rw [List.getLast?_reverse] at hb
          cases hb
          exact ⟨st, ha⟩
        · rw [ha]
          rfl

/-- Recursive creation agrees with its plain form: it succeeds where that
does, fails with the same code where that fails, and leaves the same
world. -/
theorem mkdirs_eq_stepwise {p : Path} (hnul : p.hasNul = false) (hlen : p.length < pathMax)
    (mode : UInt32) {s : Session} (hroot : s.world.isDirectory World.root = true) :
    let o := (Session.system.mkdirs p mode).run s
    let plain := s.world.mkdirStepwise mode p
    o.result.mapError Failure.errno = plain.1.mapError Refusal.errno
      ∧ o.state = { s with world := plain.2 } := by
  intro o plain
  show EndsAs s ((mkdirs Session.system p mode).run s) (s.world.mkdirStepwise mode p)
  unfold mkdirs
  rw [Op.requireNoNul_bind _ (by simp [hnul]), Op.run_issue_bind, call_stat]
  cases hst : Session.statusFrom s.world.cwd true p s.world with
  | ok st =>
      obtain ⟨i, hfile⟩ := World.file_of_statusFrom_ok hst
      rw [World.mkdirStepwise_of_file_ok hlen hfile]
      unfold World.mkdirOrFind
      rw [World.mkdir_self_of_file_ok hlen hfile, hst]
      exact requireDirectory_endsAs p st s
  | error e =>
      dsimp only [Session.reported]
      by_cases he : e = .noEntry
      · subst he
        rw [if_pos ((Refusal.errno_eq_enoent_iff _).2 rfl)]
        have hmissing : ∀ e, s.world.file true p = .error e → e = .noEntry := by
          intro e hfile
          rw [World.statusFrom_of_file_error hfile] at hst
          exact Except.error.inj hst
        obtain ⟨front, back, hsplit, hlast, hrun⟩ :=
          run_missingAncestors (s := s) p.ancestors.reverse [] fun a ha =>
            World.statusFrom_of_mem_ancestors hroot hlen hmissing (List.mem_reverse.1 ha)
        rw [List.reverse_reverse] at hsplit
        rw [World.mkdirStepwise_of_ancestor hlen hsplit hlast, Op.run_bind_ok hrun,
          List.append_nil]
        exact createAncestors_endsAs p mode back s
      · rw [if_neg (mt e.errno_eq_enoent_iff.1 he)]
        have hfile : s.world.file true p = .error e :=
          (World.file_of_statusFrom_error hst).resolve_right fun h => he h.1
        rw [World.mkdirStepwise_of_file_error hlen hfile he]
        exact ⟨rfl, rfl⟩

/-- The creation of `l/a/b` where `l` is a link to a directory. -/
theorem mkdirs_eq_stepwise_through_link :
    let top : Directory := { parent := 0, entries := [([0x6c], 1), ([0x64], 2)] }
    let s : Session :=
      { world :=
          { nodes := #[⟨.directory top, 0o755, true, [], {}, {}, {}⟩,
              ⟨.symlink ⟨[0x64], by decide, by decide⟩, 0o777, true, [], {}, {}, {}⟩,
              ⟨.directory { parent := 0 }, 0o755, true, [], {}, {}, {}⟩]
            cwd := 0, mask := 0o022, now := {} } }
    let p : Path := [0x6c, 0x2f, 0x61, 0x2f, 0x62]
    let o := (Session.system.mkdirs p 0o755).run s
    let plain := s.world.mkdirStepwise 0o755 p
    p.hasNul = false ∧ p.length < pathMax ∧ s.world.isDirectory World.root = true
      ∧ o.result = .ok () ∧ o.state.world.nodes.size = 5
      ∧ o.result.mapError Failure.errno = plain.1.mapError Refusal.errno
      ∧ o.state = { s with world := plain.2 } :=
  ⟨by decide, by decide, by decide, rfl, by decide,
    mkdirs_eq_stepwise (by decide) (by decide) 0o755 (by decide)⟩

end System
end PosixFiles
