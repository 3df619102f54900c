/-
Recursive directory creation while other processes create, too.

# What is certain

Where everything is open to the process, and others only ever add to the
world, nothing that has been found is lost. That is all `mkdirs` relies
on: what a look says is old by the next call, but what it found is there
still, and what was missing may have appeared, which creation puts up
with. So `mkdirs` succeeds only with a directory in place, and the one
thing that can make it fail is a file of another kind on the way; if none
was there and nobody puts one there it succeeds, whatever else happens
(`mkdirs_tolerates_races`).

# The induction

`Settles` is what is proved of each part of `mkdirs`: from a state it
reaches another one by additions alone, and it ends well or for a good
reason. Creating the ancestors is an induction on those still to be
created, whose invariant is that the components before the next one lead
somewhere, in the world as it is then. The walk back establishes it: an
ancestor that has been found is such a place, and where none is found the
directory is one in which the path starts.
-/
import PosixFiles.Operation.Directory
import PosixFiles.Proofs.Operation.Run
import PosixFiles.Proofs.World.Open
import PosixFiles.System.Contested

namespace PosixFiles

open World (startOf)

-- ================================================================ states

/-- A state in which the creation of a path may begin or go on: the
directory in which the path starts is one, everything below it is open,
and the mode leaves new directories open. -/
structure Contested.Ready (p : Path) (mode : UInt32) (x : Contested) : Prop where
  openBelow : x.world.OpenBelow (startOf x.world.cwd p)
  isDirectory : x.world.isDirectory (startOf x.world.cwd p) = true
  mode_eq : mode &&& ~~~x.world.mask &&& World.openBits = World.openBits

/-- A state that is reached from another one by additions alone. What
obstructs the path then did so before, or it was others who put it
there. -/
structure Contested.Reaches (p : Path) (x y : Contested) : Prop where
  extends_world : World.Extends (startOf x.world.cwd p) x.world y.world
  history_prefix : x.history <+: y.history
  blame : y.world.Obstructed p →
    x.world.Obstructed p ∨ ∃ h ∈ y.history, h.2.Blocks h.1 p

namespace Contested

variable {p : Path} {mode : UInt32} {x y z : Contested}

/-- What a state reaches is ready if the state is. -/
theorem Ready.of_reaches (hx : x.Ready p mode) (h : x.Reaches p y) : y.Ready p mode := by
  have hext := h.extends_world
  have hstart : startOf y.world.cwd p = startOf x.world.cwd p := by
    rw [hext.cwd_eq]
  refine ⟨?_, ?_, ?_⟩
  · rw [hstart]
    exact hext.openBelow
  · have hself : x.world.trace (startOf x.world.cwd p) [] = some (startOf x.world.cwd p) := rfl
    rw [hstart, (hext.trace hself).2]
    exact hx.isDirectory
  · rw [hext.mask_eq]
    exact hx.mode_eq

theorem Reaches.trans (h : x.Reaches p y) (h' : y.Reaches p z) : x.Reaches p z := by
  refine ⟨?_, h.history_prefix.trans h'.history_prefix, fun hobs => ?_⟩
  · have hext := h'.extends_world
    rw [h.extends_world.cwd_eq] at hext
    exact h.extends_world.trans hext
  · rcases h'.blame hobs with hobs | hblocks
    · rcases h.blame hobs with hobs | ⟨b, hb, hblocks⟩
      · exact Or.inl hobs
      · exact Or.inr ⟨b, h'.history_prefix.subset hb, hblocks⟩
    · exact Or.inr hblocks

/-- Where names lead, they lead in every state reached. -/
theorem Reaches.trace (h : x.Reaches p y) {names : List Name} {i : Ino}
    (hi : x.world.trace (startOf x.world.cwd p) names = some i) :
    y.world.trace (startOf y.world.cwd p) names = some i := by
  rw [h.extends_world.cwd_eq]
  exact (h.extends_world.trace hi).1

/-- What others do before a call. -/
theorem Ready.reaches_intruded (hx : x.Ready p mode) : x.Reaches p x.intruded := by
  refine ⟨hx.openBelow.extends_addAll _, List.prefix_append .., fun hobs => ?_⟩
  rcases World.obstructed_addAll _ hx.openBelow hobs with hobs | ⟨b, hb, hblocks⟩
  · exact Or.inl hobs
  · exact Or.inr ⟨b, List.mem_append_right _ hb, hblocks⟩

/-- The state with another world. -/
def withWorld (x : Contested) (w : World) : Contested :=
  { x with session := { x.session with world := w } }

/-- A directory that is added obstructs nothing. -/
theorem Ready.reaches_add (hx : x.Ready p mode) {a : Addition}
    (ha : a.node.body.fileType = .directory) :
    x.Reaches p (x.withWorld (x.world.add a)) := by
  refine ⟨hx.openBelow.extends_add a, List.prefix_rfl, fun hobs => ?_⟩
  rcases World.obstructed_add hx.openBelow hobs with hobs | ⟨-, hne, -⟩
  · exact Or.inl hobs
  · exact absurd ha hne

end Contested

-- ================================================================= calls

/-- What is in the way on a path is in the way on every path that goes on
from it. -/
theorem World.OnTheWay.obstructed {p q : Path} {w : World} (hq : World.OnTheWay q p)
    (hobs : w.Obstructed q) : w.Obstructed p := by
  obtain ⟨names, i, hnames, hi, hdir⟩ := hobs
  refine ⟨names, i, hnames.trans hq.components_prefix, ?_, hdir⟩
  unfold startOf at hi ⊢
  rw [← hq.isAbsolute_eq]
  exact hi

namespace System

variable {p q : Path} {mode : UInt32} {x : Contested}

private theorem contested_call_mkdir (q : Path) (mode : UInt32) (x : Contested) :
    contested.call (.mkdir q mode) x =
      match x.intruded.world.mkdir q mode with
      | .ok w => (.ok (), x.intruded.withWorld w)
      | .error r => (.error r.errno, x.intruded) := by
  show ((x.intruded.session.act (·.mkdir q mode)).1,
    { x.intruded with session := (x.intruded.session.act (·.mkdir q mode)).2 }) = _
  unfold Session.act Contested.world
  dsimp only
  cases x.intruded.session.world.mkdir q mode <;> rfl

/-- A look at a path on the way: it finds what the entries lead to, or a
missing entry, or that something is in the way. -/
theorem contested_stat (hp : p.IsOrdinary) (hq : World.OnTheWay q p) (hx : x.Ready p mode) :
    ∃ y, x.Reaches p y ∧
      ((∃ st i, contested.call (.stat true q) x = (.ok st, y)
          ∧ y.world.trace (startOf y.world.cwd p) q.components = some i
          ∧ st.isDirectory = y.world.isDirectory i)
        ∨ (contested.call (.stat true q) x = (.error .enoent, y)
          ∧ y.world.trace (startOf y.world.cwd p) q.components = none)
        ∨ (contested.call (.stat true q) x = (.error .enotdir, y) ∧ y.world.Obstructed p)) := by
  have hreach := hx.reaches_intruded
  refine ⟨x.intruded, hreach, ?_⟩
  have hy := hx.of_reaches hreach
  generalize hyx : x.intruded = y at hy
  have hcall : contested.call (.stat true q) x
      = (Session.reported (Session.statusFrom y.world.cwd true q y.world), y) := by
    rw [← hyx]
    rfl
  have hstart : startOf y.world.cwd q = startOf y.world.cwd p := by
    unfold startOf
    rw [hq.isAbsolute_eq]
  obtain ⟨n, hends⟩ := hq.endsIn hp
  have hopen := hy.openBelow
  have hdir := hy.isDirectory
  rw [hcall, ← hstart]
  rw [← hstart] at hopen hdir
  rcases World.file_cases hopen hdir hends with ⟨i, hi, hfile⟩ | ⟨hnone, hfile⟩ | ⟨hobs, hfile⟩
  · obtain ⟨st, hst, hisdir⟩ := World.statusFrom_of_file_ok hopen hi hfile
    exact Or.inl ⟨st, i, by rw [hst]; rfl, hi, hisdir⟩
  · refine Or.inr (Or.inl ⟨?_, hnone⟩)
    rw [World.statusFrom_of_file_error hfile]
    rfl
  · refine Or.inr (Or.inr ⟨?_, hq.obstructed hobs⟩)
    rw [World.statusFrom_of_file_error hfile]
    rfl

/-- The creation of a path on the way, when its other components lead
somewhere: a directory is there afterwards, or something was, or
something is in the way. -/
theorem contested_mkdir (hp : p.IsOrdinary) (hq : World.OnTheWay q p) (hx : x.Ready p mode)
    (hd : ∃ d, x.world.trace (startOf x.world.cwd p) q.components.dropLast = some d) :
    ∃ y, x.Reaches p y ∧
      ((contested.call (.mkdir q mode) x = (.ok (), y)
          ∧ ∃ i, y.world.trace (startOf y.world.cwd p) q.components = some i
            ∧ y.world.isDirectory i = true)
        ∨ (contested.call (.mkdir q mode) x = (.error .eexist, y)
          ∧ ∃ i, y.world.trace (startOf y.world.cwd p) q.components = some i)
        ∨ (contested.call (.mkdir q mode) x = (.error .enotdir, y)
          ∧ y.world.Obstructed p)) := by
  have hreach := hx.reaches_intruded
  have hy := hx.of_reaches hreach
  have hd' : ∃ d, x.intruded.world.trace (startOf x.intruded.world.cwd p)
      q.components.dropLast = some d := by
    obtain ⟨d, hd⟩ := hd
    exact ⟨d, hreach.trace hd⟩
  generalize hyx : x.intruded = y at hy hd' hreach
  have hcall : contested.call (.mkdir q mode) x
      = match y.world.mkdir q mode with
        | .ok w => (.ok (), y.withWorld w)
        | .error r => (.error r.errno, y) := by
    rw [← hyx]
    exact contested_call_mkdir q mode x
  have hstart : startOf y.world.cwd q = startOf y.world.cwd p := by
    unfold startOf
    rw [hq.isAbsolute_eq]
  obtain ⟨n, hends⟩ := hq.endsIn hp
  have hopen := hy.openBelow
  have hdir := hy.isDirectory
  rw [← hstart] at hopen hdir hd'
  rw [hcall]
  rcases World.mkdir_cases hopen hdir hends hy.mode_eq hd' with
    ⟨a, hm, ha, i, hi, hdiri⟩ | ⟨hi, hm⟩ | ⟨hobs, hm⟩
  · have hadd := hy.reaches_add ha
    refine ⟨_, hreach.trans hadd, Or.inl ⟨by rw [hm], i, ?_, hdiri⟩⟩
    rw [hadd.extends_world.cwd_eq, ← hstart]
    exact hi
  · refine ⟨y, hreach, Or.inr (Or.inl ⟨by rw [hm]; rfl, ?_⟩)⟩
    rw [← hstart]
    exact hi
  · exact ⟨y, hreach, Or.inr (Or.inr ⟨by rw [hm]; rfl, hq.obstructed hobs⟩)⟩

-- ========================================================= parts of a run

/-- What an end of the creation of a path says about the world: a
directory is there, or something is in the way of one. -/
def Accounts (p : Path) (w : World) : Except Failure Unit → Prop
  | .ok () => ∃ i, w.trace (startOf w.cwd p) p.components = some i ∧ w.isDirectory i = true
  | .error f => f.errno = .enotdir ∧ w.Obstructed p

/-- From a state, an operation reaches another one by additions alone, and
its end accounts for the world that it leaves. -/
structure Settles (p : Path) (x : Contested) (o : Outcome Contested Unit) : Prop where
  reaches : x.Reaches p o.state
  accounts : Accounts p o.state.world o.result

/-- What settles from a state that is reached settles from before. -/
theorem Settles.of_reaches {y : Contested} {o : Outcome Contested Unit}
    (h : x.Reaches p y) (ho : Settles p y o) : Settles p x o :=
  ⟨h.trans ho.reaches, ho.accounts⟩

theorem Settles.of_emit {e : Event} {f : Unit → Op Contested Unit}
    (h : Settles p x ((f ()).run x)) : Settles p x ((Op.emit e >>= f).run x) := by
  rw [Op.run_emit_bind]
  exact ⟨h.reaches, h.accounts⟩

theorem Ready.reaches_self (hx : x.Ready p mode) : x.Reaches p x :=
  ⟨.refl hx.openBelow, List.prefix_rfl, Or.inl⟩

/-- A failure that says that something is in the way. -/
theorem settles_fail (hx : x.Ready p mode) (hobs : x.world.Obstructed p) (q : Path) :
    Settles p x ((Op.fail (.ofErrno (.path q) .enotdir)).run x) :=
  ⟨Ready.reaches_self hx, rfl, hobs⟩

/-- What is at the path has to be a directory. -/
theorem settles_requireDirectory (hx : x.Ready p mode) {st : Status} {i : Ino}
    (hi : x.world.trace (startOf x.world.cwd p) p.components = some i)
    (hst : st.isDirectory = x.world.isDirectory i) :
    Settles p x ((requireDirectory p st).run x) := by
  unfold requireDirectory
  cases hdir : x.world.isDirectory i with
  | true =>
      rw [hst, hdir, if_pos rfl]
      exact ⟨Ready.reaches_self hx, i, hi, hdir⟩
  | false =>
      rw [hst, hdir, if_neg (by decide)]
      exact settles_fail hx ⟨p.components, i, List.prefix_rfl, hi, hdir⟩ p

theorem onTheWay_self (hp : p.IsOrdinary) : World.OnTheWay p p := by
  refine .refl (fun hnil => ?_) hp.length_lt hp.components_ne_nil
  rw [hnil] at hp
  exact hp.components_ne_nil rfl

/-- The path itself is created where its other components lead
somewhere. -/
theorem settles_createTarget (hp : p.IsOrdinary) (hx : x.Ready p mode)
    (hd : ∃ d, x.world.trace (startOf x.world.cwd p) p.components.dropLast = some d) :
    Settles p x ((createTarget contested p mode).run x) := by
  have hself := onTheWay_self hp
  unfold createTarget
  rw [Op.run_issue_bind]
  obtain ⟨y, hy, ⟨hcall, i, hi, hdir⟩ | ⟨hcall, i, hi⟩ | ⟨hcall, hobs⟩⟩ :=
    contested_mkdir hp hself hx hd
  · rw [hcall]
    exact ⟨hy, i, hi, hdir⟩
  · rw [hcall]
    dsimp only
    rw [if_pos rfl, Op.run_issue_bind]
    have hry := hx.of_reaches hy
    obtain ⟨z, hz, ⟨st, j, hcall, hj, hst⟩ | ⟨-, hnone⟩ | ⟨hcall, hobs⟩⟩ :=
      contested_stat hp hself hry
    · rw [hcall]
      exact .of_reaches (hy.trans hz)
        (settles_requireDirectory (hry.of_reaches hz) hj hst)
    · -- what was there when it was to be created is there still
      rw [hz.trace hi] at hnone
      cases hnone
    · rw [hcall]
      exact .of_reaches (hy.trans hz) (settles_fail (hry.of_reaches hz) hobs p)
  · rw [hcall]
    exact .of_reaches hy (settles_fail (hx.of_reaches hy) hobs p)

/-- Ancestors are created, and then the path, where the components before
the first of them lead somewhere. -/
theorem settles_createAncestors (hp : p.IsOrdinary) (as : List Path) :
    ∀ {k : Nat} {x : Contested}, as = p.ancestors.drop k → k ≤ p.ancestors.length →
      x.Ready p mode →
      (∃ d, x.world.trace (startOf x.world.cwd p) (p.components.take k) = some d) →
      Settles p x ((createAncestors contested mode as >>= fun _ =>
        createTarget contested p mode).run x) := by
  induction as with
  | nil =>
      intro k x has hk hx hd
      refine settles_createTarget hp hx ?_
      have hlen : p.components.length - 1 = k := by
        have := List.drop_eq_nil_iff.1 has.symm
        rw [Path.length_ancestors] at this hk
        omega
      rw [List.dropLast_eq_take, hlen]
      exact hd
  | cons a longer ih =>
      intro k x has hk hx hd
      have hlt : k < p.ancestors.length := by
        refine Nat.lt_of_le_of_ne hk fun heq => ?_
        rw [heq, List.drop_length] at has
        cases has
      rw [List.drop_eq_getElem_cons hlt] at has
      obtain ⟨rfl, hlonger⟩ := List.cons.inj has
      obtain ⟨hway, hcomp, hklen⟩ :=
        World.onTheWay_ancestor hp.length_lt (List.getElem?_eq_getElem hlt)
      have hdrop : p.ancestors[k].components.dropLast = p.components.take k := by
        rw [hcomp, List.dropLast_eq_take, List.length_take, List.take_take]
        congr 1
        omega
      rw [createAncestors, bind_assoc, Op.run_issue_bind]
      rw [← hdrop] at hd
      obtain ⟨y, hy, ⟨hcall, i, hi, -⟩ | ⟨hcall, i, hi⟩ | ⟨hcall, hobs⟩⟩ :=
        contested_mkdir hp hway hx hd
      · rw [hcall]
        dsimp only
        rw [bind_assoc]
        rw [hcomp] at hi
        exact .of_reaches hy (.of_emit (ih hlonger hlt (hx.of_reaches hy) ⟨i, hi⟩))
      · rw [hcall]
        dsimp only
        rw [if_pos rfl, bind_assoc]
        rw [hcomp] at hi
        exact .of_reaches hy (.of_emit (ih hlonger hlt (hx.of_reaches hy) ⟨i, hi⟩))
      · rw [hcall]
        dsimp only
        rw [if_neg (by decide), Op.fail_bind, Op.fail_bind]
        exact .of_reaches hy (settles_fail (hx.of_reaches hy) hobs _)

/-- The walk back, and all that is created after it. -/
theorem settles_missingAncestors (hp : p.IsOrdinary) (shorter : List Path) :
    ∀ {found : List Path} {x : Contested}, shorter.reverse ++ found = p.ancestors →
      x.Ready p mode →
      Settles p x ((missingAncestors contested shorter found >>= fun missing =>
        createAncestors contested mode missing >>= fun _ =>
          createTarget contested p mode).run x) := by
  induction shorter with
  | nil =>
      intro found x hfound hx
      have hdrop : found = p.ancestors.drop 0 := hfound
      exact settles_createAncestors hp found hdrop (Nat.zero_le _) hx ⟨_, rfl⟩
  | cons a shorter ih =>
      intro found x hfound hx
      rw [List.reverse_cons, List.append_assoc, List.singleton_append] at hfound
      have hat : p.ancestors[shorter.length]? = some a := by
        rw [← hfound, List.getElem?_append_right (by simp)]
        simp
      have hlt : shorter.length < p.ancestors.length := (List.getElem?_eq_some_iff.1 hat).1
      obtain ⟨hway, hcomp, -⟩ := World.onTheWay_ancestor hp.length_lt hat
      rw [missingAncestors, bind_assoc, Op.run_issue_bind]
      obtain ⟨y, hy, ⟨st, i, hcall, hi, -⟩ | ⟨hcall, -⟩ | ⟨hcall, hobs⟩⟩ :=
        contested_stat hp hway hx
      · rw [hcall]
        rw [hcomp] at hi
        have hdrop : found = p.ancestors.drop (shorter.length + 1) := by
          rw [← hfound, ← List.singleton_append, ← List.append_assoc,
            List.drop_append_of_le_length (by simp), List.drop_of_length_le (by simp)]
          rfl
        exact .of_reaches hy
          (settles_createAncestors hp found hdrop hlt (hx.of_reaches hy) ⟨i, hi⟩)
      · rw [hcall]
        dsimp only
        rw [if_pos rfl]
        exact .of_reaches hy (ih hfound (hx.of_reaches hy))
      · rw [hcall]
        dsimp only
        rw [if_neg (by decide), Op.fail_bind]
        exact .of_reaches hy (settles_fail (hx.of_reaches hy) hobs a)

/-- A whole run. -/
theorem settles_mkdirs (hp : p.IsOrdinary) (hx : x.Ready p mode) :
    Settles p x ((contested.mkdirs p mode).run x) := by
  unfold mkdirs
  rw [Op.requireNoNul_bind _ (by simp [hp.hasNul_eq]), Op.run_issue_bind]
  obtain ⟨y, hy, ⟨st, i, hcall, hi, hst⟩ | ⟨hcall, -⟩ | ⟨hcall, hobs⟩⟩ :=
    contested_stat hp (onTheWay_self hp) hx
  · rw [hcall]
    exact .of_reaches hy (settles_requireDirectory (hx.of_reaches hy) hi hst)
  · rw [hcall]
    dsimp only
    rw [if_pos rfl]
    refine .of_reaches hy (settles_missingAncestors hp _ ?_ (hx.of_reaches hy))
    rw [List.reverse_reverse, List.append_nil]
  · rw [hcall]
    dsimp only
    rw [if_neg (by decide)]
    exact .of_reaches hy (settles_fail (hx.of_reaches hy) hobs p)

-- ============================================================== whole run

/-- Whatever others add meanwhile, where everything is open recursive
creation succeeds only with a directory at the path, and fails only
because something on the path is no directory. If that was not so at the
start, and nobody makes it so, it succeeds. -/
theorem mkdirs_tolerates_races (hp : p.IsOrdinary) (hx : x.Ready p mode) :
    let o := (contested.mkdirs p mode).run x
    (o.result = .ok () →
        ∃ i, o.state.world.file true p = .ok i ∧ o.state.world.isDirectory i = true)
      ∧ (∀ f, o.result = .error f → f.errno = .enotdir ∧ o.state.world.Obstructed p)
      ∧ (¬ x.world.Obstructed p → (∀ h ∈ o.state.history, ¬ h.2.Blocks h.1 p) →
          o.result = .ok ()) := by
  intro o
  obtain ⟨hreach, haccounts⟩ := settles_mkdirs hp hx
  have hready := hx.of_reaches hreach
  refine ⟨fun hok => ?_, fun f hf => ?_, fun hclear hunblocked => ?_⟩
  · rw [hok] at haccounts
    obtain ⟨i, hi, hdir⟩ := haccounts
    obtain ⟨n, hends⟩ := (onTheWay_self hp).endsIn hp
    exact ⟨i, World.file_of_trace hready.openBelow hready.isDirectory hends hi hdir, hdir⟩
  · rw [hf] at haccounts
    exact haccounts
  · cases hr : o.result with
    | ok u => rfl
    | error f =>
        rw [hr] at haccounts
        exfalso
        rcases hreach.blame haccounts.2 with hobs | ⟨h, hh, hblocks⟩
        · exact hclear hobs
        · exact hunblocked h hh hblocks

/-- An empty directory, in which somebody else creates a directory `a`
before the third call. -/
private def raceForParent : Contested :=
  let node : Node := ⟨.directory { parent := 0 }, 0o777, false, [], {}, {}, {}⟩
  have hnew : node.IsNew :=
    ⟨⟨by decide, by decide, fun _ hd => by cases hd; decide⟩, Or.inl ⟨_, rfl, rfl⟩⟩
  { schedule := [[], [], [⟨0, [0x61], node, hnew⟩]]
    session := { world :=
      { nodes := #[⟨.directory { parent := 0 }, 0o755, true, [], {}, {}, {}⟩]
        cwd := 0, mask := 0o022, now := {} } } }

/-- The creation of `a/b/` where somebody else creates `a` after it has
been found missing. -/
theorem mkdirs_tolerates_races_for_parent :
    let x := raceForParent
    let p : Path := [0x61, 0x2f, 0x62, 0x2f]
    let o := (contested.mkdirs p 0o777).run x
    p.IsOrdinary ∧ x.Ready p 0o777 ∧ o.events.length = 2 ∧ o.result = .ok ()
      ∧ (o.result = .ok () →
          ∃ i, o.state.world.file true p = .ok i ∧ o.state.world.isDirectory i = true)
      ∧ (∀ f, o.result = .error f → f.errno = .enotdir ∧ o.state.world.Obstructed p)
      ∧ (¬ x.world.Obstructed p → (∀ h ∈ o.state.history, ¬ h.2.Blocks h.1 p) →
          o.result = .ok ()) := by
  have hp : Path.IsOrdinary [0x61, 0x2f, 0x62, 0x2f] := by
    refine ⟨by decide, by decide, by decide, fun n hn => ?_⟩
    rw [show Path.components [0x61, 0x2f, 0x62, 0x2f] = [[0x61], [0x62]] by decide] at hn
    simp only [List.mem_cons, List.not_mem_nil, or_false] at hn
    rcases hn with rfl | rfl <;> exact ⟨by decide, by decide⟩
  have hx : raceForParent.Ready [0x61, 0x2f, 0x62, 0x2f] 0o777 := by
    refine ⟨fun names i hi => ?_, by decide, by decide⟩
    cases names with
    | nil =>
        cases hi
        exact ⟨_, rfl, by decide, by decide, fun _ hd => by cases hd; decide⟩
    | cons n rest => cases hi
  exact ⟨hp, hx, rfl, rfl, mkdirs_tolerates_races hp hx⟩

end System
end PosixFiles
