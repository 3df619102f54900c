/-
Worlds that grow.

A new file is put under a free name (`exists_of_create_ok`). Where one could
get before one can get still, since nothing on the way has become less
(`KeepsWays.passage`); so the new file is found in the directory that it was
put into.

Creating a directory adds one file and one name for it; all other files are
kept, but for the entries and the times of the directory above
(`World.GrownBy`). What a path led to it still leads to then: a walk that
finds a file takes the same way in a grown world (`Grows.file`), since no
link has come up where there was none. So growing composes, and each
directory stays where it was made, with the permissions it was given
(`GrownBy.trans`).
-/
import PosixFiles.Proofs.World.Fading
import PosixFiles.Proofs.World.Open

namespace PosixFiles

-- ========================================================== gaining names

/-- A file as it may be later: unchanged, or a directory with more names,
all of them for new files. To have gained names is to have been modified. -/
inductive Node.Gains (isNew : Ino → Prop) (now : Timespec) (a : Node) : Node → Prop where
  | same : a.Gains isNew now a
  | names {d : Directory} {added : List (Name × Ino)} :
      a.body = .directory d → added ≠ [] → (∀ e ∈ added, isNew e.2) →
      a.Gains isNew now
        { a with body := .directory { d with entries := d.entries ++ added }
                 mtime := now, ctime := now }

namespace Node.Gains

variable {isNew isNewer : Ino → Prop} {now : Timespec} {a b c : Node}

theorem permissions_eq (h : a.Gains isNew now b) : b.permissions = a.permissions := by
  cases h <;> rfl

theorem allows_eq (h : a.Gains isNew now b) (x : Access) : b.allows x = a.allows x := by
  cases h <;> rfl

/-- A directory keeps the names it has. -/
theorem body_of_directory (h : a.Gains isNew now b) {d : Directory} (hd : a.body = .directory d) :
    ∃ added, b.body = .directory { d with entries := d.entries ++ added }
      ∧ ∀ e ∈ added, isNew e.2 := by
  cases h with
  | same =>
      refine ⟨[], ?_, List.forall_mem_nil _⟩
      rw [hd, List.append_nil]
  | @names d' added hd' _ hnew =>
      rw [hd] at hd'
      cases hd'
      exact ⟨added, rfl, hnew⟩

/-- Anything else is left alone. -/
theorem eq_of_not_directory (h : a.Gains isNew now b) (ha : a.body.fileType ≠ .directory) :
    b = a := by
  cases h with
  | same => rfl
  | names hd _ _ =>
      rw [hd] at ha
      exact absurd rfl ha

theorem fileType_eq (h : a.Gains isNew now b) : b.body.fileType = a.body.fileType := by
  cases h with
  | same => rfl
  | names hd _ _ =>
      rw [hd]
      rfl

theorem mono (h : a.Gains isNew now b) (hnew : ∀ i, isNew i → isNewer i) :
    a.Gains isNewer now b := by
  cases h with
  | same => exact .same
  | names hd hsome hadded => exact .names hd hsome fun e he => hnew e.2 (hadded e he)

theorem trans (h : a.Gains isNew now b) (h' : b.Gains isNew now c) : a.Gains isNew now c := by
  cases h with
  | same => exact h'
  | @names d added hd hsome hadded =>
      cases h' with
      | same => exact .names hd hsome hadded
      | @names d' added' hd' _ hadded' =>
          cases hd'
          dsimp only
          rw [List.append_assoc]
          refine .names hd (List.append_ne_nil_of_left_ne_nil hsome _) fun e he => ?_
          rcases List.mem_append.1 he with he | he
          · exact hadded e he
          · exact hadded' e he

end Node.Gains

/-- One more entry is a name gained. -/
theorem Node.gains_withEntry {isNew : Ino → Prop} (a : Node) {e : Name × Ino} (he : isNew e.2)
    (now : Timespec) : a.Gains isNew now (a.withEntry e now) := by
  unfold Node.withEntry
  split
  next d hd => exact .names hd (List.cons_ne_nil _ _) (List.forall_mem_singleton.2 he)
  next => exact .same

namespace World

-- ================================================================ growing

/-- A later world in which all that was used is there and may be used as
before. -/
structure KeepsWays (w w' : World) : Prop where
  cwd_eq : w'.cwd = w.cwd
  allows : ∀ {i a}, w.allows i a = true → w'.allows i a = true
  link : ∀ {i target}, w.body? i = some (.symlink target) → w'.body? i = some (.symlink target)
  isDirectory : ∀ {i}, w.isDirectory i = true → w'.isDirectory i = true
  lookup : ∀ {dir n i}, w.lookup dir n = .ok (some i) → w'.lookup dir n = .ok (some i)

/-- One where, besides, no link has come up that was not there. -/
structure Grows (w w' : World) : Prop extends KeepsWays w w' where
  link_back : ∀ {i target},
    w'.body? i = some (.symlink target) → w.body? i = some (.symlink target)

variable {w w' : World} {dir i : Ino} {n : Name} {names : List Name} {p : Path} {r : Nat × Ino}

theorem body?_of_isDirectory (h : w.isDirectory i = true) :
    ∃ d, w.body? i = some (.directory d) := by
  unfold isDirectory directory? at h
  split at h
  next d hd => exact ⟨d, hd⟩
  next => cases h

/-- A path leads to the file at its spot, which has to be a directory where a
slash demands one. -/
theorem file_eq_ok_iff {follow : Bool} :
    w.file follow p = .ok i ↔
      ∃ s, w.spotFrom w.cwd (follow || ·) p = .ok s ∧ w.fileAt s = .ok (some i)
        ∧ (s.slash = true → w.isDirectory i = true) := by
  show w.spotFrom w.cwd (follow || ·) p >>= _ = _ ↔ _
  cases w.spotFrom w.cwd (follow || ·) p with
  | error e => simp [bind, Except.bind]
  | ok s =>
      simp only [bind, Except.bind, Except.ok.injEq, exists_eq_left']
      cases w.fileAt s with
      | error e => simp
      | ok found =>
          cases found with
          | none => simp
          | some j =>
              by_cases hji : j = i
              · subst hji
                cases s.slash <;> cases hdir : w.isDirectory j <;> simp [hdir]
              · cases s.slash <;> cases hdir : w.isDirectory j <;> simp [hdir, hji]

/-- What is no link is where a walk ends. -/
theorem advance_singleton_of_not_link {follow slash : Bool}
    {onLink : Ino → LinkTarget → List Name → Except Refusal Spot}
    (hs : w.allows dir .search = true) (hl : w.lookup dir n = .ok (some i))
    (hlink : ∀ target, w.body? i ≠ some (.symlink target)) :
    w.advance follow slash onLink dir [n] = .ok ⟨dir, some n, slash⟩ := by
  simp only [advance, hs, hl, Bool.not_true, Bool.false_eq_true, ↓reduceIte, true_and]
  split
  · rfl
  split
  next target hb => exact absurd hb (hlink target)
  next => rfl
  next => rfl

namespace KeepsWays

/-- Where a walk turned it turns again. -/
theorem turn (h : KeepsWays w w') {t : Turn} (ht : w.turn dir n = .ok t) : w'.turn dir n = .ok t := by
  unfold World.turn at ht ⊢
  cases hsight : w.sight dir n with
  | error e =>
      rw [hsight] at ht
      cases ht
  | ok found =>
      cases found with
      | none =>
          rw [hsight] at ht
          cases ht
      | some i =>
          have hsight' : w'.sight dir n = .ok (some i) := by
            have hlookup := h.lookup (lookup_of_sight_ok hsight)
            unfold sight at hsight ⊢
            split at hsight
            next hs => rw [if_pos (h.allows hs), hlookup]
            next => cases hsight
          rw [hsight] at ht
          rw [hsight']
          dsimp only at ht ⊢
          split at ht
          next target hbody =>
            rw [h.link hbody]
            exact ht
          next d hbody =>
            have hdir : w.isDirectory i = true := by
              unfold World.isDirectory directory?
              rw [hbody]
              rfl
            obtain ⟨d', hd'⟩ := body?_of_isDirectory (h.isDirectory hdir)
            rw [hd']
            exact ht
          next => cases ht

/-- Up to a link a passage that gets somewhere gets there again, if it does
so from the link on. -/
theorem passPlain (h : KeepsWays w w') {links : Nat}
    {onLink onLink' : Ino → LinkTarget → List Name → Except Refusal (Nat × Ino)}
    (hlink : ∀ origin target rest, onLink origin target rest = .ok r →
      onLink' origin target rest = .ok r)
    (names : List Name) :
    ∀ dir, w.passPlain links onLink dir names = .ok r →
      w'.passPlain links onLink' dir names = .ok r := by
  induction names with
  | nil => exact fun _ hr => hr
  | cons n rest ih =>
      intro dir hr
      rw [World.passPlain] at hr ⊢
      cases ht : w.turn dir n with
      | error e =>
          rw [ht] at hr
          cases hr
      | ok t =>
          rw [ht] at hr
          rw [h.turn ht]
          cases t with
          | link target => exact hlink dir target rest hr
          | down i => exact ih i hr

/-- A passage that gets somewhere gets there again. -/
theorem pass (h : KeepsWays w w') (links : Nat) :
    ∀ dir names, w.pass links dir names = .ok r → w'.pass links dir names = .ok r := by
  induction links with
  | zero =>
      intro dir names
      refine h.passPlain (fun _ _ _ he => ?_) names dir
      cases he
  | succ links ih =>
      intro dir names
      exact h.passPlain (fun _ _ _ => ih _ _) names dir

theorem passage (h : KeepsWays w w') (hr : w.passage p names = .ok r) :
    w'.passage p names = .ok r := by
  unfold World.passage at hr ⊢
  rw [h.cwd_eq]
  exact h.pass linkMax _ names hr

/-- What is at a spot is there still. -/
theorem fileAt (h : KeepsWays w w') {s : Spot} (hs : w.fileAt s = .ok (some i)) :
    w'.fileAt s = .ok (some i) := by
  unfold World.fileAt at hs ⊢
  split at hs
  next => exact hs
  next => exact h.lookup hs

end KeepsWays

namespace Grows

/-- At its last component a walk that finds a file finds it again. -/
theorem advance_singleton (h : Grows w w') {slash : Bool} {s : Spot}
    (hs : w.fileAt s = .ok (some i))
    {onLink onLink' : Ino → LinkTarget → List Name → Except Refusal Spot}
    (hlink : ∀ origin target rest, onLink origin target rest = .ok s →
      onLink' origin target rest = .ok s)
    (hsearch : w.allows dir .search = true)
    (hwalk : w.advance true slash onLink dir [n] = .ok s) :
    w'.advance true slash onLink' dir [n] = .ok s := by
  cases hl : w.lookup dir n with
  | error e =>
      simp [World.advance, hsearch, hl] at hwalk
  | ok found =>
      cases found with
      | none =>
          -- the walk ends before a name that means nothing
          simp only [World.advance, hsearch, hl] at hwalk
          cases hwalk
          exact absurd (hl.symm.trans hs) (by simp)
      | some j =>
          have hl' := h.lookup hl
          have hsearch' := h.allows hsearch
          by_cases htarget : ∃ target, w.body? j = some (.symlink target)
          · obtain ⟨target, hbody⟩ := htarget
            have ht : w.turn dir n = .ok (.link target) := by
              simp [World.turn, sight, hsearch, hl, hbody]
            rw [advance_of_turn_link ht] at hwalk
            rw [advance_of_turn_link (h.turn ht)]
            exact hlink dir target [] hwalk
          · have hplain : ∀ target, w.body? j ≠ some (.symlink target) :=
              fun target hb => htarget ⟨target, hb⟩
            rw [advance_singleton_of_not_link hsearch hl hplain] at hwalk
            rw [advance_singleton_of_not_link hsearch' hl'
              fun target hb => hplain target (h.link_back hb)]
            exact hwalk

/-- Up to a link a walk that finds a file finds it again, if it does so from
the link on. -/
theorem advance (h : Grows w w') {follow slash : Bool} {s : Spot}
    (hs : w.fileAt s = .ok (some i))
    {onLink onLink' : Ino → LinkTarget → List Name → Except Refusal Spot}
    (hlink : ∀ origin target rest, onLink origin target rest = .ok s →
      onLink' origin target rest = .ok s)
    (names : List Name) :
    ∀ dir, w.advance follow slash onLink dir names = .ok s →
      w'.advance follow slash onLink' dir names = .ok s := by
  induction names with
  | nil => exact fun _ hwalk => hwalk
  | cons n rest ih =>
      intro dir hwalk
      -- the last component is no turn: the walk may end there at any kind of file
      by_cases hrest : rest = []
      case neg =>
        rw [advance_cons hrest] at hwalk ⊢
        cases ht : w.turn dir n with
        | error e =>
            rw [ht] at hwalk
            cases hwalk
        | ok t =>
            rw [ht] at hwalk
            rw [h.turn ht]
            cases t with
            | link target => exact hlink dir target rest hwalk
            | down i => exact ih i hwalk
      case pos =>
        subst hrest
        cases hsearch : w.allows dir .search with
        | false =>
            rw [World.advance, hsearch] at hwalk
            cases hwalk
        | true =>
            cases follow with
            | false =>
                rw [World.advance, hsearch] at hwalk
                rw [World.advance, h.allows hsearch]
                exact hwalk
            | true => exact h.advance_singleton hs hlink hsearch hwalk

/-- A walk that finds a file finds it again. -/
theorem walk (h : Grows w w') {follow : Bool → Bool} {s : Spot}
    (hs : w.fileAt s = .ok (some i)) (links : Nat) :
    ∀ slash dir names, w.walk follow links slash dir names = .ok s →
      w'.walk follow links slash dir names = .ok s := by
  induction links with
  | zero =>
      intro slash dir names
      refine h.advance hs (fun _ _ _ he => ?_) names dir
      cases he
  | succ links ih =>
      intro slash dir names
      exact h.advance hs (fun _ _ _ => ih _ _ _) names dir

theorem spotFrom (h : Grows w w') {follow : Bool → Bool} {s : Spot}
    (hs : w.fileAt s = .ok (some i)) (hspot : w.spotFrom dir follow p = .ok s) :
    w'.spotFrom dir follow p = .ok s := by
  unfold World.spotFrom at hspot ⊢
  split at hspot
  · cases hspot
  next hne =>
    split at hspot
    · cases hspot
    next hlen =>
      rw [if_neg hne, if_neg hlen]
      exact h.walk hs linkMax _ _ _ hspot

/-- What a path leads to it leads to still. -/
theorem file (h : Grows w w') {follow : Bool} (hfile : w.file follow p = .ok i) :
    w'.file follow p = .ok i := by
  obtain ⟨s, hspot, hat, hslash⟩ := file_eq_ok_iff.1 hfile
  refine file_eq_ok_iff.2 ⟨s, ?_, h.fileAt hat, fun hs => h.isDirectory (hslash hs)⟩
  rw [h.cwd_eq]
  exact h.spotFrom hat hspot

end Grows

-- ===================================================== what grows a world

/-- A name that is free in a directory might stand there. -/
theorem of_lookup_none {d : Directory} (hd : w.directory? dir = some d)
    (hn : n.isDots = false) (h : w.lookup dir n = .ok none) :
    d.deleted = false ∧ n.length ≤ nameMax ∧ d.entries.lookup n = none := by
  simp only [Name.isDots, Bool.or_eq_false_iff, beq_eq_false_iff_ne] at hn
  unfold lookup at h
  rw [if_neg hn.1, if_neg hn.2, hd] at h
  split at h
  · cases h
  next hdeleted =>
    split at h
    · cases h
    next hlen =>
      exact ⟨by simpa using hdeleted, Nat.le_of_not_lt hlen, Except.ok.inj h⟩

/-- What a name meant it means in a directory with more names. -/
theorem lookup_of_gains {d : Directory} {added : List (Name × Ino)}
    (hd : w.directory? dir = some d)
    (hd' : w'.directory? dir = some { d with entries := d.entries ++ added })
    (h : w.lookup dir n = .ok (some i)) : w'.lookup dir n = .ok (some i) := by
  unfold lookup at h ⊢
  rw [hd] at h
  rw [hd']
  dsimp only [Option.map_some, Option.any_some, Option.bind_some] at h ⊢
  split
  next hself => rwa [if_pos hself] at h
  next hself =>
    rw [if_neg hself] at h
    split
    next hup => rwa [if_pos hup] at h
    next hup =>
      rw [if_neg hup] at h
      split
      next hdeleted => rwa [if_pos hdeleted] at h
      next hdeleted =>
        rw [if_neg hdeleted] at h
        split
        next hlen => rwa [if_pos hlen] at h
        next hlen =>
          rw [if_neg hlen] at h
          rw [List.lookup_append, Except.ok.inj h]
          rfl

theorem directory?_of_lookup_some (hn : n ≠ Name.self) (h : w.lookup dir n = .ok (some i)) :
    ∃ d, w.directory? dir = some d := by
  unfold lookup at h
  rw [if_neg hn] at h
  cases hd : w.directory? dir with
  | some d => exact ⟨d, rfl⟩
  | none =>
      rw [hd] at h
      dsimp only [Option.map_none, Option.any_none, Option.bind_none] at h
      split at h
      · cases h
      · rw [if_neg Bool.false_ne_true] at h
        split at h <;> cases h

/-- A world keeps its ways in which each file is kept or has gained names.
-/
theorem keepsWays_of_gains {isNew : Ino → Prop} {now : Timespec} (hcwd : w'.cwd = w.cwd)
    (hkept : ∀ (i : Ino) (a : Node), w.nodes[i]? = some a →
      ∃ b, w'.nodes[i]? = some b ∧ a.Gains isNew now b) :
    KeepsWays w w' where
  cwd_eq := hcwd
  allows := by
    intro i x h
    unfold World.allows at h ⊢
    cases ha : w.nodes[i]? with
    | none =>
        rw [ha] at h
        cases h
    | some a =>
        obtain ⟨b, hb, hgains⟩ := hkept i a ha
        rw [ha] at h
        rw [hb]
        exact (hgains.allows_eq x).trans h
  link := by
    intro i target h
    obtain ⟨a, ha, hbody⟩ := body?_eq_some_iff.1 h
    obtain ⟨b, hb, hgains⟩ := hkept i a ha
    -- only directories gain names, and they are no links
    have hlink : a.body.fileType ≠ .directory := by
      rw [hbody]
      exact nofun
    rw [hgains.eq_of_not_directory hlink] at hb
    exact body?_eq_some_iff.2 ⟨a, hb, hbody⟩
  isDirectory := by
    intro i h
    obtain ⟨d, hd⟩ := Option.isSome_iff_exists.1 h
    obtain ⟨a, ha, -⟩ := exists_node_of_directory? hd
    obtain ⟨b, hb, hgains⟩ := hkept i a ha
    rwa [isDirectory_eq hb, hgains.fileType_eq, ← isDirectory_eq ha]
  lookup := by
    intro dir n i h
    by_cases hself : n = Name.self
    · rw [lookup, if_pos hself] at h ⊢
      exact h
    · obtain ⟨d, hd⟩ := directory?_of_lookup_some hself h
      obtain ⟨a, ha, hbody⟩ := exists_node_of_directory? hd
      obtain ⟨b, hb, hgains⟩ := hkept dir a ha
      obtain ⟨added, hbody', -⟩ := hgains.body_of_directory hbody
      exact lookup_of_gains hd (directory?_of_node hb hbody') h

/-- It grows if, besides, no new file is a link. -/
theorem grows_of_gains {isNew : Ino → Prop} {now : Timespec} (hcwd : w'.cwd = w.cwd)
    (hkept : ∀ (i : Ino) (a : Node), w.nodes[i]? = some a →
      ∃ b, w'.nodes[i]? = some b ∧ a.Gains isNew now b)
    (hnew : ∀ (i : Ino) target, w.nodes[i]? = none → w'.body? i ≠ some (.symlink target)) :
    Grows w w' where
  toKeepsWays := keepsWays_of_gains hcwd hkept
  link_back := by
    intro i target h
    cases ha : w.nodes[i]? with
    | none => exact absurd h (hnew i target ha)
    | some a =>
        obtain ⟨b, hb, hgains⟩ := hkept i a ha
        obtain ⟨b', hb', hbody'⟩ := body?_eq_some_iff.1 h
        cases hb.symm.trans hb'
        have hlink : a.body.fileType ≠ .directory := by
          rw [← hgains.fileType_eq, hbody']
          exact nofun
        rw [hgains.eq_of_not_directory hlink] at hbody'
        exact body?_eq_some_iff.2 ⟨a, ha, hbody'⟩

-- ==================================================== creating one file

/-- Wherever a path gets on its way is a directory. -/
theorem isDirectory_of_passage (hroot : w.isDirectory root = true)
    (hcwd : w.isDirectory w.cwd = true) (h : w.passage p names = .ok r) :
    w.isDirectory r.2 = true := by
  have hstart : w.isDirectory (startOf w.cwd p) = true := by
    unfold startOf
    split
    · exact hroot
    · exact hcwd
  have hsettles := walk_settles hroot linkMax true (startOf w.cwd p) names (Or.inr hstart)
  rw [← passage, h] at hsettles
  exact hsettles.1

/-- Where there is room for something new is a free name in the directory
that the path leads to before its last component. There is a slash after it
only if there is to be a directory. -/
theorem of_vacancy_ok {forDirectory : Bool} (h : w.vacancy p forDirectory = .ok (dir, n)) :
    ∃ names links, Splits p names [n] ∧ w.passage p names = .ok (links, dir)
      ∧ w.allows dir .search = true ∧ n.isDots = false ∧ w.lookup dir n = .ok none
      ∧ (forDirectory = false → p.endsInSlash = false) := by
  unfold vacancy at h
  rcases spot_cases w p with
    ⟨e, hspot, -⟩ | ⟨top, slash, hspot⟩ | ⟨names, m, r, hp, hpass, hs, hspot⟩
  · rw [hspot] at h
    cases h
  · rw [hspot] at h
    cases h
  · rw [hspot] at h
    dsimp only [bind, Except.bind] at h
    split at h
    · cases h
    next hdots =>
      cases hl : w.lookup r.2 m with
      | error e =>
          rw [hl] at h
          cases h
      | ok found =>
          rw [hl] at h
          cases found with
          | some i => cases h
          | none =>
              dsimp only at h
              split at h
              · cases h
              next hslash =>
                cases h
                refine ⟨names, r.1, hp, hpass, hs, Bool.eq_false_iff.2 hdots, hl, ?_⟩
                rintro rfl
                rwa [Bool.not_false, Bool.and_true, Bool.not_eq_true] at hslash

/-- Creating a file puts it where there is room for it. -/
theorem exists_of_create_ok {forDirectory : Bool} {make : Ino → Body × UInt32}
    (h : w.create p forDirectory make = .ok w') :
    ∃ dir n, w.vacancy p forDirectory = .ok (dir, n)
      ∧ w' = w.put dir n ⟨(make dir).1, (make dir).2, true, [], w.now, w.now, w.now⟩ := by
  cases hvacancy : w.vacancy p forDirectory with
  | error e =>
      rw [create, hvacancy] at h
      cases h
  | ok x =>
      obtain ⟨dir, n⟩ := x
      refine ⟨dir, n, rfl, ?_⟩
      rw [create, hvacancy] at h
      dsimp only [bind, Except.bind] at h
      cases hedit : w.mayEdit dir with
      | error e =>
          rw [hedit] at h
          cases h
      | ok u =>
          rw [hedit] at h
          cases h
          rfl

/-- Creating a directory puts it where there is room for it. -/
theorem exists_of_mkdir_ok {mode : UInt32} (h : w.mkdir p mode = .ok w') :
    ∃ dir n, w.vacancy p true = .ok (dir, n) ∧ w' = w.put dir n (w.newDirectory dir mode) :=
  exists_of_create_ok h

-- ============================================================ what was made

/-- A file that is in a world and was not in an earlier one. -/
def NewSince (w w' : World) (i : Ino) : Prop :=
  w.nodes.size ≤ i ∧ i < w'.nodes.size

/-- A directory that was made at a path. The path leads to it, whether or not
links are followed; it has a name in the directory above, and none in it but
those of new files. Its permissions are what the mode asks for and the mask
leaves, together with the bit that directories hand on if the directory above
has that. -/
structure MadeAt (w : World) (mode : UInt32) (isNew : Ino → Prop) (p : Path) (i : Ino) :
    Prop where
  file_eq : ∀ follow, w.file follow p = .ok i
  exists_node : ∃ node d, w.nodes[i]? = some node ∧ node.body = .directory d
    ∧ d.deleted = false ∧ (∀ e ∈ d.entries, isNew e.2)
    ∧ ∃ above up n, w.nodes[d.parent]? = some above ∧ above.body = .directory up
      ∧ (n, i) ∈ up.entries
      ∧ node.permissions
        = (mode &&& directoryBits &&& ~~~w.mask) ||| (above.permissions &&& inheritedBit)

/-- A world that is another one with directories made in it, at the paths
given, in their order. -/
structure GrownBy (w : World) (mode : UInt32) (made : List Path) (w' : World) : Prop where
  /-- Nothing has changed but files. -/
  rest_eq : w' = { w with nodes := w'.nodes }
  /-- There is one new file for each path. -/
  size_eq : w'.nodes.size = w.nodes.size + made.length
  /-- What was there is as it was, but for names of new files. -/
  kept : ∀ (i : Ino) (a : Node), w.nodes[i]? = some a →
    ∃ b, w'.nodes[i]? = some b ∧ a.Gains (NewSince w w') w.now b
  madeAt : ∀ (k : Nat) (q : Path), made[k]? = some q →
    w'.MadeAt mode (NewSince w w') q (w.nodes.size + k)

namespace GrownBy

variable {mode : UInt32} {made made' : List Path} {w₁ w₂ : World}

theorem refl (w : World) (mode : UInt32) : GrownBy w mode [] w where
  rest_eq := rfl
  size_eq := rfl
  kept := fun _ a ha => ⟨a, ha, .same⟩
  madeAt := fun k q hq => by cases hq

theorem cwd_eq (h : GrownBy w mode made w') : w'.cwd = w.cwd := by
  rw [h.rest_eq]

theorem mask_eq (h : GrownBy w mode made w') : w'.mask = w.mask := by
  rw [h.rest_eq]

theorem now_eq (h : GrownBy w mode made w') : w'.now = w.now := by
  rw [h.rest_eq]

/-- Each new file is a directory that was made. -/
theorem exists_madeAt (h : GrownBy w mode made w') {i : Ino} (hi : NewSince w w' i) :
    ∃ k q, i = w.nodes.size + k ∧ made[k]? = some q
      ∧ w'.MadeAt mode (NewSince w w') q i := by
  obtain ⟨k, rfl⟩ := Nat.exists_eq_add_of_le hi.1
  have hk : k < made.length := by
    have hlt := hi.2
    rw [h.size_eq] at hlt
    exact Nat.lt_of_add_lt_add_left hlt
  have hq : made[k]? = some made[k] := List.getElem?_eq_getElem hk
  exact ⟨k, _, rfl, hq, h.madeAt k _ hq⟩

theorem grows (h : GrownBy w mode made w') : Grows w w' := by
  refine grows_of_gains h.cwd_eq h.kept fun i target hnone hlink => ?_
  have hi : NewSince w w' i := by
    refine ⟨Nat.le_of_not_lt fun hlt => ?_, Nat.lt_of_not_le fun hle => ?_⟩
    · rw [Array.getElem?_eq_getElem hlt] at hnone
      cases hnone
    · rw [body?, Array.getElem?_eq_none hle] at hlink
      cases hlink
  obtain ⟨k, q, -, -, hmade⟩ := h.exists_madeAt hi
  obtain ⟨node, d, hnode, hbody, -⟩ := hmade.exists_node
  rw [body?, hnode] at hlink
  dsimp only at hlink
  rw [hbody] at hlink
  cases hlink

/-- What was made stays as it was made. -/
theorem madeAt_of_madeAt (h : GrownBy w₁ mode made w₂) {isNew isNewer : Ino → Prop} {q : Path}
    {i : Ino} (hmade : w₁.MadeAt mode isNew q i) (hnew : ∀ j, isNew j → isNewer j)
    (hnew' : ∀ j, NewSince w₁ w₂ j → isNewer j) : w₂.MadeAt mode isNewer q i := by
  obtain ⟨node, d, hnode, hd, hdeleted, hentries, above, up, n, habove, hup, hn, hpermissions⟩ :=
    hmade.exists_node
  obtain ⟨node', hnode', hgains⟩ := h.kept _ _ hnode
  obtain ⟨added, hd', hadded⟩ := hgains.body_of_directory hd
  obtain ⟨above', habove', hgains'⟩ := h.kept _ _ habove
  obtain ⟨added', hup', -⟩ := hgains'.body_of_directory hup
  refine ⟨fun follow => h.grows.file (hmade.file_eq follow), node', _, hnode', hd', hdeleted,
    fun e he => ?_, above', _, n, habove', hup', List.mem_append_left _ hn, ?_⟩
  · rcases List.mem_append.1 he with he | he
    · exact hnew e.2 (hentries e he)
    · exact hnew' e.2 (hadded e he)
  · rw [hgains.permissions_eq, hgains'.permissions_eq, h.mask_eq]
    exact hpermissions

/-- A name in a grown world was there before, or it is that of a new file. -/
theorem mem_entries (h : GrownBy w mode made w') {d' : Directory}
    (hd' : w'.directory? i = some d') {e : Name × Ino} (he : e ∈ d'.entries) :
    (∃ d, w.directory? i = some d ∧ e ∈ d.entries) ∨ NewSince w w' e.2 := by
  obtain ⟨b, hb, hbody'⟩ := exists_node_of_directory? hd'
  by_cases hi : i < w.nodes.size
  · have ha : w.nodes[i]? = some w.nodes[i] := Array.getElem?_eq_getElem hi
    obtain ⟨b', hb', hgains⟩ := h.kept i _ ha
    cases hb.symm.trans hb'
    cases hbody : w.nodes[i].body with
    | directory d =>
        obtain ⟨added, hadded, hnew⟩ := hgains.body_of_directory hbody
        rw [hbody'] at hadded
        cases hadded
        rcases List.mem_append.1 he with he | he
        · exact Or.inl ⟨d, directory?_of_node ha hbody, he⟩
        · exact Or.inr (hnew e he)
    | _ =>
        have htype := hgains.fileType_eq
        rw [hbody, hbody'] at htype
        cases htype
  · have hnew : NewSince w w' i :=
      ⟨Nat.le_of_not_lt hi, (Array.getElem?_eq_some_iff.1 hb).1⟩
    obtain ⟨k, q, -, -, hmade⟩ := h.exists_madeAt hnew
    obtain ⟨node, d, hnode, hbody, -, hentries, -⟩ := hmade.exists_node
    cases hb.symm.trans hnode
    cases hbody'.symm.trans hbody
    exact Or.inr (hentries e he)

/-- Growing composes. -/
theorem trans (h : GrownBy w mode made w₁) (h' : GrownBy w₁ mode made' w₂) :
    GrownBy w mode (made ++ made') w₂ := by
  have hold : ∀ j, NewSince w w₁ j → NewSince w w₂ j := fun j hj =>
    ⟨hj.1, Nat.lt_of_lt_of_le hj.2 (by rw [h'.size_eq]; exact Nat.le_add_right ..)⟩
  have hnew : ∀ j, NewSince w₁ w₂ j → NewSince w w₂ j := fun j hj =>
    ⟨Nat.le_trans (by rw [h.size_eq]; exact Nat.le_add_right ..) hj.1, hj.2⟩
  refine ⟨?_, ?_, fun i a ha => ?_, fun k q hq => ?_⟩
  · rw [h'.rest_eq, h.rest_eq]
  · rw [h'.size_eq, h.size_eq, List.length_append, Nat.add_assoc]
  · obtain ⟨b, hb, hgains⟩ := h.kept i a ha
    obtain ⟨c, hc, hgains'⟩ := h'.kept i b hb
    rw [h.now_eq] at hgains'
    exact ⟨c, hc, (hgains.mono hold).trans (hgains'.mono hnew)⟩
  · -- what was made first has the lower numbers
    by_cases hk : k < made.length
    · rw [List.getElem?_append_left hk] at hq
      exact h'.madeAt_of_madeAt (h.madeAt k q hq) hold hnew
    · rw [List.getElem?_append_right (Nat.le_of_not_lt hk)] at hq
      have hmade := (h'.madeAt _ q hq)
      have heq : w₁.nodes.size + (k - made.length) = w.nodes.size + k := by
        rw [h.size_eq]
        omega
      rw [heq] at hmade
      exact (refl w₂ mode).madeAt_of_madeAt hmade hnew
        fun j hj => absurd hj.2 (Nat.not_lt.2 hj.1)

end GrownBy

section Put

variable {mode : UInt32} {d : Directory} {links : Nat}

theorem size_put (w : World) (dir : Ino) (n : Name) (node : Node) :
    (w.put dir n node).nodes.size = w.nodes.size + 1 := by
  simp [put, enter, modifyEntries, modify]

/-- The new file is there. -/
theorem nodes_put_size (hlt : dir < w.nodes.size) (n : Name) (node : Node) :
    (w.put dir n node).nodes[w.nodes.size]? = some node := by
  rw [nodes_put hlt, if_pos rfl]

/-- A file that is put somewhere adds a name to the directory, and leaves the
others alone. -/
theorem gains_put (hlt : dir < w.nodes.size) (n : Name) (node : Node) (i : Ino) (a : Node)
    (ha : w.nodes[i]? = some a) :
    ∃ b, (w.put dir n node).nodes[i]? = some b
      ∧ a.Gains (NewSince w (w.put dir n node)) w.now b := by
  have hi : i < w.nodes.size := (Array.getElem?_eq_some_iff.1 ha).1
  rw [nodes_put hlt, if_neg (Nat.ne_of_lt hi), ha]
  split
  · refine ⟨_, rfl, a.gains_withEntry (e := (n, w.nodes.size)) ⟨Nat.le_refl _, ?_⟩ w.now⟩
    rw [size_put]
    exact Nat.lt_succ_self _
  · exact ⟨a, rfl, .same⟩

theorem keepsWays_put (hlt : dir < w.nodes.size) (n : Name) (node : Node) :
    KeepsWays w (w.put dir n node) :=
  keepsWays_of_gains rfl (gains_put hlt n node)

/-- A name that was free means the file that was put there. -/
theorem lookup_put (hd : w.directory? dir = some d) (hn : n.isDots = false)
    (hfree : w.lookup dir n = .ok none) (node : Node) :
    (w.put dir n node).lookup dir n = .ok (some w.nodes.size) := by
  obtain ⟨hdeleted, hlen, hnone⟩ := of_lookup_none hd hn hfree
  obtain ⟨a, ha, hbody⟩ := exists_node_of_directory? hd
  have hlt : dir < w.nodes.size := (Array.getElem?_eq_some_iff.1 ha).1
  have hd' : (w.put dir n node).directory? dir
      = some { d with entries := d.entries ++ [(n, w.nodes.size)] } := by
    unfold directory? body?
    rw [nodes_put hlt, if_neg (Nat.ne_of_lt hlt), if_pos rfl, ha]
    simp [Node.withEntry, hbody]
  rw [lookup_of_directory hd' hn hdeleted hlen, List.lookup_append, hnone]
  simp

/-- A new directory under a free name is where a path to that name leads. -/
theorem file_put (hp : Splits p names [n]) (hpass : w.passage p names = .ok (links, dir))
    (hs : w.allows dir .search = true) (hd : w.directory? dir = some d)
    (hn : n.isDots = false) (hfree : w.lookup dir n = .ok none) {node : Node}
    (hnode : node.body.fileType = .directory) (follow : Bool) :
    (w.put dir n node).file follow p = .ok w.nodes.size := by
  obtain ⟨a, ha, -⟩ := exists_node_of_directory? hd
  have hlt : dir < w.nodes.size := (Array.getElem?_eq_some_iff.1 ha).1
  have hways : KeepsWays w (w.put dir n node) := keepsWays_put hlt n node
  have hlookup := lookup_put hd hn hfree node
  have hnew := nodes_put_size hlt n node
  rw [file_of_not_link hp (hways.passage hpass) (hways.allows hs) _ follow, hlookup]
  · dsimp only
    rw [isDirectory_eq hnew, hnode]
    simp
  · intro i target hi hlink
    rw [hlookup] at hi
    cases hi
    rw [body?, hnew] at hlink
    dsimp only at hlink
    rw [Option.some.inj hlink] at hnode
    cases hnode

/-- A new file of any kind is, where links are not followed and no slash
demands a directory. -/
theorem file_put_of_noFollow (hp : Splits p names [n])
    (hpass : w.passage p names = .ok (links, dir)) (hs : w.allows dir .search = true)
    (hd : w.directory? dir = some d) (hn : n.isDots = false)
    (hfree : w.lookup dir n = .ok none) (hslash : p.endsInSlash = false) (node : Node) :
    (w.put dir n node).file false p = .ok w.nodes.size := by
  obtain ⟨a, ha, -⟩ := exists_node_of_directory? hd
  have hlt : dir < w.nodes.size := (Array.getElem?_eq_some_iff.1 ha).1
  have hways : KeepsWays w (w.put dir n node) := keepsWays_put hlt n node
  refine file_eq_ok_iff.2 ⟨⟨dir, some n, false⟩, ?_, lookup_put hd hn hfree node, nofun⟩
  rw [spotFrom_of_splits hp (List.cons_ne_nil _ _), hways.passage hpass]
  show World.walk _ _ links p.endsInSlash dir [n] = _
  rw [hslash, walk_eq_advance, World.advance, hways.allows hs]
  rfl

/-- Creating a directory grows a world by just that. -/
theorem GrownBy.of_mkdir (hroot : w.isDirectory root = true) (hcwd : w.isDirectory w.cwd = true)
    (h : w.mkdir p mode = .ok w') : GrownBy w mode [p] w' := by
  obtain ⟨dir, n, hvacancy, rfl⟩ := exists_of_mkdir_ok h
  obtain ⟨names, links, hp, hpass, hs, hn, hfree, -⟩ := of_vacancy_ok hvacancy
  obtain ⟨d, hd⟩ := Option.isSome_iff_exists.1 (isDirectory_of_passage hroot hcwd hpass)
  obtain ⟨above, habove, hbody⟩ := exists_node_of_directory? hd
  have hlt : dir < w.nodes.size := (Array.getElem?_eq_some_iff.1 habove).1
  refine ⟨rfl, size_put .., gains_put hlt n _, fun k q hq => ?_⟩
  cases k with
  | succ k => cases hq
  | zero =>
      cases hq
      refine ⟨file_put hp hpass hs hd hn hfree rfl, ?_⟩
      refine ⟨_, _, nodes_put_size hlt n _, rfl, rfl, List.forall_mem_nil _, ?_⟩
      refine ⟨above.withEntry (n, w.nodes.size) w.now,
        { d with entries := d.entries ++ [(n, w.nodes.size)] }, n, ?_, ?_, ?_, ?_⟩
      · rw [nodes_put hlt, if_neg (Nat.ne_of_lt hlt), if_pos rfl, habove]
        rfl
      · simp [Node.withEntry, hbody]
      · exact List.mem_append_right _ (List.mem_singleton_self _)
      · show w.directoryPermissions dir mode = _
        simp only [directoryPermissions, habove, Node.withEntry, hbody]
        rfl

end Put

-- ============================================================ the status

/-- A directory that was made is seen to be one. -/
theorem MadeAt.statusFrom {mode : UInt32} {isNew : Ino → Prop} (h : w.MadeAt mode isNew p i) :
    ∃ st, Session.statusFrom w.cwd true p w = .ok st ∧ st.isDirectory = true := by
  obtain ⟨node, d, hnode, hbody, -, -, above, up, n, habove, -, -, hpermissions⟩ := h.exists_node
  have hown : node.permissions = w.directoryPermissions d.parent mode := by
    rw [directoryPermissions, habove]
    exact hpermissions
  obtain ⟨st, hst, hmode⟩ := exists_status_of_node hnode
  refine ⟨st, statusFrom_eq_ok_iff.2 ⟨i, h.file_eq true, hst⟩, ?_⟩
  rw [Status.isDirectory, Status.fileType, hmode, hown,
    ofMode_bits_or (directoryPermissions_and_mask d.parent), hbody]
  rfl

/-- What is seen to be a directory is one. -/
theorem isDirectory_of_statusFrom_ok {st : Status}
    (h : Session.statusFrom w.cwd true p w = .ok st) (hst : st.isDirectory = true) :
    ∃ i, w.file true p = .ok i ∧ w.isDirectory i = true := by
  obtain ⟨i, hfile, hstatus⟩ := statusFrom_eq_ok_iff.1 h
  refine ⟨i, hfile, ?_⟩
  obtain ⟨node, hnode, rfl⟩ := Option.map_eq_some_iff.1 hstatus
  rw [isDirectory_eq hnode, fileType_of_ofMode_directory (beq_iff_eq.1 hst)]
  rfl

end World
end PosixFiles
