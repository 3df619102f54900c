/-
Where the calls on a path arrive, told from the passage along it.

A path whose last component is `n` is looked up in two steps: the others
are passed along, and `n` is looked at in the directory reached. Creating
a directory there depends on nothing else (`mkdir_of_…`), and the status
of the path depends on nothing else up to the point where `n` is a link
(`file_of_…`).

What links lead to is the same for a component in the middle of a path
and at its end. `walk_settles` says so: wherever a passage gets to, a
walk that follows links gets to, and where a passage fails for want of an
entry, so does the walk.
-/
import PosixFiles.Proofs.Path.Ancestor
import PosixFiles.Proofs.World.Passage
import PosixFiles.Session

namespace PosixFiles.World

variable {w : World}

-- ============================================== passages and whole walks

/-- What a walk makes of a passage along the same components. A directory
that is reached is what the walk finds, and where an entry is missing on
the way the walk finds nothing. -/
def Settles (w : World) (walked : Except Refusal Spot) :
    Except Refusal (Nat × Ino) → Prop
  | .ok r => w.isDirectory r.2 = true ∧ (walked >>= w.fileAt) = .ok (some r.2)
  | .error e => e = .noEntry →
      (walked >>= w.fileAt) = .error .noEntry ∨ (walked >>= w.fileAt) = .ok none

theorem Settles.error (e : Refusal) : w.Settles (.error e) (.error e) := by
  rintro rfl
  exact Or.inl rfl

/-- A path without components starts at the root. -/
theorem startOf_of_components_eq_nil {p : Path} (hp : p ≠ []) (hc : p.components = [])
    (dir : Ino) : startOf dir p = root := by
  obtain ⟨c, rest, rfl⟩ := List.exists_cons_of_ne_nil hp
  have hslash : c = Bytes.slash := by
    refine Decidable.byContradiction fun hne => ?_
    exact Path.components_ne_nil_of_mem (List.mem_cons_self ..) hne hc
  rw [startOf, if_pos]
  simp [Path.isAbsolute, hslash]

/-- At a component where a passage fails, the walk fails or finds
nothing. -/
theorem settles_of_turn_error {links : Nat} {slash : Bool} {dir : Ino} {n : Name}
    {rest : List Name} {e : Refusal} (h : w.turn dir n = .error e) :
    w.Settles (w.walk (fun _ => true) links slash dir (n :: rest)) (.error e) := by
  by_cases hrest : rest = []
  · subst hrest
    rintro rfl
    unfold turn at h
    cases hsight : w.sight dir n with
    | error e =>
        rw [hsight] at h
        cases h
        rw [walk_singleton_of_sight_error hsight]
        exact Or.inl rfl
    | ok found =>
        cases found with
        | none =>
            rw [walk_singleton_of_sight_none hsight]
            exact Or.inr (lookup_of_sight_ok hsight)
        | some i =>
            -- what is there and is in the way is not missing
            rw [hsight] at h
            dsimp only at h
            split at h <;> cases h
  · rw [walk_eq_advance, advance_cons hrest, h]
    exact Settles.error e

/-- Up to a link a walk settles a passage, if it does so from there. -/
theorem advance_settles {links : Nat} {slash : Bool}
    (hlink : ∀ origin target names,
      w.Settles (w.onLinkOf (fun _ => true) slash links origin target names)
        (w.onLinkPass links origin target names))
    (names : List Name) :
    ∀ dir, names ≠ [] ∨ w.isDirectory dir = true →
      w.Settles (w.walk (fun _ => true) links slash dir names) (w.pass links dir names) := by
  induction names with
  | nil =>
      intro dir h
      rw [pass_nil, walk_eq_advance]
      exact ⟨h.resolve_left (absurd rfl), rfl⟩
  | cons n rest ih =>
      intro dir _
      rw [pass_eq_passPlain, passPlain]
      cases hturn : w.turn dir n with
      | error e => exact settles_of_turn_error hturn
      | ok turn =>
          cases turn with
          | link target =>
              rw [walk_eq_advance, advance_of_turn_link hturn]
              exact hlink dir target rest
          | down i =>
              obtain ⟨hsight, hdir⟩ := of_turn_down hturn
              dsimp only
              rw [← pass_eq_passPlain]
              by_cases hrest : rest = []
              · subst hrest
                rw [pass_nil, walk_eq_advance, advance_of_turn_down hturn]
                exact ⟨hdir, lookup_of_sight_ok hsight⟩
              · rw [walk_eq_advance, advance_cons hrest, hturn]
                have hi := ih i (Or.inr hdir)
                rw [walk_eq_advance] at hi
                exact hi

/-- A walk that follows links settles the passage along the same
components. -/
theorem walk_settles (hroot : w.isDirectory root = true) (links : Nat) :
    ∀ (slash : Bool) (dir : Ino) (names : List Name),
      names ≠ [] ∨ w.isDirectory dir = true →
      w.Settles (w.walk (fun _ => true) links slash dir names) (w.pass links dir names) := by
  induction links with
  | zero =>
      intro slash dir names
      exact advance_settles (fun _ _ _ => Settles.error .tooManyLinks) names dir
  | succ links ih =>
      intro slash dir names
      refine advance_settles (fun origin target rest => ?_) names dir
      refine ih _ _ _ ?_
      by_cases hc : target.path.components = []
      · right
        rw [startOf_of_components_eq_nil target.path_ne_nil hc]
        exact hroot
      · exact Or.inl (List.append_ne_nil_of_left_ne_nil hc _)

-- ==================================================== calls on one path

/-- A path that may be handed to the system, its components in two
parts. -/
structure Splits (p : Path) (names rest : List Name) : Prop where
  ne_nil : p ≠ []
  length_lt : p.length < pathMax
  components_eq : p.components = names ++ rest

/-- What comes of passing along components from where a path starts. -/
def passage (w : World) (p : Path) (names : List Name) : Except Refusal (Nat × Ino) :=
  w.pass linkMax (startOf w.cwd p) names

variable {p : Path} {names rest : List Name} {n : Name} {r : Nat × Ino} {e : Refusal}

/-- The spot of a path is found from where the passage along its first
components ends. -/
theorem spotFrom_of_splits (hp : Splits p names rest) (hrest : rest ≠ [])
    (follow : Bool → Bool) :
    w.spotFrom w.cwd follow p
      = w.passage p names >>= fun r => w.walk follow r.1 p.endsInSlash r.2 rest := by
  have hlen := hp.length_lt
  rw [spotFrom, if_neg hp.ne_nil, if_neg (by omega), hp.components_eq]
  exact walk_append follow hrest _ _ _ _

theorem vacancy_of_spot_error (h : w.spot p = .error e) (forDirectory : Bool) :
    w.vacancy p forDirectory = .error e := by
  rw [vacancy, h]
  rfl

theorem mkdir_of_vacancy_error (h : w.vacancy p true = .error e) (mode : UInt32) :
    w.mkdir p mode = .error e := by
  rw [mkdir, create, h]
  rfl

/-- No directory is created at a path that cannot be passed along. -/
theorem mkdir_of_passage_error (hp : Splits p names rest) (hrest : rest ≠ [])
    (h : w.passage p names = .error e) (mode : UInt32) : w.mkdir p mode = .error e := by
  refine mkdir_of_vacancy_error (vacancy_of_spot_error ?_ true) mode
  rw [spot, spotFrom_of_splits hp hrest, h]
  rfl

/-- The spot of a path whose last component may be looked up. -/
theorem spot_of_sight_ok (hp : Splits p names [n]) (h : w.passage p names = .ok r)
    {found : Option Ino} (hsight : w.sight r.2 n = .ok found) :
    w.spot p = .ok ⟨r.2, some n, p.endsInSlash⟩ := by
  rw [spot, spotFrom_of_splits hp (List.cons_ne_nil _ _), h]
  show w.walk _ _ _ _ _ = _
  rw [walk_singleton_of_noFollow, if_pos]
  unfold sight at hsight
  split at hsight
  next hs => exact hs
  next => cases hsight

theorem mkdir_of_sight_error (hp : Splits p names [n]) (h : w.passage p names = .ok r)
    (hsight : w.sight r.2 n = .error e) (mode : UInt32) : w.mkdir p mode = .error e := by
  have hspot := spotFrom_of_splits hp (List.cons_ne_nil _ _) (w := w) fun _ => false
  rw [h] at hspot
  change w.spot p = w.walk _ _ _ _ _ at hspot
  rw [walk_singleton_of_noFollow] at hspot
  refine mkdir_of_vacancy_error ?_ mode
  cases hs : w.allows r.2 .search with
  | false =>
      rw [sight, hs] at hsight
      cases hsight
      rw [hs] at hspot
      exact vacancy_of_spot_error hspot true
  | true =>
      rw [sight, hs, if_pos rfl] at hsight
      rw [hs, if_pos rfl] at hspot
      -- the two names that every directory has are never refused
      have hdots : n.isDots = false := by
        cases hd : n.isDots with
        | false => rfl
        | true =>
            simp only [Name.isDots, Bool.or_eq_true, beq_iff_eq] at hd
            unfold lookup at hsight
            rcases hd with hd | hd
            · rw [if_pos hd] at hsight
              cases hsight
            · rw [if_neg (by rw [hd]; decide), if_pos hd] at hsight
              cases hsight
      rw [vacancy, hspot]
      simp [hdots, hsight, bind, Except.bind]

theorem mkdir_of_sight_some (hp : Splits p names [n]) (h : w.passage p names = .ok r)
    {i : Ino} (hsight : w.sight r.2 n = .ok (some i)) (mode : UInt32) :
    w.mkdir p mode = .error .exists := by
  refine mkdir_of_vacancy_error ?_ mode
  rw [vacancy, spot_of_sight_ok hp h hsight]
  simp only [bind, Except.bind]
  split
  · rfl
  · rw [lookup_of_sight_ok hsight]

/-- A path of nothing but slashes names the root, which exists. -/
theorem mkdir_of_components_eq_nil (hne : p ≠ []) (hlen : p.length < pathMax)
    (hc : p.components = []) (mode : UInt32) : w.mkdir p mode = .error .exists := by
  refine mkdir_of_vacancy_error ?_ mode
  have hspot : w.spot p = .ok ⟨startOf w.cwd p, none, p.endsInSlash⟩ := by
    rw [spot, spotFrom, if_neg hne, if_neg (by omega), hc, walk_eq_advance]
    rfl
  rw [vacancy, hspot]
  rfl

theorem file_of_spotFrom_error {follow : Bool}
    (h : w.spotFrom w.cwd (follow || ·) p = .error e) : w.file follow p = .error e := by
  show w.spotFrom w.cwd (follow || ·) p >>= _ = _
  rw [h]
  rfl

theorem file_of_passage_error {follow : Bool} (hp : Splits p names rest) (hrest : rest ≠ [])
    (h : w.passage p names = .error e) : w.file follow p = .error e := by
  refine file_of_spotFrom_error ?_
  rw [spotFrom_of_splits hp hrest, h]
  rfl

theorem file_of_sight_error (hp : Splits p names (n :: rest)) (h : w.passage p names = .ok r)
    (hsight : w.sight r.2 n = .error e) : w.file true p = .error e := by
  refine file_of_spotFrom_error ?_
  rw [spotFrom_of_splits hp (List.cons_ne_nil _ _), h]
  show w.walk _ _ _ _ _ = _
  by_cases hrest : rest = []
  · rw [hrest]
    exact walk_singleton_of_sight_error hsight
  · rw [walk_eq_advance, advance_cons hrest, turn, hsight]

theorem file_of_sight_none (hp : Splits p names (n :: rest)) (h : w.passage p names = .ok r)
    (hsight : w.sight r.2 n = .ok none) : w.file true p = .error .noEntry := by
  have hspot := spotFrom_of_splits hp (List.cons_ne_nil _ _) (w := w) fun _ => true
  rw [h] at hspot
  change _ = w.walk _ _ _ _ _ at hspot
  by_cases hrest : rest = []
  · rw [hrest, walk_singleton_of_sight_none hsight] at hspot
    show w.spotFrom w.cwd (fun _ => true) p >>= _ = _
    rw [hspot]
    simp [fileAt, lookup_of_sight_ok hsight, bind, Except.bind]
  · refine file_of_spotFrom_error (hspot.trans ?_)
    rw [walk_eq_advance, advance_cons hrest, turn, hsight]

/-- Where there is a file, every component of its path means something. -/
theorem exists_of_file_ok (hp : Splits p names (n :: rest)) {i : Ino}
    (h : w.file true p = .ok i) :
    ∃ r j, w.passage p names = .ok r ∧ w.sight r.2 n = .ok (some j) := by
  cases hpass : w.passage p names with
  | error e =>
      rw [file_of_passage_error hp (List.cons_ne_nil _ _) hpass] at h
      cases h
  | ok r =>
      cases hsight : w.sight r.2 n with
      | error e =>
          rw [file_of_sight_error hp hpass hsight] at h
          cases h
      | ok found =>
          cases found with
          | none =>
              rw [file_of_sight_none hp hpass hsight] at h
              cases h
          | some j => exact ⟨r, j, rfl, hsight⟩

-- ===================================== whether or not links are followed

/-- A walk comes to an end before a last component that is no link, or
fails there. -/
theorem walk_singleton_cases (follow : Bool → Bool) (links : Nat) (slash : Bool)
    (hs : w.allows dir .search = true)
    (hlink : ∀ i target, w.lookup dir n = .ok (some i) → w.body? i ≠ some (.symlink target)) :
    w.walk follow links slash dir [n] = .ok ⟨dir, some n, slash⟩
      ∨ ∃ e, w.lookup dir n = .error e ∧ w.walk follow links slash dir [n] = .error e := by
  rw [walk_eq_advance, advance]
  simp only [hs, Bool.not_true, Bool.false_eq_true, ↓reduceIte, true_and]
  split
  · exact Or.inl rfl
  cases hl : w.lookup dir n with
  | error e => exact Or.inr ⟨e, rfl, rfl⟩
  | ok found =>
      left
      cases found with
      | none => rfl
      | some i =>
          dsimp only
          cases hb : w.body? i with
          | none => rfl
          | some body =>
              cases body with
              | symlink target => exact absurd hb (hlink i target hl)
              | _ => rfl

/-- What a path leads to whose last component is no link, whether or not
links are followed. -/
theorem file_of_not_link (hp : Splits p names [n]) (hpass : w.passage p names = .ok r)
    (hs : w.allows r.2 .search = true)
    (hlink : ∀ i target, w.lookup r.2 n = .ok (some i) → w.body? i ≠ some (.symlink target))
    (follow : Bool) :
    w.file follow p =
      match w.lookup r.2 n with
      | .error e => .error e
      | .ok none => .error .noEntry
      | .ok (some i) =>
          if p.endsInSlash && !w.isDirectory i then .error .notDirectory else .ok i := by
  have hspot : w.spotFrom w.cwd (follow || ·) p
      = w.walk (follow || ·) r.1 p.endsInSlash r.2 [n] := by
    rw [spotFrom_of_splits hp (List.cons_ne_nil _ _), hpass]
    rfl
  rcases walk_singleton_cases (follow || ·) r.1 p.endsInSlash hs hlink with
    hwalk | ⟨e, hl, hwalk⟩
  · show w.spotFrom w.cwd (follow || ·) p >>= _ = _
    rw [hspot, hwalk]
    simp only [bind, Except.bind, fileAt]
    cases w.lookup r.2 n with
    | error e => rfl
    | ok found => cases found <;> rfl
  · rw [hl]
    exact file_of_spotFrom_error (hspot.trans hwalk)

/-- A path leads to nothing, or to the root, or to its last component in
the directory that the others lead to. -/
theorem spot_cases (w : World) (p : Path) :
    (∃ e, w.spot p = .error e ∧ ∀ follow, w.file follow p = .error e)
      ∨ (∃ dir slash, w.spot p = .ok ⟨dir, none, slash⟩)
      ∨ ∃ names n r, Splits p names [n] ∧ w.passage p names = .ok r
        ∧ w.allows r.2 .search = true ∧ w.spot p = .ok ⟨r.2, some n, p.endsInSlash⟩ := by
  by_cases hnil : p = []
  · subst hnil
    exact Or.inl ⟨.noEntry, rfl, fun _ => rfl⟩
  by_cases hlen : pathMax ≤ p.length
  · refine Or.inl ⟨.nameTooLong, ?_, fun follow => file_of_spotFrom_error ?_⟩
    · rw [spot, spotFrom, if_neg hnil, if_pos hlen]
    · rw [spotFrom, if_neg hnil, if_pos hlen]
  by_cases hc : p.components = []
  · refine Or.inr (Or.inl ⟨startOf w.cwd p, p.endsInSlash, ?_⟩)
    rw [spot, spotFrom, if_neg hnil, if_neg hlen, hc, walk_eq_advance]
    rfl
  have hp : Splits p p.components.dropLast [p.components.getLast hc] :=
    ⟨hnil, Nat.lt_of_not_le hlen, (List.dropLast_concat_getLast hc).symm⟩
  have hspot : ∀ follow, w.spotFrom w.cwd follow p = _ :=
    spotFrom_of_splits hp (List.cons_ne_nil _ _)
  cases hpass : w.passage p p.components.dropLast with
  | error e =>
      refine Or.inl ⟨e, ?_, fun follow => file_of_passage_error hp (List.cons_ne_nil _ _) hpass⟩
      rw [spot, hspot, hpass]
      rfl
  | ok r =>
      cases hs : w.allows r.2 .search with
      | true =>
          refine Or.inr (Or.inr ⟨_, _, r, hp, hpass, hs, ?_⟩)
          rw [spot, hspot, hpass]
          show w.walk _ _ _ _ _ = _
          rw [walk_singleton_of_noFollow, if_pos hs]
      | false =>
          -- the last directory keeps the last component from being looked up
          have hwalk : ∀ follow, w.walk follow r.1 p.endsInSlash r.2
              [p.components.getLast hc] = .error .denied := by
            intro follow
            rw [walk_eq_advance, advance, hs]
            rfl
          refine Or.inl ⟨.denied, ?_, fun follow => file_of_spotFrom_error ?_⟩
          · rw [spot, hspot, hpass]
            exact hwalk _
          · rw [hspot, hpass]
            exact hwalk _

-- ============================================================ the status

/-- A status is that of the file at the path. -/
theorem statusFrom_eq_ok_iff {dir : Ino} {follow : Bool} {st : Status} :
    Session.statusFrom dir follow p w = .ok st ↔
      ∃ i, w.fileFrom dir follow p = .ok i ∧ w.status? i = some st := by
  unfold Session.statusFrom
  cases w.fileFrom dir follow p with
  | error e => simp [bind, Except.bind]
  | ok i =>
      simp only [bind, Except.bind, Except.ok.injEq, exists_eq_left']
      cases w.status? i <;> simp

/-- Every file has a status, with the bits of its kind and its permissions in
one word. -/
theorem exists_status_of_node {i : Ino} {node : Node} (h : w.nodes[i]? = some node) :
    ∃ st, w.status? i = some st ∧ st.mode = node.body.fileType.bits ||| node.permissions := by
  unfold status?
  rw [h]
  exact ⟨_, rfl, rfl⟩

theorem file_of_statusFrom_ok {st : Status} (h : Session.statusFrom w.cwd true p w = .ok st) :
    ∃ i, w.file true p = .ok i := by
  obtain ⟨i, hfile, -⟩ := statusFrom_eq_ok_iff.1 h
  exact ⟨i, hfile⟩

/-- Without a status there is no file, at least none that is more than a
number. -/
theorem file_of_statusFrom_error (h : Session.statusFrom w.cwd true p w = .error e) :
    w.file true p = .error e ∨ e = .noEntry ∧ ∃ i, w.file true p = .ok i := by
  have hbind : w.file true p >>= _ = _ := h
  cases hfile : w.file true p with
  | error e' =>
      rw [hfile] at hbind
      cases hbind
      exact Or.inl rfl
  | ok i =>
      rw [hfile] at hbind
      dsimp only [bind, Except.bind] at hbind
      cases hst : w.status? i with
      | some st =>
          rw [hst] at hbind
          cases hbind
      | none =>
          rw [hst] at hbind
          cases hbind
          exact Or.inr ⟨rfl, i, rfl⟩

theorem statusFrom_of_file_error (h : w.file true p = .error e) :
    Session.statusFrom w.cwd true p w = .error e := by
  show w.file true p >>= _ = _
  rw [h]
  rfl

theorem statusFrom_of_isDirectory {i : Ino} (h : w.file true p = .ok i)
    (hdir : w.isDirectory i = true) : ∃ st, Session.statusFrom w.cwd true p w = .ok st := by
  cases hnode : w.nodes[i]? with
  | none =>
      unfold isDirectory directory? body? at hdir
      simp [hnode] at hdir
  | some node =>
      obtain ⟨st, hst, -⟩ := exists_status_of_node hnode
      exact ⟨st, statusFrom_eq_ok_iff.2 ⟨i, h, hst⟩⟩

-- =================================================== two paths, one way

/-- A path that leads to a component of another, from where that path
starts. -/
structure OnTheWay (q p : Path) : Prop where
  ne_nil : q ≠ []
  length_lt : q.length < pathMax
  isAbsolute_eq : q.isAbsolute = p.isAbsolute
  components_prefix : q.components <+: p.components
  components_ne_nil : q.components ≠ []

section OneWay

variable {q : Path}

theorem OnTheWay.refl (hne : p ≠ []) (hlen : p.length < pathMax) (hc : p.components ≠ []) :
    OnTheWay p p :=
  ⟨hne, hlen, rfl, List.prefix_rfl, hc⟩

/-- An ancestor is on the way to a path, and is not the path itself. -/
theorem onTheWay_ancestor {a : Path} (hlen : p.length < pathMax) {k : Nat}
    (h : p.ancestors[k]? = some a) :
    OnTheWay a p ∧ a.components = p.components.take (k + 1) ∧ k + 1 < p.components.length := by
  have hlead := Path.leads_ancestor h
  have hk : k < p.ancestors.length := (List.getElem?_eq_some_iff.1 h).1
  rw [Path.length_ancestors] at hk
  refine ⟨⟨hlead.ne_nil, Nat.lt_trans hlead.length_lt hlen, hlead.isAbsolute_eq, ?_, ?_⟩,
    hlead.components_eq, by omega⟩
  · rw [hlead.components_eq]
    exact List.take_prefix _ _
  · intro hnil
    have := congrArg List.length hlead.components_eq
    rw [hnil, List.length_take, List.length_nil] at this
    omega

/-- A path on the way to another one ends where that one goes on. -/
theorem OnTheWay.exists_splits (h : OnTheWay q p) (hne : p ≠ []) (hlen : p.length < pathMax) :
    ∃ names n rest, Splits q names [n] ∧ Splits p names (n :: rest) := by
  obtain ⟨rest, hrest⟩ := h.components_prefix
  have hlast := List.dropLast_concat_getLast h.components_ne_nil
  refine ⟨_, _, rest, ⟨h.ne_nil, h.length_lt, hlast.symm⟩, hne, hlen, ?_⟩
  rw [← hrest, ← List.singleton_append, ← List.append_assoc, hlast]

/-- Paths that start alike are passed along alike. -/
theorem OnTheWay.passage_eq (h : OnTheWay q p) (names : List Name) :
    w.passage q names = w.passage p names := by
  unfold passage startOf
  rw [h.isAbsolute_eq]

theorem ne_nil_of_file_ok {i : Ino} (h : w.file true p = .ok i) : p ≠ [] := by
  rintro rfl
  cases h

/-- Where there is a file, no directory is created on the way to it. -/
theorem mkdir_of_file_ok (hq : OnTheWay q p) (hlen : p.length < pathMax) {i : Ino}
    (h : w.file true p = .ok i) (mode : UInt32) : w.mkdir q mode = .error .exists := by
  obtain ⟨names, n, rest, hqs, hps⟩ := hq.exists_splits (ne_nil_of_file_ok h) hlen
  obtain ⟨r, j, hpass, hsight⟩ := exists_of_file_ok hps h
  rw [← hq.passage_eq] at hpass
  exact mkdir_of_sight_some hqs hpass hsight mode

/-- What keeps a file from being found, other than that an entry is
missing, keeps directories from being created on the way to it, unless
something exists there. -/
theorem mkdir_of_file_error (hq : OnTheWay q p) (hne : p ≠ []) (hlen : p.length < pathMax)
    (h : w.file true p = .error e) (he : e ≠ .noEntry) (mode : UInt32) :
    w.mkdir q mode = .error .exists ∨ w.mkdir q mode = .error e := by
  obtain ⟨names, n, rest, hqs, hps⟩ := hq.exists_splits hne hlen
  cases hpass : w.passage p names with
  | error e' =>
      rw [file_of_passage_error hps (List.cons_ne_nil _ _) hpass] at h
      cases h
      rw [← hq.passage_eq] at hpass
      exact Or.inr (mkdir_of_passage_error hqs (List.cons_ne_nil _ _) hpass mode)
  | ok r =>
      have hpass' := hpass
      rw [← hq.passage_eq] at hpass'
      cases hsight : w.sight r.2 n with
      | error e' =>
          rw [file_of_sight_error hps hpass hsight] at h
          cases h
          exact Or.inr (mkdir_of_sight_error hqs hpass' hsight mode)
      | ok found =>
          cases found with
          | none =>
              rw [file_of_sight_none hps hpass hsight] at h
              cases h
              exact absurd rfl he
          | some i => exact Or.inl (mkdir_of_sight_some hqs hpass' hsight mode)

/-- A directory that a passage along all components reaches is the file
at the path. -/
theorem file_of_settles_ok (h : w.Settles (w.spotFrom w.cwd (fun _ => true) q) (.ok r)) :
    w.file true q = .ok r.2 := by
  obtain ⟨hdir, hfound⟩ := h
  show w.spotFrom w.cwd (fun _ => true) q >>= _ = _
  cases hs : w.spotFrom w.cwd (fun _ => true) q with
  | error e =>
      rw [hs] at hfound
      cases hfound
  | ok s =>
      rw [hs] at hfound
      have hat : w.fileAt s = .ok (some r.2) := hfound
      simp [hat, hdir, bind, Except.bind]

/-- Where a passage along all components misses an entry there is no file
at the path. -/
theorem file_of_settles_noEntry
    (h : w.Settles (w.spotFrom w.cwd (fun _ => true) q) (.error .noEntry)) :
    w.file true q = .error .noEntry := by
  show w.spotFrom w.cwd (fun _ => true) q >>= _ = _
  cases hs : w.spotFrom w.cwd (fun _ => true) q with
  | error e =>
      rw [hs] at h
      rcases h rfl with hfound | hfound <;> cases hfound
      rfl
  | ok s =>
      rw [hs] at h
      have hat : w.fileAt s = .error .noEntry ∨ w.fileAt s = .ok none := h rfl
      rcases hat with hat | hat <;> simp [hat, bind, Except.bind]

/-- Where nothing but a missing entry keeps a file from being found, each
directory on the way to it is missing too, or it is there. -/
theorem file_of_file_noEntry (hroot : w.isDirectory root = true) (hq : OnTheWay q p)
    (hproper : q.components ≠ p.components) (hne : p ≠ []) (hlen : p.length < pathMax)
    (h : ∀ e, w.file true p = .error e → e = .noEntry) :
    w.file true q = .error .noEntry
      ∨ ∃ i, w.file true q = .ok i ∧ w.isDirectory i = true := by
  have hspot : w.spotFrom w.cwd (fun _ => true) q
      = w.walk (fun _ => true) linkMax q.endsInSlash (startOf w.cwd q) q.components := by
    have hs : Splits q [] q.components := ⟨hq.ne_nil, hq.length_lt, rfl⟩
    rw [spotFrom_of_splits hs hq.components_ne_nil, passage, pass_nil]
    rfl
  have hsettles := walk_settles hroot linkMax q.endsInSlash (startOf w.cwd q) q.components
    (Or.inl hq.components_ne_nil)
  rw [← hspot, ← passage, hq.passage_eq] at hsettles
  obtain ⟨rest, hrest⟩ := hq.components_prefix
  cases hpass : w.passage p q.components with
  | error e =>
      have hne_rest : rest ≠ [] := by
        rintro rfl
        rw [List.append_nil] at hrest
        exact hproper hrest
      have he := h e (file_of_passage_error ⟨hne, hlen, hrest.symm⟩ hne_rest hpass)
      rw [hpass, he] at hsettles
      exact Or.inl (file_of_settles_noEntry hsettles)
  | ok r =>
      rw [hpass] at hsettles
      exact Or.inr ⟨r.2, file_of_settles_ok hsettles, hsettles.1⟩

end OneWay

end PosixFiles.World
