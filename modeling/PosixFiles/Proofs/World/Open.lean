/-
Calls on ordinary paths where everything is open to the process.

Where no link leads elsewhere and no directory is closed, the entries
alone decide what becomes of a call. An ordinary path, whose components
are names that anything may have, either leads to a file, or misses an
entry, or comes to something that is no directory (`file_cases`); and
creating a directory at it, if the others of its components lead
somewhere, is an addition to the world, or finds a file there, or comes
to something that is no directory (`mkdir_cases`).
-/
import PosixFiles.Proofs.World.Arrival
import PosixFiles.Proofs.World.Growth

namespace PosixFiles

/-- A name that any file may have. -/
structure Name.IsOrdinary (n : Name) : Prop where
  isDots_eq : n.isDots = false
  length_le : n.length ≤ nameMax

/-- A path that may be handed to the system, all of whose components, of
which there is at least one, are names that any file may have. -/
structure Path.IsOrdinary (p : Path) : Prop where
  hasNul_eq : p.hasNul = false
  length_lt : p.length < pathMax
  components_ne_nil : p.components ≠ []
  names : ∀ n ∈ p.components, n.IsOrdinary

namespace World

variable {w : World} {dir i : Ino} {n : Name} {names : List Name}

-- ================================================================= names

/-- What a name means in a directory that has not been deleted, if it may
stand there. -/
theorem lookup_of_directory {d : Directory} (hd : w.directory? dir = some d)
    (hn : n.isDots = false) (hdeleted : d.deleted = false) (hlen : n.length ≤ nameMax) :
    w.lookup dir n = .ok (d.entries.lookup n) := by
  simp only [Name.isDots, Bool.or_eq_false_iff, beq_eq_false_iff_ne] at hn
  simp [lookup, hd, hn.1, hn.2, hdeleted, Nat.not_lt.2 hlen]

theorem OpenBelow.exists_directory (h : w.OpenBelow dir) (hdir : w.isDirectory dir = true) :
    ∃ node d, w.nodes[dir]? = some node ∧ node.body = .directory d ∧ d.deleted = false
      ∧ node.allows .search = true ∧ node.allows .write = true := by
  obtain ⟨node, hnode, hopen⟩ := h.exists_node
  rw [isDirectory_eq hnode] at hdir
  cases hb : node.body with
  | directory d => exact ⟨node, d, hnode, hb, hopen.directory d hb⟩
  | _ => simp [hb, Body.fileType] at hdir

theorem OpenBelow.allows (h : w.OpenBelow dir) (hdir : w.isDirectory dir = true) :
    w.allows dir .search = true ∧ w.allows dir .write = true := by
  obtain ⟨node, d, hnode, -, -, hsearch, hwrite⟩ := h.exists_directory hdir
  simp [World.allows, hnode, hsearch, hwrite]

/-- In an open directory an ordinary name stands for what the entries
say. -/
theorem OpenBelow.lookup_eq (h : w.OpenBelow dir) (hdir : w.isDirectory dir = true)
    (hn : n.IsOrdinary) : w.lookup dir n = .ok (w.child? dir n) := by
  obtain ⟨node, d, hnode, hb, hdeleted, -, -⟩ := h.exists_directory hdir
  have hd : w.directory? dir = some d := directory?_of_node hnode hb
  rw [lookup_of_directory hd hn.isDots_eq hdeleted hn.length_le, child?, hd]
  rfl

theorem OpenBelow.sight_eq (h : w.OpenBelow dir) (hdir : w.isDirectory dir = true)
    (hn : n.IsOrdinary) : w.sight dir n = .ok (w.child? dir n) := by
  rw [sight, if_pos (h.allows hdir).1]
  exact h.lookup_eq hdir hn

/-- What an entry of an open directory is. -/
theorem OpenBelow.body?_of_entry (h : w.OpenBelow dir) (hentry : w.child? dir n = some i) :
    ∃ body, w.body? i = some body ∧ body.fileType ≠ .symlink
      ∧ w.isDirectory i = (body.fileType == .directory) := by
  obtain ⟨node, hnode, hopen⟩ := (h.of_entry hentry).exists_node
  refine ⟨node.body, ?_, hopen.not_symlink, isDirectory_eq hnode⟩
  simp [body?, hnode]

/-- A walk goes down into a directory. -/
theorem OpenBelow.turn_of_directory (h : w.OpenBelow dir) (hdir : w.isDirectory dir = true)
    (hn : n.IsOrdinary) (hentry : w.child? dir n = some i) (hi : w.isDirectory i = true) :
    w.turn dir n = .ok (.down i) := by
  obtain ⟨body, hbody, -, htype⟩ := h.body?_of_entry hentry
  rw [hi] at htype
  unfold turn
  rw [h.sight_eq hdir hn, hentry]
  dsimp only
  rw [hbody]
  cases body with
  | directory d => rfl
  | _ => cases htype

theorem OpenBelow.turn_of_not_directory (h : w.OpenBelow dir)
    (hdir : w.isDirectory dir = true) (hn : n.IsOrdinary)
    (hentry : w.child? dir n = some i) (hi : w.isDirectory i = false) :
    w.turn dir n = .error .notDirectory := by
  obtain ⟨body, hbody, hlink, htype⟩ := h.body?_of_entry hentry
  rw [hi] at htype
  unfold turn
  rw [h.sight_eq hdir hn, hentry]
  dsimp only
  rw [hbody]
  cases body with
  | directory d => cases htype
  | symlink target => exact absurd rfl hlink
  | _ => rfl

theorem OpenBelow.turn_of_none (h : w.OpenBelow dir) (hdir : w.isDirectory dir = true)
    (hn : n.IsOrdinary) (hentry : w.child? dir n = none) :
    w.turn dir n = .error .noEntry := by
  unfold turn
  rw [h.sight_eq hdir hn, hentry]

-- ============================================================== passages

/-- What comes of a passage along ordinary names: it leads where the
entries lead, or it misses an entry, or something in its way is no
directory. -/
theorem OpenBelow.pass_cases (links : Nat) (names : List Name) :
    ∀ {dir : Ino}, w.OpenBelow dir → w.isDirectory dir = true →
      (∀ n ∈ names, n.IsOrdinary) →
      (∃ i, w.trace dir names = some i ∧ w.isDirectory i = true
          ∧ w.pass links dir names = .ok (links, i))
        ∨ (w.trace dir names = none ∧ w.pass links dir names = .error .noEntry)
        ∨ ((∃ front i, front <+: names ∧ w.trace dir front = some i
              ∧ w.isDirectory i = false)
            ∧ w.pass links dir names = .error .notDirectory) := by
  induction names with
  | nil =>
      intro dir _ hdir _
      exact Or.inl ⟨dir, rfl, hdir, pass_nil links dir⟩
  | cons n rest ih =>
      intro dir h hdir hord
      have hn := hord n (List.mem_cons_self ..)
      rw [pass_eq_passPlain, passPlain, trace]
      cases hentry : w.child? dir n with
      | none =>
          rw [h.turn_of_none hdir hn hentry]
          exact Or.inr (Or.inl ⟨rfl, rfl⟩)
      | some j =>
          cases hj : w.isDirectory j with
          | false =>
              rw [h.turn_of_not_directory hdir hn hentry hj]
              refine Or.inr (Or.inr ⟨⟨[n], j, ?_, ?_, hj⟩, rfl⟩)
              · exact List.prefix_cons_inj n |>.2 (List.nil_prefix ..)
              · rw [trace, hentry]
                rfl
          | true =>
              rw [h.turn_of_directory hdir hn hentry hj]
              dsimp only
              rw [← pass_eq_passPlain]
              rcases ih (h.of_entry hentry) hj fun m hm => hord m (List.mem_cons_of_mem _ hm) with
                ⟨i, hi, hdiri, hpass⟩ | hmissing | ⟨⟨front, i, hfront, hi, hdiri⟩, hpass⟩
              · exact Or.inl ⟨i, hi, hdiri, hpass⟩
              · exact Or.inr (Or.inl hmissing)
              · refine Or.inr (Or.inr ⟨⟨n :: front, i, ?_, ?_, hdiri⟩, hpass⟩)
                · exact (List.prefix_cons_inj n).2 hfront
                · rw [trace, hentry]
                  exact hi

-- ================================================================= calls

variable {p : Path} {mode : UInt32}

/-- A walk that follows links ends at a last component that is none. -/
theorem walk_singleton_of_sight_some {links : Nat} {slash : Bool} {body : Body}
    (hsight : w.sight dir n = .ok (some i)) (hbody : w.body? i = some body)
    (hlink : body.fileType ≠ .symlink) :
    w.walk (fun _ => true) links slash dir [n] = .ok ⟨dir, some n, slash⟩ := by
  rw [walk_eq_advance]
  have hl := lookup_of_sight_ok hsight
  unfold sight at hsight
  split at hsight
  next hs =>
    simp only [advance, hs, hl, hbody]
    cases body with
    | symlink target => exact absurd rfl hlink
    | _ => rfl
  next => cases hsight

/-- The file at a path whose last component is no link. -/
theorem file_of_sight_some {r : Nat × Ino} {body : Body} (hp : Splits p names [n])
    (hpass : w.passage p names = .ok r) (hsight : w.sight r.2 n = .ok (some i))
    (hbody : w.body? i = some body) (hlink : body.fileType ≠ .symlink) :
    w.file true p =
      if p.endsInSlash && !w.isDirectory i then .error .notDirectory else .ok i := by
  have hspot : w.spotFrom w.cwd (fun _ => true) p = .ok ⟨r.2, some n, p.endsInSlash⟩ := by
    rw [spotFrom_of_splits hp (List.cons_ne_nil _ _), hpass]
    exact walk_singleton_of_sight_some hsight hbody hlink
  show w.spotFrom w.cwd (fun _ => true) p >>= _ = _
  rw [hspot]
  simp only [bind, Except.bind, fileAt, lookup_of_sight_ok hsight]

/-- A path of ordinary names, the last of which is `n`. -/
structure EndsIn (p : Path) (names : List Name) (n : Name) : Prop where
  splits : Splits p names [n]
  names : ∀ m ∈ names, m.IsOrdinary
  last : n.IsOrdinary

/-- A path on the way to an ordinary one is made of ordinary names. -/
theorem OnTheWay.endsIn {q : Path} (hq : OnTheWay q p) (hp : p.IsOrdinary) :
    ∃ n, EndsIn q q.components.dropLast n := by
  have hlast := List.dropLast_concat_getLast hq.components_ne_nil
  have hord : ∀ m ∈ q.components, m.IsOrdinary :=
    fun m hm => hp.names m (hq.components_prefix.subset hm)
  refine ⟨_, ⟨hq.ne_nil, hq.length_lt, hlast.symm⟩, fun m hm => ?_, ?_⟩
  · exact hord m (List.dropLast_subset _ hm)
  · exact hord _ (List.getLast_mem _)

/-- What an ordinary path leads to: to a file, the one that the entries
lead to, or to a missing entry, or to something in its way that is no
directory. -/
theorem file_cases (h : w.OpenBelow (startOf w.cwd p))
    (hdir : w.isDirectory (startOf w.cwd p) = true) (hp : EndsIn p names n) :
    (∃ i, w.trace (startOf w.cwd p) p.components = some i ∧ w.file true p = .ok i)
      ∨ (w.trace (startOf w.cwd p) p.components = none ∧ w.file true p = .error .noEntry)
      ∨ (w.Obstructed p ∧ w.file true p = .error .notDirectory) := by
  have hc : p.components = names ++ [n] := hp.splits.components_eq
  rw [hc, trace_append]
  rcases OpenBelow.pass_cases linkMax names h hdir hp.names with
    ⟨d, hd, hdird, hpass⟩ | ⟨hnone, hpass⟩ | ⟨⟨front, j, hfront, hj, hdirj⟩, hpass⟩
  · have hopen : w.OpenBelow d := h.of_trace hd
    have hsight := hopen.sight_eq hdird hp.last
    rw [hd]
    cases hentry : w.child? d n with
    | none =>
        rw [hentry] at hsight
        refine Or.inr (Or.inl ⟨?_, file_of_sight_none hp.splits hpass hsight⟩)
        simp [trace, hentry]
    | some i =>
        rw [hentry] at hsight
        obtain ⟨body, hbody, hlink, -⟩ := hopen.body?_of_entry hentry
        rw [file_of_sight_some hp.splits hpass hsight hbody hlink]
        cases hi : w.isDirectory i with
        | true => exact Or.inl ⟨i, by simp [trace, hentry], by simp⟩
        | false =>
            cases p.endsInSlash with
            | false => exact Or.inl ⟨i, by simp [trace, hentry], by simp⟩
            | true =>
                refine Or.inr (Or.inr ⟨⟨p.components, i, List.prefix_rfl, ?_, hi⟩, by simp⟩)
                rw [hc, trace_append, hd]
                simp [trace, hentry]
  · refine Or.inr (Or.inl ⟨by rw [hnone]; rfl, ?_⟩)
    exact file_of_passage_error hp.splits (List.cons_ne_nil _ _) hpass
  · refine Or.inr (Or.inr ⟨⟨front, j, ?_, hj, hdirj⟩, ?_⟩)
    · rw [hc]
      exact hfront.trans (List.prefix_append ..)
    · exact file_of_passage_error hp.splits (List.cons_ne_nil _ _) hpass

/-- Nothing is below what is no directory. -/
theorem trace_of_not_directory {m : Name} {rest : List Name} (hi : w.isDirectory i = false) :
    w.trace i (m :: rest) = none := by
  have hnone : w.directory? i = none := by
    unfold isDirectory at hi
    cases hd : w.directory? i with
    | none => rfl
    | some d => simp [hd] at hi
  rw [trace, child?, hnone]
  rfl

/-- A directory that the entries lead to is what the path leads to. -/
theorem file_of_trace (h : w.OpenBelow (startOf w.cwd p))
    (hdir : w.isDirectory (startOf w.cwd p) = true) (hp : EndsIn p names n)
    (hi : w.trace (startOf w.cwd p) p.components = some i) (hdiri : w.isDirectory i = true) :
    w.file true p = .ok i := by
  have hc : p.components = names ++ [n] := hp.splits.components_eq
  rw [hc] at hi
  rcases OpenBelow.pass_cases linkMax names h hdir hp.names with
    ⟨d, hd, hdird, hpass⟩ | ⟨hnone, -⟩ | ⟨⟨front, j, ⟨back, rfl⟩, hj, hdirj⟩, -⟩
  · have hopen : w.OpenBelow d := h.of_trace hd
    rw [trace_append, hd, Option.bind_some, trace] at hi
    cases hchild : w.child? d n with
    | none =>
        rw [hchild] at hi
        cases hi
    | some k =>
        rw [hchild] at hi
        cases hi
        have hsight := hopen.sight_eq hdird hp.last
        rw [hchild] at hsight
        obtain ⟨body, hbody, hlink, -⟩ := hopen.body?_of_entry hchild
        rw [file_of_sight_some hp.splits hpass hsight hbody hlink, hdiri]
        simp
  · rw [trace_append, hnone] at hi
    cases hi
  · -- the entries do not get past what is in the way
    obtain ⟨m, rest, hback⟩ := List.exists_cons_of_ne_nil
      (List.append_ne_nil_of_right_ne_nil back (List.cons_ne_nil n []))
    rw [List.append_assoc, trace_append, hj, hback, Option.bind_some,
      trace_of_not_directory hdirj] at hi
    cases hi

-- ============================================================ the status

private theorem and_or_distrib (a b c : UInt32) :
    (a ||| b) &&& c = a &&& c ||| b &&& c := by
  refine UInt32.toBitVec_inj.1 ?_
  ext k
  simp [Bool.and_or_distrib_right]

/-- Permissions that are nothing but permissions leave the kind of a file to
be read back. -/
theorem ofMode_bits_or {type : FileType} {permissions : UInt32}
    (h : permissions &&& FileType.mask = 0) :
    FileType.ofMode (type.bits ||| permissions) = type := by
  rw [← FileType.ofMode_bits type]
  unfold FileType.ofMode
  dsimp only
  rw [and_or_distrib, h, UInt32.or_zero]
  cases type <;> decide

/-- What a mode describes as a directory is one, whatever its permissions. -/
theorem fileType_of_ofMode_directory {body : Body} {permissions : UInt32}
    (h : FileType.ofMode (body.fileType.bits ||| permissions) = .directory) :
    body.fileType = .directory := by
  have hbits : (body.fileType.bits ||| permissions) &&& FileType.mask
      = FileType.bits .directory := by
    unfold FileType.ofMode at h
    dsimp only at h
    split at h
    · cases h
    split at h
    · assumption
    · repeat' split at h
      all_goals cases h
  -- every other kind has a bit that a directory has not
  have hother : (body.fileType.bits ||| permissions) &&& 0o130000 = 0 := by
    calc (body.fileType.bits ||| permissions) &&& 0o130000
        = (body.fileType.bits ||| permissions) &&& FileType.mask &&& 0o130000 := by
          rw [UInt32.and_assoc]
          rfl
      _ = 0 := by
          rw [hbits]
          decide
  rw [and_or_distrib] at hother
  have hnone := (UInt32.or_eq_zero_iff.1 hother).1
  cases body with
  | directory d => rfl
  | regular | symlink | fifo | socket =>
      dsimp only [Body.fileType] at hnone
      exact absurd hnone (by decide)

/-- The status of an open file shows what it is. -/
theorem fileType_of_isOpen {node : Node} (h : node.IsOpen) :
    FileType.ofMode (node.body.fileType.bits ||| node.permissions) = node.body.fileType :=
  ofMode_bits_or h.permissions_eq

/-- The status of what an ordinary path leads to. -/
theorem statusFrom_of_file_ok (h : w.OpenBelow (startOf w.cwd p))
    (htrace : w.trace (startOf w.cwd p) names = some i) (hfile : w.file true p = .ok i) :
    ∃ st, Session.statusFrom w.cwd true p w = .ok st ∧ st.isDirectory = w.isDirectory i := by
  obtain ⟨node, hnode, hopen⟩ := h names i htrace
  obtain ⟨st, hst, hmode⟩ := exists_status_of_node hnode
  refine ⟨st, statusFrom_eq_ok_iff.2 ⟨i, hfile, hst⟩, ?_⟩
  rw [isDirectory_eq hnode, Status.isDirectory, Status.fileType, hmode,
    fileType_of_isOpen hopen]

-- ============================================================== creation

/-- The permissions that leave a new directory open to the process. -/
def openBits : UInt32 := 0o300

/-- A new directory has the permissions that leave it open, if the mode
has them under the mask. -/
private theorem directoryPermissions_and_ne_zero (dir : Ino) {b : UInt32} (hb : b ≠ 0)
    (hopen : openBits &&& b = b) (hbits : directoryBits &&& b = b)
    (hmode : mode &&& ~~~w.mask &&& openBits = openBits) :
    w.directoryPermissions dir mode &&& b ≠ 0 := by
  unfold directoryPermissions
  dsimp only
  rw [and_or_distrib]
  intro hzero
  refine hb ?_
  calc b = openBits &&& b := hopen.symm
    _ = (mode &&& ~~~w.mask &&& openBits) &&& b := by rw [hmode]
    _ = mode &&& ~~~w.mask &&& (openBits &&& b) := UInt32.and_assoc ..
    _ = mode &&& ~~~w.mask &&& (directoryBits &&& b) := by rw [hopen, hbits]
    _ = mode &&& directoryBits &&& ~~~w.mask &&& b := by ac_rfl
    _ = 0 := (UInt32.or_eq_zero_iff.1 hzero).1

/-- A new directory has nothing but permissions. -/
theorem directoryPermissions_and_mask (dir : Ino) :
    w.directoryPermissions dir mode &&& FileType.mask = 0 := by
  have hown : mode &&& directoryBits &&& ~~~w.mask &&& FileType.mask = 0 := by
    calc mode &&& directoryBits &&& ~~~w.mask &&& FileType.mask
        = mode &&& ~~~w.mask &&& (directoryBits &&& FileType.mask) := by ac_rfl
      _ = mode &&& ~~~w.mask &&& 0 := by rw [show directoryBits &&& FileType.mask = 0 by decide]
      _ = 0 := UInt32.and_zero
  unfold directoryPermissions
  dsimp only
  rw [and_or_distrib, hown, UInt32.zero_or]
  split
  · rw [UInt32.and_assoc, show inheritedBit &&& FileType.mask = 0 by decide, UInt32.and_zero]
  · exact UInt32.zero_and

/-- The directory that is created in a given one. -/
def newDirectory (w : World) (dir : Ino) (mode : UInt32) : Node :=
  ⟨.directory { parent := dir }, w.directoryPermissions dir mode, true, [], w.now, w.now, w.now⟩

/-- A directory that is created is a new file like any other. -/
theorem isNew_newDirectory (dir : Ino) (hmode : mode &&& ~~~w.mask &&& openBits = openBits) :
    (w.newDirectory dir mode).IsNew := by
  refine ⟨⟨directoryPermissions_and_mask dir, nofun, fun d hd => ?_⟩, Or.inl ⟨_, rfl, rfl⟩⟩
  cases hd
  refine ⟨rfl, ?_, ?_⟩
  · exact bne_iff_ne.2 (directoryPermissions_and_ne_zero dir (by decide) (by decide)
      (by decide) hmode)
  · exact bne_iff_ne.2 (directoryPermissions_and_ne_zero dir (by decide) (by decide)
      (by decide) hmode)

/-- Creating a directory under a free name in an open directory is an
addition. -/
theorem mkdir_of_entry_none {r : Nat × Ino} (hp : Splits p names [n])
    (hpass : w.passage p names = .ok r) (hopen : w.OpenBelow r.2)
    (hdir : w.isDirectory r.2 = true) (hn : n.IsOrdinary) (hentry : w.child? r.2 n = none)
    (hmode : mode &&& ~~~w.mask &&& openBits = openBits) :
    let a : Addition := ⟨r.2, n, w.newDirectory r.2 mode, isNew_newDirectory r.2 hmode⟩
    a.fits w = true ∧ w.mkdir p mode = .ok (w.add a) := by
  intro a
  have hlookup : w.lookup r.2 n = .ok none := by
    rw [hopen.lookup_eq hdir hn, hentry]
  have hfits : a.fits w = true := fits_iff.2 ⟨hdir, hlookup⟩
  have hsight : w.sight r.2 n = .ok none := by
    rw [hopen.sight_eq hdir hn, hentry]
  obtain ⟨hsearch, hwrite⟩ := hopen.allows hdir
  have hvacancy : w.vacancy p true = .ok (r.2, n) := by
    rw [vacancy, spot_of_sight_ok hp hpass hsight]
    simp [bind, Except.bind, hn.isDots_eq, hlookup]
  refine ⟨hfits, ?_⟩
  rw [mkdir, create, hvacancy, add, if_pos hfits]
  simp only [bind, Except.bind, mayEdit, hsearch, hwrite, Bool.and_self, if_true]
  rfl

/-- Creating a directory at an ordinary path whose first components lead
somewhere: it is an addition, or something is there, or something in its
way is no directory. -/
theorem mkdir_cases (h : w.OpenBelow (startOf w.cwd p))
    (hdir : w.isDirectory (startOf w.cwd p) = true) (hp : EndsIn p names n)
    (hmode : mode &&& ~~~w.mask &&& openBits = openBits)
    (htrace : ∃ d, w.trace (startOf w.cwd p) names = some d) :
    (∃ a : Addition, w.mkdir p mode = .ok (w.add a) ∧ a.node.body.fileType = .directory
        ∧ ∃ i, (w.add a).trace (startOf w.cwd p) p.components = some i
          ∧ (w.add a).isDirectory i = true)
      ∨ ((∃ i, w.trace (startOf w.cwd p) p.components = some i)
          ∧ w.mkdir p mode = .error .exists)
      ∨ (w.Obstructed p ∧ w.mkdir p mode = .error .notDirectory) := by
  have hc : p.components = names ++ [n] := hp.splits.components_eq
  rcases OpenBelow.pass_cases linkMax names h hdir hp.names with
    ⟨d, hd, hdird, hpass⟩ | ⟨hnone, -⟩ | ⟨⟨front, j, hfront, hj, hdirj⟩, hpass⟩
  · have hopen : w.OpenBelow d := h.of_trace hd
    cases hentry : w.child? d n with
    | none =>
        obtain ⟨hfits, hmkdir⟩ :=
          mkdir_of_entry_none hp.splits hpass hopen hdird hp.last hentry hmode
        refine Or.inl ⟨_, hmkdir, rfl, w.nodes.size, ?_, ?_⟩
        · rw [hc, trace_append, trace_add_of_trace hfits names hd]
          simp [trace, child?_add hfits]
        · rw [isDirectory_eq (by rw [nodes_add hfits, if_pos rfl])]
          rfl
    | some i =>
        have hsight : w.sight d n = .ok (some i) := by
          rw [hopen.sight_eq hdird hp.last, hentry]
        refine Or.inr (Or.inl ⟨⟨i, ?_⟩, mkdir_of_sight_some hp.splits hpass hsight mode⟩)
        rw [hc, trace_append, hd]
        simp [trace, hentry]
  · obtain ⟨d, hd⟩ := htrace
    rw [hnone] at hd
    cases hd
  · refine Or.inr (Or.inr ⟨⟨front, j, ?_, hj, hdirj⟩, ?_⟩)
    · rw [hc]
      exact hfront.trans (List.prefix_append ..)
    · exact mkdir_of_passage_error hp.splits (List.cons_ne_nil _ _) hpass mode

end World
end PosixFiles
