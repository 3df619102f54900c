/-
Worlds that other processes add to.

An `Addition` puts a new file under a free name in a directory; nothing
else changes. `World.add` makes it, if the name is free by then, so any
list of additions is one that other processes may make.

`World.trace` follows names by the entries of directories alone, without
permissions and without links. What it reaches it still reaches after an
addition, and as the same kind of file (`OpenBelow.extends_add`); and it
reaches only one file more (`trace_add`). Of a directory below which
everything is open to the process the same holds afterwards, so that may
be assumed at every moment of a run if it is assumed at the start.
-/
import PosixFiles.World.Walk

namespace PosixFiles

-- ============================================================== open files

/-- A file in the way of nothing but itself: it is no symbolic link, and
if it is a directory it has not been deleted, and the process may search
it and create files in it. Its permissions are nothing but permissions,
so its status shows what it is. -/
structure Node.IsOpen (n : Node) : Prop where
  permissions_eq : n.permissions &&& FileType.mask = 0
  not_symlink : n.body.fileType ≠ .symlink
  directory : ∀ d, n.body = .directory d →
    d.deleted = false ∧ n.allows .search = true ∧ n.allows .write = true

namespace World

section Directories

variable {w : World} {i : Ino}

theorem directory?_of_node {a : Node} {d : Directory} (ha : w.nodes[i]? = some a)
    (hd : a.body = .directory d) : w.directory? i = some d := by
  unfold directory? body?
  rw [ha]
  dsimp only
  rw [hd]

theorem body?_eq_some_iff {b : Body} :
    w.body? i = some b ↔ ∃ a, w.nodes[i]? = some a ∧ a.body = b := by
  unfold body?
  cases w.nodes[i]? <;> simp

theorem exists_node_of_directory? {d : Directory} (h : w.directory? i = some d) :
    ∃ a, w.nodes[i]? = some a ∧ a.body = .directory d := by
  unfold directory? body? at h
  cases ha : w.nodes[i]? with
  | none => simp [ha] at h
  | some a =>
      rw [ha] at h
      cases hb : a.body with
      | directory d' =>
          simp only [hb, Option.some.injEq] at h
          exact ⟨a, rfl, h ▸ hb⟩
      | _ => simp [hb] at h

/-- Whether a file is a directory shows in its type. -/
theorem isDirectory_eq {n : Node} (hn : w.nodes[i]? = some n) :
    w.isDirectory i = (n.body.fileType == .directory) := by
  unfold isDirectory directory? body?
  rw [hn]
  cases hb : n.body <;> simp [hb, Body.fileType]

end Directories

variable (w : World)

/-- What a name stands for by the entries of a directory. -/
def child? (dir : Ino) (n : Name) : Option Ino :=
  (w.directory? dir).bind (·.entries.lookup n)

/-- Where names lead from a directory by the entries alone. -/
def trace : Ino → List Name → Option Ino
  | i, [] => some i
  | i, n :: rest =>
      match w.child? i n with
      | some j => trace j rest
      | none => none

/-- A directory, and everything below it, is open to the process. -/
def OpenBelow (start : Ino) : Prop :=
  ∀ names i, w.trace start names = some i → ∃ n, w.nodes[i]? = some n ∧ n.IsOpen

variable {w}

/-- Names in a row lead where the last ones lead from where the first
ones lead. -/
theorem trace_append (front rest : List Name) :
    ∀ i, w.trace i (front ++ rest) = (w.trace i front).bind (w.trace · rest) := by
  induction front with
  | nil => exact fun _ => rfl
  | cons n front ih =>
      intro i
      rw [List.cons_append, trace, trace]
      cases w.child? i n with
      | none => rfl
      | some j => exact ih j

/-- What is below an entry is below the directory. -/
theorem OpenBelow.of_entry {start i : Ino} {n : Name} (h : w.OpenBelow start)
    (hentry : w.child? start n = some i) : w.OpenBelow i := by
  intro names j hj
  refine h (n :: names) j ?_
  rw [trace, hentry]
  exact hj

theorem OpenBelow.of_trace {start i : Ino} {names : List Name} (h : w.OpenBelow start)
    (htrace : w.trace start names = some i) : w.OpenBelow i := by
  intro rest j hj
  refine h (names ++ rest) j ?_
  rw [trace_append, htrace]
  exact hj

theorem OpenBelow.exists_node {start : Ino} (h : w.OpenBelow start) :
    ∃ n, w.nodes[start]? = some n ∧ n.IsOpen :=
  h [] start rfl

theorem OpenBelow.lt_size {start : Ino} (h : w.OpenBelow start) : start < w.nodes.size := by
  obtain ⟨n, hn, -⟩ := h.exists_node
  exact (Array.getElem?_eq_some_iff.1 hn).1

end World

/-- A directory with one more entry; any other file as it is. -/
def Node.withEntry (n : Node) (e : Name × Ino) (now : Timespec) : Node :=
  match n.body with
  | .directory d =>
      { n with body := .directory { d with entries := d.entries ++ [e] }
               mtime := now, ctime := now }
  | _ => n

/-- One more entry does not make a file another kind of file. -/
theorem Node.fileType_withEntry (n : Node) (e : Name × Ino) (now : Timespec) :
    (n.withEntry e now).body.fileType = n.body.fileType := by
  cases hb : n.body <;> simp [withEntry, hb, Body.fileType]

/-- One more entry leaves a file open. -/
theorem Node.IsOpen.withEntry {n : Node} (h : n.IsOpen) (e : Name × Ino) (now : Timespec) :
    (n.withEntry e now).IsOpen := by
  cases hb : n.body with
  | directory d =>
      obtain ⟨hdeleted, hsearch, hwrite⟩ := h.directory d hb
      have heq : n.withEntry e now = { n with
          body := .directory { d with entries := d.entries ++ [e] }
          mtime := now, ctime := now } := by
        simp [Node.withEntry, hb]
      rw [heq]
      refine ⟨h.permissions_eq, nofun, fun d' hd' => ?_⟩
      cases hd'
      exact ⟨hdeleted, hsearch, hwrite⟩
  | _ =>
      have heq : n.withEntry e now = n := by
        simp [Node.withEntry, hb]
      rw [heq]
      exact h

-- =============================================================== additions

/-- A new file: one that is open, and that is an empty directory or a
regular file. -/
structure Node.IsNew (n : Node) : Prop where
  isOpen : n.IsOpen
  body : (∃ d, n.body = .directory d ∧ d.entries = []) ∨ ∃ content, n.body = .regular content

/-- A new file under a name in a directory. -/
structure Addition where
  dir : Ino
  name : Name
  node : Node
  isNew : node.IsNew

/-- Whether the name of an addition is free in its directory. -/
def Addition.fits (a : Addition) (w : World) : Bool :=
  w.isDirectory a.dir &&
    match w.lookup a.dir a.name with
    | .ok none => true
    | _ => false

namespace World

/-- Puts a new file under a name in a directory. -/
def put (w : World) (dir : Ino) (n : Name) (node : Node) : World :=
  enter { w with nodes := w.nodes.push node } dir n w.nodes.size

/-- The files after a new one was put somewhere: it has the next number, its
directory has got the name, and all others are as they were. -/
theorem nodes_put {w : World} {dir : Ino} (hdir : dir < w.nodes.size) (n : Name) (node : Node)
    (i : Ino) :
    (w.put dir n node).nodes[i]? =
      if i = w.nodes.size then some node
      else if i = dir then (w.nodes[i]?).map (·.withEntry (n, w.nodes.size) w.now)
      else w.nodes[i]? := by
  simp only [put, enter, modifyEntries, modify, Array.getElem?_modify, Array.getElem?_push]
  by_cases hi : i = w.nodes.size
  · have hne : dir ≠ i := fun hc => Nat.ne_of_lt hdir (hc.trans hi)
    rw [if_neg hne, if_pos hi, if_pos hi]
  · rw [if_neg hi, if_neg hi]
    by_cases hd : i = dir
    · rw [if_pos hd, if_pos hd.symm]
      rfl
    · rw [if_neg hd, if_neg (Ne.symm hd)]

/-- Where a file without entries is put under a free name, an entry is left
alone, and there is one more. -/
theorem child?_put {w : World} {dir : Ino} {n : Name} {node : Node} {d : Directory}
    (hd : w.directory? dir = some d) (hfree : w.child? dir n = none)
    (hempty : ∀ d', node.body = .directory d' → d'.entries = []) (i : Ino) (m : Name) :
    (w.put dir n node).child? i m =
      if i = dir ∧ m = n then some w.nodes.size else w.child? i m := by
  obtain ⟨a, ha, hb⟩ := exists_node_of_directory? hd
  have hlt : dir < w.nodes.size := (Array.getElem?_eq_some_iff.1 ha).1
  unfold child? directory? body?
  rw [nodes_put hlt]
  by_cases hi : i = w.nodes.size
  · -- nothing is in a new directory, and nothing was under its number
    have hnone : w.nodes[i]? = none := by
      rw [hi]
      exact Array.getElem?_size
    have hne : ¬ (i = dir ∧ m = n) :=
      fun hc => Nat.ne_of_lt hlt (hc.1.symm.trans hi)
    rw [if_pos hi, if_neg hne, hnone]
    cases hbody : node.body with
    | directory d' => simp [hbody, hempty d' hbody]
    | _ => simp [hbody]
  · rw [if_neg hi]
    by_cases hdir : i = dir
    · subst hdir
      rw [if_pos rfl, ha]
      rw [child?, hd, Option.bind_some] at hfree
      simp only [Option.map_some, Node.withEntry, hb, Option.bind_some, List.lookup_append,
        List.lookup_cons, List.lookup_nil, true_and]
      by_cases hm : m = n
      · subst hm
        simp [hfree]
      · have hbeq : (m == n) = false := beq_eq_false_iff_ne.2 hm
        simp [hm, hbeq]
    · rw [if_neg hdir, if_neg (fun hc => hdir hc.1)]

/-- Makes an addition, if its name is free. -/
def add (w : World) (a : Addition) : World :=
  if a.fits w then w.put a.dir a.name a.node else w

variable {w : World} {a : Addition}

theorem fits_iff :
    a.fits w = true ↔ w.isDirectory a.dir = true ∧ w.lookup a.dir a.name = .ok none := by
  unfold Addition.fits
  rw [Bool.and_eq_true]
  refine and_congr_right fun _ => ?_
  split <;> simp_all

theorem directory?_of_fits (h : a.fits w = true) :
    ∃ n d, w.nodes[a.dir]? = some n ∧ n.body = .directory d := by
  obtain ⟨d, hd⟩ := Option.isSome_iff_exists.1 (fits_iff.1 h).1
  obtain ⟨n, hn, hb⟩ := exists_node_of_directory? hd
  exact ⟨n, d, hn, hb⟩

/-- A free name stands for nothing. -/
theorem child?_of_fits (h : a.fits w = true) : w.child? a.dir a.name = none := by
  obtain ⟨n, d, hn, hb⟩ := directory?_of_fits h
  have hd : w.directory? a.dir = some d := directory?_of_node hn hb
  have hlookup := (fits_iff.1 h).2
  simp only [lookup, hd] at hlookup
  split at hlookup
  · cases hlookup
  split at hlookup
  · cases hlookup
  split at hlookup
  · cases hlookup
  split at hlookup
  · cases hlookup
  · rw [child?, hd]
    exact Except.ok.inj hlookup

/-- An addition puts its file in its directory. -/
theorem nodes_add (h : a.fits w = true) (i : Ino) :
    (w.add a).nodes[i]? =
      if i = w.nodes.size then some a.node
      else if i = a.dir then
        (w.nodes[i]?).map (·.withEntry (a.name, w.nodes.size) w.now)
      else w.nodes[i]? := by
  obtain ⟨n, d, hn, -⟩ := directory?_of_fits h
  have hlt : a.dir < w.nodes.size := (Array.getElem?_eq_some_iff.1 hn).1
  rw [add, if_pos h]
  exact nodes_put hlt a.name a.node i

/-- An entry is left alone, and there is one more. -/
theorem child?_add (h : a.fits w = true) (i : Ino) (m : Name) :
    (w.add a).child? i m =
      if i = a.dir ∧ m = a.name then some w.nodes.size else w.child? i m := by
  obtain ⟨n, d, hn, hb⟩ := directory?_of_fits h
  have hempty : ∀ d', a.node.body = .directory d' → d'.entries = [] := by
    intro d' hd'
    rcases a.isNew.body with ⟨d, hd, hentries⟩ | ⟨content, hc⟩
    · cases hd'.symm.trans hd
      exact hentries
    · cases hd'.symm.trans hc
  rw [add, if_pos h]
  exact child?_put (directory?_of_node hn hb) (child?_of_fits h) hempty i m

/-- Where names lead, they lead after an addition. -/
theorem trace_add_of_trace (h : a.fits w = true) (names : List Name) :
    ∀ {start i : Ino}, w.trace start names = some i → (w.add a).trace start names = some i := by
  induction names with
  | nil => exact fun hi => hi
  | cons n rest ih =>
      intro start i hi
      rw [trace] at hi ⊢
      cases hentry : w.child? start n with
      | none =>
          rw [hentry] at hi
          cases hi
      | some j =>
          rw [hentry] at hi
          have hne : ¬ (start = a.dir ∧ n = a.name) := by
            rintro ⟨rfl, rfl⟩
            rw [child?_of_fits h] at hentry
            cases hentry
          rw [child?_add h, if_neg hne, hentry]
          exact ih hi

/-- Where names lead after an addition, they led before, or they lead to
the new file. -/
theorem trace_add (h : a.fits w = true) (names : List Name) :
    ∀ {start i : Ino}, w.OpenBelow start → (w.add a).trace start names = some i →
      w.trace start names = some i
        ∨ i = w.nodes.size
          ∧ ∃ front, names = front ++ [a.name] ∧ w.trace start front = some a.dir := by
  induction names with
  | nil => exact fun _ hi => Or.inl hi
  | cons n rest ih =>
      intro start i hopen hi
      rw [trace, child?_add h] at hi
      by_cases hnew : start = a.dir ∧ n = a.name
      · obtain ⟨rfl, rfl⟩ := hnew
        rw [if_pos ⟨rfl, rfl⟩] at hi
        cases rest with
        | nil => exact Or.inr ⟨(Option.some.inj hi).symm, [], rfl, rfl⟩
        | cons m rest =>
            -- the new file has no entries
            exfalso
            have hlt : a.dir < w.nodes.size := hopen.lt_size
            have hnone : w.nodes[w.nodes.size]? = none := Array.getElem?_size
            have hne : ¬ (w.nodes.size = a.dir ∧ m = a.name) :=
              fun hc => Nat.ne_of_gt hlt hc.1
            simp only [trace, child?_add h, if_neg hne] at hi
            simp [child?, directory?, body?] at hi
      · rw [if_neg hnew] at hi
        rw [trace]
        cases hentry : w.child? start n with
        | none =>
            rw [hentry] at hi
            cases hi
        | some j =>
            rw [hentry] at hi
            rcases ih (hopen.of_entry hentry) hi with hold | ⟨rfl, front, hnames, hdir⟩
            · exact Or.inl hold
            · refine Or.inr ⟨rfl, n :: front, by rw [hnames]; rfl, ?_⟩
              rw [trace, hentry]
              exact hdir

/-- An addition leaves a file what it was, and open. -/
theorem isOpen_add (h : a.fits w = true) {i : Ino} {n : Node} (hn : w.nodes[i]? = some n)
    (hopen : n.IsOpen) :
    ∃ n', (w.add a).nodes[i]? = some n' ∧ n'.IsOpen
      ∧ n'.body.fileType = n.body.fileType := by
  have hlt : i < w.nodes.size := (Array.getElem?_eq_some_iff.1 hn).1
  rw [nodes_add h, if_neg (Nat.ne_of_lt hlt), hn]
  by_cases hd : i = a.dir
  · rw [if_pos hd]
    exact ⟨_, rfl, hopen.withEntry _ _, n.fileType_withEntry _ _⟩
  · rw [if_neg hd]
    exact ⟨n, rfl, hopen, rfl⟩

-- ============================================================= extensions

/-- A world that is another one with more files in it, as far as names
lead from a directory: all that is there is open, and what was there
before is there still and is of the same kind. -/
structure Extends (start : Ino) (w w' : World) : Prop where
  cwd_eq : w'.cwd = w.cwd
  mask_eq : w'.mask = w.mask
  openBelow : w'.OpenBelow start
  trace : ∀ {names i}, w.trace start names = some i →
    w'.trace start names = some i ∧ w'.isDirectory i = w.isDirectory i

theorem Extends.refl {start : Ino} (h : w.OpenBelow start) : Extends start w w :=
  ⟨rfl, rfl, h, fun ht => ⟨ht, rfl⟩⟩

theorem Extends.trans {start : Ino} {u v : World} (h : Extends start w u)
    (h' : Extends start u v) : Extends start w v := by
  refine ⟨h'.cwd_eq.trans h.cwd_eq, h'.mask_eq.trans h.mask_eq, h'.openBelow, fun ht => ?_⟩
  obtain ⟨hu, hdir⟩ := h.trace ht
  obtain ⟨hv, hdir'⟩ := h'.trace hu
  exact ⟨hv, hdir'.trans hdir⟩

/-- An addition extends a world. -/
theorem OpenBelow.extends_add {start : Ino} (h : w.OpenBelow start) (a : Addition) :
    Extends start w (w.add a) := by
  by_cases hfits : a.fits w = true
  case neg =>
    rw [add, if_neg hfits]
    exact Extends.refl h
  case pos =>
    refine ⟨?_, ?_, fun names i hi => ?_, fun {names i} hi => ?_⟩
    · rw [add, if_pos hfits]
      rfl
    · rw [add, if_pos hfits]
      rfl
    · rcases trace_add hfits names h hi with hold | ⟨rfl, -⟩
      · obtain ⟨n, hn, hopen⟩ := h names i hold
        obtain ⟨n', hn', hopen', -⟩ := isOpen_add hfits hn hopen
        exact ⟨n', hn', hopen'⟩
      · exact ⟨a.node, by rw [nodes_add hfits, if_pos rfl], a.isNew.isOpen⟩
    · obtain ⟨n, hn, hopen⟩ := h names i hi
      obtain ⟨n', hn', -, htype⟩ := isOpen_add hfits hn hopen
      refine ⟨trace_add_of_trace hfits names hi, ?_⟩
      rw [isDirectory_eq hn', isDirectory_eq hn, htype]

-- ============================================================ obstruction

/-- Something on the way along a path, or at its end, is no directory. -/
def Obstructed (w : World) (p : Path) : Prop :=
  ∃ names i, names <+: p.components ∧ w.trace (startOf w.cwd p) names = some i
    ∧ w.isDirectory i = false

end World

/-- Whether an addition to a world puts something on the way along a path,
or at its end, that is no directory. -/
def Addition.Blocks (a : Addition) (w : World) (p : Path) : Prop :=
  a.fits w = true ∧ a.node.body.fileType ≠ .directory
    ∧ ∃ front, front ++ [a.name] <+: p.components
      ∧ w.trace (World.startOf w.cwd p) front = some a.dir

namespace World

variable {w : World} {a : Addition} {p : Path}

/-- A path that an addition leaves obstructed was so before, or the
addition blocks it. -/
theorem obstructed_add (h : w.OpenBelow (startOf w.cwd p)) (hobs : (w.add a).Obstructed p) :
    w.Obstructed p ∨ a.Blocks w p := by
  by_cases hfits : a.fits w = true
  case neg =>
    rw [add, if_neg hfits] at hobs
    exact Or.inl hobs
  case pos =>
    obtain ⟨names, i, hnames, hi, hdir⟩ := hobs
    rw [(h.extends_add a).cwd_eq] at hi
    rcases trace_add hfits names h hi with hold | ⟨rfl, front, rfl, hfront⟩
    · refine Or.inl ⟨names, i, hnames, hold, ?_⟩
      rw [← ((h.extends_add a).trace hold).2]
      exact hdir
    · refine Or.inr ⟨hfits, fun htype => ?_, front, hnames, hfront⟩
      rw [isDirectory_eq (by rw [nodes_add hfits, if_pos rfl]), htype] at hdir
      cases hdir

/-- Makes additions in a row. -/
def addAll (w : World) : List Addition → World
  | [] => w
  | a :: rest => (w.add a).addAll rest

/-- The additions in a row, each with the world in which it is made. -/
def additions (w : World) : List Addition → List (World × Addition)
  | [] => []
  | a :: rest => (w, a) :: (w.add a).additions rest

/-- Additions extend a world. -/
theorem OpenBelow.extends_addAll {start : Ino} (as : List Addition) :
    ∀ {w : World}, w.OpenBelow start → Extends start w (w.addAll as) := by
  induction as with
  | nil => exact fun h => Extends.refl h
  | cons a rest ih =>
      intro w h
      have hadd := h.extends_add a
      exact hadd.trans (ih hadd.openBelow)

/-- A path that additions leave obstructed was so before, or one of them
blocks it. -/
theorem obstructed_addAll (as : List Addition) :
    ∀ {w : World}, w.OpenBelow (startOf w.cwd p) → (w.addAll as).Obstructed p →
      w.Obstructed p ∨ ∃ x ∈ w.additions as, x.2.Blocks x.1 p := by
  induction as with
  | nil => exact fun _ hobs => Or.inl hobs
  | cons a rest ih =>
      intro w h hobs
      have hadd := h.extends_add a
      have hopen : (w.add a).OpenBelow (startOf (w.add a).cwd p) := by
        rw [hadd.cwd_eq]
        exact hadd.openBelow
      rcases ih hopen hobs with hobs | ⟨x, hx, hblocks⟩
      · rcases obstructed_add h hobs with hobs | hblocks
        · exact Or.inl hobs
        · exact Or.inr ⟨(w, a), List.mem_cons_self .., hblocks⟩
      · exact Or.inr ⟨x, List.mem_cons_of_mem _ hx, hblocks⟩

end World
end PosixFiles
