/-
The entries of a directory, and what a look at one of them shows.

`World.Lists` is a directory as file systems keep them and as the process
may read it: no name stands there twice, every name is one that a path may
have as a component, every entry names a file, and a deleted directory is
empty. A look at an entry of it finds just the file that the entry names,
unless the look follows links and the file is one (`statusFrom_entry`); so
what the look shows and what the directory hints at are the same
(`typeOfEntry_of_hint`), as long as links are not followed.
-/
import PosixFiles.Operation.Listing
import PosixFiles.Proofs.World.Open

namespace PosixFiles

/-- A name that stands alone as a component of a path, and is not one of
the two that every directory lists. -/
structure Name.IsComponent (n : Name) : Prop where
  ne_nil : n ≠ []
  slash_not_mem : Bytes.slash ∉ n
  isOrdinary : n.IsOrdinary

theorem Name.isComponent_iff {n : Name} :
    n.IsComponent ↔ n ≠ [] ∧ Bytes.slash ∉ n ∧ n.isDots = false ∧ n.length ≤ nameMax :=
  ⟨fun h => ⟨h.ne_nil, h.slash_not_mem, h.isOrdinary.isDots_eq, h.isOrdinary.length_le⟩,
    fun h => ⟨h.1, h.2.1, h.2.2.1, h.2.2.2⟩⟩

instance (n : Name) : Decidable n.IsComponent :=
  decidable_of_iff _ Name.isComponent_iff.symm

/-- What the type of a file is in a listing. -/
def EntryType.ofFileType : FileType → EntryType
  | .regular => .regular
  | .directory => .directory
  | .symlink => .symlink
  | _ => .unknown

namespace World

/-- A directory of which the process may list the entries and look at
them. -/
structure Lists (w : World) (i : Ino) (d : Directory) : Prop where
  directory?_eq : w.directory? i = some d
  readable : w.allows i .read = true
  searchable : w.allows i .search = true
  nodup : (d.entries.map Prod.fst).Nodup
  isComponent : ∀ e ∈ d.entries, e.1.IsComponent
  exists_file : ∀ e ∈ d.entries,
    ∃ node, w.nodes[e.2]? = some node ∧ node.permissions &&& FileType.mask = 0
  entries_eq_nil : d.deleted = true → d.entries = []

theorem lists_iff {w : World} {i : Ino} {d : Directory} :
    w.Lists i d ↔ w.directory? i = some d ∧ w.allows i .read = true
      ∧ w.allows i .search = true ∧ (d.entries.map Prod.fst).Nodup
      ∧ (∀ e ∈ d.entries, e.1.IsComponent)
      ∧ (∀ e ∈ d.entries,
          (w.nodes[e.2]?).any (fun node => node.permissions &&& FileType.mask = 0) = true)
      ∧ (d.deleted = true → d.entries = []) := by
  have hfile : ∀ e : Name × Ino,
      (w.nodes[e.2]?).any (fun node => node.permissions &&& FileType.mask = 0) = true
        ↔ ∃ node, w.nodes[e.2]? = some node ∧ node.permissions &&& FileType.mask = 0 := by
    intro e
    simp [Option.any_eq_true]
  constructor
  · intro h
    exact ⟨h.directory?_eq, h.readable, h.searchable, h.nodup, h.isComponent,
      fun e he => (hfile e).2 (h.exists_file e he), h.entries_eq_nil⟩
  · rintro ⟨hdir, hread, hsearch, hnodup, hnames, hfiles, hdeleted⟩
    exact ⟨hdir, hread, hsearch, hnodup, hnames,
      fun e he => (hfile e).1 (hfiles e he), hdeleted⟩

instance (w : World) (i : Ino) (d : Directory) : Decidable (w.Lists i d) :=
  decidable_of_iff _ lists_iff.symm

/-- The type that a look at an entry shows, links followed or not; nothing
is known of what cannot be looked at. -/
def shownType (w : World) (i : Ino) (follow : Bool) (n : Name) : EntryType :=
  match Session.statusFrom i follow n w with
  | .ok st => if !follow && st.isSymlink then .symlink else .ofStatus st
  | .error _ => .unknown

variable {w : World} {i : Ino} {d : Directory} {e : Name × Ino}

namespace Lists

theorem lookup_entries (h : w.Lists i d) (he : e ∈ d.entries) :
    d.entries.lookup e.1 = some e.2 := by
  have hnodup := h.nodup
  obtain ⟨front, back, hsplit⟩ := List.append_of_mem he
  rw [hsplit] at hnodup ⊢
  refine List.lookup_eq_some_iff.2 ⟨front, back, rfl, fun x hx => ?_⟩
  rw [List.map_append, List.nodup_append] at hnodup
  refine bne_iff_ne.2 fun heq => ?_
  exact hnodup.2.2 x.1 (List.mem_map_of_mem hx) e.1 (List.mem_cons_self ..) heq.symm

/-- Entries mean the files they name. -/
theorem sight_entry (h : w.Lists i d) (he : e ∈ d.entries) :
    w.sight i e.1 = .ok (some e.2) := by
  have hn := (h.isComponent e he).isOrdinary
  have hdeleted : d.deleted = false := by
    cases hd : d.deleted with
    | false => rfl
    | true =>
        rw [h.entries_eq_nil hd] at he
        cases he
  rw [sight, if_pos h.searchable,
    lookup_of_directory h.directory?_eq hn.isDots_eq hdeleted hn.length_le, h.lookup_entries he]

/-- A look at an entry ends at the entry, unless that is a link and the
look follows it. -/
theorem spotFrom_entry (h : w.Lists i d) (he : e ∈ d.entries) {node : Node}
    (hnode : w.nodes[e.2]? = some node) (follow : Bool)
    (hfollow : follow = true → node.body.fileType ≠ .symlink) :
    w.spotFrom i (follow || ·) e.1 = .ok ⟨i, some e.1, false⟩ := by
  have hn := h.isComponent e he
  have hlen : ¬ pathMax ≤ e.1.length := by
    have := hn.isOrdinary.length_le
    simp only [nameMax, pathMax] at this ⊢
    omega
  have hslash : Path.endsInSlash e.1 = false := by
    rw [Path.endsInSlash, beq_eq_false_iff_ne]
    exact fun hlast => hn.slash_not_mem (List.mem_of_getLast? hlast)
  have hstart : startOf i e.1 = i := by
    rw [startOf, if_neg]
    rw [Path.isAbsolute, beq_iff_eq]
    exact fun hhead => hn.slash_not_mem (List.mem_of_head? hhead)
  rw [spotFrom, if_neg hn.ne_nil, if_neg hlen, hslash, hstart,
    Path.components_of_name hn.ne_nil hn.slash_not_mem]
  cases follow with
  | true =>
      refine walk_singleton_of_sight_some (h.sight_entry he) ?_ (hfollow rfl)
      rw [body?, hnode]
  | false =>
      rw [walk_eq_advance]
      simp [advance, h.searchable]

/-- A look at an entry shows the file that the entry names, unless that is
a link and the look follows it. -/
theorem statusFrom_entry (h : w.Lists i d) (he : e ∈ d.entries) {node : Node}
    (hnode : w.nodes[e.2]? = some node) (follow : Bool)
    (hfollow : follow = true → node.body.fileType ≠ .symlink) :
    ∃ st, Session.statusFrom i follow e.1 w = .ok st ∧ st.fileType = node.body.fileType := by
  obtain ⟨node', hnode', hpermissions⟩ := h.exists_file e he
  rw [hnode] at hnode'
  cases hnode'
  have hfile : w.fileFrom i follow e.1 = .ok e.2 := by
    unfold fileFrom
    rw [h.spotFrom_entry he hnode follow hfollow]
    simp [bind, Except.bind, fileAt, lookup_of_sight_ok (h.sight_entry he)]
  obtain ⟨st, hst, hmode⟩ := exists_status_of_node hnode
  refine ⟨st, statusFrom_eq_ok_iff.2 ⟨e.2, hfile, hst⟩, ?_⟩
  rw [Status.fileType, hmode, ofMode_bits_or hpermissions]

/-- What a look at an entry shows where it does not follow links. -/
theorem shownType_entry (h : w.Lists i d) (he : e ∈ d.entries) {node : Node}
    (hnode : w.nodes[e.2]? = some node) :
    w.shownType i false e.1 = .ofFileType node.body.fileType := by
  obtain ⟨st, hst, htype⟩ := h.statusFrom_entry he hnode false nofun
  rw [shownType, hst]
  simp only [Status.isSymlink, EntryType.ofStatus, Status.isFile, Status.isDirectory, htype]
  cases node.body.fileType <;> rfl

/-- Whether links are followed makes a difference for links only. -/
theorem shownType_of_not_symlink (h : w.Lists i d) (he : e ∈ d.entries)
    (hlink : w.shownType i false e.1 ≠ .symlink) (follow : Bool) :
    w.shownType i follow e.1 = w.shownType i false e.1 := by
  cases follow with
  | false => rfl
  | true =>
      obtain ⟨node, hnode, -⟩ := h.exists_file e he
      have hnot : node.body.fileType ≠ .symlink := by
        intro htype
        rw [h.shownType_entry he hnode, htype] at hlink
        exact hlink rfl
      obtain ⟨st, hst, htype⟩ := h.statusFrom_entry he hnode true fun _ => hnot
      rw [h.shownType_entry he hnode, shownType, hst]
      simp only [Status.isSymlink, EntryType.ofStatus, Status.isFile, Status.isDirectory, htype]
      cases hbody : node.body.fileType <;> first | exact absurd hbody hnot | rfl

/-- A true hint settles the type, and it is the one that a look shows. -/
theorem typeOfEntry_of_hint {σ : Type} {S : System σ} (h : w.Lists i d) (he : e ∈ d.entries)
    (dir : Handle) :
    S.typeOfEntry dir ⟨e.1, w.hintOf e.2⟩ false = pure (w.shownType i false e.1) := by
  obtain ⟨node, hnode, -⟩ := h.exists_file e he
  have hbody : w.body? e.2 = some node.body := by
    rw [body?, hnode]
  rw [h.shownType_entry he hnode]
  unfold System.typeOfEntry hintOf
  rw [hbody]
  cases node.body <;> rfl

end Lists
end World
end PosixFiles
