/-
Worlds that differ in one entry.

Deleting takes one entry out of a directory, and creating a directory puts
one in. What else changes is told file by file, so that nothing is left
open (`World.LosesEntry`, `World.GetsDirectory`).

A deletion may change the way that its own path leads: what was deleted may
stand in the middle of the path as well, or in the target of a link on the
way. The same deletion made once more finds nothing all the same
(`unlink_again`, `remove_again`), since a world that has lost an entry has
faded, and a walk in it goes as before until it misses an entry. A creation
only adds to what a walk finds, so made once more it comes to the directory
that it created (`mkdir_again`).
-/
import PosixFiles.Proofs.World.Creation
import PosixFiles.Proofs.World.Deletion

namespace PosixFiles

-- ============================================================== one entry

/-- A directory without the entries of one name; any other file as it is. -/
def Node.withoutEntry (a : Node) (n : Name) (now : Timespec) : Node :=
  match a.body with
  | .directory d =>
      { a with body := .directory { d with entries := d.entries.filter fun e => e.1 ≠ n }
               mtime := now, ctime := now }
  | _ => a

/-- A file that has lost a name. A directory has only one, and is marked as
deleted. -/
def Node.unnamed (a : Node) (now : Timespec) : Node :=
  match a.body with
  | .directory d => { a with body := .directory { d with deleted := true }, ctime := now }
  | _ => { a with ctime := now }

/-- Where no name stands twice, taking out a name takes out one entry. -/
theorem exists_of_lookup_some {entries : List (Name × Ino)} {n : Name} {i : Ino}
    (h : entries.lookup n = some i) (hnodup : (entries.map Prod.fst).Nodup) :
    ∃ front back, entries = front ++ (n, i) :: back
      ∧ (entries.filter fun e => e.1 ≠ n) = front ++ back := by
  obtain ⟨front, back, rfl, hfront⟩ := List.lookup_eq_some_iff.1 h
  refine ⟨front, back, rfl, ?_⟩
  rw [List.map_append, List.map_cons, List.nodup_append, List.nodup_cons] at hnodup
  have hback : ∀ e ∈ back, e.1 ≠ n := fun e he hn =>
    hnodup.2.1.1 (List.mem_map.2 ⟨e, he, hn⟩)
  have hfront' : ∀ e ∈ front, e.1 ≠ n := fun e he hn => by
    simpa [hn] using hfront e he
  rw [List.filter_append, List.filter_cons_of_neg (by simp)]
  rw [List.filter_eq_self.2 fun e he => by simpa using hfront' e he,
    List.filter_eq_self.2 fun e he => by simpa using hback e he]

namespace World

/-- A world without the entry that a path leads to: a name in a directory,
and the file that it names, which is an empty directory if it is one.
Everything else is as before. -/
structure LosesEntry (p : Path) (w w' : World) (dir : Ino) (n : Name) (i : Ino) : Prop where
  spot_eq : w.spot p = .ok ⟨dir, some n, p.endsInSlash⟩
  entry : w.child? dir n = some i
  isEmpty : ∀ d, w.directory? i = some d → d.entries = []
  /-- The entry is gone, and all others name what they did. -/
  child?_eq : ∀ j m, w'.child? j m = if j = dir ∧ m = n then none else w.child? j m
  /-- A directory in which no name stands twice has just one entry less. -/
  entries : ∀ d, w.directory? dir = some d → (d.entries.map Prod.fst).Nodup →
    ∃ front back, d.entries = front ++ (n, i) :: back
      ∧ w'.directory? dir = some { d with entries := front ++ back }
  /-- The files are those that there were, but for the directory and the
  file that has lost the name. -/
  nodes_eq : ∀ j : Ino, w'.nodes[j]? =
    if j = dir then (w.nodes[j]?).map (·.withoutEntry n w.now)
    else if j = i then (w.nodes[j]?).map (·.unnamed w.now)
    else w.nodes[j]?
  rest_eq : w' = { w with nodes := w'.nodes }

/-- A world with one more file: an empty directory under a name that was
free in the directory that a path leads to. Everything else is as before. -/
structure GetsDirectory (p : Path) (mode : UInt32) (w w' : World) (dir : Ino) (n : Name) :
    Prop where
  spot_eq : w.spot p = .ok ⟨dir, some n, p.endsInSlash⟩
  free : w.child? dir n = none
  /-- There is an entry for the new file, and all others name what they
  did. -/
  child?_eq : ∀ j m, w'.child? j m =
    if j = dir ∧ m = n then some w.nodes.size else w.child? j m
  isEmpty : w'.directory? w.nodes.size = some { parent := dir }
  file_eq : ∀ follow, w'.file follow p = .ok w.nodes.size
  /-- The files are those that there were, but for the directory, and the
  new one. -/
  nodes_eq : ∀ j : Ino, w'.nodes[j]? =
    if j = w.nodes.size then some (w.newDirectory dir mode)
    else if j = dir then (w.nodes[j]?).map (·.withEntry (n, w.nodes.size) w.now)
    else w.nodes[j]?
  rest_eq : w' = { w with nodes := w'.nodes }

variable {w w' : World} {dir i : Ino} {n : Name} {names : List Name} {p : Path}
  {r : Nat × Ino} {e : Refusal} {mode : UInt32}

theorem LosesEntry.ne (h : LosesEntry p w w' dir n i) : w' ≠ w := by
  intro heq
  have hgone := h.child?_eq dir n
  rw [if_pos ⟨rfl, rfl⟩, heq, h.entry] at hgone
  cases hgone

theorem GetsDirectory.ne (h : GetsDirectory p mode w w' dir n) : w' ≠ w := by
  intro heq
  have hnew := h.child?_eq dir n
  rw [if_pos ⟨rfl, rfl⟩, heq, h.free] at hnew
  cases hnew

-- =============================================================== deleting

/-- What an ordinary name means is what the entries of a directory say. -/
theorem of_lookup_some (hn : n.isDots = false) (h : w.lookup dir n = .ok (some i)) :
    ∃ d, w.directory? dir = some d ∧ d.entries.lookup n = some i := by
  simp only [Name.isDots, Bool.or_eq_false_iff, beq_eq_false_iff_ne] at hn
  obtain ⟨d, hd⟩ := directory?_of_lookup_some hn.1 h
  refine ⟨d, hd, ?_⟩
  unfold lookup at h
  rw [if_neg hn.1, if_neg hn.2, hd] at h
  split at h
  · cases h
  split at h
  · cases h
  · exact Except.ok.inj h

/-- The files after a name was taken out of a directory, and the file that it
named was changed. -/
theorem nodes_leave_modify (hne : i ≠ dir) {f : Node → Node}
    (hf : ∀ a, w.nodes[i]? = some a → f a = a.unnamed w.now) (j : Ino) :
    ((w.leave dir n).modify i f).nodes[j]? =
      if j = dir then (w.nodes[j]?).map (·.withoutEntry n w.now)
      else if j = i then (w.nodes[j]?).map (·.unnamed w.now)
      else w.nodes[j]? := by
  have hleave : (w.leave dir n).nodes[j]? =
      if dir = j then (w.nodes[j]?).map (·.withoutEntry n w.now) else w.nodes[j]? :=
    nodes_modify dir j _
  rw [nodes_modify, hleave]
  by_cases hi : i = j
  · subst hi
    rw [if_pos rfl, if_neg (Ne.symm hne), if_neg hne, if_pos rfl]
    cases ha : w.nodes[i]? with
    | none => rfl
    | some a => exact congrArg some (hf a ha)
  · rw [if_neg hi, if_neg (Ne.symm hi)]
    by_cases hd : dir = j
    · rw [if_pos hd, if_pos hd.symm]
    · rw [if_neg hd, if_neg (Ne.symm hd)]

/-- The files after an entry was deleted, whether that was of a directory or
of another file. -/
theorem nodes_of_removeEntry {slash : Bool} (hne : i ≠ dir)
    (h : w.removeEntry dir n i slash = .ok w') (j : Ino) :
    w'.nodes[j]? =
      if j = dir then (w.nodes[j]?).map (·.withoutEntry n w.now)
      else if j = i then (w.nodes[j]?).map (·.unnamed w.now)
      else w.nodes[j]? := by
  rcases of_removeEntry_ok h with ⟨d, hd, -, rfl⟩ | ⟨hd, rfl⟩
  · refine nodes_leave_modify hne (fun a ha => ?_) j
    obtain ⟨b, hb, hbody⟩ := exists_node_of_directory? hd
    cases ha.symm.trans hb
    simp only [Node.unnamed, hbody]
    rfl
  · refine nodes_leave_modify hne (fun a ha => ?_) j
    cases hbody : a.body with
    | directory d =>
        rw [directory?_of_node ha hbody] at hd
        cases hd
    | _ => simp [Node.unnamed, hbody]

/-- Deleting the file that a name stands for takes out the entry. -/
theorem losesEntry_of_removeEntry (hspot : w.spot p = .ok ⟨dir, some n, p.endsInSlash⟩)
    (hn : n.isDots = false) (hl : w.lookup dir n = .ok (some i))
    (h : w.removeEntry dir n i p.endsInSlash = .ok w') : LosesEntry p w w' dir n i := by
  obtain ⟨d, hd, hentry⟩ := of_lookup_some hn hl
  obtain ⟨a, ha, hbody⟩ := exists_node_of_directory? hd
  have hempty : ∀ d', w.directory? i = some d' → d'.entries = [] := by
    intro d' hd'
    rcases of_removeEntry_ok h with ⟨d'', hd'', hnil, -⟩ | ⟨hnone, -⟩
    · cases hd'.symm.trans hd''
      exact hnil
    · cases hd'.symm.trans hnone
  -- a directory that names itself is not empty, so it is not deleted
  have hne : i ≠ dir := by
    rintro rfl
    rw [hempty d hd] at hentry
    cases hentry
  have hnodes := nodes_of_removeEntry hne h
  have hrest : w' = { w with nodes := w'.nodes } := by
    rcases of_removeEntry_ok h with ⟨-, -, -, rfl⟩ | ⟨-, rfl⟩ <;> rfl
  have hd' : w'.directory? dir
      = some { d with entries := d.entries.filter fun e => e.1 ≠ n } := by
    unfold directory? body?
    rw [hnodes dir, if_pos rfl, ha]
    simp only [Option.map_some, Node.withoutEntry, hbody]
  have hchild : w.child? dir n = some i := by
    rw [child?, hd]
    exact hentry
  refine ⟨hspot, hchild, hempty, fun j m => ?_, fun d₁ hd₁ hnodup => ?_, hnodes, hrest⟩
  · by_cases hj : j = dir
    · subst hj
      rw [child?, child?, hd, hd']
      dsimp only [Option.bind_some]
      rw [lookup_filter_ne]
      by_cases hm : m = n <;> simp [hm]
    · rw [if_neg fun hc => hj hc.1]
      have hnode := hnodes j
      rw [if_neg hj] at hnode
      unfold child? directory? body?
      by_cases hi : j = i
      · -- the entries of a file that has lost a name are as before
        rw [if_pos hi] at hnode
        rw [hnode]
        cases w.nodes[j]? with
        | none => rfl
        | some b => cases hb : b.body <;> simp [Node.unnamed, hb]
      · rw [if_neg hi] at hnode
        rw [hnode]
  · cases hd.symm.trans hd₁
    obtain ⟨front, back, heq, hfilter⟩ := exists_of_lookup_some hentry hnodup
    rw [hfilter] at hd'
    exact ⟨front, back, heq, hd'⟩

theorem losesEntry_of_remove (h : w.remove p = .ok w') :
    ∃ dir n i, LosesEntry p w w' dir n i := by
  rcases remove_cases w p with ⟨e, he, -⟩ | ⟨e, he, -⟩
    | ⟨names, n, r, i, -, -, -, hspot, hn, hl, hremove⟩
  · rw [h] at he
    cases he
  · rw [h] at he
    cases he
  · rw [h] at hremove
    exact ⟨r.2, n, i, losesEntry_of_removeEntry hspot hn hl hremove.symm⟩

/-- A file that is deleted as one that is no directory is deleted by the call
that deletes either. -/
theorem remove_of_unlink_ok (h : w.unlink p = .ok w') : w.remove p = .ok w' := by
  rw [remove, h]

theorem remove_of_unlink_noEntry (h : w.unlink p = .error .noEntry) :
    w.remove p = .error .noEntry := by
  rw [remove, h]

theorem unlink_of_spot_error (h : w.spot p = .error e) : w.unlink p = .error e := by
  rw [unlink, h]
  rfl

theorem unlink_of_isAbsent {slash : Bool} (hspot : w.spot p = .ok ⟨dir, some n, slash⟩)
    (hn : n.isDots = false) (h : IsAbsent (w.lookup dir n)) :
    w.unlink p = .error .noEntry := by
  rw [unlink, hspot]
  simp only [bind, Except.bind, hn, Bool.false_eq_true, ↓reduceIte]
  rcases h with h | h <;> rw [h]

/-- After a deletion there is nothing to delete at the path. -/
theorem unlink_of_remove_ok (h : w.remove p = .ok w') : w'.unlink p = .error .noEntry := by
  rcases remove_cases w p with ⟨e, he, -⟩ | ⟨e, he, -⟩
    | ⟨names, n, r, i, hp, hpass, hs, -, hn, hl, hremove⟩
  · rw [h] at he
    cases he
  · rw [h] at he
    cases he
  rw [h] at hremove
  obtain ⟨hfades, habsent⟩ := removeEntry_ok hn hl hremove.symm
  have hagain := hfades.pass linkMax (startOf w.cwd p) names
  rw [← passage, hpass, ← hfades.cwd_eq, ← passage] at hagain
  have hspot := spotFrom_of_splits hp (List.cons_ne_nil _ _) (w := w') fun _ => false
  rcases hagain with hpass' | hpass'
  · -- the way is the same, and the name means nothing
    rw [hpass'] at hspot
    change w'.spot p = w'.walk _ _ _ _ _ at hspot
    rw [walk_singleton_of_noFollow, if_pos ((hfades.allows_eq _ _).trans hs)] at hspot
    exact unlink_of_isAbsent hspot hn habsent
  · rw [hpass'] at hspot
    exact unlink_of_spot_error hspot

theorem remove_again (h : w.remove p = .ok w') : w'.remove p = .error .noEntry :=
  remove_of_unlink_noEntry (unlink_of_remove_ok h)

theorem unlink_again (h : w.unlink p = .ok w') : w'.unlink p = .error .noEntry :=
  unlink_of_remove_ok (remove_of_unlink_ok h)

/-- Where there is nothing to delete, the path leads to nothing. -/
theorem file_of_unlink_noEntry (h : w.unlink p = .error .noEntry) (follow : Bool) :
    w.file follow p = .error .noEntry := by
  rcases file_of_remove_error (remove_of_unlink_noEntry h) (.inl rfl) with hfile | ⟨hne, -⟩
  · exact hfile follow
  · cases hne

-- =============================================================== creating

/-- A free name is that of no entry. -/
theorem child?_of_lookup_none {d : Directory} (hd : w.directory? dir = some d)
    (hn : n.isDots = false) (h : w.lookup dir n = .ok none) : w.child? dir n = none := by
  rw [child?, hd]
  exact (of_lookup_none hd hn h).2.2

/-- Creating a directory puts in one entry, for an empty directory. -/
theorem getsDirectory_of_mkdir (hroot : w.isDirectory root = true)
    (hcwd : w.isDirectory w.cwd = true) (h : w.mkdir p mode = .ok w') :
    ∃ dir n, GetsDirectory p mode w w' dir n := by
  obtain ⟨dir, n, hvacancy, rfl⟩ := exists_of_mkdir_ok h
  obtain ⟨names, links, hp, hpass, hs, hn, hfree, -⟩ := of_vacancy_ok hvacancy
  obtain ⟨d, hd⟩ := Option.isSome_iff_exists.1 (isDirectory_of_passage hroot hcwd hpass)
  obtain ⟨a, ha, hbody⟩ := exists_node_of_directory? hd
  have hlt : dir < w.nodes.size := (Array.getElem?_eq_some_iff.1 ha).1
  have hchild := child?_of_lookup_none hd hn hfree
  have hnew := nodes_put_size hlt n (w.newDirectory dir mode)
  have hsight : w.sight dir n = .ok none := by
    rw [sight, if_pos hs, hfree]
  have hempty : ∀ d', (w.newDirectory dir mode).body = .directory d' → d'.entries = [] := by
    intro d' hd'
    cases hd'
    rfl
  exact ⟨dir, n, spot_of_sight_ok hp hpass hsight, hchild, child?_put hd hchild hempty,
    directory?_of_node hnew rfl, file_put hp hpass hs hd hn hfree rfl, nodes_put hlt n _, rfl⟩

/-- A directory that was created is there when it is to be created once
more. -/
theorem mkdir_again (hroot : w.isDirectory root = true) (hcwd : w.isDirectory w.cwd = true)
    (h : w.mkdir p mode = .ok w') : w'.mkdir p mode = .error .exists := by
  obtain ⟨dir, n, hvacancy, -⟩ := exists_of_mkdir_ok h
  obtain ⟨names, links, hp, -⟩ := of_vacancy_ok hvacancy
  obtain ⟨dir, n, hgets⟩ := getsDirectory_of_mkdir hroot hcwd h
  have hc : p.components ≠ [] := by
    rw [hp.components_eq]
    exact List.append_ne_nil_of_right_ne_nil _ (List.cons_ne_nil _ _)
  exact mkdir_of_file_ok (.refl hp.ne_nil hp.length_lt hc) hp.length_lt (hgets.file_eq true) mode

end World
end PosixFiles
