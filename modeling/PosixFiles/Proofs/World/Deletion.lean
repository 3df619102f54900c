/-
What deleting makes of a path.

After a deletion the path leads to nothing (`file_of_remove_ok`): the world
has faded, and the last component of the path means nothing any more.

A deletion that is refused because an entry is missing, or because
something is no directory, says the same of the path, whether or not links
are followed (`file_of_remove_error`). There is one exception. A slash after
a link is refused as one after a file is, for what is to be deleted would be
the link, and that is no directory (`EndsAtLink`). But whoever looks at such
a path follows the link.
-/
import PosixFiles.Proofs.World.Fading

namespace PosixFiles.World

variable {w w' : World} {dir i : Ino} {n : Name} {names : List Name} {p : Path}
  {r : Nat × Ino} {e : Refusal}

-- ============================================================== one step

/-- Deletes what a name in a directory stands for. A slash after the name
is only good for a directory. -/
def removeEntry (w : World) (dir : Ino) (n : Name) (i : Ino) (slash : Bool) :
    Except Refusal World :=
  match w.directory? i with
  | some d => do
      w.mayEdit dir
      if d.entries ≠ [] then .error .notEmpty else .ok ((w.leave dir n).retire i)
  | none =>
      if slash then .error .notDirectory
      else do
        w.mayEdit dir
        .ok ((w.leave dir n).modify i fun f => { f with ctime := w.now })

theorem mayEdit_cases (w : World) (dir : Ino) :
    w.mayEdit dir = .ok () ∨ w.mayEdit dir = .error .denied := by
  unfold mayEdit
  split
  · exact Or.inl rfl
  · exact Or.inr rfl

theorem remove_of_spot_error (h : w.spot p = .error e) : w.remove p = .error e := by
  have hunlink : w.unlink p = .error e := by
    rw [unlink, h]
    rfl
  have hrmdir : w.rmdir p = .error e := by
    rw [rmdir, h]
    rfl
  rw [remove, hunlink, hrmdir]
  cases e <;> rfl

/-- Deleting at a spot that is no name of the directory itself or the one
above, in one step. -/
theorem remove_of_spot {slash : Bool} (hspot : w.spot p = .ok ⟨dir, some n, slash⟩)
    (hn : n.isDots = false) :
    w.remove p =
      match w.lookup dir n with
      | .error e => .error e
      | .ok none => .error .noEntry
      | .ok (some i) => w.removeEntry dir n i slash := by
  have hne := hn
  simp only [Name.isDots, Bool.or_eq_false_iff, beq_eq_false_iff_ne] at hne
  have hfound : w.lookup dir n = .ok none ∨ (∃ e, w.lookup dir n = .error e)
      ∨ ∃ i, w.lookup dir n = .ok (some i) := by
    cases w.lookup dir n with
    | error e => exact Or.inr (Or.inl ⟨e, rfl⟩)
    | ok found =>
        cases found with
        | none => exact Or.inl rfl
        | some i => exact Or.inr (Or.inr ⟨i, rfl⟩)
  -- by equations: the two calls made in turn look the name up twice
  rcases hfound with hl | ⟨e, hl⟩ | ⟨i, hl⟩
  · simp only [remove, unlink, hspot, bind, Except.bind, hn, hl, Bool.false_eq_true, ↓reduceIte]
  · simp only [remove, unlink, rmdir, hspot, bind, Except.bind, hn, hl, hne.1, hne.2,
      Bool.false_eq_true, ↓reduceIte]
    cases e <;> rfl
  · have hedit := mayEdit_cases w dir
    simp only [remove, unlink, rmdir, removeEntry, hspot, bind, Except.bind, hn, hl, hne.1,
      hne.2, Bool.false_eq_true, ↓reduceIte]
    cases hdir : w.isDirectory i with
    | false =>
        have hd := Option.not_isSome_iff_eq_none.1 (Bool.eq_false_iff.1 hdir)
        rw [hd]
        cases slash with
        | true => rfl
        | false => rcases hedit with h | h <;> rw [h] <;> rfl
    | true =>
        obtain ⟨d, hd⟩ := Option.isSome_iff_exists.1 hdir
        rw [hd]
        cases slash with
        | true => rfl
        | false => rcases hedit with h | h <;> rw [h] <;> rfl

/-- The names of a directory itself and of the one above are never deleted,
and neither is the root. -/
theorem remove_of_not_entry {last : Option Name} {slash : Bool}
    (hspot : w.spot p = .ok ⟨dir, last, slash⟩) (hlast : ∀ n ∈ last, n.isDots = true) :
    ∃ e, w.remove p = .error e ∧ e ≠ .noEntry ∧ e ≠ .notDirectory := by
  cases last with
  | none =>
      refine ⟨.busy, ?_, by decide, by decide⟩
      rw [remove, unlink, rmdir, hspot]
      rfl
  | some n =>
      have hn := hlast n rfl
      have hremove : w.remove p = w.rmdir p := by
        rw [remove, unlink, hspot]
        simp only [bind, Except.bind, hn, ↓reduceIte]
      rw [hremove, rmdir, hspot]
      simp only [bind, Except.bind]
      by_cases hup : n = Name.parent
      · exact ⟨.notEmpty, if_pos hup, by decide, by decide⟩
      · have hself : n = Name.self := by
          simp only [Name.isDots, Bool.or_eq_true, beq_iff_eq] at hn
          exact hn.resolve_right hup
        rw [if_neg hup, if_pos hself]
        exact ⟨.invalid, rfl, by decide, by decide⟩

-- ========================================================== what is left

/-- What deleting an entry does: the name is taken out, and an empty directory
is marked as deleted, any other file as changed. -/
theorem of_removeEntry_ok {slash : Bool} (h : w.removeEntry dir n i slash = .ok w') :
    (∃ d, w.directory? i = some d ∧ d.entries = [] ∧ w' = (w.leave dir n).retire i)
      ∨ w.directory? i = none
        ∧ w' = (w.leave dir n).modify i fun f => { f with ctime := w.now } := by
  unfold removeEntry at h
  cases hd : w.directory? i with
  | some d =>
      rw [hd] at h
      cases hedit : w.mayEdit dir with
      | error e => simp [hedit, bind, Except.bind] at h
      | ok u =>
          simp only [hedit, bind, Except.bind] at h
          split at h
          · cases h
          next hempty =>
            cases h
            exact Or.inl ⟨d, rfl, Decidable.not_not.1 hempty, rfl⟩
  | none =>
      rw [hd] at h
      dsimp only at h
      split at h
      · cases h
      cases hedit : w.mayEdit dir with
      | error e => simp [hedit, bind, Except.bind] at h
      | ok u =>
          simp only [hedit, bind, Except.bind] at h
          cases h
          exact Or.inr ⟨rfl, rfl⟩

/-- What is deleted at a name means nothing there. -/
theorem removeEntry_ok {slash : Bool} (hn : n.isDots = false)
    (hl : w.lookup dir n = .ok (some i)) (h : w.removeEntry dir n i slash = .ok w') :
    Fades w w' ∧ IsAbsent (w'.lookup dir n) := by
  have hleave : Fades w (w.leave dir n) := fades_leave dir n
  have habsent := isAbsent_leave hn hl
  have hlater : Fades (w.leave dir n) w' := by
    rcases of_removeEntry_ok h with ⟨d, -, -, rfl⟩ | ⟨-, rfl⟩
    · exact fades_retire i
    · exact fades_modify fun a _ => ⟨rfl, rfl, Or.inl rfl⟩
  exact ⟨hleave.trans hlater, hlater.isAbsent habsent⟩

/-- Deleting what a name stands for finds something that is no directory
only where a slash demands one. -/
theorem removeEntry_error {slash : Bool} (h : w.removeEntry dir n i slash = .error e)
    (he : e = .noEntry ∨ e = .notDirectory) :
    e = .notDirectory ∧ slash = true ∧ w.isDirectory i = false := by
  have hedit := mayEdit_cases w dir
  unfold removeEntry at h
  cases hd : w.directory? i with
  | some d =>
      rw [hd] at h
      rcases hedit with hedit | hedit
      · simp only [hedit, bind, Except.bind] at h
        split at h <;> cases h
        rcases he with he | he <;> cases he
      · simp only [hedit, bind, Except.bind] at h
        cases h
        rcases he with he | he <;> cases he
  | none =>
      rw [hd] at h
      dsimp only at h
      have hdir : w.isDirectory i = false := by
        rw [isDirectory, hd]
        rfl
      split at h
      next hslash =>
        cases h
        exact ⟨rfl, hslash, hdir⟩
      next =>
        rcases hedit with hedit | hedit
        · simp only [hedit, bind, Except.bind] at h
          cases h
        · simp only [hedit, bind, Except.bind] at h
          cases h
          rcases he with he | he <;> cases he

/-- A path with a slash after a link. -/
def EndsAtLink (w : World) (p : Path) : Prop :=
  ∃ dir n i target, w.spot p = .ok ⟨dir, some n, true⟩ ∧ n.isDots = false
    ∧ w.lookup dir n = .ok (some i) ∧ w.body? i = some (.symlink target)

/-- What deleting comes to: a refusal that says of the path what a look at
it would, a refusal that says something else, or the deletion of an
entry. -/
theorem remove_cases (w : World) (p : Path) :
    (∃ e, w.remove p = .error e ∧ ∀ follow, w.file follow p = .error e)
      ∨ (∃ e, w.remove p = .error e ∧ e ≠ .noEntry ∧ e ≠ .notDirectory)
      ∨ ∃ names n r i, Splits p names [n] ∧ w.passage p names = .ok r
        ∧ w.allows r.2 .search = true ∧ w.spot p = .ok ⟨r.2, some n, p.endsInSlash⟩
        ∧ n.isDots = false ∧ w.lookup r.2 n = .ok (some i)
        ∧ w.remove p = w.removeEntry r.2 n i p.endsInSlash := by
  rcases spot_cases w p with ⟨e, hspot, hfile⟩ | ⟨dir, slash, hspot⟩
    | ⟨names, n, r, hp, hpass, hs, hspot⟩
  · exact Or.inl ⟨e, remove_of_spot_error hspot, hfile⟩
  · exact Or.inr (Or.inl (remove_of_not_entry hspot nofun))
  cases hn : n.isDots with
  | true => exact Or.inr (Or.inl (remove_of_not_entry hspot (by simp [hn])))
  | false =>
      have hremove := remove_of_spot hspot hn
      have hfile := file_of_not_link hp hpass hs
      cases hl : w.lookup r.2 n with
      | error e =>
          rw [hl] at hremove hfile
          exact Or.inl ⟨e, hremove, hfile nofun⟩
      | ok found =>
          rw [hl] at hremove hfile
          cases found with
          | none => exact Or.inl ⟨.noEntry, hremove, hfile nofun⟩
          | some i =>
              exact Or.inr (Or.inr ⟨names, n, r, i, hp, hpass, hs, hspot, hn, hl, hremove⟩)

/-- After a deletion the path leads to nothing. -/
theorem file_of_remove_ok (h : w.remove p = .ok w') (follow : Bool) :
    w'.file follow p = .error .noEntry := by
  rcases remove_cases w p with ⟨e, he, -⟩ | ⟨e, he, -⟩
    | ⟨names, n, r, i, hp, hpass, hs, -, hn, hl, hremove⟩
  · rw [h] at he
    cases he
  · rw [h] at he
    cases he
  · rw [h] at hremove
    obtain ⟨hfades, habsent⟩ := removeEntry_ok hn hl hremove.symm
    exact file_of_fades hfades hp hpass hs habsent follow

/-- Where a deletion is refused because nothing is there, nothing is there
for whoever looks, unless a slash comes after a link. -/
theorem file_of_remove_error (h : w.remove p = .error e)
    (he : e = .noEntry ∨ e = .notDirectory) :
    (∀ follow, w.file follow p = .error e) ∨ e = .notDirectory ∧ w.EndsAtLink p := by
  rcases remove_cases w p with ⟨e', he', hfile⟩ | ⟨e', he', hne, hne'⟩
    | ⟨names, n, r, i, hp, hpass, hs, hspot, hn, hl, hremove⟩
  · cases h.symm.trans he'
    exact Or.inl hfile
  · cases h.symm.trans he'
    exact absurd he (by simp [hne, hne'])
  · rw [h] at hremove
    obtain ⟨rfl, hslash, hdir⟩ := removeEntry_error hremove.symm he
    by_cases hlink : ∃ target, w.body? i = some (.symlink target)
    · obtain ⟨target, htarget⟩ := hlink
      rw [hslash] at hspot
      exact Or.inr ⟨rfl, r.2, n, i, target, hspot, hn, hl, htarget⟩
    · left
      intro follow
      rw [file_of_not_link hp hpass hs (fun j target hj hb => ?_) follow, hl]
      · simp [hslash, hdir]
      · rw [hl] at hj
        cases hj
        exact hlink ⟨target, hb⟩

/-- A slash after a link keeps anything from being deleted. -/
theorem remove_of_endsAtLink (h : w.EndsAtLink p) : w.remove p = .error .notDirectory := by
  obtain ⟨dir, n, i, target, hspot, hn, hl, hb⟩ := h
  have hdir : w.directory? i = none := by
    rw [directory?, hb]
  rw [remove_of_spot hspot hn, hl]
  dsimp only
  rw [removeEntry, hdir]
  rfl

end PosixFiles.World
