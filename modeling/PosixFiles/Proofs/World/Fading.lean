/-
Worlds that fade.

Deleting takes a name out of a directory, and may mark a directory as
deleted. Each is a change to one file after which fewer names mean
something and everything else is as before (`Fades`). A passage along
components then goes the same way, or it comes to a name that means nothing
any more (`Fades.pass`); so once the last component of a path means
nothing, the path leads to nothing, whatever else has faded
(`file_of_fades`).
-/
import PosixFiles.Proofs.World.Arrival
import PosixFiles.Proofs.World.Growth
import PosixFiles.World.Delete

namespace PosixFiles

/-- A directory of which at most some names are gone, or which has been
deleted. -/
structure Directory.Fades (d d' : Directory) : Prop where
  parent_eq : d'.parent = d.parent
  entries : d'.deleted = true ∨ d'.deleted = d.deleted
    ∧ ∀ n, d'.entries.lookup n = d.entries.lookup n ∨ d'.entries.lookup n = none

/-- A file that is used as before, and that has faded if it is a
directory. -/
structure Node.Fades (a b : Node) : Prop where
  permissions_eq : b.permissions = a.permissions
  owned_eq : b.owned = a.owned
  body : b.body = a.body
    ∨ ∃ d d', a.body = .directory d ∧ b.body = .directory d' ∧ d.Fades d'

namespace World

/-- Where a walk turns at a file. -/
def Turn.at (i : Ino) : Option Body → Except Refusal Turn
  | some (.symlink target) => .ok (.link target)
  | some (.directory _) => .ok (.down i)
  | _ => .error .notDirectory

/-- That a name means nothing. -/
def IsAbsent (found : Except Refusal (Option Ino)) : Prop :=
  found = .ok none ∨ found = .error .noEntry

/-- In the second world every name means what it does in the first, or
nothing. -/
structure Fades (w w' : World) : Prop where
  cwd_eq : w'.cwd = w.cwd
  allows_eq : ∀ i a, w'.allows i a = w.allows i a
  at_eq : ∀ i, Turn.at i (w'.body? i) = Turn.at i (w.body? i)
  lookup : ∀ dir n, w'.lookup dir n = w.lookup dir n ∨ IsAbsent (w'.lookup dir n)

variable {w w' : World} {dir i : Ino} {n : Name} {names : List Name} {p : Path}
  {r : Nat × Ino} {e : Refusal}

theorem turn_eq_at (dir : Ino) (n : Name) :
    w.turn dir n =
      match w.sight dir n with
      | .error e => .error e
      | .ok none => .error .noEntry
      | .ok (some i) => Turn.at i (w.body? i) := rfl

-- ================================================================ fading

namespace Fades

theorem trans {w'' : World} (h : Fades w w') (h' : Fades w' w'') : Fades w w'' where
  cwd_eq := h'.cwd_eq.trans h.cwd_eq
  allows_eq i a := (h'.allows_eq i a).trans (h.allows_eq i a)
  at_eq i := (h'.at_eq i).trans (h.at_eq i)
  lookup dir n := by
    rcases h'.lookup dir n with heq | habsent
    · rw [heq]
      exact h.lookup dir n
    · exact Or.inr habsent

/-- What means nothing goes on meaning nothing. -/
theorem isAbsent (h : Fades w w') (hn : IsAbsent (w.lookup dir n)) :
    IsAbsent (w'.lookup dir n) := by
  rcases h.lookup dir n with heq | habsent
  · rwa [heq]
  · exact habsent

/-- A walk turns as before, or it comes to a name that means nothing. -/
theorem turn (h : Fades w w') (dir : Ino) (n : Name) :
    w'.turn dir n = w.turn dir n ∨ w'.turn dir n = .error .noEntry := by
  rw [turn_eq_at, turn_eq_at, sight, sight, h.allows_eq]
  cases w.allows dir .search with
  | false => exact Or.inl rfl
  | true =>
      rw [if_pos rfl, if_pos rfl]
      rcases h.lookup dir n with heq | habsent | habsent
      · rw [heq]
        cases w.lookup dir n with
        | error e => exact Or.inl rfl
        | ok found =>
            cases found with
            | none => exact Or.inl rfl
            | some i => exact Or.inl (h.at_eq i)
      · rw [habsent]
        exact Or.inr rfl
      · rw [habsent]
        exact Or.inr rfl

/-- Up to a link a passage goes as before, if it does so from there. -/
theorem passPlain (h : Fades w w') {links : Nat}
    {onLink onLink' : Ino → LinkTarget → List Name → Except Refusal (Nat × Ino)}
    (hlink : ∀ origin target rest, onLink' origin target rest = onLink origin target rest
      ∨ onLink' origin target rest = .error .noEntry)
    (names : List Name) :
    ∀ dir, w'.passPlain links onLink' dir names = w.passPlain links onLink dir names
      ∨ w'.passPlain links onLink' dir names = .error .noEntry := by
  induction names with
  | nil => exact fun _ => Or.inl rfl
  | cons n rest ih =>
      intro dir
      rw [World.passPlain, World.passPlain]
      rcases h.turn dir n with heq | hgone
      · rw [heq]
        cases w.turn dir n with
        | error e => exact Or.inl rfl
        | ok turn =>
            cases turn with
            | link target => exact hlink dir target rest
            | down i => exact ih i
      · rw [hgone]
        exact Or.inr rfl

/-- A passage goes as before, or it comes to a name that means nothing. -/
theorem pass (h : Fades w w') (links : Nat) :
    ∀ dir names, w'.pass links dir names = w.pass links dir names
      ∨ w'.pass links dir names = .error .noEntry := by
  induction links with
  | zero => exact fun dir names => h.passPlain (fun _ _ _ => Or.inl rfl) names dir
  | succ links ih => exact fun dir names => h.passPlain (fun _ _ _ => ih _ _) names dir

end Fades

-- ===================================================== changes that fade

theorem lookup_of_directory?_eq (h : w'.directory? dir = w.directory? dir) (n : Name) :
    w'.lookup dir n = w.lookup dir n := by
  unfold lookup
  rw [h]

/-- In a directory of which names are gone, every name means what it did,
or nothing. -/
theorem lookup_of_fades {d d' : Directory} (hd : w.directory? dir = some d)
    (hd' : w'.directory? dir = some d') (h : d.Fades d') (n : Name) :
    w'.lookup dir n = w.lookup dir n ∨ IsAbsent (w'.lookup dir n) := by
  unfold lookup
  rw [hd, hd']
  by_cases hself : n = Name.self
  · rw [if_pos hself, if_pos hself]
    exact Or.inl rfl
  by_cases hup : n = Name.parent
  · rw [if_neg hself, if_neg hself, if_pos hup, if_pos hup]
    simp [h.parent_eq]
  rw [if_neg hself, if_neg hself, if_neg hup, if_neg hup]
  rcases h.entries with hdeleted | ⟨hdeleted, hlookup⟩
  · simp [hdeleted, IsAbsent]
  · simp only [Option.any_some, hdeleted, Option.bind_some]
    split
    · exact Or.inl rfl
    split
    · exact Or.inl rfl
    rcases hlookup n with heq | hnone
    · rw [heq]
      exact Or.inl rfl
    · rw [hnone]
      exact Or.inr (Or.inl rfl)

theorem nodes_modify (i j : Ino) (f : Node → Node) :
    (w.modify i f).nodes[j]? = if i = j then (w.nodes[j]?).map f else w.nodes[j]? :=
  Array.getElem?_modify

/-- If a file fades, the world does. -/
theorem fades_modify {f : Node → Node} (h : ∀ a, w.nodes[i]? = some a → a.Fades (f a)) :
    Fades w (w.modify i f) := by
  have hnode : ∀ j : Ino, (w.modify i f).nodes[j]? = w.nodes[j]?
      ∨ ∃ a, w.nodes[j]? = some a ∧ (w.modify i f).nodes[j]? = some (f a) ∧ a.Fades (f a) := by
    intro j
    rw [nodes_modify]
    by_cases hij : i = j
    · subst hij
      rw [if_pos rfl]
      cases ha : w.nodes[i]? with
      | none => exact Or.inl rfl
      | some a => exact Or.inr ⟨a, rfl, rfl, h a ha⟩
    · rw [if_neg hij]
      exact Or.inl rfl
  refine ⟨rfl, fun j a => ?_, fun j => ?_, fun j n => ?_⟩
  · unfold allows
    rcases hnode j with heq | ⟨b, hb, hfb, hfades⟩
    · rw [heq]
    · rw [hb, hfb]
      simp only [Option.any_some, Node.allows, hfades.permissions_eq, hfades.owned_eq]
  · unfold body?
    rcases hnode j with heq | ⟨b, hb, hfb, hfades⟩
    · rw [heq]
    · rw [hb, hfb]
      rcases hfades.body with heq | ⟨d, d', hd, hd', -⟩
      · dsimp only
        rw [heq]
      · dsimp only
        rw [hd, hd']
        rfl
  · rcases hnode j with heq | ⟨b, hb, hfb, hfades⟩
    · refine Or.inl (lookup_of_directory?_eq ?_ n)
      rw [directory?, body?, heq]
      rfl
    · rcases hfades.body with heq | ⟨d, d', hd, hd', hdfades⟩
      · refine Or.inl (lookup_of_directory?_eq ?_ n)
        rw [directory?, body?, hfb]
        dsimp only
        rw [heq, directory?, body?, hb]
      · exact lookup_of_fades (directory?_of_node hb hd) (directory?_of_node hfb hd') hdfades n

/-- Without the entries of one name, that name has none and all others
have theirs. -/
theorem lookup_filter_ne (entries : List (Name × Ino)) (n m : Name) :
    (entries.filter fun e => e.1 ≠ n).lookup m = if m = n then none else entries.lookup m := by
  induction entries with
  | nil => simp
  | cons e rest ih =>
      by_cases he : e.1 = n
      · rw [List.filter_cons_of_neg (by simp [he]), ih, List.lookup_cons]
        by_cases hm : m = n
        · rw [if_pos hm, if_pos hm]
        · have hbeq : (m == e.1) = false := beq_false_of_ne (he ▸ hm)
          rw [if_neg hm, if_neg hm, hbeq]
      · rw [List.filter_cons_of_pos (by simp [he]), List.lookup_cons, List.lookup_cons, ih]
        by_cases hm : m = n
        · have hbeq : (m == e.1) = false := beq_false_of_ne fun h => he (h.symm.trans hm)
          rw [if_pos hm, if_pos hm, hbeq]
        · rw [if_neg hm, if_neg hm]

/-- Taking a name out of a directory. -/
theorem fades_leave (dir : Ino) (n : Name) : Fades w (w.leave dir n) := by
  refine fades_modify fun a _ => ?_
  cases hb : a.body with
  | directory d =>
      refine ⟨rfl, rfl, Or.inr ⟨d, _, hb, rfl, rfl, Or.inr ⟨rfl, fun m => ?_⟩⟩⟩
      have hlookup := lookup_filter_ne d.entries n m
      by_cases hm : m = n
      · rw [if_pos hm] at hlookup
        exact Or.inr hlookup
      · rw [if_neg hm] at hlookup
        exact Or.inl hlookup
  | _ => exact ⟨rfl, rfl, Or.inl rfl⟩

/-- Marking a directory as deleted. -/
theorem fades_retire (i : Ino) : Fades w (w.retire i) := by
  refine fades_modify fun a _ => ?_
  cases hb : a.body with
  | directory d => exact ⟨rfl, rfl, Or.inr ⟨d, _, hb, rfl, rfl, Or.inl rfl⟩⟩
  | _ => exact ⟨rfl, rfl, Or.inl rfl⟩

theorem directory?_leave {d : Directory} (h : w.directory? dir = some d) (n : Name) :
    (w.leave dir n).directory? dir
      = some { d with entries := d.entries.filter fun e => e.1 ≠ n } := by
  obtain ⟨a, ha, hb⟩ := exists_node_of_directory? h
  unfold directory? body? leave modifyEntries
  rw [nodes_modify, if_pos rfl, ha]
  simp only [Option.map_some, hb]

/-- A name that has been taken out of a directory means nothing there. -/
theorem isAbsent_leave (hn : n.isDots = false) (h : w.lookup dir n = .ok (some i)) :
    IsAbsent ((w.leave dir n).lookup dir n) := by
  simp only [Name.isDots, Bool.or_eq_false_iff, beq_eq_false_iff_ne] at hn
  unfold lookup at h ⊢
  rw [if_neg hn.1, if_neg hn.2] at h ⊢
  cases hd : w.directory? dir with
  | none =>
      rw [hd] at h
      simp only [Option.any_none, Option.bind_none, Bool.false_eq_true, ↓reduceIte] at h
      split at h <;> cases h
  | some d =>
      have hd' := directory?_leave hd n
      rw [hd] at h
      rw [hd']
      dsimp only [Option.any_some, Option.bind_some] at h ⊢
      rw [lookup_filter_ne, if_pos rfl]
      split at h
      · cases h
      next hdeleted =>
        split at h
        · cases h
        next hlen =>
          rw [if_neg hdeleted, if_neg hlen]
          exact Or.inl rfl

-- ==================================================== what a path leads to

theorem file_of_isAbsent (hp : Splits p names [n]) (hpass : w.passage p names = .ok r)
    (hs : w.allows r.2 .search = true) (h : IsAbsent (w.lookup r.2 n)) (follow : Bool) :
    w.file follow p = .error .noEntry := by
  rw [file_of_not_link hp hpass hs _ follow]
  · rcases h with h | h <;> rw [h]
  · intro i target hi
    rw [hi] at h
    rcases h with h | h <;> cases h

/-- Once the last component of a path means nothing, the path leads to
nothing, though components before it may mean nothing either. -/
theorem file_of_fades (h : Fades w w') (hp : Splits p names [n])
    (hpass : w.passage p names = .ok r) (hs : w.allows r.2 .search = true)
    (hn : IsAbsent (w'.lookup r.2 n)) (follow : Bool) :
    w'.file follow p = .error .noEntry := by
  have hpassage : w'.passage p names = .ok r ∨ w'.passage p names = .error .noEntry := by
    have hpass' := h.pass linkMax (startOf w.cwd p) names
    rw [← passage, hpass] at hpass'
    rw [passage, h.cwd_eq]
    exact hpass'
  rcases hpassage with hpass' | hpass'
  · exact file_of_isAbsent hp hpass' ((h.allows_eq r.2 .search).trans hs) hn follow
  · exact file_of_passage_error hp (List.cons_ne_nil _ _) hpass'

end World
end PosixFiles
