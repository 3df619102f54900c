/-
The proper ancestors of a path are the initial parts of its components.

The ancestors are found by a scan over the bytes, the components by
cutting at slashes; `map_components_ancestors` says that the two agree:
the components of the ancestors are those of the path, cut after the
first, after the second, and so on, before the last.

The scan is followed by what it has seen of the path: the names that are
complete, and the name that is being read. However the path goes on, its
components are the complete names and then those of the name being read
with the rest behind it (`Scanned`), which is all that the induction over
the rest needs to know.
-/
import PosixFiles.Path

namespace PosixFiles

-- ========================================== cutting what is put together

/-- Cutting at a separator that was put between two sequences cuts the
one and then the other. -/
theorem segments_append_cons {α : Type} [DecidableEq α] (sep : α) (a b : List α) :
    segments sep (a ++ sep :: b) = segments sep a ++ segments sep b := by
  induction a with
  | nil => simp [segments]
  | cons c a ih =>
      by_cases hc : c = sep
      · simp only [List.cons_append, segments, hc, ↓reduceIte, ih]
      · simp only [List.cons_append, segments, hc, ↓reduceIte, ih]
        cases hs : segments sep a with
        | nil => exact absurd hs (segments_ne_nil sep a)
        | cons part parts => rfl

theorem segments_of_not_mem {α : Type} [DecidableEq α] {sep : α} {s : List α}
    (h : sep ∉ s) : segments sep s = [s] := by
  induction s with
  | nil => rfl
  | cons c rest ih =>
      have hc : c ≠ sep := fun hc => h (hc ▸ List.mem_cons_self ..)
      have hrest : sep ∉ rest := fun hr => h (List.mem_cons_of_mem _ hr)
      simp only [segments, hc, ↓reduceIte, ih hrest]

/-- Joining parts that hold no separator and cutting again changes
nothing. -/
theorem segments_joined {α : Type} [DecidableEq α] {sep : α} {parts : List (List α)}
    (hne : parts ≠ []) (h : ∀ part ∈ parts, sep ∉ part) :
    segments sep (joined sep parts) = parts := by
  induction parts with
  | nil => exact absurd rfl hne
  | cons part parts ih =>
      have hpart : sep ∉ part := h part (List.mem_cons_self ..)
      cases parts with
      | nil => exact segments_of_not_mem hpart
      | cons next parts =>
          show segments sep (part ++ sep :: joined sep (next :: parts)) = _
          rw [segments_append_cons, segments_of_not_mem hpart,
            ih (List.cons_ne_nil _ _) fun q hq => h q (List.mem_cons_of_mem _ hq)]
          rfl

/-- What is joined is what is in the parts, and separators. -/
theorem mem_joined {α : Type} {sep c : α} (hc : c ≠ sep) {parts : List (List α)} :
    c ∈ joined sep parts ↔ ∃ part ∈ parts, c ∈ part := by
  induction parts with
  | nil => simp [joined]
  | cons part parts ih =>
      cases parts with
      | nil => simp [joined]
      | cons next parts =>
          show c ∈ part ++ sep :: joined sep (next :: parts) ↔ _
          rw [List.mem_append, List.mem_cons, ih]
          simp [hc]

namespace Path

/-- The components around a slash are those before and those after it. -/
theorem components_append_slash (a b : Path) :
    components (a ++ Bytes.slash :: b) = components a ++ components b := by
  unfold components
  rw [segments_append_cons, List.filter_append]

theorem components_of_name {n : Name} (hne : n ≠ []) (hn : Bytes.slash ∉ n) :
    components n = [n] := by
  unfold components
  rw [segments_of_not_mem hn]
  simp [hne]

/-- Names that are joined by slashes are the components. -/
theorem components_joined {names : List Name} (hne : names ≠ [])
    (h : ∀ n ∈ names, n ≠ [] ∧ Bytes.slash ∉ n) :
    components (joined Bytes.slash names) = names := by
  unfold components
  rw [segments_joined hne fun n hn => (h n hn).2]
  exact List.filter_eq_self.2 fun n hn => by simpa using (h n hn).1

theorem components_eq_nil_of_all_slash {p : Path} (h : ∀ c ∈ p, c = Bytes.slash) :
    components p = [] := by
  induction p with
  | nil => rfl
  | cons c rest ih =>
      have hc : c = Bytes.slash := h c (List.mem_cons_self ..)
      subst hc
      have hsplit := components_append_slash [] rest
      rw [List.nil_append] at hsplit
      rw [hsplit, ih fun c hc => h c (List.mem_cons_of_mem _ hc)]
      rfl

/-- A path with another byte than a slash has a component. -/
theorem components_ne_nil_of_mem {p : Path} {c : UInt8} (hmem : c ∈ p)
    (hc : c ≠ Bytes.slash) : components p ≠ [] := by
  intro hnil
  -- without components, every part between slashes is empty
  have hparts : ∀ part ∈ segments Bytes.slash p, part = [] := by
    intro part hpart
    have := List.filter_eq_nil_iff.1 hnil part hpart
    simpa using this
  have hjoined := joined_segments Bytes.slash p
  rw [← hjoined] at hmem
  generalize segments Bytes.slash p = parts at hparts hmem
  induction parts with
  | nil => cases hmem
  | cons part parts ih =>
      have hpart : part = [] := hparts part (List.mem_cons_self ..)
      subst hpart
      cases parts with
      | nil => cases hmem
      | cons next parts =>
          rcases List.mem_cons.1 hmem with rfl | hmem
          · exact hc rfl
          · exact ih (fun q hq => hparts q (List.mem_cons_of_mem _ hq)) hmem

-- ============================================================== the scan

/-- What a scan has read of a path: the names that are complete, and the
name that it is in. -/
structure Scanned (seen : Path) (names : List Name) (current : Name) : Prop where
  slash_not_mem : Bytes.slash ∉ current
  components_append : ∀ rest, components (seen ++ rest) = names ++ components (current ++ rest)

namespace Scanned

variable {seen : Path} {names : List Name} {current : Name}

theorem nil : Scanned [] [] [] :=
  ⟨nofun, fun _ => rfl⟩

/-- A byte of a name goes to the name that is being read. -/
theorem byte (h : Scanned seen names current) {c : UInt8} (hc : c ≠ Bytes.slash) :
    Scanned (seen ++ [c]) names (current ++ [c]) := by
  constructor
  · intro hmem
    rcases List.mem_append.1 hmem with hmem | hmem
    · exact h.slash_not_mem hmem
    · exact hc (List.mem_singleton.1 hmem).symm
  · intro rest
    rw [List.append_assoc, List.append_assoc]
    exact h.components_append ([c] ++ rest)

/-- A slash completes the name that is being read, if there is one. -/
theorem slash (h : Scanned seen names current) :
    Scanned (seen ++ [Bytes.slash]) (names ++ components current) [] := by
  refine ⟨nofun, fun rest => ?_⟩
  rw [List.append_assoc, List.singleton_append, h.components_append,
    components_append_slash, List.append_assoc]
  rfl

theorem components_eq (h : Scanned seen names current) :
    components seen = names ++ components current := by
  have := h.components_append []
  rwa [List.append_nil, List.append_nil] at this

/-- The name that is being read is no component yet, or the only one. -/
theorem length_components_le (h : Scanned seen names current) :
    (components current).length ≤ 1 := by
  by_cases hcur : current = []
  · rw [hcur]
    decide
  · rw [components_of_name hcur h.slash_not_mem]
    exact Nat.le_refl _

end Scanned

/-- Names cut before the last one, each cut after more than `k` of them. -/
def cuts (names : List Name) (k : Nat) : List (List Name) :=
  (List.range' (k + 1) (names.length - (k + 1))).map names.take

theorem cuts_of_length_le {names : List Name} {k : Nat} (h : names.length ≤ k + 1) :
    cuts names k = [] := by
  unfold cuts
  rw [Nat.sub_eq_zero_of_le h]
  rfl

theorem cuts_of_lt_length {names : List Name} {k : Nat} (h : k + 1 < names.length) :
    cuts names k = names.take (k + 1) :: cuts names (k + 1) := by
  have hcount : names.length - (k + 1) = names.length - (k + 1 + 1) + 1 := by
    omega
  unfold cuts
  rw [hcount, List.range'_succ, List.map_cons]

/-- The end of a name is an ancestor if more components follow, and is
none if only slashes do. -/
theorem cuts_of_current {seen rest : Path} {names : List Name} {current : Name}
    (h : Scanned seen names current) (hcur : current ≠ []) :
    cuts (components (seen ++ Bytes.slash :: rest)) names.length =
      if rest.any (· ≠ Bytes.slash) then
        components seen
          :: cuts (components (seen ++ Bytes.slash :: rest)) (names ++ [current]).length
      else cuts (components (seen ++ Bytes.slash :: rest)) (names ++ [current]).length := by
  have hname : components current = [current] := components_of_name hcur h.slash_not_mem
  have hseen : components seen = names ++ [current] := by
    rw [h.components_eq, hname]
  have hcomp : components (seen ++ Bytes.slash :: rest)
      = (names ++ [current]) ++ components rest := by
    rw [components_append_slash, hseen]
  have hlength : (names ++ [current]).length = names.length + 1 := by
    rw [List.length_append, List.length_singleton]
  by_cases hrest : rest.any (· ≠ Bytes.slash) = true
  · have hmore : components rest ≠ [] := by
      obtain ⟨d, hd, hne⟩ := List.any_eq_true.1 hrest
      exact components_ne_nil_of_mem hd (by simpa using hne)
    have hpos : 0 < (components rest).length := List.length_pos_iff.2 hmore
    rw [if_pos hrest, hcomp, hseen, cuts_of_lt_length, hlength]
    · rw [← hlength, List.take_left]
    · rw [List.length_append, hlength]
      omega
  · have hnone : components rest = [] := by
      refine components_eq_nil_of_all_slash fun d hd => ?_
      have := List.any_eq_false.1 (Bool.eq_false_iff.2 hrest) d hd
      simpa using this
    rw [if_neg hrest, hcomp, hnone, List.append_nil, cuts_of_length_le, cuts_of_length_le]
    · exact Nat.le_succ _
    · exact Nat.le_of_eq hlength

/-- The scan finds, from where it is, the end of every component but the
last: of the name that it is in, or of the next one, and so on. -/
theorem map_components_boundariesFrom (rest : Path) :
    ∀ (inName : Bool) {seen : Path} {names : List Name} {current : Name},
      Scanned seen names current → (inName = true ↔ current ≠ []) →
      (boundariesFrom seen.length inName rest).map
          (fun k => components ((seen ++ rest).take k))
        = cuts (components (seen ++ rest)) names.length := by
  induction rest with
  | nil =>
      intro inName seen names current h hin
      rw [List.append_nil, h.components_eq, cuts_of_length_le]
      · rfl
      · rw [List.length_append]
        exact Nat.add_le_add_left h.length_components_le _
  | cons c rest ih =>
      intro inName seen names current h hin
      have hseen : seen ++ c :: rest = (seen ++ [c]) ++ rest := by simp
      have hlength : seen.length + 1 = (seen ++ [c]).length := by simp
      by_cases hc : c = Bytes.slash
      · subst hc
        have hnext := ih false h.slash (by simp)
        rw [← hseen, ← hlength] at hnext
        by_cases hcur : current = []
        · -- between names: nothing ends here
          have hname : inName = false := by
            simpa [hcur] using hin
          subst hcur
          have hnil : components ([] : Path) = [] := rfl
          rw [hnil, List.append_nil] at hnext
          simp only [boundariesFrom, hname, Bool.false_and, ↓reduceIte, Bool.false_eq_true]
          exact hnext
        · -- a name ends
          have hname : inName = true := hin.2 hcur
          rw [components_of_name hcur h.slash_not_mem] at hnext
          rw [cuts_of_current h hcur, ← hnext]
          simp only [boundariesFrom, hname, Bool.true_and, ↓reduceIte]
          split
          · rw [List.map_cons, List.take_left]
          · rfl
      · have hnext := ih true (h.byte hc) (by simp)
        rw [← hseen, ← hlength] at hnext
        simp only [boundariesFrom, hc, ↓reduceIte]
        exact hnext

/-- The components of the ancestors are those of the path, cut after the
first, the second, and so on, before the last. -/
theorem map_components_ancestors (p : Path) :
    p.ancestors.map components = cuts p.components 0 := by
  unfold ancestors boundaries
  rw [List.map_map]
  exact map_components_boundariesFrom p false Scanned.nil (by simp)

/-- An ancestor ends before a slash, and after a byte of a name. -/
theorem exists_of_mem_boundariesFrom {k : Nat} (rest : Path) :
    ∀ {offset : Nat} {inName : Bool}, k ∈ boundariesFrom offset inName rest →
      ∃ u v, rest = u ++ Bytes.slash :: v ∧ k = offset + u.length
        ∧ (u = [] ∧ inName = true ∨ ∃ c, u.getLast? = some c ∧ c ≠ Bytes.slash) := by
  induction rest with
  | nil => exact nofun
  | cons c rest ih =>
      intro offset inName hk
      by_cases hc : c = Bytes.slash
      · subst hc
        -- behind the slash no name is open, so something was read there
        have hlater : k ∈ boundariesFrom (offset + 1) false rest →
            ∃ u v, Bytes.slash :: rest = u ++ Bytes.slash :: v ∧ k = offset + u.length
              ∧ (u = [] ∧ inName = true ∨ ∃ c, u.getLast? = some c ∧ c ≠ Bytes.slash) := by
          intro hk
          obtain ⟨u, v, rfl, rfl, hu⟩ := ih hk
          rcases hu with ⟨-, hfalse⟩ | ⟨d, hd, hne⟩
          · cases hfalse
          · refine ⟨Bytes.slash :: u, v, rfl, by simp only [List.length_cons]; omega, Or.inr ?_⟩
            exact ⟨d, by rw [List.getLast?_cons, hd]; rfl, hne⟩
        simp only [boundariesFrom, ↓reduceIte] at hk
        split at hk
        next hname =>
          rcases List.mem_cons.1 hk with rfl | hk
          · have hin : inName = true := by
              simp only [Bool.and_eq_true] at hname
              exact hname.1
            exact ⟨[], rest, rfl, rfl, Or.inl ⟨rfl, hin⟩⟩
          · exact hlater hk
        next => exact hlater hk
      · simp only [boundariesFrom, hc, ↓reduceIte] at hk
        obtain ⟨u, v, rfl, rfl, hu⟩ := ih hk
        refine ⟨c :: u, v, rfl, by simp only [List.length_cons]; omega, Or.inr ?_⟩
        rcases hu with ⟨rfl, -⟩ | ⟨d, hd, hne⟩
        · exact ⟨c, rfl, hc⟩
        · exact ⟨d, by rw [List.getLast?_cons, hd]; rfl, hne⟩

/-- What an ancestor is to its path: the part before some slash, which
ends with a name. -/
theorem exists_of_mem_ancestors {p q : Path} (h : q ∈ p.ancestors) :
    ∃ c v, p = q ++ Bytes.slash :: v ∧ q.getLast? = some c ∧ c ≠ Bytes.slash := by
  obtain ⟨k, hk, rfl⟩ := List.mem_map.1 h
  obtain ⟨u, v, rfl, hlen, hu⟩ := exists_of_mem_boundariesFrom p hk
  rw [hlen, Nat.zero_add, List.take_left]
  rcases hu with ⟨-, hfalse⟩ | ⟨c, hc, hne⟩
  · cases hfalse
  · exact ⟨c, v, rfl, hc, hne⟩

/-- Where a slash follows a name and is followed by another, there is a
boundary. -/
theorem mem_boundariesFrom {u v : Path} (hv : v.any (· ≠ Bytes.slash) = true) :
    ∀ (offset : Nat) (inName : Bool),
      (u = [] ∧ inName = true ∨ ∃ c, u.getLast? = some c ∧ c ≠ Bytes.slash) →
      offset + u.length ∈ boundariesFrom offset inName (u ++ Bytes.slash :: v) := by
  induction u with
  | nil =>
      intro offset inName hu
      rcases hu with ⟨-, rfl⟩ | ⟨c, hc, -⟩
      · simp only [List.nil_append, boundariesFrom, ↓reduceIte, hv, Bool.and_self]
        exact List.mem_cons_self ..
      · cases hc
  | cons d u ih =>
      intro offset inName hu
      have hlength : offset + (d :: u).length = (offset + 1) + u.length := by
        rw [List.length_cons]
        omega
      have hlast : u = [] ∧ d ≠ Bytes.slash ∨ ∃ c, u.getLast? = some c ∧ c ≠ Bytes.slash := by
        rcases hu with ⟨hnil, -⟩ | ⟨c, hc, hne⟩
        · cases hnil
        · cases hu' : u.getLast? with
          | none =>
              have hnil : u = [] := List.getLast?_eq_none_iff.1 hu'
              subst hnil
              have hdc : d = c := Option.some.inj hc
              exact Or.inl ⟨rfl, hdc ▸ hne⟩
          | some e =>
              rw [List.getLast?_cons, hu', Option.getD_some, Option.some.injEq] at hc
              exact Or.inr ⟨e, rfl, hc ▸ hne⟩
      rw [hlength, List.cons_append]
      by_cases hd : d = Bytes.slash
      · have hrest := ih (offset + 1) false
          (Or.inr (hlast.resolve_left fun h => h.2 hd))
        simp only [boundariesFrom, hd, ↓reduceIte]
        split
        · exact List.mem_cons_of_mem _ hrest
        · exact hrest
      · simp only [boundariesFrom, hd, ↓reduceIte]
        exact ih _ _ (hlast.imp_left fun h => ⟨h.1, rfl⟩)

-- ========================================================== the ancestors

/-- The part before a slash is an ancestor if it ends with a name and
another name follows. -/
theorem mem_ancestors {q v : Path} {c d : UInt8} (hlast : q.getLast? = some c)
    (hc : c ≠ Bytes.slash) (hmem : d ∈ v) (hd : d ≠ Bytes.slash) :
    q ∈ (q ++ Bytes.slash :: v).ancestors := by
  have hv : v.any (· ≠ Bytes.slash) = true := List.any_eq_true.2 ⟨d, hmem, by simpa using hd⟩
  have hk := mem_boundariesFrom (u := q) hv 0 false
    (Or.inr ⟨c, hlast, hc⟩)
  rw [Nat.zero_add] at hk
  exact List.mem_map.2 ⟨_, hk, List.take_left⟩

/-- A path that a walk along another one passes: it starts where the other
does, has the first `k` components, and is not longer. -/
structure Leads (p q : Path) (k : Nat) : Prop where
  ne_nil : q ≠ []
  isAbsolute_eq : q.isAbsolute = p.isAbsolute
  endsInSlash_eq : q.endsInSlash = false
  length_lt : q.length < p.length
  components_eq : q.components = p.components.take k

theorem length_ancestors (p : Path) : p.ancestors.length = p.components.length - 1 := by
  have h := congrArg List.length (map_components_ancestors p)
  simpa [cuts] using h

/-- The ancestors, shortest first, have one component, two, and so on. -/
theorem leads_ancestor {p q : Path} {k : Nat} (h : p.ancestors[k]? = some q) :
    Leads p q (k + 1) := by
  obtain ⟨c, v, hp, hlast, hc⟩ := exists_of_mem_ancestors (List.mem_of_getElem? h)
  have hne : q ≠ [] := by
    rintro rfl
    cases hlast
  have hcomp : q.components = p.components.take (k + 1) := by
    have hmap := congrArg (·[k]?) (map_components_ancestors p)
    simp only [cuts, List.getElem?_map, h, Option.map_some] at hmap
    have hk : k < p.components.length - 1 := by
      rw [← length_ancestors]
      exact (List.getElem?_eq_some_iff.1 h).1
    rw [List.getElem?_range' hk, Option.map_some, Option.some.injEq] at hmap
    rw [hmap]
    congr 1
    omega
  refine ⟨hne, ?_, ?_, ?_, hcomp⟩
  · obtain ⟨b, q', rfl⟩ := List.exists_cons_of_ne_nil hne
    rw [hp]
    rfl
  · unfold endsInSlash
    rw [hlast]
    simpa using hc
  · rw [hp]
    simp

end Path
end PosixFiles
