/-
Where the proper ancestors of a path end.

# The scan by positions

The boundaries can also be found by going through the positions of a path.
The path is first cut to the length that it has without the slashes at its
end; then a position is a boundary if there is a slash and no slash one
place before. Such a scan has to look bytes up, which could take it beyond
the end of the path or before its beginning. Here a look that does is
`none`, and so is then the whole scan: `scan?_eq` says that it never is one,
and that what is found are the boundaries.

The scan does not look ahead. It need not, since what is left after the cut
ends with a name (`Trimmed`), so that some name follows every slash in it.

# What the positions are

`boundaries_end_ancestors` says what the positions are: increasing, within
the path, one for each component but the last, and each the end of the path
to that component.
-/
import PosixFiles.Proofs.Path.Ancestor

namespace PosixFiles.Path

-- ======================================================= slashes at the end

/-- Nothing ends where only slashes are left. -/
theorem boundariesFrom_replicate (offset : Nat) (inName : Bool) (n : Nat) :
    boundariesFrom offset inName (List.replicate n Bytes.slash) = [] := by
  induction n generalizing offset inName with
  | zero => rfl
  | succ n ih =>
      have hany : (List.replicate n Bytes.slash).any (· ≠ Bytes.slash) = false := by
        simp
      rw [List.replicate_succ, boundariesFrom, if_pos rfl, hany, Bool.and_false,
        if_neg Bool.false_ne_true]
      exact ih _ _

/-- Slashes behind a path end nothing, and what they follow is no less at
the end of the path than before. -/
theorem boundariesFrom_append_replicate (n : Nat) (rest : Path) :
    ∀ (offset : Nat) (inName : Bool),
      boundariesFrom offset inName (rest ++ List.replicate n Bytes.slash)
        = boundariesFrom offset inName rest := by
  induction rest with
  | nil => exact fun offset inName => boundariesFrom_replicate offset inName n
  | cons c rest ih =>
      intro offset inName
      have hany : (rest ++ List.replicate n Bytes.slash).any (· ≠ Bytes.slash)
          = rest.any (· ≠ Bytes.slash) := by
        simp
      simp only [List.cons_append, boundariesFrom, hany, ih]

theorem components_append_replicate (p : Path) (n : Nat) :
    components (p ++ List.replicate n Bytes.slash) = components p := by
  cases n with
  | zero => rw [List.replicate_zero, List.append_nil]
  | succ n =>
      have hnil : components (List.replicate n Bytes.slash) = [] :=
        components_eq_nil_of_all_slash fun c hc => List.eq_of_mem_replicate hc
      rw [List.replicate_succ, components_append_slash, hnil, List.append_nil]

-- ============================================================ by positions

/-- The length of a path without the slashes at its end, except for one at
its beginning, counted down from `len`. -/
def trimmedLength? (p : Path) : (len : Nat) → Option Nat
  | len + 2 =>
      match p[len + 1]? with
      | none => none
      | some c => if c = Bytes.slash then trimmedLength? p (len + 1) else some (len + 2)
  | len => some len

/-- Whether there is a slash at a position and none one place before. -/
def endsName? (p : Path) : (position : Nat) → Option Bool
  | 0 => none
  | i + 1 =>
      match p[i + 1]? with
      | none => none
      | some c => if c = Bytes.slash then p[i]?.map (· ≠ Bytes.slash) else some false

/-- The boundaries among `count` positions, from the given one on. -/
def scanFrom? (p : Path) (i : Nat) : (count : Nat) → Option (List Nat)
  | 0 => some []
  | count + 1 =>
      match endsName? p i, scanFrom? p (i + 1) count with
      | some true, some later => some (i :: later)
      | some false, some later => some later
      | _, _ => none

/-- The boundaries of a path, position by position. -/
def scan? (p : Path) : Option (List Nat) :=
  (trimmedLength? p p.length).bind fun len => scanFrom? p 1 (len - 1)

/-- What the cut leaves of a path: all of it but slashes, and at its end no
slash, unless it is nothing else. -/
structure Trimmed (p : Path) (len : Nat) : Prop where
  le_length : len ≤ p.length
  drop_eq : p.drop len = List.replicate (p.length - len) Bytes.slash
  ends_with_name : 1 < len → p[len - 1]? ≠ some Bytes.slash

/-- Cutting goes on where only slashes were cut off, and ends. -/
theorem trimmedLength?_eq {p : Path} (n : Nat) (hle : n ≤ p.length)
    (hdrop : p.drop n = List.replicate (p.length - n) Bytes.slash) :
    ∃ len, trimmedLength? p n = some len ∧ Trimmed p len := by
  fun_induction trimmedLength? p n with
  | case1 n hnone =>
      rw [List.getElem?_eq_none_iff] at hnone
      omega
  | case2 n hslash ih =>
      refine ih (by omega) ?_
      have hlt : n + 1 < p.length := by omega
      have hget : p[n + 1] = Bytes.slash := by
        rw [List.getElem?_eq_getElem hlt] at hslash
        exact Option.some.inj hslash
      have hcount : p.length - (n + 1) = (p.length - (n + 1 + 1)) + 1 := by omega
      rw [List.drop_eq_getElem_cons hlt, hget, hdrop, hcount, List.replicate_succ]
  | case3 n c hc hne =>
      refine ⟨_, rfl, hle, hdrop, fun _ => ?_⟩
      show p[n + 1]? ≠ some Bytes.slash
      rw [hc]
      exact fun h => hne (Option.some.inj h)
  | case4 n hsmall =>
      refine ⟨n, rfl, hle, hdrop, fun hlt => ?_⟩
      obtain ⟨m, rfl⟩ := Nat.exists_eq_add_of_le' hlt
      exact absurd rfl (hsmall m)

theorem endsName?_eq (seen : Path) (b c : UInt8) (rest : Path) :
    endsName? (seen ++ b :: c :: rest) (seen.length + 1)
      = some (c = Bytes.slash && b ≠ Bytes.slash) := by
  have hc : (seen ++ b :: c :: rest)[seen.length + 1]? = some c := by simp
  have hb : (seen ++ b :: c :: rest)[seen.length]? = some b := by simp
  rw [endsName?, hc, hb]
  dsimp only
  by_cases h : c = Bytes.slash
  · simp [h]
  · simp [h]

/-- A scan of what ends with a name finds what the recursion does, which
looks ahead for a name and always finds one. -/
theorem scanFrom?_eq (tail rest : Path) :
    ∀ (seen : Path) (b : UInt8), rest.getLast? ≠ some Bytes.slash →
      scanFrom? (seen ++ b :: (rest ++ tail)) (seen.length + 1) rest.length
        = some (boundariesFrom (seen.length + 1) (b ≠ Bytes.slash) rest) := by
  induction rest with
  | nil => exact fun seen b _ => rfl
  | cons c rest ih =>
      intro seen b hlast
      have hnext : rest.getLast? ≠ some Bytes.slash := by
        intro h
        rw [List.getLast?_cons, h] at hlast
        exact hlast rfl
      have hmore := ih (seen ++ [b]) c hnext
      rw [List.append_assoc, List.length_append] at hmore
      change scanFrom? (seen ++ b :: c :: (rest ++ tail)) (seen.length + 1 + 1) rest.length
        = some (boundariesFrom (seen.length + 1 + 1) _ rest) at hmore
      show scanFrom? (seen ++ b :: c :: (rest ++ tail)) (seen.length + 1) (rest.length + 1) = _
      rw [scanFrom?, endsName?_eq, hmore, boundariesFrom]
      by_cases hc : c = Bytes.slash
      · -- the last byte is another one, so it comes later and is no slash
        have hany : rest.any (· ≠ Bytes.slash) = true := by
          cases hrest : rest.getLast? with
          | none =>
              rw [List.getLast?_eq_none_iff.1 hrest, hc] at hlast
              exact absurd rfl hlast
          | some d =>
              refine List.any_eq_true.2 ⟨d, List.mem_of_getLast? hrest, ?_⟩
              rw [hrest] at hnext
              simpa using hnext
        rw [if_pos hc, hany]
        by_cases hb : b = Bytes.slash <;> simp [hc, hb]
      · simp [hc]

/-- The scan looks up no byte that is not there, and finds the
boundaries. -/
theorem scan?_eq (p : Path) : scan? p = some p.boundaries := by
  obtain ⟨len, hlen, hle, hdrop, hends⟩ :=
    trimmedLength?_eq (p := p) p.length (Nat.le_refl _) (by simp)
  have hp : p.take len ++ List.replicate (p.length - len) Bytes.slash = p := by
    rw [← hdrop, List.take_append_drop]
  have hboundaries : p.boundaries = boundariesFrom 0 false (p.take len) := by
    rw [← boundariesFrom_append_replicate (p.length - len), hp]
    rfl
  have hlength : (p.take len).length = len := List.length_take_of_le hle
  rw [scan?, hlen, Option.bind_some, hboundaries]
  cases hfront : p.take len with
  | nil =>
      rw [hfront] at hlength
      rw [← hlength]
      rfl
  | cons b rest =>
      rw [hfront] at hp hlength
      have hcount : rest.length = len - 1 := by
        rw [← hlength]
        rfl
      have hlast : rest.getLast? ≠ some Bytes.slash := by
        intro hslash
        have hne : rest ≠ [] := by
          rintro rfl
          cases hslash
        have hpos := List.length_pos_iff.2 hne
        refine hends (by omega) ?_
        have hin : (b :: rest).length - 1 < (b :: rest).length := Nat.sub_one_lt (by simp)
        rw [← hlength, ← hp, List.getElem?_append_left hin, ← List.getLast?_eq_getElem?,
          List.getLast?_cons, hslash]
        rfl
      have hscan := scanFrom?_eq (List.replicate (p.length - len) Bytes.slash) rest [] b hlast
      rw [List.nil_append, ← List.cons_append, hp, hcount] at hscan
      show scanFrom? p 1 (len - 1) = some (boundariesFrom 0 false (b :: rest))
      rw [boundariesFrom, Bool.false_and, if_neg Bool.false_ne_true]
      refine hscan.trans (congrArg some ?_)
      by_cases hb : b = Bytes.slash <;> simp [hb]

-- ============================================================== boundaries

theorem pairwise_boundariesFrom (rest : Path) :
    ∀ (offset : Nat) (inName : Bool), (boundariesFrom offset inName rest).Pairwise (· < ·) := by
  induction rest with
  | nil => exact fun _ _ => .nil
  | cons c rest ih =>
      intro offset inName
      have hlater : ∀ k ∈ boundariesFrom (offset + 1) false rest, offset < k := by
        intro k hk
        obtain ⟨u, -, -, rfl, -⟩ := exists_of_mem_boundariesFrom rest hk
        omega
      rw [boundariesFrom]
      split
      · split
        · exact .cons hlater (ih _ _)
        · exact ih _ _
      · exact ih _ _

/-- A boundary is a place in the path, with something before it. -/
theorem lt_length_of_mem_boundaries {p : Path} {k : Nat} (hk : k ∈ p.boundaries) :
    1 ≤ k ∧ k < p.length := by
  obtain ⟨u, v, rfl, rfl, hu⟩ := exists_of_mem_boundariesFrom p hk
  rcases hu with ⟨-, hfalse⟩ | ⟨c, hc, -⟩
  · cases hfalse
  · have hpos := List.length_pos_iff.2 (List.ne_nil_of_mem (List.mem_of_getLast? hc))
    rw [List.length_append, List.length_cons]
    omega

/-- What ends at a boundary is an ancestor of its own, neither the root nor
the path with fewer slashes at its end. -/
theorem take_of_mem_boundaries {p : Path} {k : Nat} (hk : k ∈ p.boundaries) :
    (∃ c ∈ p.take k, c ≠ Bytes.slash)
      ∧ ∀ n, p.take k ++ List.replicate n Bytes.slash ≠ p := by
  obtain ⟨i, hi⟩ := List.getElem?_of_mem hk
  have hancestor : p.ancestors[i]? = some (p.take k) := by
    rw [ancestors, List.getElem?_map, hi]
    rfl
  obtain ⟨c, v, -, hlast, hc⟩ := exists_of_mem_ancestors (List.mem_of_getElem? hancestor)
  refine ⟨⟨c, List.mem_of_getLast? hlast, hc⟩, fun n hn => ?_⟩
  have hlt : i < p.components.length - 1 := by
    rw [← length_ancestors]
    exact (List.getElem?_eq_some_iff.1 hancestor).1
  have hcomp := (leads_ancestor hancestor).components_eq
  rw [← components_append_replicate (p.take k) n, hn] at hcomp
  have hlength := congrArg List.length hcomp
  rw [List.length_take] at hlength
  omega

/-- The boundaries of a path are the ends of its proper ancestors. They are
found without a look beyond the bytes of the path. There is one for each
component but the last; they increase, and lie within the path; and what
ends at one is the way to its component, from where the path starts and
without a slash at its end. It is never the root, nor the path itself,
however many slashes that has at its end; and further slashes there change
nothing. -/
theorem boundaries_end_ancestors (p : Path) :
    scan? p = some p.boundaries
      ∧ p.boundaries.length = p.components.length - 1
      ∧ p.boundaries.Pairwise (· < ·)
      ∧ (∀ k e, p.boundaries[k]? = some e → 1 ≤ e ∧ e < p.length
          ∧ components (p.take e) = p.components.take (k + 1)
          ∧ isAbsolute (p.take e) = p.isAbsolute ∧ endsInSlash (p.take e) = false)
      ∧ (∀ e ∈ p.boundaries, (∃ c ∈ p.take e, c ≠ Bytes.slash)
          ∧ ∀ n, p.take e ++ List.replicate n Bytes.slash ≠ p)
      ∧ ∀ n, (p ++ List.replicate n Bytes.slash).boundaries = p.boundaries := by
  refine ⟨scan?_eq p, ?_, pairwise_boundariesFrom p 0 false, fun k e he => ?_,
    fun e he => take_of_mem_boundaries he, fun n => boundariesFrom_append_replicate n p 0 false⟩
  · rw [← length_ancestors, ancestors, List.length_map]
  · have hancestor : p.ancestors[k]? = some (p.take e) := by
      rw [ancestors, List.getElem?_map, he]
      rfl
    obtain ⟨hpos, hlt⟩ := lt_length_of_mem_boundaries (List.mem_of_getElem? he)
    have hleads := leads_ancestor hancestor
    exact ⟨hpos, hlt, hleads.components_eq, hleads.isAbsolute_eq, hleads.endsInSlash_eq⟩

/-- A path with slashes at its beginning, in its middle and at its end,
`//a//b///c//`: the second of its ancestors is `//a//b`. -/
theorem boundaries_end_ancestors_among_slashes :
    let p : Path := [0x2f, 0x2f, 0x61, 0x2f, 0x2f, 0x62, 0x2f, 0x2f, 0x2f, 0x63, 0x2f, 0x2f]
    p.components = [[0x61], [0x62], [0x63]] ∧ scan? p = some [3, 6]
      ∧ p.boundaries[1]? = some 6
      ∧ components (p.take 6) = [[0x61], [0x62]]
      ∧ (∀ n, p.take 6 ++ List.replicate n Bytes.slash ≠ p)
      ∧ (p ++ [Bytes.slash]).boundaries = [3, 6] := by
  intro p
  obtain ⟨-, -, -, hends, hproper, hslashes⟩ := boundaries_end_ancestors p
  have hsecond : p.boundaries[1]? = some 6 := by decide
  have hnames : p.components = [[0x61], [0x62], [0x63]] := by decide
  obtain ⟨-, -, hsixth, -, -⟩ := hends 1 6 hsecond
  rw [hnames] at hsixth
  exact ⟨hnames, by decide, hsecond, hsixth, (hproper 6 (by decide)).2,
    (hslashes 1).trans (by decide)⟩

end PosixFiles.Path
