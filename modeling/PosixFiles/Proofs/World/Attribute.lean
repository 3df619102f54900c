/-
Which attributes a file has for the process.

A file that a path leads to lists attributes of any name, each with a value.
Whether one of them is there for the process is a matter of the name space
besides: `World.Carries` says that the process may ask for it, and that the
file lists it with this value; `World.Lacks` says that it may ask, and the
file does not list it, or that attributes like this one are not shown at this
file, or not to a process without privileges. Where neither holds there is
another reason why no value can be had.

How much room there is for the value has no part in any of this.
-/
import PosixFiles.World.Properties

namespace PosixFiles
namespace World

variable {w : World} {follow : Bool} {p : Path} {name value : Bytes} {i : Ino}

-- ================================================================= steps

theorem bind_eq_ok_iff {α β : Type} {x : Except Refusal α} {f : α → Except Refusal β} {b : β} :
    x >>= f = .ok b ↔ ∃ a, x = .ok a ∧ f a = .ok b := by
  constructor
  · intro h
    cases x with
    | ok a => exact ⟨a, rfl, h⟩
    | error e => cases h
  · rintro ⟨a, rfl, h⟩
    exact h

theorem bind_eq_error_iff {α β : Type} {e : Refusal} {x : Except Refusal α}
    {f : α → Except Refusal β} :
    x >>= f = .error e ↔ x = .error e ∨ ∃ a, x = .ok a ∧ f a = .error e := by
  constructor
  · intro h
    cases x with
    | ok a => exact Or.inr ⟨a, rfl, h⟩
    | error d =>
        cases h
        exact Or.inl rfl
  · rintro (rfl | ⟨a, rfl, h⟩)
    · rfl
    · exact h

-- ================================================================= files

theorem lookup_ne_noData (dir : Ino) (n : Name) : w.lookup dir n ≠ .error .noData := by
  unfold lookup
  repeat' split
  all_goals exact nofun

theorem advance_ne_noData {slash : Bool}
    {onLink : Ino → LinkTarget → List Name → Except Refusal Spot}
    (hlink : ∀ origin target names, onLink origin target names ≠ .error .noData)
    (names : List Name) :
    ∀ dir, w.advance follow slash onLink dir names ≠ .error .noData := by
  induction names with
  | nil => exact fun _ => nofun
  | cons n rest ih =>
      intro dir
      rw [advance]
      split
      · exact nofun
      split
      · exact nofun
      cases hl : w.lookup dir n with
      | error e =>
          intro he
          cases he
          exact lookup_ne_noData dir n hl
      | ok found =>
          cases found with
          | none =>
              dsimp only
              split <;> exact nofun
          | some j =>
              dsimp only
              split
              · exact hlink _ _ _
              · split
                · exact nofun
                · exact ih _
              · split <;> exact nofun

theorem walk_ne_noData (follow : Bool → Bool) (links : Nat) :
    ∀ slash dir names, w.walk follow links slash dir names ≠ .error .noData := by
  induction links with
  | zero =>
      intro slash dir names
      refine advance_ne_noData (fun _ _ _ he => ?_) names dir
      cases he
  | succ links ih => exact fun _ dir names => advance_ne_noData (fun _ _ _ => ih _ _ _) names dir

theorem spotFrom_ne_noData (dir : Ino) (follow : Bool → Bool) (p : Path) :
    w.spotFrom dir follow p ≠ .error .noData := by
  unfold spotFrom
  split
  · exact nofun
  split
  · exact nofun
  exact walk_ne_noData _ _ _ _ _

theorem fileAt_ne_noData (s : Spot) : w.fileAt s ≠ .error .noData := by
  unfold fileAt
  split
  · exact nofun
  · exact lookup_ne_noData _ _

/-- Looking for a file fails for other reasons than that an attribute is
missing, as none of its steps fails for that. -/
theorem file_ne_noData (w : World) (follow : Bool) (p : Path) :
    w.file follow p ≠ .error .noData := by
  intro h
  rcases bind_eq_error_iff.1 h with hspot | ⟨s, -, h⟩
  · exact spotFrom_ne_noData _ _ _ hspot
  rcases bind_eq_error_iff.1 h with hfound | ⟨found, -, h⟩
  · exact fileAt_ne_noData s hfound
  cases found with
  | none => cases h
  | some i =>
      dsimp only at h
      split at h <;> cases h

-- ============================================================ attributes

/-- Where a process is told that there is no attribute before anybody has
looked. -/
theorem mayAsk_eq_noData_iff :
    w.mayAsk i name = .error .noData ↔
      (attributeSpace name).1 = .trusted
        ∨ (attributeSpace name).1 = .user ∧ w.takesUserAttributes i = false := by
  unfold mayAsk
  dsimp only
  cases (attributeSpace name).1 with
  | user =>
      cases w.takesUserAttributes i with
      | false => simp
      | true =>
          cases w.allows i .read with
          | false => simp
          | true => by_cases htail : (attributeSpace name).2 = [] <;> simp [htail]
  | trusted => simp
  | security => by_cases htail : (attributeSpace name).2 = [] <;> simp [htail]
  | system => cases isAccessList name <;> cases w.takesAccessLists i <;> simp
  | foreign => cases w.allows i .read <;> simp

/-- The file that a path leads to has an attribute, with this value, and the
process may ask for it. -/
structure Carries (w : World) (follow : Bool) (p : Path) (name value : Bytes) : Prop where
  name_ne_nil : name ≠ []
  length_le : name.length ≤ attributeNameMax
  exists_ino : ∃ i, w.file follow p = .ok i ∧ w.mayAsk i name = .ok ()
    ∧ w.attributeOf? i name = some value

/-- The file that a path leads to has no such attribute, as far as the process
is told: it may ask and there is none, or attributes like this one are found
at other files only, or shown to other processes. -/
inductive Lacks (w : World) (follow : Bool) (p : Path) (name : Bytes) : Prop where
  | unset {i : Ino} (name_ne_nil : name ≠ []) (length_le : name.length ≤ attributeNameMax)
      (file_eq : w.file follow p = .ok i) (asks : w.mayAsk i name = .ok ())
      (unset : w.attributeOf? i name = none) (known : knowsAttribute name = true)
  | hidden {i : Ino} (name_ne_nil : name ≠ []) (length_le : name.length ≤ attributeNameMax)
      (file_eq : w.file follow p = .ok i)
      (hidden : (attributeSpace name).1 = .trusted
        ∨ (attributeSpace name).1 = .user ∧ w.takesUserAttributes i = false)

/-- A name that is not empty nor too long is looked at where its file is. -/
theorem askAttribute_of_length_le (hname : name ≠ []) (hlen : name.length ≤ attributeNameMax) :
    w.askAttribute follow p name = w.file follow p >>= fun i => w.mayAsk i name >>= fun _ =>
      match w.attributeOf? i name with
      | some value => .ok value
      | none => .error (if knowsAttribute name then .noData else .notSupported) := by
  have hvalid : ¬ (name = [] ∨ attributeNameMax < name.length) := by
    rintro (h | h)
    · exact hname h
    · omega
  exact if_neg hvalid

theorem askAttribute_of_not_length_le (h : name = [] ∨ attributeNameMax < name.length) :
    w.askAttribute follow p name = .error .outOfRange :=
  if_pos h

/-- The value that the process is given is the one that is there. -/
theorem askAttribute_eq_ok_iff :
    w.askAttribute follow p name = .ok value ↔ w.Carries follow p name value := by
  constructor
  · intro h
    by_cases hvalid : name = [] ∨ attributeNameMax < name.length
    · rw [askAttribute_of_not_length_le hvalid] at h
      cases h
    obtain ⟨hname, hlen⟩ := not_or.1 hvalid
    rw [askAttribute_of_length_le hname (Nat.not_lt.1 hlen)] at h
    obtain ⟨i, hfile, h⟩ := bind_eq_ok_iff.1 h
    obtain ⟨u, hasks, h⟩ := bind_eq_ok_iff.1 h
    cases hset : w.attributeOf? i name with
    | none =>
        rw [hset] at h
        cases h
    | some v =>
        rw [hset] at h
        cases h
        exact ⟨hname, Nat.not_lt.1 hlen, i, hfile, hasks, hset⟩
  · rintro ⟨hname, hlen, i, hfile, hasks, hset⟩
    rw [askAttribute_of_length_le hname hlen, hfile]
    refine bind_eq_ok_iff.2 ⟨i, rfl, bind_eq_ok_iff.2 ⟨(), hasks, ?_⟩⟩
    rw [hset]

/-- The process is told that there is none where it lacks. -/
theorem askAttribute_eq_noData_iff :
    w.askAttribute follow p name = .error .noData ↔ w.Lacks follow p name := by
  constructor
  · intro h
    by_cases hvalid : name = [] ∨ attributeNameMax < name.length
    · rw [askAttribute_of_not_length_le hvalid] at h
      cases h
    obtain ⟨hname, hlen⟩ := not_or.1 hvalid
    rw [askAttribute_of_length_le hname (Nat.not_lt.1 hlen)] at h
    rcases bind_eq_error_iff.1 h with hfile | ⟨i, hfile, h⟩
    · exact absurd hfile (file_ne_noData w follow p)
    rcases bind_eq_error_iff.1 h with hhidden | ⟨u, hasks, h⟩
    · exact .hidden hname (Nat.not_lt.1 hlen) hfile (mayAsk_eq_noData_iff.1 hhidden)
    cases hset : w.attributeOf? i name with
    | some v =>
        rw [hset] at h
        cases h
    | none =>
        rw [hset] at h
        refine .unset hname (Nat.not_lt.1 hlen) hfile hasks hset ?_
        cases hknown : knowsAttribute name with
        | true => rfl
        | false =>
            rw [hknown] at h
            cases h
  · intro h
    cases h with
    | unset hname hlen hfile hasks hset hknown =>
        rw [askAttribute_of_length_le hname hlen, hfile]
        refine bind_eq_error_iff.2 (Or.inr ⟨_, rfl, bind_eq_error_iff.2 (Or.inr ⟨(), hasks, ?_⟩)⟩)
        rw [hset, hknown]
        rfl
    | hidden hname hlen hfile hhidden =>
        rw [askAttribute_of_length_le hname hlen, hfile]
        refine bind_eq_error_iff.2 (Or.inr ⟨_, rfl, bind_eq_error_iff.2 (Or.inl ?_)⟩)
        exact mayAsk_eq_noData_iff.2 hhidden

end World
end PosixFiles
