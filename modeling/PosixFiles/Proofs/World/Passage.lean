/-
Passing along a path: the part of a walk that does not depend on what is
wanted of the last component.

`pass` goes along components each of which has to lead to a directory,
and gives the directory reached and the number of links that may still be
followed. A walk along components with others behind them passes along
the first ones (`walk_append`), so walks along two paths that begin alike
go the same way until the shorter one comes to its last component; there
they differ only in what they make of it.
-/
import PosixFiles.World.Walk

namespace PosixFiles.World

variable (w : World)

-- =============================================================== passing

/-- What a name means in a directory to whoever may look it up there. -/
def sight (dir : Ino) (n : Name) : Except Refusal (Option Ino) :=
  if w.allows dir .search then w.lookup dir n else .error .denied

/-- Where a walk turns at a component that others follow. -/
inductive Turn where
  /-- It goes on in the place of a link. -/
  | link (target : LinkTarget)
  /-- It goes down into a directory. -/
  | down (i : Ino)

/-- Where a walk turns at a component that others follow, if it can go on
at all. -/
def turn (dir : Ino) (n : Name) : Except Refusal Turn :=
  match w.sight dir n with
  | .error e => .error e
  | .ok none => .error .noEntry
  | .ok (some i) =>
      match w.body? i with
      | some (.symlink target) => .ok (.link target)
      | some (.directory _) => .ok (.down i)
      | _ => .error .notDirectory

/-- Goes along components up to a link; `onLink` goes on from there. -/
def passPlain (links : Nat)
    (onLink : Ino → LinkTarget → List Name → Except Refusal (Nat × Ino)) :
    Ino → List Name → Except Refusal (Nat × Ino)
  | dir, [] => .ok (links, dir)
  | dir, n :: rest =>
      match w.turn dir n with
      | .error e => .error e
      | .ok (.link target) => onLink dir target rest
      | .ok (.down i) => passPlain links onLink i rest

/-- Goes along components each of which has to lead to a directory, and
may follow the given number of links. Gives the number of links that may
still be followed, and the directory reached. -/
def pass : Nat → Ino → List Name → Except Refusal (Nat × Ino)
  | 0, dir, names => w.passPlain 0 (fun _ _ _ => .error .tooManyLinks) dir names
  | links + 1, dir, names =>
      w.passPlain (links + 1)
        (fun origin target rest =>
          pass links (startOf origin target.path) (target.path.components ++ rest))
        dir names

variable {w}

@[simp] theorem pass_nil (links : Nat) (dir : Ino) : w.pass links dir [] = .ok (links, dir) := by
  cases links <;> rfl

/-- What becomes of a walk at a link. -/
def onLinkOf (w : World) (follow : Bool → Bool) (slash : Bool) :
    Nat → Ino → LinkTarget → List Name → Except Refusal Spot
  | 0 => fun _ _ _ => .error .tooManyLinks
  | links + 1 => fun origin target rest =>
      w.walk follow links (if rest = [] then slash || target.path.endsInSlash else slash)
        (startOf origin target.path) (target.path.components ++ rest)

theorem walk_eq_advance (follow : Bool → Bool) (links : Nat) (slash : Bool) (dir : Ino)
    (names : List Name) :
    w.walk follow links slash dir names
      = w.advance (follow slash) slash (w.onLinkOf follow slash links) dir names := by
  cases links <;> rfl

/-- What becomes of a passage at a link. -/
def onLinkPass (w : World) :
    Nat → Ino → LinkTarget → List Name → Except Refusal (Nat × Ino)
  | 0 => fun _ _ _ => .error .tooManyLinks
  | links + 1 => fun origin target rest =>
      w.pass links (startOf origin target.path) (target.path.components ++ rest)

theorem pass_eq_passPlain (links : Nat) (dir : Ino) (names : List Name) :
    w.pass links dir names = w.passPlain links (w.onLinkPass links) dir names := by
  cases links <;> rfl

/-- A walk turns at every component that others follow. -/
theorem advance_cons {follow slash : Bool}
    {onLink : Ino → LinkTarget → List Name → Except Refusal Spot}
    {rest : List Name} (hrest : rest ≠ []) (dir : Ino) (n : Name) :
    w.advance follow slash onLink dir (n :: rest)
      = match w.turn dir n with
        | .error e => .error e
        | .ok (.link target) => onLink dir target rest
        | .ok (.down i) => w.advance follow slash onLink i rest := by
  simp only [advance, turn, sight, hrest, false_and, ↓reduceIte]
  cases w.allows dir .search with
  | false => rfl
  | true =>
      cases w.lookup dir n with
      | error e => rfl
      | ok found =>
          cases found with
          | none => rfl
          | some i =>
              cases hbody : w.body? i with
              | none => simp [hbody]
              | some body => cases body <;> simp [hbody]

/-- Up to a link, a walk along components with others behind them passes
along the first, if it does so from the link on. -/
theorem advance_append {follow slash : Bool} {links : Nat} {rest : List Name}
    (hrest : rest ≠ [])
    {onLink : Ino → LinkTarget → List Name → Except Refusal Spot}
    {onPass : Ino → LinkTarget → List Name → Except Refusal (Nat × Ino)}
    {k : Nat × Ino → Except Refusal Spot}
    (hk : ∀ dir, w.advance follow slash onLink dir rest = k (links, dir))
    (hlink : ∀ origin target names,
      onLink origin target (names ++ rest) = onPass origin target names >>= k)
    (names : List Name) :
    ∀ dir, w.advance follow slash onLink dir (names ++ rest)
      = w.passPlain links onPass dir names >>= k := by
  induction names with
  | nil => exact hk
  | cons n names ih =>
      intro dir
      have hmore : names ++ rest ≠ [] := List.append_ne_nil_of_right_ne_nil _ hrest
      rw [List.cons_append, advance_cons hmore, passPlain]
      cases w.turn dir n with
      | error e => rfl
      | ok turn =>
          cases turn with
          | link target => exact hlink dir target names
          | down i => exact ih i

/-- A walk along components with others behind them passes along the
first, and walks along the others from the directory reached. -/
theorem walk_append (follow : Bool → Bool) {rest : List Name} (hrest : rest ≠ [])
    (slash : Bool) (links : Nat) :
    ∀ (dir : Ino) (names : List Name),
      w.walk follow links slash dir (names ++ rest)
        = w.pass links dir names >>= fun r => w.walk follow r.1 slash r.2 rest := by
  induction links with
  | zero =>
      intro dir names
      rw [walk_eq_advance, pass_eq_passPlain]
      exact advance_append hrest (fun d => (walk_eq_advance ..).symm) (fun _ _ _ => rfl) names dir
  | succ links ih =>
      intro dir names
      rw [walk_eq_advance, pass_eq_passPlain]
      refine advance_append hrest (fun d => (walk_eq_advance ..).symm) ?_ names dir
      intro origin target names
      have hmore : names ++ rest ≠ [] := List.append_ne_nil_of_right_ne_nil _ hrest
      simp only [onLinkOf, onLinkPass, hmore, ↓reduceIte, ← List.append_assoc]
      exact ih _ _

-- =========================================================== at the end

/-- A walk that follows no link at its end stops before the last
component, if that may be looked up at all. -/
theorem walk_singleton_of_noFollow (links : Nat) (slash : Bool) (dir : Ino) (n : Name) :
    w.walk (fun _ => false) links slash dir [n]
      = if w.allows dir .search then .ok ⟨dir, some n, slash⟩ else .error .denied := by
  rw [walk_eq_advance]
  simp only [advance]
  cases w.allows dir .search <;> rfl

/-- A walk that follows links fails at its end where the last component
may not be looked up. -/
theorem walk_singleton_of_sight_error {links : Nat} {slash : Bool} {dir : Ino} {n : Name}
    {e : Refusal} (h : w.sight dir n = .error e) :
    w.walk (fun _ => true) links slash dir [n] = .error e := by
  rw [walk_eq_advance]
  unfold sight at h
  simp only [advance]
  cases hs : w.allows dir .search with
  | false =>
      rw [hs] at h
      simpa using h
  | true =>
      rw [hs] at h
      have hl : w.lookup dir n = .error e := h
      simp [hl]

/-- A walk that follows links ends before a last component that means
nothing. -/
theorem walk_singleton_of_sight_none {links : Nat} {slash : Bool} {dir : Ino} {n : Name}
    (h : w.sight dir n = .ok none) :
    w.walk (fun _ => true) links slash dir [n] = .ok ⟨dir, some n, slash⟩ := by
  rw [walk_eq_advance]
  unfold sight at h
  simp only [advance]
  cases hs : w.allows dir .search with
  | false =>
      rw [hs] at h
      cases h
  | true =>
      rw [hs] at h
      have hl : w.lookup dir n = .ok none := h
      simp [hl]

theorem lookup_of_sight_ok {dir : Ino} {n : Name} {found : Option Ino}
    (h : w.sight dir n = .ok found) : w.lookup dir n = .ok found := by
  unfold sight at h
  split at h
  · exact h
  · cases h

/-- A directory to turn down into is there, and is one. -/
theorem of_turn_down {dir : Ino} {n : Name} {i : Ino} (h : w.turn dir n = .ok (.down i)) :
    w.sight dir n = .ok (some i) ∧ w.isDirectory i = true := by
  unfold turn at h
  split at h
  case h_1 => cases h
  case h_2 => cases h
  case h_3 j hsight =>
      split at h
      case h_1 => cases h
      case h_2 d hbody =>
          cases h
          exact ⟨hsight, by simp [isDirectory, directory?, hbody]⟩
      case h_3 => cases h

/-- At a link to be followed, a walk that follows links goes on from
there, also if it comes last. -/
theorem advance_of_turn_link {slash : Bool}
    {onLink : Ino → LinkTarget → List Name → Except Refusal Spot}
    {dir : Ino} {n : Name} {rest : List Name} {target : LinkTarget}
    (h : w.turn dir n = .ok (.link target)) :
    w.advance true slash onLink dir (n :: rest) = onLink dir target rest := by
  unfold turn sight at h
  simp only [advance]
  cases hs : w.allows dir .search with
  | false =>
      rw [hs] at h
      cases h
  | true =>
      rw [hs] at h
      cases hl : w.lookup dir n with
      | error e => simp [hl] at h
      | ok found =>
          cases found with
          | none => simp [hl] at h
          | some i =>
              cases hbody : w.body? i with
              | none => simp [hl, hbody] at h
              | some body => cases body <;> simp_all

/-- A directory that comes last is where a walk ends. -/
theorem advance_of_turn_down {slash : Bool}
    {onLink : Ino → LinkTarget → List Name → Except Refusal Spot}
    {dir : Ino} {n : Name} {i : Ino} (h : w.turn dir n = .ok (.down i)) :
    w.advance true slash onLink dir [n] = .ok ⟨dir, some n, slash⟩ := by
  obtain ⟨hsight, hdir⟩ := of_turn_down h
  have hl := lookup_of_sight_ok hsight
  have hs : w.allows dir .search = true := by
    unfold sight at hsight
    split at hsight
    next hs => exact hs
    next => cases hsight
  cases hbody : w.body? i with
  | none => simp [isDirectory, directory?, hbody] at hdir
  | some body => cases body <;> simp_all [advance, isDirectory, directory?]

end PosixFiles.World
