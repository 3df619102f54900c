/-
Handles of a session, and why sessions are calm.

A handle is open as long as the session has something that it delivers,
be it nothing more than an end. Reading replaces what a handle delivers,
opening adds a handle in front of the others, and no call but one that
closes takes any away; so a handle that an operation opened is there when
the operation closes it, whatever faults came in between.
-/
import PosixFiles.Proofs.Interruption.Script
import PosixFiles.Session
import PosixFiles.System.Disguised

namespace PosixFiles
namespace Session

variable {s : Session} {h : Handle}

/-- Whether a handle is open. -/
def IsOpen (h : Handle) (s : Session) : Prop :=
  (s.streams.lookup h).isSome = true

-- =============================================================== streams

/-- Replacing what a handle delivers takes no handle away. -/
theorem isSome_lookup_replace {k : Handle} {new : Stream} {streams : List (Handle × Stream)}
    (hh : (streams.lookup h).isSome = true) :
    ((replace k new streams).lookup h).isSome = true := by
  induction streams with
  | nil => cases hh
  | cons e rest ih =>
      obtain ⟨l, old⟩ := e
      rw [List.lookup_cons] at hh
      rw [replace]
      by_cases hk : (k == l) = true
      · rw [if_pos hk, List.lookup_cons, eq_of_beq hk]
        by_cases hl : (h == l) = true
        · rw [hl]
          rfl
        · rw [Bool.not_eq_true] at hl
          rw [hl] at hh ⊢
          exact hh
      · rw [if_neg hk, List.lookup_cons]
        by_cases hl : (h == l) = true
        · rw [hl]
          rfl
        · rw [Bool.not_eq_true] at hl
          rw [hl] at hh ⊢
          exact ih hh

/-- Opening something gives a handle that is open. -/
theorem isOpen_opened {f : World → Except Refusal Stream} (hr : (s.opened f).1 = .ok h) :
    IsOpen h (s.opened f).2 := by
  unfold opened at hr ⊢
  cases hf : f s.world with
  | error r =>
      rw [hf] at hr
      cases hr
  | ok stream =>
      rw [hf] at hr
      cases hr
      show (List.lookup s.fresh ((s.fresh, stream) :: s.streams)).isSome = true
      rw [List.lookup_cons, beq_self_eq_true]
      rfl

theorem isOpen_opened_of_isOpen (f : World → Except Refusal Stream) (hh : IsOpen h s) :
    IsOpen h (s.opened f).2 := by
  unfold opened
  cases f s.world with
  | error r => exact hh
  | ok stream =>
      show (List.lookup h ((s.fresh, stream) :: s.streams)).isSome = true
      rw [List.lookup_cons]
      split
      · rfl
      · exact hh

theorem close_of_isOpen (hh : IsOpen h s) : (s.close h).1 = .ok () := by
  obtain ⟨stream, hstream⟩ := Option.isSome_iff_exists.1 hh
  unfold close
  rw [hstream]

theorem isOpen_act (f : World → Except Refusal World) (hh : IsOpen h s) :
    IsOpen h (s.act f).2 := by
  unfold act
  cases f s.world with
  | error r => exact hh
  | ok w => exact hh

/-- No call but one that closes takes a handle away. -/
theorem isOpen_call {c : Call} (hc : c.closesHandle = false) (hh : IsOpen h s) :
    IsOpen h (s.call c).2 := by
  cases c with
  | stat | readlink | getxattr => exact hh
  | link | symlink | rename | unlink | remove | chmod | mkfifo | mkdir | utimensat | utime =>
      exact isOpen_act _ hh
  | openFile | opendir => exact isOpen_opened_of_isOpen _ hh
  | close | closedir => cases hc
  | fstatat k name =>
      show IsOpen h (s.fstatat k name).2
      unfold fstatat
      split
      · exact hh
      · exact hh
      · exact hh
  | read k room =>
      show IsOpen h (s.read k room).2
      unfold read
      split
      · exact isSome_lookup_replace hh
      · exact hh
      · exact hh
  | readdir k =>
      show IsOpen h (s.readdir k).2
      unfold readdir
      split
      · exact isSome_lookup_replace hh
      · exact hh
      · exact hh
      · exact hh

-- ================================================================== calm

/-- What prescribed replies change, they change in a reply and not in the
session. -/
theorem disguised_state (d : Disguise) (c : Call) (s : Session) :
    (d.call system c s).2 = (s.call c).2 := by
  unfold Disguise.call
  split
  · split
    · rfl
    · rfl
  · split
    · rfl
    · rfl
  · rfl
  · rfl

/-- A disguise interrupts no call. -/
theorem errno?_disguised_ne (d : Disguise) (c : Call) (s : Session) :
    errno? (d.call system c s).1 ≠ some .eintr := by
  have hcall := errno?_call_ne c s (.inl rfl)
  have hok : ∀ {α : Type} (v : α), errno? (.ok v) ≠ some .eintr := by
    intro α v hv
    cases hv
  unfold Disguise.call
  split
  · split
    · exact hok _
    · exact hcall
  · split
    · exact hok _
    · exact hcall
  next k =>
    show errno? ((s.readdir k).1.map _) ≠ _
    change errno? (s.readdir k).1 ≠ _ at hcall
    cases hr : (s.readdir k).1 with
    | ok e => exact hok _
    | error e =>
        rw [hr] at hcall
        exact hcall
  · exact hcall

/-- A session is calm, disguised or not. -/
theorem calm_disguised (d : Disguise) : Calm (system.disguised d) IsOpen where
  errno?_ne c s := errno?_disguised_ne d c s
  openFile {p s h} hr := isOpen_opened (f := (·.openFile p)) (s := s) (h := h) hr
  opendir {p s h} hr := isOpen_opened (f := (·.opendir p)) (s := s) (h := h) hr
  keeps {c s h} hc hh := by
    show IsOpen h (d.call system c s).2
    rw [disguised_state]
    exact isOpen_call hc hh
  close hh := close_of_isOpen hh
  closedir hh := close_of_isOpen hh

end Session
end PosixFiles
