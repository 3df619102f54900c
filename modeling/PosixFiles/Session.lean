/-
A session of a process in the modelled file system: the world it sees,
and what its open handles still deliver.

`Session.system` is a session as a system. It never interrupts a call and
never falters, so its patience is just what the handles still deliver; a
link is shorter than the longest path.
-/
import PosixFiles.System.Basic
import PosixFiles.World.Content
import PosixFiles.World.Properties
import PosixFiles.World.Rename

namespace PosixFiles

/-- The world around a process, and its open handles. -/
structure Session where
  world : World
  streams : List (Handle × Stream) := []
  /-- A handle that has not been used. -/
  fresh : Handle := 3

namespace Session

-- =============================================================== streams

/-- What all handles together still deliver. -/
def pending : List (Handle × Stream) → Nat
  | [] => 0
  | h :: rest => h.2.length + pending rest

/-- Replaces what a handle delivers. -/
def replace (h : Handle) (s : Stream) : List (Handle × Stream) → List (Handle × Stream)
  | [] => []
  | e :: rest => if h == e.1 then (h, s) :: rest else e :: replace h s rest

/-- Takes a handle away. -/
def release (h : Handle) (streams : List (Handle × Stream)) : List (Handle × Stream) :=
  streams.filter fun e => e.1 ≠ h

/-- Replacing what one handle delivers changes the sum by the difference. -/
theorem pending_replace {h : Handle} {s t : Stream} {streams : List (Handle × Stream)}
    (ht : streams.lookup h = some t) :
    pending (replace h s streams) + t.length = pending streams + s.length := by
  induction streams with
  | nil => simp at ht
  | cons e rest ih =>
    obtain ⟨k, u⟩ := e
    simp only [List.lookup_cons] at ht
    simp only [replace]
    cases hk : h == k with
    | true =>
      simp only [hk, Option.some.injEq] at ht
      subst ht
      simp [pending]
      omega
    | false =>
      simp only [hk] at ht
      have := ih ht
      simp only [pending, Bool.false_eq_true, ↓reduceIte] at this ⊢
      omega

/-- What replaces what a handle delivered is what it delivers then. -/
theorem lookup_replace_self {h : Handle} {old new : Stream} {streams : List (Handle × Stream)}
    (hh : streams.lookup h = some old) : (replace h new streams).lookup h = some new := by
  induction streams with
  | nil => cases hh
  | cons e rest ih =>
    rw [List.lookup_cons] at hh
    rw [replace]
    cases hk : h == e.1 with
    | true => rw [if_pos rfl, List.lookup_cons, beq_self_eq_true]
    | false =>
      rw [hk] at hh
      rw [if_neg Bool.false_ne_true, List.lookup_cons, hk]
      exact ih hh

/-- Taking a handle away delivers no more than before. -/
theorem pending_release_le (h : Handle) (streams : List (Handle × Stream)) :
    pending (release h streams) ≤ pending streams := by
  induction streams with
  | nil => exact Nat.le_refl _
  | cons e rest ih =>
    simp only [release, List.filter_cons] at ih ⊢
    split
    · simp only [pending]
      omega
    · simp only [pending]
      omega

-- ================================================================= calls

/-- A refusal as the code that reports it. -/
def reported {α : Type} : Except Refusal α → Except Errno α
  | .ok a => .ok a
  | .error r => .error r.errno

/-- A call that only asks. -/
def ask {α : Type} (f : World → Except Refusal α) (s : Session) : Except Errno α × Session :=
  (reported (f s.world), s)

/-- A call that changes the world, or is refused and changes nothing. -/
def act (f : World → Except Refusal World) (s : Session) : Except Errno Unit × Session :=
  match f s.world with
  | .ok w => (.ok (), { s with world := w })
  | .error r => (.error r.errno, s)

/-- A call that opens something. -/
def opened (f : World → Except Refusal Stream) (s : Session) : Except Errno Handle × Session :=
  match f s.world with
  | .ok stream =>
      (.ok s.fresh, { s with streams := (s.fresh, stream) :: s.streams, fresh := s.fresh + 1 })
  | .error r => (.error r.errno, s)

/-- The status of a file that a path leads to from a directory. -/
def statusFrom (dir : Ino) (follow : Bool) (p : Path) (w : World) : Except Refusal Status := do
  let i ← w.fileFrom dir follow p
  match w.status? i with
  | some st => .ok st
  | none => .error .noEntry

/-- The target of the link at a path, cut at a number of bytes. -/
def targetOf (p : Path) (room : Nat) (w : World) : Except Refusal Bytes := do
  let i ← w.file false p
  match w.body? i with
  | some (.symlink target) => .ok (target.path.take room)
  | _ => .error .invalid

/-- Takes bytes from a handle. -/
def read (h : Handle) (room : Nat) (s : Session) : Except Errno Bytes × Session :=
  match s.streams.lookup h with
  | some (.bytes rest) =>
      (.ok (rest.take room), { s with streams := replace h (.bytes (rest.drop room)) s.streams })
  | some (.entries ..) => (.error .eisdir, s)
  | none => (.error .ebadf, s)

/-- Takes an entry from a handle. -/
def readdir (h : Handle) (s : Session) : Except Errno (Option StreamEntry) × Session :=
  match s.streams.lookup h with
  | some (.entries dir (e :: rest)) =>
      (.ok (some e), { s with streams := replace h (.entries dir rest) s.streams })
  | some (.entries _ []) => (.ok none, s)
  | some (.bytes _) => (.error .enotdir, s)
  | none => (.error .ebadf, s)

/-- Asks about an entry of an open directory. -/
def fstatat (h : Handle) (n : Name) (s : Session) : Except Errno Status × Session :=
  match s.streams.lookup h with
  | some (.entries dir _) => s.ask (statusFrom dir true n)
  | some (.bytes _) => (.error .enotdir, s)
  | none => (.error .ebadf, s)

/-- Gives a handle back. -/
def close (h : Handle) (s : Session) : Except Errno Unit × Session :=
  match s.streams.lookup h with
  | some _ => (.ok (), { s with streams := release h s.streams })
  | none => (.error .ebadf, s)

/-- The reply to a call. -/
def call : (c : Call) → Session → Reply c × Session
  | .stat follow p, s => s.ask fun w => statusFrom w.cwd follow p w
  | .fstatat h n, s => s.fstatat h n
  | .link old new, s => s.act (·.link old new)
  | .symlink target p, s => s.act (·.symlink target p)
  | .readlink p room, s => s.ask (targetOf p room)
  | .rename old new, s => s.act (·.rename old new)
  | .unlink p, s => s.act (·.unlink p)
  | .remove p, s => s.act (·.remove p)
  | .chmod p mode, s => s.act (·.chmod p mode)
  | .mkfifo p mode, s => s.act (·.mkfifo p mode)
  | .mkdir p mode, s => s.act (·.mkdir p mode)
  | .utimensat p atime mtime, s => s.act (·.setTimes p atime mtime)
  | .utime p atime mtime, s => s.act (·.setTimes p (.set ⟨atime, 0⟩) (.set ⟨mtime, 0⟩))
  | .getxattr follow p name room, s => s.ask (·.getxattr follow p name room)
  | .openFile p, s => s.opened (·.openFile p)
  | .read h room, s => s.read h room
  | .close h, s => s.close h
  | .opendir p, s => s.opened (·.opendir p)
  | .readdir h, s => s.readdir h
  | .closedir h, s => s.close h

-- ================================================================ system

/-- Codes that the modelled file system never reports. -/
def IsForeign (e : Errno) : Prop := e = .eintr ∨ e = .eio

theorem errno_not_isForeign (r : Refusal) : ¬ IsForeign r.errno := by
  rintro (h | h)
  · exact r.errno_ne_eintr h
  · exact r.errno_ne_eio h

theorem errno?_reported_ne {α : Type} (x : Except Refusal α) {e : Errno} (he : IsForeign e) :
    errno? (reported x) ≠ some e := by
  cases x with
  | ok a => simp [reported]
  | error r =>
    simp only [reported, errno?_error, ne_eq, Option.some.injEq]
    rintro rfl
    exact errno_not_isForeign r he

theorem errno?_act_ne (f : World → Except Refusal World) (s : Session) {e : Errno}
    (he : IsForeign e) : errno? (s.act f).1 ≠ some e := by
  unfold act
  split
  · simp
  · next r _ =>
    simp only [errno?_error, ne_eq, Option.some.injEq]
    rintro rfl
    exact errno_not_isForeign r he

theorem errno?_opened_ne (f : World → Except Refusal Stream) (s : Session) {e : Errno}
    (he : IsForeign e) : errno? (s.opened f).1 ≠ some e := by
  unfold opened
  split
  · simp
  · next r _ =>
    simp only [errno?_error, ne_eq, Option.some.injEq]
    rintro rfl
    exact errno_not_isForeign r he

/-- A call is never interrupted, and never falters. -/
theorem errno?_call_ne (c : Call) (s : Session) {e : Errno} (he : IsForeign e) :
    errno? (s.call c).1 ≠ some e := by
  have hbadf : Errno.ebadf ≠ e := by rcases he with rfl | rfl <;> decide
  have hisdir : Errno.eisdir ≠ e := by rcases he with rfl | rfl <;> decide
  have hnotdir : Errno.enotdir ≠ e := by rcases he with rfl | rfl <;> decide
  cases c <;> simp only [call, ask, fstatat, read, readdir, close]
  case stat | readlink | getxattr => exact errno?_reported_ne _ he
  case openFile | opendir => exact errno?_opened_ne _ s he
  case fstatat | read | readdir | close | closedir =>
    split <;> simp_all [errno?_reported_ne _ he]
  all_goals exact errno?_act_ne _ s he

/-- Only opening lets handles deliver more. -/
theorem pending_call_le (c : Call) (s : Session) (hc : c.opensHandle = false) :
    pending (s.call c).2.streams ≤ pending s.streams := by
  have hact : ∀ f, pending (s.act f).2.streams ≤ pending s.streams := by
    intro f
    unfold act
    split <;> exact Nat.le_refl _
  cases c <;> simp only [call, ask, fstatat, read, readdir, close, Call.opensHandle,
    Bool.true_eq_false] at hc ⊢
  case stat | readlink | getxattr => exact Nat.le_refl _
  case fstatat => split <;> exact Nat.le_refl _
  case close | closedir =>
    split
    · exact pending_release_le _ _
    · exact Nat.le_refl _
  case read h room =>
    split
    · next rest hl =>
      have := pending_replace (s := .bytes (rest.drop room)) hl
      simp only [Stream.length, List.length_drop] at this ⊢
      omega
    · exact Nat.le_refl _
    · exact Nat.le_refl _
  case readdir h =>
    split
    · next dir e rest hl =>
      have := pending_replace (s := .entries dir rest) hl
      simp only [Stream.length, List.length_cons] at this ⊢
      omega
    all_goals exact Nat.le_refl _
  all_goals exact hact _

/-- A session as a system. -/
def system : System Session where
  call c s := s.call c
  setMask mask s :=
    (s.world.mask, { s with world := { s.world with mask := mask &&& 0o777 } })
  clock s := s.world.now
  patience s := pending s.streams
  longestLink := pathMax
  interrupted c s h := absurd h (errno?_call_ne c s (.inl rfl))
  steady c s hc := pending_call_le c s hc
  delivers h n s b hr hb := by
    simp only [call, read] at hr ⊢
    split at hr <;> cases hr
    next rest hl =>
    have := pending_replace (s := .bytes (rest.drop n)) hl
    have hlen : 0 < (rest.take n).length := List.length_pos_iff.2 hb
    simp only [Stream.length, List.length_drop, List.length_take] at this hlen
    dsimp only
    omega
  lists h s d hr := by
    simp only [call, readdir] at hr ⊢
    split at hr <;> cases hr
    next dir rest hl =>
    have := pending_replace (s := .entries dir rest) hl
    simp only [Stream.length, List.length_cons] at this
    dsimp only
    omega
  falters h s hr := absurd hr (errno?_call_ne _ s (.inr rfl))
  fills p n s b hr hb := by
    left
    simp only [call, ask, targetOf, reported] at hr
    revert hr
    cases s.world.file false p with
    | error r => intro hr; cases hr
    | ok i =>
      simp only [bind, Except.bind]
      cases hbody : s.world.body? i with
      | none => intro hr; cases hr
      | some body =>
        cases body <;> intro hr <;> cases hr
        next target =>
        have := target.length_lt
        simp only [List.length_take] at hb
        omega

end Session
end PosixFiles
