/-
Replies prepared in advance.

The state is a sequence of replies, each ready for whatever call comes;
every call uses up the first of them, and once there are none left every
call fails. Any finite sequence of replies can be prepared, interruptions
and failures among them, so what holds on every system holds for every
sequence of replies.
-/
import PosixFiles.System.Basic

namespace PosixFiles

/-- A reply for whatever call comes. -/
abbrev PreparedReply := (c : Call) → Reply c

namespace System

/-- The reply to a call where replies are prepared. -/
def preparedCall (c : Call) : List PreparedReply → Reply c × List PreparedReply
  | [] => (.error .ebadf, [])
  | r :: rest => (r c, rest)

/-- A reply other than the last resort uses a prepared one up. -/
theorem length_preparedCall_lt {c : Call} {s : List PreparedReply}
    (h : (preparedCall c s).1 ≠ .error .ebadf) :
    (preparedCall c s).2.length < s.length := by
  cases s with
  | nil => exact absurd rfl h
  | cons r rest => exact Nat.lt_succ_self _

/-- A system whose replies are prepared. -/
def prepared : System (List PreparedReply) where
  call := preparedCall
  setMask _ s := (0, s)
  clock _ := {}
  patience := List.length
  longestLink := 0
  interrupted c s h := length_preparedCall_lt fun hr => by
    rw [hr] at h
    exact absurd (Option.some.inj h) (by decide)
  steady c s _ := by
    cases s with
    | nil => exact Nat.le_refl _
    | cons r rest => exact Nat.le_succ _
  delivers h n s b hr _ := length_preparedCall_lt (by rw [hr]; exact nofun)
  lists h s d hr := length_preparedCall_lt (by rw [hr]; exact nofun)
  falters h s hr := length_preparedCall_lt fun he => by
    rw [he] at hr
    exact absurd (Option.some.inj hr) (by decide)
  fills p n s b hr _ := .inr (length_preparedCall_lt (by rw [hr]; exact nofun))

end System
end PosixFiles
