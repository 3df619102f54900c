/-
A record of the calls made to a system and of its replies.
-/
import PosixFiles.System.Basic

namespace PosixFiles

/-- A call with the reply it got. -/
structure Exchange where
  call : Call
  reply : Reply call

/-- A state together with the exchanges that led to it, the latest
first. -/
structure Recorded (σ : Type) where
  latest : List Exchange
  state : σ

/-- The exchanges in the order in which they took place. -/
def Recorded.exchanges {σ : Type} (r : Recorded σ) : List Exchange :=
  r.latest.reverse

/-- A system that keeps a record. -/
def System.recorded {σ : Type} (S : System σ) : System (Recorded σ) where
  call c s :=
    let r := S.call c s.state
    (r.1, ⟨⟨c, r.1⟩ :: s.latest, r.2⟩)
  setMask m s := ((S.setMask m s.state).1, ⟨s.latest, (S.setMask m s.state).2⟩)
  clock s := S.clock s.state
  patience s := S.patience s.state
  longestLink := S.longestLink
  interrupted c s h := S.interrupted c s.state h
  steady c s hc := S.steady c s.state hc
  delivers h n s b hr hb := S.delivers h n s.state b hr hb
  lists h s d hr := S.lists h s.state d hr
  falters h s hr := S.falters h s.state hr
  fills p n s b hr hb := S.fills p n s.state b hr hb

end PosixFiles
