/-
A session in a world that other processes add to.

Before each call the additions that are due are made, as far as their
names are free by then. The schedule says which are due before the first
call, before the second, and so on; any list of lists is a schedule, so
whatever is added between calls, there is a schedule for it. A record is
kept of the additions that came due and of the worlds that they met.
-/
import PosixFiles.Proofs.World.Growth
import PosixFiles.Session

namespace PosixFiles

/-- A session, and what other processes are going to add and have added. -/
structure Contested where
  /-- The additions due before each of the calls to come. -/
  schedule : List (List Addition)
  session : Session
  /-- The additions that came due, each with the world that it met. -/
  history : List (World × Addition) := []

namespace Contested

/-- The world that the session sees. -/
def world (x : Contested) : World := x.session.world

/-- What other processes make of the world before the next call. -/
def intruded (x : Contested) : Contested where
  schedule := x.schedule.tail
  session := { x.session with world := x.world.addAll (x.schedule.headD []) }
  history := x.history ++ x.world.additions (x.schedule.headD [])

end Contested

/-- A session in a world that other processes add to, as a system. -/
def System.contested : System Contested where
  call c x := ((x.intruded.session.call c).1,
    { x.intruded with session := (x.intruded.session.call c).2 })
  setMask mask x := ((Session.system.setMask mask x.session).1,
    { x with session := (Session.system.setMask mask x.session).2 })
  clock x := Session.system.clock x.session
  patience x := Session.system.patience x.session
  longestLink := Session.system.longestLink
  interrupted c x h := Session.system.interrupted c x.intruded.session h
  steady c x hc := Session.system.steady c x.intruded.session hc
  delivers h n x b hr hb := Session.system.delivers h n x.intruded.session b hr hb
  lists h x d hr := Session.system.lists h x.intruded.session d hr
  falters h x hr := Session.system.falters h x.intruded.session hr
  fills p n x b hr hb := Session.system.fills p n x.intruded.session b hr hb

end PosixFiles
