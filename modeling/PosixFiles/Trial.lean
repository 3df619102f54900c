/-
Trials: one request performed in a session while faults and prescribed
replies are in force, with a record of the calls made.

A fault strikes before a prescribed reply is given, and the record shows
what the operation was told.
-/
import PosixFiles.Session
import PosixFiles.Request
import PosixFiles.System.Disguised
import PosixFiles.System.Faulty
import PosixFiles.System.Recorded

namespace PosixFiles

/-- A request and the circumstances under which it is performed. -/
structure Trial where
  request : Request
  script : List Fault := []
  disguise : Disguise := {}

/-- What came of a trial. -/
structure Trial.Report (t : Trial) where
  result : Except Failure t.request.Answer
  events : List Event
  exchanges : List Exchange
  /-- The session afterwards. -/
  session : Session

namespace Trial

/-- The system that a trial is made on. -/
def system (t : Trial) : System (Recorded (Scripted Session)) :=
  (Session.system.disguised t.disguise).faulty.recorded

/-- Makes a trial in a session. -/
def report (t : Trial) (F : Files) (session : Session) : t.Report :=
  let o := (F.perform t.system t.request).run ⟨[], ⟨t.script, session⟩⟩
  ⟨o.result, o.events, o.state.exchanges, o.state.state.state⟩

end Trial
end PosixFiles
