/-
Trials with and without interruptions.

All requests but two put interruptions out of sight: the creation of
directories all the way down reports one as a failure, and so does reading
an attribute. For the others the same trial made on the quiet form of its
script has the same result and leaves the same session behind
(`Trial.report_quiet`). What differs is what was noted, and how many calls
were made: an interruption costs one more, and no more than that, so a
trial ends soon after its quiet form does.
-/
import PosixFiles.Proofs.Interruption.Listing
import PosixFiles.Proofs.Interruption.Operation
import PosixFiles.Proofs.Interruption.Session
import PosixFiles.Trial

namespace PosixFiles

variable {σ : Type} {S : System σ} {holds : Handle → σ → Prop}

-- ============================================================== requests

/-- Whether interruptions are out of the sight of whoever makes a
request. -/
def Request.persists : Request → Bool
  | .mkdirs .. | .getxattr .. => false
  | _ => true

/-- The code that an answer carries, if it is one that may be a failure. -/
def Request.code? : (r : Request) → r.Answer → Option Errno
  | .statOutcome .., v => some v.errno
  | _, _ => none

/-- The code that a result carries, as a failure or within an answer. -/
def Request.reported? (r : Request) : Except Failure r.Answer → Option Errno
  | .ok v => r.code? v
  | .error f => some f.errno

/-- Every request that puts interruptions out of sight agrees. -/
theorem Files.agrees_perform (F : Files) (hS : Calm S holds) {r : Request}
    (hr : r.persists = true) :
    Agrees anyState (F.perform S.faulty.recorded r) fun v _ => r.code? v ≠ some .eintr := by
  cases r with
  | stat follow p => exact (System.agrees_stat hS follow p).of_anyValue nofun
  | statOutcome follow p =>
      refine (System.agrees_statOutcome hS follow p).consequence (fun _ h => h) ?_
      exact fun v _ hv hc => hv (Option.some.inj hc)
  | link old new => exact (System.agrees_link hS old new).of_anyValue nofun
  | symlink target p => exact (System.agrees_symlink hS target p).of_anyValue nofun
  | readlink p => exact (System.agrees_readlink hS p).of_anyValue nofun
  | rename old new => exact (System.agrees_rename hS old new).of_anyValue nofun
  | unlink p => exact (System.agrees_unlink hS p).of_anyValue nofun
  | remove p => exact (System.agrees_remove hS p).of_anyValue nofun
  | chmod p mode => exact (System.agrees_chmod hS p mode).of_anyValue nofun
  | mkfifo p mode => exact (System.agrees_mkfifo hS p mode).of_anyValue nofun
  | utime p now mtime => exact (System.agrees_utime hS p now mtime).of_anyValue nofun
  | mkdir p mode => exact (System.agrees_mkdir hS p mode).of_anyValue nofun
  | umask mask => exact (System.agrees_umask mask).of_anyValue nofun
  | readDir p query => exact (System.agrees_readDir hS p query).of_anyValue nofun
  | md5 p room => exact (System.agrees_md5 hS p _).of_anyValue nofun
  | systemParameter name => exact (System.agrees_systemParameter hS name).of_anyValue nofun
  | mkdirs | getxattr => cases hr

-- ================================================================ trials

namespace Trial

/-- A trial with its interruptions taken out. -/
def quiet (t : Trial) : Trial :=
  { t with script := Fault.quiet t.script }

/-- A state in which a trial begins is alike the one in which its quiet
form does. -/
theorem alike_start (script : List Fault) (session : Session) :
    Alike (Fault.interruptions script) ⟨[], ⟨script, session⟩⟩
      ⟨[], ⟨Fault.quiet script, session⟩⟩ where
  state_eq := rfl
  script_eq := rfl
  calls_eq := rfl

/-- A trial and its quiet form have the same result and leave the same
session. The interruptions cost no more than a call each, and none of them
is reported. -/
theorem report_quiet (F : Files) (session : Session) {t : Trial}
    (ht : t.request.persists = true) :
    (t.quiet.report F session).result = (t.report F session).result
      ∧ (t.quiet.report F session).session = (t.report F session).session
      ∧ (t.report F session).exchanges.length
          ≤ (t.quiet.report F session).exchanges.length + Fault.interruptions t.script
      ∧ t.request.reported? (t.report F session).result ≠ some .eintr := by
  obtain ⟨hresult, halike, hspared⟩ :=
    F.agrees_perform (Session.calm_disguised t.disguise) ht _ _ _
      (alike_start t.script session) trivial
  refine ⟨hresult, halike.state_eq, ?_, ?_⟩
  · have hcalls := halike.calls_eq
    show (List.reverse _).length ≤ (List.reverse _).length + _
    rw [List.length_reverse, List.length_reverse]
    exact Nat.le.intro hcalls
  · revert hspared
    show Except.Spared _ _ (t.report F session).result → _
    cases (t.report F session).result with
    | ok v => exact fun h => h
    | error f => exact fun h hc => h (Option.some.inj hc)

/-- A listing of a directory with one entry, whose opening and closing are
interrupted, as is the reading of the end: nothing is reported, and two of
the three interruptions cost a call each, for closing is not repeated. -/
theorem report_quiet_listing :
    let t : Trial :=
      { request := .readDir [0x2f] .ofEntry
        script := [⟨.opendir, some .eintr⟩, ⟨.readdir, none⟩, ⟨.readdir, some .eintr⟩,
          ⟨.closedir, some .eintr⟩] }
    let s : Session :=
      { world :=
          { nodes := #[⟨.directory { parent := 0, entries := [([0x66], 1)] }, 0o755, true, [],
                {}, {}, {}⟩,
              ⟨.directory { parent := 0 }, 0o755, true, [], {}, {}, {}⟩]
            cwd := 0, mask := 0o022, now := {} } }
    t.request.persists = true
      ∧ t.quiet.script = [⟨.readdir, none⟩, ⟨.closedir, none⟩]
      ∧ (t.report {} s).exchanges.length = 8
      ∧ t.request.reported? (t.report {} s).result = none
      ∧ (t.quiet.report {} s).result = (t.report {} s).result
      ∧ (t.quiet.report {} s).session = (t.report {} s).session
      ∧ (t.report {} s).exchanges.length
          ≤ (t.quiet.report {} s).exchanges.length + Fault.interruptions t.script
      ∧ t.request.reported? (t.report {} s).result ≠ some .eintr :=
  ⟨rfl, by decide, by decide +kernel, by decide +kernel, report_quiet {} _ rfl⟩

end Trial
end PosixFiles
