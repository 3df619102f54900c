/-
The times of a file after its modification time was set.

There are two ways to set it. The newer call leaves the access time alone.
Where that call does not exist the older one is made instead, which sets
both times in whole seconds: the access time is read before and handed on,
but for what is below a second. So it is left as it was if and only if
there was nothing below a second (`Trial.utime_sets_times`); with anything
there the two ways end in different access times
(`Trial.utime_drops_nanoseconds`). Whatever else is set is the same both
ways when the second is given.
-/
import PosixFiles.Proofs.Interruption.Session
import PosixFiles.Proofs.Operation.Effect
import PosixFiles.Proofs.Operation.Fault
import PosixFiles.Proofs.Operation.Ruling
import PosixFiles.Proofs.Operation.Session
import PosixFiles.Proofs.World.Fading

namespace PosixFiles

-- ================================================================= world

namespace World

variable {w w' : World} {p : Path} {atime mtime : TimeSetting}

/-- Setting times is a change to one file, of those the process owns. -/
theorem exists_of_setTimes_ok (h : w.setTimes p atime mtime = .ok w') :
    ∃ i file, w.file true p = .ok i ∧ w.nodes[i]? = some file
      ∧ w' = w.modify i fun f =>
        { f with atime := w.settled atime f.atime
                 mtime := w.settled mtime f.mtime
                 ctime := w.now } := by
  unfold setTimes ownFile at h
  cases hfile : w.file true p with
  | error e =>
      rw [hfile] at h
      cases h
  | ok i =>
      rw [hfile] at h
      dsimp only [bind, Except.bind] at h
      cases hnode : w.nodes[i]? with
      | none =>
          unfold isOwned at h
          rw [hnode] at h
          cases h
      | some file =>
          refine ⟨i, file, rfl, hnode, ?_⟩
          cases howned : w.isOwned i with
          | false =>
              rw [howned] at h
              cases h
          | true =>
              rw [howned] at h
              exact (Except.ok.inj h).symm

/-- A status shows the access time of the file that the path leads to. -/
theorem atime_of_statusFrom_ok {st : Status} (h : Session.statusFrom w.cwd true p w = .ok st)
    {i : Ino} {file : Node} (hfile : w.file true p = .ok i) (hnode : w.nodes[i]? = some file) :
    st.atime = file.atime := by
  obtain ⟨j, hj, hst⟩ := statusFrom_eq_ok_iff.1 h
  cases hfile.symm.trans hj
  rw [status?, hnode] at hst
  cases hst
  rfl

end World

-- ================================================================== runs

namespace System

variable {σ : Type} (S : System σ)

/-- What is accepted as it is leaves the code of a failure to be reported. -/
theorem run_persist_accept (c : Call) (subject : Subject) (s : σ) :
    (Op.persist S c >>= fun r => Op.accept subject r).run s
      = ⟨(S.persist c s).1.mapError (.ofErrno subject), [], (S.persist c s).2⟩ := by
  rw [Op.run_persist_bind]
  cases (S.persist c s).1 <;> rfl

/-- The older way is a look at the file and then the older call. -/
theorem run_utimeCoarse (p : Path) (now : Bool) (mtime : Int64) (s : σ) :
    (S.utimeCoarse p now mtime).run s =
      let look := S.persist (.stat true p) s
      match look.1 with
      | .error e => ⟨.error (.ofErrno (.path p) e), [], look.2⟩
      | .ok st =>
          let seconds := if now then max 0 (S.clock look.2).secs else mtime
          let set := S.persist (.utime p st.atime.secs seconds) look.2
          ⟨set.1.mapError (.ofErrno (.path p)), [], set.2⟩ := by
  unfold utimeCoarse
  rw [Op.run_persist_bind]
  dsimp only
  cases (S.persist (.stat true p) s).1 with
  | error e => rfl
  | ok st =>
      rw [Op.accept_ok_bind]
      cases now with
      | true =>
          rw [if_pos rfl, run_present_bind, run_persist_accept]
          rfl
      | false =>
          rw [if_neg Bool.false_ne_true, pure_bind, run_persist_accept]
          rfl

/-- How the modification time is set in the newer way. -/
def mtimeSetting (now : Bool) (mtime : Int64) : TimeSetting :=
  if now then .now else .set ⟨mtime, 0⟩

/-- If the newer call is answered, nothing more is done. -/
theorem run_utime_of_ok {p : Path} (hnul : p.hasNul = false) {now : Bool} {mtime : Int64}
    {s s' : σ} {u : Unit}
    (h : S.persist (.utimensat p .keep (mtimeSetting now mtime)) s = (.ok u, s')) :
    (S.utime p now mtime).run s = ⟨.ok (), [], s'⟩ := by
  unfold utime
  unfold mtimeSetting at h
  rw [Op.requireNoNul_bind _ (by simp [hnul])]
  dsimp only
  rw [Op.run_persist_bind, h]
  rfl

/-- The older way is gone only if the newer call does not exist. -/
theorem run_utime_of_error {p : Path} (hnul : p.hasNul = false) {now : Bool} {mtime : Int64}
    {s s' : σ} {e : Errno}
    (h : S.persist (.utimensat p .keep (mtimeSetting now mtime)) s = (.error e, s')) :
    (S.utime p now mtime).run s =
      if e = .enosys then
        let o := (S.utimeCoarse p now mtime).run s'
        ⟨o.result, .coarseTimes p :: o.events, o.state⟩
      else ⟨.error (.ofErrno (.path p) e), [], s'⟩ := by
  unfold utime
  unfold mtimeSetting at h
  rw [Op.requireNoNul_bind _ (by simp [hnul])]
  dsimp only
  rw [Op.run_persist_bind, h]
  dsimp only
  by_cases he : e = .enosys
  · rw [if_pos he, if_pos he, Op.run_emit_bind]
  · rw [if_neg he, if_neg he]
    rfl

end System

-- ================================================================ trials

namespace Trial

/-- A call that is answered in a trial, after any number of interruptions, is
answered by the session, unless the reply is prescribed. -/
theorem call_of_persist_ok (t : Trial) {c : Call} (hc : c.closesHandle = false)
    (hd : ∀ s : Session, t.disguise.call Session.system c s = s.call c)
    {r : Recorded (Scripted Session)} {a : c.Answer} (h : (t.system.persist c r).1 = .ok a) :
    (r.state.state.call c).1 = .ok a
      ∧ (t.system.persist c r).2.state.state = (r.state.state.call c).2 := by
  obtain ⟨-, ⟨e, -, -, herror⟩ | ⟨hreply, hstate⟩⟩ :=
    (Session.system.disguised t.disguise).faulty_persist_cases
      (Session.errno?_disguised_ne t.disguise) hc r
  · rw [show (t.system.persist c r).1 = _ from herror] at h
    cases h
  · have hcall : (Session.system.disguised t.disguise).call c r.state.state
        = r.state.state.call c := hd _
    rw [hcall] at hreply hstate
    exact ⟨hreply.symm.trans h, hstate⟩

/-- A call that fails in a trial leaves the world. -/
theorem world_of_persist_error (t : Trial) {c : Call} {r : Recorded (Scripted Session)}
    {e : Errno} (h : (t.system.persist c r).1 = .error e) :
    (t.system.persist c r).2.state.state.world = r.state.state.world := by
  have heffects := t.guards_effects.persist (c := c) (s := r) (by
    rw [h]
    exact takesEffect_error c e)
  exact (Prod.mk.inj heffects).1

/-- The older call sets both times, in whole seconds. -/
theorem world_of_persist_utime (t : Trial) {p : Path} {atime mtime : Int64}
    {r : Recorded (Scripted Session)} {u : Unit}
    (h : (t.system.persist (.utime p atime mtime) r).1 = .ok u) :
    ∃ i file, r.state.state.world.file true p = .ok i
      ∧ r.state.state.world.nodes[i]? = some file
      ∧ (t.system.persist (.utime p atime mtime) r).2.state.state.world
        = r.state.state.world.modify i fun f =>
          { f with atime := ⟨atime, 0⟩, mtime := ⟨mtime, 0⟩, ctime := r.state.state.world.now } := by
  obtain ⟨hcall, hstate⟩ := t.call_of_persist_ok (c := .utime p atime mtime) rfl (fun _ => rfl) h
  obtain ⟨w, hw, hact⟩ := Session.exists_of_act_ok hcall
  obtain ⟨i, file, hfile, hnode, rfl⟩ := World.exists_of_setTimes_ok hw
  refine ⟨i, file, hfile, hnode, ?_⟩
  rw [hstate]
  exact congrArg Session.world hact

/-- Times that were set the older way: the access time loses what is below a
second. -/
theorem world_of_utimeCoarse (t : Trial) (hd : t.disguise.status = none) {p : Path}
    {now : Bool} {mtime : Int64} {r : Recorded (Scripted Session)} {u : Unit}
    (hok : ((t.system.utimeCoarse p now mtime).run r).result = .ok u) :
    ∃ i file, r.state.state.world.file true p = .ok i
      ∧ r.state.state.world.nodes[i]? = some file
      ∧ ((t.system.utimeCoarse p now mtime).run r).state.state.state.world
        = r.state.state.world.modify i fun f =>
          { f with
            atime := ⟨file.atime.secs, 0⟩
            mtime := ⟨if now then max 0 r.state.state.world.now.secs else mtime, 0⟩
            ctime := r.state.state.world.now } := by
  rw [System.run_utimeCoarse] at hok ⊢
  dsimp only at hok ⊢
  cases hlook : (t.system.persist (.stat true p) r).1 with
  | error e =>
      rw [hlook] at hok
      cases hok
  | ok st =>
      obtain ⟨hcall, hstate⟩ := t.call_of_persist_ok rfl (Disguise.call_stat hd _ _ _) hlook
      have hsame : (t.system.persist (.stat true p) r).2.state.state = r.state.state := hstate
      have hstatus := Session.ok_of_reported hcall
      rw [hlook] at hok
      dsimp only at hok ⊢
      cases hset : (t.system.persist (.utime p st.atime.secs (if now = true then
          max 0 (t.system.clock (t.system.persist (.stat true p) r).2).secs else mtime))
          (t.system.persist (.stat true p) r).2).1 with
      | error e =>
          rw [hset] at hok
          cases hok
      | ok v =>
          have hclock : t.system.clock (t.system.persist (.stat true p) r).2
              = r.state.state.world.now := congrArg (Session.world · |>.now) hsame
          obtain ⟨i, file, hfile, hnode, hworld⟩ := t.world_of_persist_utime hset
          rw [hsame] at hfile hnode hworld
          rw [hworld, hclock, World.atime_of_statusFrom_ok hstatus hfile hnode]
          exact ⟨i, file, hfile, hnode, rfl⟩

/-- The newer call sets the modification time and leaves the access time. -/
theorem world_of_persist_utimensat (t : Trial) {p : Path} {now : Bool} {mtime : Int64}
    {r : Recorded (Scripted Session)} {u : Unit}
    (h : (t.system.persist (.utimensat p .keep (System.mtimeSetting now mtime)) r).1 = .ok u) :
    ∃ i file, r.state.state.world.file true p = .ok i
      ∧ r.state.state.world.nodes[i]? = some file
      ∧ (t.system.persist (.utimensat p .keep (System.mtimeSetting now mtime)) r).2.state.state.world
        = r.state.state.world.modify i fun f =>
          { f with
            mtime := if now then r.state.state.world.now else ⟨mtime, 0⟩
            ctime := r.state.state.world.now } := by
  obtain ⟨hcall, hstate⟩ := t.call_of_persist_ok rfl (fun _ => rfl) h
  obtain ⟨w, hw, hact⟩ := Session.exists_of_act_ok hcall
  obtain ⟨i, file, hfile, hnode, rfl⟩ := World.exists_of_setTimes_ok hw
  refine ⟨i, file, hfile, hnode, ?_⟩
  rw [hstate]
  refine (congrArg Session.world hact).trans ?_
  cases now <;> rfl

/-- Whether the newer call turned out not to exist. -/
def Report.FellBack {t : Trial} (o : t.Report) : Prop :=
  ∃ x ∈ o.exchanges, x.IsMissing

/-- Times are set the newer way, or else the older way after the newer call
turned out not to exist. -/
theorem report_utime_cases (F : Files) (session : Session) {p : Path} {now : Bool}
    {mtime : Int64} {script : List Fault} {disguise : Disguise} (hd : disguise.status = none)
    (hok : ((Trial.mk (.utime p now mtime) script disguise).report F session).result = .ok ()) :
    let o := (Trial.mk (.utime p now mtime) script disguise).report F session
    let w := session.world
    ∃ i file, w.file true p = .ok i ∧ w.nodes[i]? = some file
      ∧ (¬ o.FellBack ∧ o.session.world = w.modify i (fun f =>
            { f with mtime := if now then w.now else ⟨mtime, 0⟩, ctime := w.now })
          ∨ o.FellBack ∧ o.session.world = w.modify i fun f =>
            { f with
              atime := ⟨file.atime.secs, 0⟩
              mtime := ⟨if now then max 0 w.now.secs else mtime, 0⟩
              ctime := w.now }) := by
  intro o w
  let t : Trial := .mk (.utime p now mtime) script disguise
  let r : Recorded (Scripted Session) := ⟨[], ⟨script, session⟩⟩
  let c : Call := .utimensat p .keep (System.mtimeSetting now mtime)
  have hnul : p.hasNul = false := by
    cases hpresentable : t.request.isPresentable with
    | true =>
        unfold Request.isPresentable at hpresentable
        simpa [t, Request.arguments, Request.room?] using hpresentable
    | false =>
        obtain ⟨f, hrun⟩ := F.run_of_not_presentable (S := t.system) rfl hpresentable r
        have hfails : o.result = .error f := congrArg Outcome.result hrun
        cases hok.symm.trans hfails
  obtain ⟨k, hpersist⟩ := System.exchanges_persist
    (S := (Session.system.disguised disguise).faulty) c r
  have hlast : ∀ {reply : Reply c} {r' : Recorded (Scripted Session)},
      t.system.persist c r = (reply, r') →
      r'.exchanges = List.replicate k ⟨c, .error .eintr⟩ ++ [⟨c, reply⟩] := by
    intro reply r' hset
    have hset' : (Session.system.disguised disguise).faulty.recorded.persist c r = (reply, r') :=
      hset
    rw [hset'] at hpersist
    exact hpersist
  rcases hset : t.system.persist c r with ⟨reply, r'⟩
  cases reply with
  | ok u =>
      have hrun : (t.system.utime p now mtime).run r = ⟨.ok (), [], r'⟩ :=
        System.run_utime_of_ok t.system hnul hset
      have hexchanges : o.exchanges = r'.exchanges := congrArg (·.state.exchanges) hrun
      have hworld : o.session.world = r'.state.state.world :=
        congrArg (·.state.state.state.world) hrun
      obtain ⟨i, file, hfile, hnode, hafter⟩ :=
        t.world_of_persist_utimensat (congrArg Prod.fst hset)
      refine ⟨i, file, hfile, hnode, Or.inl ⟨?_, ?_⟩⟩
      · rintro ⟨x, hx, hmissing⟩
        rw [hexchanges, hlast hset] at hx
        rcases List.mem_append.1 hx with hx | hx
        · rw [List.eq_of_mem_replicate hx] at hmissing
          cases hmissing.2
        · rw [List.mem_singleton.1 hx] at hmissing
          cases hmissing.2
      · rw [hworld, ← hafter]
        exact congrArg (·.2.state.state.world) hset.symm
  | error e =>
      have hrun := System.run_utime_of_error t.system hnul hset
      by_cases he : e = .enosys
      · subst he
        rw [if_pos rfl] at hrun
        dsimp only at hrun
        have hresult : ((t.system.utimeCoarse p now mtime).run r').result = .ok () :=
          (congrArg Outcome.result hrun).symm.trans hok
        have hexchanges : o.exchanges
            = ((t.system.utimeCoarse p now mtime).run r').state.exchanges :=
          congrArg (·.state.exchanges) hrun
        have hworld : o.session.world
            = ((t.system.utimeCoarse p now mtime).run r').state.state.state.world :=
          congrArg (·.state.state.state.world) hrun
        have hsame : r'.state.state.world = w := by
          have hworld' := t.world_of_persist_error (congrArg Prod.fst hset)
          rwa [hset] at hworld'
        obtain ⟨i, file, hfile, hnode, hafter⟩ := t.world_of_utimeCoarse hd hresult
        rw [hsame] at hfile hnode hafter
        refine ⟨i, file, hfile, hnode, Or.inr ⟨⟨⟨c, .error .enosys⟩, ?_, rfl, rfl⟩, ?_⟩⟩
        · obtain ⟨es, hes, -⟩ := System.course_utimeCoarse
            (S := (Session.system.disguised disguise).faulty) p now mtime rfl r'
          have hall : o.exchanges = r'.exchanges ++ es := hexchanges.trans hes
          rw [hall, hlast hset]
          exact List.mem_append_left _ (List.mem_append_right _ (List.mem_singleton_self _))
        · rw [hworld, hafter]
      · rw [if_neg he] at hrun
        have hfails : o.result = .error (.ofErrno (.path p) e) := congrArg Outcome.result hrun
        cases hok.symm.trans hfails

/-- What setting times leaves behind. The modification time is as it was asked
for, to the second where it was given; the access time is as it was unless
the newer call does not exist and there was something below a second; and
nothing else changes but the time of the change itself. -/
theorem utime_sets_times (F : Files) (session : Session) (p : Path) (now : Bool) (mtime : Int64)
    (script : List Fault) {disguise : Disguise} (hd : disguise.status = none)
    (hok : ((Trial.mk (.utime p now mtime) script disguise).report F session).result = .ok ()) :
    let o := (Trial.mk (.utime p now mtime) script disguise).report F session
    let w := session.world
    ∃ i file, w.file true p = .ok i ∧ w.nodes[i]? = some file
      ∧ (¬ o.FellBack → o.session.world = w.modify i fun f =>
          { f with mtime := if now then w.now else ⟨mtime, 0⟩, ctime := w.now })
      ∧ (o.FellBack → o.session.world = w.modify i fun f =>
          { f with
            atime := ⟨file.atime.secs, 0⟩
            mtime := ⟨if now then max 0 w.now.secs else mtime, 0⟩
            ctime := w.now })
      ∧ ∃ file', o.session.world.nodes[i]? = some file'
        ∧ (file'.atime = file.atime ↔ (o.FellBack → file.atime.nanos = 0))
        ∧ (now = false → file'.mtime = ⟨mtime, 0⟩) := by
  intro o w
  obtain ⟨i, file, hfile, hnode, hcases⟩ := report_utime_cases F session hd hok
  refine ⟨i, file, hfile, hnode, ?_⟩
  rcases hcases with ⟨hnewer, hworld⟩ | ⟨holder, hworld⟩
  · have hafter := World.nodes_modify (w := w) i i (fun f =>
      { f with mtime := if now then w.now else ⟨mtime, 0⟩, ctime := w.now })
    rw [if_pos rfl, hnode, ← hworld] at hafter
    refine ⟨fun _ => hworld, fun h => absurd h hnewer, _, hafter, ?_, ?_⟩
    · exact ⟨fun _ h => absurd h hnewer, fun _ => rfl⟩
    · rintro rfl
      rfl
  · have hafter := World.nodes_modify (w := w) i i (fun f =>
      { f with
        atime := ⟨file.atime.secs, 0⟩
        mtime := ⟨if now then max 0 w.now.secs else mtime, 0⟩
        ctime := w.now })
    rw [if_pos rfl, hnode, ← hworld] at hafter
    refine ⟨fun h => absurd holder h, fun _ => hworld, _, hafter, ?_, ?_⟩
    · refine ⟨fun h _ => ?_, fun h => ?_⟩
      · exact (congrArg Timespec.nanos h).symm
      · have hzero := h holder
        show Timespec.mk file.atime.secs 0 = file.atime
        rw [← hzero]
    · rintro rfl
      rfl

/-- Times that are set the older way on a file that was last read half a
second after a whole one. -/
theorem utime_sets_times_coarsely :
    let t : Trial := .mk (.utime [0x66] false 1000) [⟨.utimensat, some .enosys⟩] {}
    let file : Node := ⟨.regular [], 0o644, true, [], ⟨100, 500000000⟩, {}, {}⟩
    let s : Session :=
      { world :=
          { nodes := #[⟨.directory { parent := 0, entries := [([0x66], 1)] }, 0o755, true, [],
                {}, {}, {}⟩, file]
            cwd := 0, mask := 0o022, now := {} } }
    let o := t.report {} s
    let w := s.world
    t.disguise.status = none ∧ o.result = .ok ()
      ∧ ∃ i file, w.file true [0x66] = .ok i ∧ w.nodes[i]? = some file
        ∧ (¬ o.FellBack → o.session.world = w.modify i fun f =>
            { f with mtime := ⟨1000, 0⟩, ctime := w.now })
        ∧ (o.FellBack → o.session.world = w.modify i fun f =>
            { f with atime := ⟨file.atime.secs, 0⟩, mtime := ⟨1000, 0⟩, ctime := w.now })
        ∧ ∃ file', o.session.world.nodes[i]? = some file'
          ∧ (file'.atime = file.atime ↔ (o.FellBack → file.atime.nanos = 0))
          ∧ (false = false → file'.mtime = ⟨1000, 0⟩) := by
  intro t file s o w
  have hsome : o.result.toOption = some () := by
    decide +kernel
  have hok : o.result = .ok () := by
    cases hr : o.result with
    | ok u => rfl
    | error f =>
        rw [hr] at hsome
        cases hsome
  exact ⟨rfl, hok, utime_sets_times {} s [0x66] false 1000 [⟨.utimensat, some .enosys⟩] rfl hok⟩

/-- Where the newer call does not exist half a second of the access time is
lost; where it exists nothing is. The modification time is the same. -/
theorem utime_drops_nanoseconds :
    let file : Node := ⟨.regular [], 0o644, true, [], ⟨100, 500000000⟩, {}, {}⟩
    let s : Session :=
      { world :=
          { nodes := #[⟨.directory { parent := 0, entries := [([0x66], 1)] }, 0o755, true, [],
                {}, {}, {}⟩, file]
            cwd := 0, mask := 0o022, now := {} } }
    let newer := (Trial.mk (.utime [0x66] false 1000) [] {}).report {} s
    let older :=
      (Trial.mk (.utime [0x66] false 1000) [⟨.utimensat, some .enosys⟩] {}).report {} s
    newer.result.toOption = some () ∧ older.result.toOption = some ()
      ∧ newer.session.world.nodes[1]?.map (fun f => (f.atime, f.mtime))
        = some (⟨100, 500000000⟩, ⟨1000, 0⟩)
      ∧ older.session.world.nodes[1]?.map (fun f => (f.atime, f.mtime))
        = some (⟨100, 0⟩, ⟨1000, 0⟩) :=
  ⟨by decide +kernel, by decide +kernel, by decide +kernel, by decide +kernel⟩

end Trial
end PosixFiles
