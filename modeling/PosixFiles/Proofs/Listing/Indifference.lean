/-
Finding out types makes no difference to what is listed.

# Two listings

One listing may ask for types where another does not, be given other hints,
and have other looks at entries fail. What the two have in common is said of
any two systems by `Agree`: as long as two states correspond, opening,
reading and closing a directory give the same but for hints and lead to
corresponding states again, and a look at an entry leads to a state that
still corresponds to the same one on the other side. Then the listings come
to the same names or to the same failure (`Agree.readDir`). The induction
follows the loop on the one side, where a turn may take a look; on the other
side the same turn is made, with its own look or none.

Trials that differ in hints and in faults for looks only are such systems.
So is a trial whose replies are told by way of a cell for codes, whatever
looks leave in it.

# One listing

That every listed entry has a type as wanted, and that a failed look leaves
it unknown, is read off from what the record of a listing amounts to
(`AmountsTo`).
-/
import PosixFiles.Proofs.Listing.Stream
import PosixFiles.Proofs.Operation.Fault
import PosixFiles.System.Signalled
import PosixFiles.Trial

namespace PosixFiles

namespace System

variable {σ τ : Type} {S : System σ} {T : System τ}

-- ================================================================= types

/-- The type of an entry is found by its hint, or by a look that leaves it
unknown if it fails. -/
theorem run_typeOfEntry (S : System σ) (dir : Handle) (e : StreamEntry) (follow : Bool) (s : σ) :
    ∃ type events t, (S.typeOfEntry dir e follow).run s = ⟨.ok type, events, t⟩
      ∧ (follow = true → type ≠ .symlink)
      ∧ (t = s ∨ t = (S.call (.fstatat dir e.name) s).2
        ∧ ∀ c, (S.call (.fstatat dir e.name) s).1 = .error c → type = .unknown) := by
  unfold typeOfEntry
  split
  · exact ⟨_, _, _, rfl, nofun, Or.inl rfl⟩
  split
  · exact ⟨_, _, _, rfl, nofun, Or.inl rfl⟩
  split
  next hlink =>
    refine ⟨_, _, _, rfl, fun hfollow => ?_, Or.inl rfl⟩
    simp [hfollow] at hlink
  split
  · unfold typeByStatus
    rw [Op.run_issue_bind]
    cases (S.call (.fstatat dir e.name) s).1 with
    | ok st =>
        refine ⟨_, _, _, rfl, fun _ => ?_, Or.inr ⟨rfl, nofun⟩⟩
        unfold EntryType.ofStatus
        split
        · exact nofun
        · split <;> exact nofun
    | error c => exact ⟨_, _, _, rfl, nofun, Or.inr ⟨rfl, fun _ _ => rfl⟩⟩
  · exact ⟨_, _, _, rfl, nofun, Or.inl rfl⟩

/-- What a listing makes of an entry: its name, and a type if types are
wanted. -/
structure Typed (query : TypeQuery) (x : Entry) : Prop where
  type_eq_none_iff : x.type = none ↔ query = .none
  ne_symlink : query = .ofTarget → x.type ≠ some .symlink

theorem typedEntry_run (S : System σ) (dir : Handle) (query : TypeQuery) (e : StreamEntry)
    (s : σ) :
    ∃ type events t, (S.typedEntry dir query e).run s = ⟨.ok ⟨e.name, type⟩, events, t⟩
      ∧ Typed query ⟨e.name, type⟩
      ∧ (t = s ∨ t = (S.call (.fstatat dir e.name) s).2
        ∧ ∀ c, (S.call (.fstatat dir e.name) s).1 = .error c → type = some .unknown) := by
  cases query with
  | none => exact ⟨none, [], s, rfl, ⟨by simp, nofun⟩, Or.inl rfl⟩
  | ofEntry =>
      obtain ⟨type, events, t, hrun, -, hlook⟩ := run_typeOfEntry S dir e false s
      refine ⟨some type, _, t, Op.run_bind_ok hrun, ⟨by simp, nofun⟩, hlook.imp_right ?_⟩
      exact fun ⟨ht, hfail⟩ => ⟨ht, fun c hc => congrArg some (hfail c hc)⟩
  | ofTarget =>
      obtain ⟨type, events, t, hrun, hlink, hlook⟩ := run_typeOfEntry S dir e true s
      refine ⟨some type, _, t, Op.run_bind_ok hrun, ⟨by simp, fun _ h => ?_⟩, hlook.imp_right ?_⟩
      · exact hlink rfl (Option.some.inj h)
      · exact fun ⟨ht, hfail⟩ => ⟨ht, fun c hc => congrArg some (hfail c hc)⟩

-- ========================================================== two listings

/-- The name that a directory delivers. -/
def nameRead (r : Except Errno (Option StreamEntry)) : Except Errno (Option Name) :=
  r.map (·.map StreamEntry.name)

theorem of_nameRead_none {r : Except Errno (Option StreamEntry)}
    (h : nameRead (.ok none) = nameRead r) : r = .ok none := by
  rcases r with c | (_ | e) <;> first | rfl | cases h

theorem of_nameRead_some {e : StreamEntry} {r : Except Errno (Option StreamEntry)}
    (h : nameRead (.ok (some e)) = nameRead r) :
    ∃ e', r = .ok (some e') ∧ e'.name = e.name := by
  rcases r with c | (_ | e')
  · cases h
  · cases h
  · exact ⟨e', rfl, (Option.some.inj (Except.ok.inj h)).symm⟩

theorem of_nameRead_error {c : Errno} {r : Except Errno (Option StreamEntry)}
    (h : nameRead (.error c) = nameRead r) : r = .error c := by
  rcases r with c' | (_ | e) <;> cases h
  rfl

/-- The names of a listing. -/
def namesListed (r : Except Failure (List Entry)) : Except Failure (List Name) :=
  r.map (·.map Entry.name)

theorem namesListed_map_cons (x : Entry) (r : Except Failure (List Entry)) :
    namesListed (r.map (x :: ·)) = (namesListed r).map (x.name :: ·) := by
  cases r <;> rfl

/-- Two systems that agree about directories, but for hints and looks at
entries. -/
structure Agree (S : System σ) (T : System τ) (R : σ → τ → Prop) : Prop where
  opendir : ∀ {s t}, R s t → ∀ p, (S.call (.opendir p) s).1 = (T.call (.opendir p) t).1
    ∧ R (S.call (.opendir p) s).2 (T.call (.opendir p) t).2
  readdir : ∀ {s t}, R s t → ∀ dir,
    nameRead (S.call (.readdir dir) s).1 = nameRead (T.call (.readdir dir) t).1
      ∧ R (S.call (.readdir dir) s).2 (T.call (.readdir dir) t).2
  closedir : ∀ {s t}, R s t → ∀ dir,
    (S.call (.closedir dir) s).1 = (T.call (.closedir dir) t).1
      ∧ R (S.call (.closedir dir) s).2 (T.call (.closedir dir) t).2
  look_left : ∀ {s t}, R s t → ∀ dir n, R (S.call (.fstatat dir n) s).2 t
  look_right : ∀ {s t}, R s t → ∀ dir n, R s (T.call (.fstatat dir n) t).2

namespace Agree

variable {R : σ → τ → Prop} {s : σ} {t : τ} {dir : Handle} {query query' : TypeQuery}

theorem typed_left (h : Agree S T R) (hst : R s t) (dir : Handle) (query : TypeQuery)
    (e : StreamEntry) :
    R ((S.typedEntry dir query e).run s).state t := by
  obtain ⟨type, events, s', hrun, -, rfl | ⟨rfl, -⟩⟩ := typedEntry_run S dir query e s
  · rw [hrun]
    exact hst
  · rw [hrun]
    exact h.look_left hst dir e.name

theorem typed_right (h : Agree S T R) (hst : R s t) (dir : Handle) (query : TypeQuery)
    (e : StreamEntry) :
    R s ((T.typedEntry dir query e).run t).state := by
  obtain ⟨type, events, t', hrun, -, rfl | ⟨rfl, -⟩⟩ := typedEntry_run T dir query e t
  · rw [hrun]
    exact hst
  · rw [hrun]
    exact h.look_right hst dir e.name

/-- Opening is repeated equally often on both sides. -/
theorem persist_opendir (h : Agree S T R) (p : Path) (s : σ) : ∀ t, R s t →
    (S.persist (.opendir p) s).1 = (T.persist (.opendir p) t).1
      ∧ R (S.persist (.opendir p) s).2 (T.persist (.opendir p) t).2 := by
  fun_induction System.persist S (.opendir p) s with
  | case1 s r hr ih =>
      intro t hst
      obtain ⟨hreply, hst'⟩ := h.opendir hst p
      rw [T.persist_of_interrupted (hreply ▸ hr)]
      exact ih _ hst'
  | case2 s r hr =>
      intro t hst
      obtain ⟨hreply, hst'⟩ := h.opendir hst p
      rw [T.persist_eq_call (hreply ▸ hr)]
      exact ⟨hreply, hst'⟩

/-- Reading to the end comes to the same names, or to the same failure. -/
theorem entriesFrom (h : Agree S T R) (p : Path) (dir : Handle) (query query' : TypeQuery)
    (s : σ) : ∀ t, R s t →
    namesListed (S.entriesFrom p dir query s).result
        = namesListed (T.entriesFrom p dir query' t).result
      ∧ R (S.entriesFrom p dir query s).state (T.entriesFrom p dir query' t).state := by
  fun_induction System.entriesFrom S p dir query s with
  | case1 s r hr =>
      intro t hst
      obtain ⟨hname, hst'⟩ := h.readdir hst dir
      have hr' : (T.call (.readdir dir) t).1 = .ok none := of_nameRead_none (hr ▸ hname)
      rw [entriesFrom_eq T, hr']
      exact ⟨rfl, hst'⟩
  | case2 s r e hr hdots ih =>
      intro t hst
      obtain ⟨hname, hst'⟩ := h.readdir hst dir
      obtain ⟨e', hr', hsame⟩ := of_nameRead_some (hr ▸ hname)
      rw [entriesFrom_eq T, hr']
      dsimp only
      rw [if_pos (hsame ▸ hdots)]
      exact ih _ hst'
  | case3 s r e hr hdots typed f htyped =>
      -- no look at a type fails
      obtain ⟨type, events, u, hrun, -⟩ := typedEntry_run S dir query e r.2
      change ((S.typedEntry dir query e).run r.2).result = _ at htyped
      rw [hrun] at htyped
      cases htyped
  | case4 s r e hr hdots typed entry htyped more ih =>
      intro t hst
      obtain ⟨hname, hst'⟩ := h.readdir hst dir
      obtain ⟨e', hr', hsame⟩ := of_nameRead_some (hr ▸ hname)
      obtain ⟨type, events, u, hrun, -⟩ := typedEntry_run S dir query e r.2
      have hentry : entry.name = e.name := by
        change ((S.typedEntry dir query e).run r.2).result = _ at htyped
        rw [hrun] at htyped
        exact congrArg Entry.name (Except.ok.inj htyped).symm
      obtain ⟨type', events', u', hrun', -⟩ :=
        typedEntry_run T dir query' e' (T.call (.readdir dir) t).2
      have hboth := h.typed_right (h.typed_left hst' dir query e) dir query' e'
      rw [hrun'] at hboth
      obtain ⟨hrest, hst''⟩ := ih _ hboth
      rw [entriesFrom_eq T, hr']
      dsimp only
      rw [if_neg (hsame ▸ hdots), hrun']
      refine ⟨?_, hst''⟩
      rw [namesListed_map_cons, namesListed_map_cons, hentry, ← hsame]
      exact congrArg (Except.map _) hrest
  | case5 s r e hr hp more ih =>
      intro t hst
      obtain ⟨hname, hst'⟩ := h.readdir hst dir
      have hr' : (T.call (.readdir dir) t).1 = .error e := of_nameRead_error (hr ▸ hname)
      rw [entriesFrom_eq T, hr']
      dsimp only
      rw [if_pos hp]
      exact ih _ hst'
  | case6 s r e hr hp =>
      intro t hst
      obtain ⟨hname, hst'⟩ := h.readdir hst dir
      have hr' : (T.call (.readdir dir) t).1 = .error e := of_nameRead_error (hr ▸ hname)
      rw [entriesFrom_eq T, hr']
      dsimp only
      rw [if_neg hp]
      exact ⟨rfl, hst'⟩

/-- After the end, closing comes to the same on both sides. -/
theorem entriesOf (h : Agree S T R) (p : Path) (dir : Handle) (query query' : TypeQuery)
    (hst : R s t) :
    namesListed ((S.entriesOf p dir query).run s).result
      = namesListed ((T.entriesOf p dir query').run t).result := by
  obtain ⟨hread, hst'⟩ := h.entriesFrom p dir query query' s t hst
  cases hs : (S.entriesFrom p dir query s).result with
  | error f =>
      rw [hs] at hread
      cases ht : (T.entriesFrom p dir query' t).result with
      | ok entries =>
          rw [ht] at hread
          cases hread
      | error f' =>
          rw [ht] at hread
          rw [run_entriesOf_of_error S hs, run_entriesOf_of_error T ht]
          exact hread
  | ok entries =>
      rw [hs] at hread
      cases ht : (T.entriesFrom p dir query' t).result with
      | error f =>
          rw [ht] at hread
          cases hread
      | ok entries' =>
          rw [ht] at hread
          rw [run_entriesOf_of_ok S hs, run_entriesOf_of_ok T ht]
          dsimp only
          rw [(run_closeListing S p dir _).2, (run_closeListing T p dir _).2,
            (h.closedir hst' dir).1]
          split
          · exact hread
          · split
            · exact hread
            · rfl

/-- Two listings come to the same names, or to the same failure. -/
theorem readDir (h : Agree S T R) (p : Path) (query query' : TypeQuery) (hst : R s t) :
    namesListed ((S.readDir p query).run s).result
      = namesListed ((T.readDir p query').run t).result := by
  cases hnul : p.hasNul with
  | true =>
      unfold System.readDir
      rw [Op.requireNoNul_bind_of_hasNul _ (by simp [hnul]),
        Op.requireNoNul_bind_of_hasNul _ (by simp [hnul])]
      rfl
  | false =>
      obtain ⟨hopened, hst'⟩ := h.persist_opendir p s t hst
      rcases hs : S.persist (.opendir p) s with ⟨opened, s'⟩
      rcases ht : T.persist (.opendir p) t with ⟨opened', t'⟩
      rw [hs, ht] at hopened hst'
      cases hopened
      cases opened with
      | error e =>
          rw [run_readDir_of_error S hnul hs, run_readDir_of_error T hnul ht]
      | ok dir =>
          rw [(run_readDir_of_ok S hnul query hs).1, (run_readDir_of_ok T hnul query' ht).1]
          exact h.entriesOf p dir query query' hst'

/-- It does not matter on which side codes are told by way of a cell, as
long as no failure to read has zero for a code. -/
theorem signalled (h : Agree S T R) (stir : Call → Errno → Errno)
    (hzero : ∀ {s t}, R s t → ∀ dir, errno? (S.call (.readdir dir) s).1 ≠ some .zero) :
    Agree (S.signalled stir) T fun a t => R a.state t where
  opendir {a t} hst p := by
    show (S.signalledCall stir (.opendir p) a).1 = _
      ∧ R (S.signalledCall stir (.opendir p) a).2.state _
    rw [(signalledCall_of_ne (fun _ hc => by cases hc) a).1, signalledCall_state]
    exact h.opendir hst p
  readdir {a t} hst dir := by
    show nameRead (S.signalledCall stir (.readdir dir) a).1 = _
      ∧ R (S.signalledCall stir (.readdir dir) a).2.state _
    rw [signalledCall_reply (hzero hst dir), signalledCall_state]
    exact h.readdir hst dir
  closedir {a t} hst dir := by
    show (S.signalledCall stir (.closedir dir) a).1 = _
      ∧ R (S.signalledCall stir (.closedir dir) a).2.state _
    rw [(signalledCall_of_ne (fun _ hc => by cases hc) a).1, signalledCall_state]
    exact h.closedir hst dir
  look_left {a t} hst dir n := by
    show R (S.signalledCall stir _ a).2.state t
    rw [signalledCall_state]
    exact h.look_left hst dir n
  look_right hst dir n := h.look_right hst dir n

end Agree

end System

-- ================================================================ trials

namespace Fault

/-- Faults of other primitives may be left out before a fault is drawn or
after. -/
theorem draw_filter {p : Primitive} {keep : Fault → Bool}
    (h : ∀ f : Fault, f.primitive = p → keep f = true) (script : List Fault) :
    draw p (script.filter keep) = ((draw p script).1, (draw p script).2.filter keep) := by
  induction script with
  | nil => rfl
  | cons f rest ih =>
      by_cases hf : f.primitive = p
      · rw [List.filter_cons_of_pos (h f hf), draw, draw, if_pos hf, if_pos hf]
      · rw [draw, if_neg hf]
        by_cases hk : keep f = true
        · rw [List.filter_cons_of_pos hk, draw, if_neg hf, ih, List.filter_cons_of_pos hk]
        · rw [List.filter_cons_of_neg hk, ih, List.filter_cons_of_neg hk]

/-- Drawing a fault that is left out anyway makes no difference. -/
theorem filter_draw {p : Primitive} {keep : Fault → Bool}
    (h : ∀ f : Fault, f.primitive = p → keep f = false) (script : List Fault) :
    (draw p script).2.filter keep = script.filter keep := by
  induction script with
  | nil => rfl
  | cons f rest ih =>
      by_cases hf : f.primitive = p
      · rw [draw, if_pos hf, List.filter_cons_of_neg (by simp [h f hf])]
      · rw [draw, if_neg hf]
        by_cases hk : keep f = true
        · rw [List.filter_cons_of_pos hk, List.filter_cons_of_pos hk, ih]
        · rw [List.filter_cons_of_neg hk, List.filter_cons_of_neg hk, ih]

/-- A script without the faults that strike looks at entries. -/
def unlooked (script : List Fault) : List Fault :=
  script.filter fun f => f.primitive ≠ .fstatat

theorem unlooked_draw_look (script : List Fault) :
    unlooked (draw .fstatat script).2 = unlooked script :=
  filter_draw (fun f hf => by simp [hf]) script

/-- Scripts that differ in faults for looks only have the same fault for
any other call, and then still differ in faults for looks only. -/
theorem draw_of_unlooked_eq {p : Primitive} (hp : p ≠ .fstatat) {a b : List Fault}
    (h : unlooked b = unlooked a) :
    (draw p b).1 = (draw p a).1 ∧ unlooked (draw p b).2 = unlooked (draw p a).2 := by
  have hkeep : ∀ f : Fault, f.primitive = p → decide (f.primitive ≠ .fstatat) = true := by
    rintro f rfl
    exact decide_eq_true hp
  have hdraw : draw p (unlooked b) = draw p (unlooked a) := congrArg (draw p) h
  rw [unlooked, unlooked, draw_filter hkeep, draw_filter hkeep] at hdraw
  exact Prod.mk.inj hdraw

end Fault

namespace System

variable {σ : Type}

/-- Two runs that correspond: they have come to the same state beneath,
under scripts that differ in faults for looks only. What is left of the
first script is part of a given one. -/
structure Parallel (script : List Fault) (a b : Recorded (Scripted σ)) : Prop where
  state_eq : b.state.state = a.state.state
  script_eq : Fault.unlooked b.state.script = Fault.unlooked a.state.script
  subset : a.state.script ⊆ script

namespace Parallel

variable {A B : System σ} {script : List Fault} {a b : Recorded (Scripted σ)} {c : Call}

/-- A call that is no look meets the same fault on both sides, or is made
on both. -/
theorem call (H : Parallel script a b) (hc : c.primitive ≠ .fstatat)
    (hstate : (B.call c a.state.state).2 = (A.call c a.state.state).2) :
    Parallel script (A.faulty.recorded.call c a).2 (B.faulty.recorded.call c b).2
      ∧ ((∃ e, (A.faulty.recorded.call c a).1 = .error e
            ∧ (B.faulty.recorded.call c b).1 = .error e)
        ∨ (A.faulty.recorded.call c a).1 = (A.call c a.state.state).1
          ∧ (B.faulty.recorded.call c b).1 = (B.call c a.state.state).1) := by
  obtain ⟨hcode, hrest⟩ := Fault.draw_of_unlooked_eq hc H.script_eq
  have hsubset := List.Subset.trans (Fault.draw_subset c.primitive a.state.script) H.subset
  have hbeneath := H.state_eq
  show Parallel script ⟨_, (A.faultyCall c a.state).2⟩ ⟨_, (B.faultyCall c b.state).2⟩
    ∧ ((∃ e, (A.faultyCall c a.state).1 = _ ∧ (B.faultyCall c b.state).1 = _)
      ∨ (A.faultyCall c a.state).1 = _ ∧ (B.faultyCall c b.state).1 = _)
  rcases ha : Fault.draw c.primitive a.state.script with ⟨code, left⟩
  rcases hb : Fault.draw c.primitive b.state.script with ⟨code', left'⟩
  rw [ha, hb] at hcode hrest
  rw [ha] at hsubset
  cases hcode
  cases code with
  | none =>
      rw [faultyCall_through ha, faultyCall_through hb, hbeneath]
      exact ⟨⟨hstate, hrest, hsubset⟩, Or.inr ⟨rfl, rfl⟩⟩
  | some e =>
      rw [faultyCall_struck ha, faultyCall_struck hb, hbeneath, hstate]
      exact ⟨⟨rfl, hrest, hsubset⟩, Or.inl ⟨e, rfl, rfl⟩⟩

/-- A call that is no look gives the same on both sides, if it does so
beneath. -/
theorem call_eq (H : Parallel script a b) (hc : c.primitive ≠ .fstatat)
    (hsame : B.call c a.state.state = A.call c a.state.state) :
    (A.faulty.recorded.call c a).1 = (B.faulty.recorded.call c b).1
      ∧ Parallel script (A.faulty.recorded.call c a).2 (B.faulty.recorded.call c b).2 := by
  obtain ⟨H', ⟨e, ha, hb⟩ | ⟨ha, hb⟩⟩ := H.call hc (congrArg Prod.snd hsame)
  · exact ⟨ha.trans hb.symm, H'⟩
  · refine ⟨ha.trans (.trans ?_ hb.symm), H'⟩
    exact (congrArg Prod.fst hsame).symm

/-- A look leaves the state beneath and all faults but those for looks. -/
theorem state_look (dir : Handle) (n : Name)
    (hstate : (A.call (.fstatat dir n) a.state.state).2 = a.state.state) :
    (A.faulty.recorded.call (.fstatat dir n) a).2.state.state = a.state.state
      ∧ Fault.unlooked (A.faulty.recorded.call (.fstatat dir n) a).2.state.script
        = Fault.unlooked a.state.script
      ∧ (A.faulty.recorded.call (.fstatat dir n) a).2.state.script ⊆ a.state.script := by
  have hscript := Fault.unlooked_draw_look a.state.script
  have hsubset := Fault.draw_subset .fstatat a.state.script
  show (A.faultyCall (.fstatat dir n) a.state).2.state = _
    ∧ Fault.unlooked (A.faultyCall (.fstatat dir n) a.state).2.script = _
    ∧ (A.faultyCall (.fstatat dir n) a.state).2.script ⊆ _
  rcases hd : Fault.draw .fstatat a.state.script with ⟨_ | e, left⟩
  · rw [hd] at hscript hsubset
    rw [faultyCall_through (c := .fstatat dir n) hd]
    exact ⟨hstate, hscript, hsubset⟩
  · rw [hd] at hscript hsubset
    rw [faultyCall_struck (c := .fstatat dir n) hd]
    exact ⟨rfl, hscript, hsubset⟩

end Parallel
end System

-- =========================================================== one listing

/-- The name that an exchange delivers, but for the two that every
directory lists. -/
def Exchange.delivered? : Exchange → Option Name
  | ⟨.readdir _, .ok (some e)⟩ => if e.name.isDots then none else some e.name
  | _ => none

/-- An exchange that delivers no name and is no look that failed. -/
structure Exchange.Quiet (x : Exchange) : Prop where
  delivered?_eq : x.delivered? = none
  ne_failed : ∀ dir n c, x ≠ ⟨.fstatat dir n, .error c⟩

theorem Exchange.quiet_of_ne {x : Exchange} (hread : ∀ dir, x.call ≠ .readdir dir)
    (hlook : ∀ dir n, x.call ≠ .fstatat dir n) : x.Quiet := by
  refine ⟨?_, fun dir n c hx => hlook dir n (congrArg Exchange.call hx)⟩
  obtain ⟨c, r⟩ := x
  cases c <;> first | rfl | exact absurd rfl (hread _)

/-- To read a directory is no look. -/
theorem Exchange.quiet_readdir {dir : Handle} {reply : Reply (.readdir dir)}
    (h : delivered? ⟨.readdir dir, reply⟩ = none) : Quiet ⟨.readdir dir, reply⟩ := by
  refine ⟨h, fun dir' n c hx => ?_⟩
  cases congrArg Exchange.call hx

/-- What the record of a listing amounts to. A name that is delivered makes
an entry, and the look that may come next decides about its type. -/
inductive AmountsTo : List Exchange → List Entry → Prop where
  | nothing : AmountsTo [] []
  | quiet {x : Exchange} {es : List Exchange} {ys : List Entry} (hx : x.Quiet)
      (rest : AmountsTo es ys) : AmountsTo (x :: es) ys
  | entry {x : Exchange} {y : Entry} {es : List Exchange} {ys : List Entry}
      (hx : x.delivered? = some y.name) (rest : AmountsTo es ys) : AmountsTo (x :: es) (y :: ys)
  | looked {x : Exchange} {y : Entry} {es : List Exchange} {ys : List Entry} {dir : Handle}
      {reply : Reply (.fstatat dir y.name)} (hx : x.delivered? = some y.name)
      (hfail : ∀ c, reply = .error c → y.type = some .unknown) (rest : AmountsTo es ys) :
      AmountsTo (x :: ⟨.fstatat dir y.name, reply⟩ :: es) (y :: ys)

namespace AmountsTo

variable {es fs : List Exchange} {ys : List Entry}

theorem append_quiet (hfs : ∀ x ∈ fs, x.Quiet) (h : AmountsTo es ys) :
    AmountsTo (fs ++ es) ys := by
  induction fs with
  | nil => exact h
  | cons x fs ih =>
      obtain ⟨hx, hfs⟩ := List.forall_mem_cons.1 hfs
      exact .quiet hx (ih hfs)

theorem quiet_append (h : AmountsTo es ys) (hfs : ∀ x ∈ fs, x.Quiet) :
    AmountsTo (es ++ fs) ys := by
  induction h with
  | nothing => simpa using append_quiet hfs .nothing
  | quiet hx rest ih => exact .quiet hx ih
  | entry hx rest ih => exact .entry hx ih
  | looked hx hfail rest ih => exact .looked hx hfail ih

/-- A failed look is about the name delivered last, and leaves the type of
that entry unknown. -/
theorem of_failed_look (h : AmountsTo es ys) {before after : List Exchange} {dir : Handle}
    {n : Name} {c : Errno} (hsplit : es = before ++ ⟨.fstatat dir n, .error c⟩ :: after) :
    ∃ k, (before.filterMap Exchange.delivered?).length = k + 1
      ∧ ys[k]? = some ⟨n, some .unknown⟩ := by
  induction h generalizing before with
  | nothing => cases before <;> cases hsplit
  | quiet hx rest ih =>
      cases before with
      | nil => exact absurd (List.cons.inj hsplit).1 (hx.ne_failed dir n c)
      | cons x' before =>
          obtain ⟨rfl, hrest⟩ := List.cons.inj hsplit
          rw [List.filterMap_cons_none hx.delivered?_eq]
          exact ih hrest
  | entry hx rest ih =>
      cases before with
      | nil =>
          obtain ⟨rfl, -⟩ := List.cons.inj hsplit
          cases hx
      | cons x' before =>
          obtain ⟨rfl, hrest⟩ := List.cons.inj hsplit
          obtain ⟨k, hk, hget⟩ := ih hrest
          rw [List.filterMap_cons_some hx, List.length_cons, hk]
          exact ⟨k + 1, rfl, hget⟩
  | @looked x y es ys dir' reply hx hfail rest ih =>
      obtain ⟨name, type⟩ := y
      cases before with
      | nil =>
          obtain ⟨rfl, -⟩ := List.cons.inj hsplit
          cases hx
      | cons x' before =>
          obtain ⟨rfl, hrest⟩ := List.cons.inj hsplit
          rw [List.filterMap_cons_some hx]
          cases before with
          | nil =>
              obtain ⟨hlook, -⟩ := List.cons.inj hrest
              cases hlook
              cases hfail c rfl
              exact ⟨0, rfl, rfl⟩
          | cons x' before =>
              obtain ⟨rfl, hmore⟩ := List.cons.inj hrest
              obtain ⟨k, hk, hget⟩ := ih hmore
              rw [List.filterMap_cons_none rfl, List.length_cons, hk]
              exact ⟨k + 1, rfl, hget⟩

end AmountsTo

namespace System

variable {σ : Type} {S : System σ}

/-- What reading to the end puts on record amounts to the entries read, and
these have types as wanted. -/
theorem amountsTo_entriesFrom (p : Path) (dir : Handle) (query : TypeQuery) (r : Recorded σ) :
    ∀ ys, (S.recorded.entriesFrom p dir query r).result = .ok ys →
      ∃ es, (S.recorded.entriesFrom p dir query r).state.exchanges = r.exchanges ++ es
        ∧ AmountsTo es ys ∧ ∀ y ∈ ys, Typed query y := by
  fun_induction System.entriesFrom S.recorded p dir query r with
  | case1 r reply hr =>
      intro ys hys
      cases hys
      refine ⟨_, exchanges_call (.readdir dir) r, .quiet (Exchange.quiet_readdir ?_) .nothing,
        List.forall_mem_nil _⟩
      rw [hr]
      rfl
  | case2 r reply e hr hdots ih =>
      intro ys hys
      obtain ⟨es, hes, hamounts, htypes⟩ := ih ys hys
      rw [exchanges_call, List.append_assoc] at hes
      refine ⟨_, hes, .quiet (Exchange.quiet_readdir ?_) hamounts, htypes⟩
      rw [hr]
      exact if_pos hdots
  | case3 r reply e hr hdots typed f htyped => rintro _ ⟨⟩
  | case4 r reply e hr hdots typed entry htyped more ih =>
      intro ys hys
      obtain ⟨zs, hmore, rfl⟩ : ∃ zs, more.result = .ok zs ∧ ys = entry :: zs := by
        change more.result.map (entry :: ·) = .ok ys at hys
        cases hmore : more.result with
        | error f =>
            rw [hmore] at hys
            cases hys
        | ok zs =>
            rw [hmore] at hys
            exact ⟨zs, rfl, (Except.ok.inj hys).symm⟩
      obtain ⟨es, hes, hamounts, htypes⟩ := ih zs hmore
      obtain ⟨type, events, u, hrun, hentry, hlook⟩ :=
        typedEntry_run S.recorded dir query e reply.2
      have hstate : typed.state = u := congrArg Outcome.state hrun
      have hentry' : entry = ⟨e.name, type⟩ :=
        Except.ok.inj (htyped.symm.trans (congrArg Outcome.result hrun))
      subst hentry'
      have hread : Exchange.delivered? ⟨.readdir dir, (S.recorded.call (.readdir dir) r).1⟩
          = some e.name := by
        rw [hr]
        exact if_neg hdots
      have hbefore : reply.2.exchanges
          = r.exchanges ++ [⟨.readdir dir, (S.recorded.call (.readdir dir) r).1⟩] :=
        exchanges_call (.readdir dir) r
      have htypes' := List.forall_mem_cons.2 ⟨hentry, htypes⟩
      change more.state.exchanges = typed.state.exchanges ++ es at hes
      rw [hstate] at hes
      rcases hlook with hu | ⟨hu, hfail⟩
      · rw [hu, hbefore, List.append_assoc] at hes
        exact ⟨_, hes, .entry hread hamounts, htypes'⟩
      · rw [hu, exchanges_call, hbefore, List.append_assoc, List.append_assoc] at hes
        exact ⟨_, hes, .looked (y := ⟨e.name, type⟩) hread hfail hamounts, htypes'⟩
  | case5 r reply e hr hp more ih =>
      intro ys hys
      obtain ⟨es, hes, hamounts, htypes⟩ := ih ys hys
      rw [exchanges_call, List.append_assoc] at hes
      refine ⟨_, hes, .quiet (Exchange.quiet_readdir ?_) hamounts, htypes⟩
      rw [hr]
      rfl
  | case6 r reply e hr hp => rintro _ ⟨⟩

/-- The record of a listing that succeeds amounts to its entries, and these
have types as wanted. -/
theorem amountsTo_readDir {p : Path} {query : TypeQuery} {s : σ} {ys : List Entry}
    (h : ((S.recorded.readDir p query).run ⟨[], s⟩).result = .ok ys) :
    AmountsTo ((S.recorded.readDir p query).run ⟨[], s⟩).state.exchanges ys
      ∧ ∀ y ∈ ys, Typed query y := by
  cases hnul : p.hasNul with
  | true =>
      unfold readDir at h
      rw [Op.requireNoNul_bind_of_hasNul _ (by simp [hnul])] at h
      cases h
  | false =>
      obtain ⟨fs, hfs, hquiet⟩ :
          Adds Exchange.Quiet ⟨[], s⟩ (S.recorded.persist (.opendir p) ⟨[], s⟩).2 :=
        adds_persist (c := .opendir p) (fun _ => Exchange.quiet_of_ne nofun nofun) ⟨[], s⟩
      rcases hopened : S.recorded.persist (.opendir p) ⟨[], s⟩ with ⟨opened, r⟩
      rw [hopened] at hfs
      cases opened with
      | error e =>
          rw [run_readDir_of_error S.recorded hnul hopened] at h
          cases h
      | ok dir =>
          obtain ⟨hresult, hstate⟩ := run_readDir_of_ok S.recorded hnul query hopened
          rw [hresult] at h
          rw [hstate]
          cases hread : (S.recorded.entriesFrom p dir query r).result with
          | error f =>
              rw [run_entriesOf_of_error S.recorded hread] at h
              cases h
          | ok zs =>
              obtain ⟨es, hes, hamounts, htypes⟩ := amountsTo_entriesFrom p dir query r zs hread
              rw [run_entriesOf_of_ok S.recorded hread] at h ⊢
              dsimp only at h ⊢
              have hys : ys = zs := by
                cases hclosed : ((S.recorded.closeListing p dir).run
                    (S.recorded.entriesFrom p dir query r).state).result with
                | error f =>
                    rw [hclosed] at h
                    cases h
                | ok u =>
                    rw [hclosed] at h
                    exact (Except.ok.inj h).symm
              subst hys
              rw [(run_closeListing S.recorded p dir _).1, exchanges_call, hes, hfs]
              refine ⟨(hamounts.append_quiet hquiet).quiet_append fun x hx => ?_, htypes⟩
              rw [List.mem_singleton.1 hx]
              exact Exchange.quiet_of_ne nofun nofun

end System

namespace Trial

/-- Hints do not touch names. -/
theorem nameRead_hinted (d : Disguise) (r : Except Errno (Option StreamEntry)) :
    System.nameRead (r.map (·.map d.hinted)) = System.nameRead r := by
  rcases r with c | (_ | e) <;> rfl

/-- A look changes nothing in a session. -/
theorem fstatat_state (h : Handle) (n : Name) (s : Session) : (s.fstatat h n).2 = s := by
  unfold Session.fstatat
  split <;> rfl

/-- Trials agree about directories, whatever hints they prescribe. -/
theorem agree (t t' : Trial) (script : List Fault) :
    System.Agree t.system t'.system (System.Parallel script) where
  opendir {a b} H p := H.call_eq (A := Session.system.disguised t.disguise)
    (B := Session.system.disguised t'.disguise) (c := .opendir p) nofun rfl
  readdir {a b} H dir := by
    obtain ⟨H', hreply⟩ := H.call (A := Session.system.disguised t.disguise)
      (B := Session.system.disguised t'.disguise) (c := .readdir dir) nofun rfl
    refine ⟨?_, H'⟩
    rcases hreply with ⟨e, ha, hb⟩ | ⟨ha, hb⟩
    · exact congrArg System.nameRead (ha.trans hb.symm)
    · refine (congrArg System.nameRead ha).trans (.trans ?_ (congrArg System.nameRead hb).symm)
      exact (nameRead_hinted _ _).trans (nameRead_hinted _ _).symm
  closedir {a b} H dir := H.call_eq (A := Session.system.disguised t.disguise)
    (B := Session.system.disguised t'.disguise) (c := .closedir dir) nofun rfl
  look_left {a b} H dir n := by
    obtain ⟨hstate, hscript, hsubset⟩ := System.Parallel.state_look
      (A := Session.system.disguised t.disguise) (a := a) dir n (fstatat_state dir n _)
    exact ⟨H.state_eq.trans hstate.symm, H.script_eq.trans hscript.symm,
      List.Subset.trans hsubset H.subset⟩
  look_right {a b} H dir n := by
    obtain ⟨hstate, hscript, -⟩ := System.Parallel.state_look
      (A := Session.system.disguised t'.disguise) (a := b) dir n (fstatat_state dir n _)
    exact ⟨hstate.trans H.state_eq, hscript.trans H.script_eq, H.subset⟩

/-- Where no fault is to give zero for a code, nothing does. -/
theorem errno?_readdir_ne_zero {t : Trial} {script : List Fault}
    (hzero : ⟨.readdir, some .zero⟩ ∉ script) {a b : Recorded (Scripted Session)}
    (H : System.Parallel script a b) (dir : Handle) :
    errno? (t.system.call (.readdir dir) a).1 ≠ some .zero := by
  obtain ⟨-, ⟨e, hmem, hreply, -⟩ | ⟨hreply, -⟩⟩ :=
    (Session.system.disguised t.disguise).faulty_call_cases (.readdir dir) a
  · change (t.system.call (.readdir dir) a).1 = _ at hreply
    rw [hreply]
    rintro ⟨⟩
    exact hzero (H.subset hmem)
  · change (t.system.call (.readdir dir) a).1
      = (a.state.state.readdir dir).1.map (·.map t.disguise.hinted) at hreply
    rw [hreply]
    unfold Session.readdir
    split <;> rintro ⟨⟩

/-- Finding out types does no harm to a listing. Two listings of one
directory, with the same faults for opening, reading and closing it, come
to the same names or to the same failure, whatever types they ask for,
whatever hints they are given, and whatever faults strike looks at entries.
An entry has no type just where none is asked for, and its type is unknown
if the look at it fails. None of this changes if codes are told by way of a
cell in which failed looks leave theirs. -/
theorem readDir_unharmed (F : Files) (p : Path) (s : Session) (query query' : TypeQuery)
    (disguise disguise' : Disguise) {script script' : List Fault}
    (hscript : Fault.unlooked script' = Fault.unlooked script) :
    let t : Trial := { request := .readDir p query, script, disguise }
    let t' : Trial :=
      { request := .readDir p query', script := script', disguise := disguise' }
    System.namesListed (t.report F s).result = System.namesListed (t'.report F s).result
      ∧ (∀ ys, (t.report F s).result = .ok ys →
        (∀ y ∈ ys, y.type = none ↔ query = .none)
          ∧ ∀ before after dir n c,
            (t.report F s).exchanges = before ++ ⟨.fstatat dir n, .error c⟩ :: after →
            ∃ k, (before.filterMap Exchange.delivered?).length = k + 1
              ∧ ys[k]? = some ⟨n, some .unknown⟩)
      ∧ (⟨.readdir, some .zero⟩ ∉ script → ∀ stir cell,
        System.namesListed (((t.system.signalled stir).readDir p query).run
            ⟨cell, ⟨[], ⟨script, s⟩⟩⟩).result
          = System.namesListed (t'.report F s).result) := by
  intro t t'
  have hagree : System.Agree t.system t'.system (System.Parallel script) := agree t t' script
  have hstart : System.Parallel script (⟨[], ⟨script, s⟩⟩ : Recorded (Scripted Session))
      ⟨[], ⟨script', s⟩⟩ := ⟨rfl, hscript, List.Subset.refl script⟩
  refine ⟨hagree.readDir p query query' hstart, fun ys hys => ?_, fun hzero stir cell => ?_⟩
  · obtain ⟨hamounts, htypes⟩ := System.amountsTo_readDir hys
    exact ⟨fun y hy => (htypes y hy).type_eq_none_iff,
      fun _ _ _ _ _ hsplit => hamounts.of_failed_look hsplit⟩
  · exact (hagree.signalled stir fun H dir => errno?_readdir_ne_zero hzero H dir).readDir
      p query query' (s := ⟨cell, ⟨[], ⟨script, s⟩⟩⟩) hstart

/-- The looks at a file without a hint and at a link both fail, the latter
right before the end of the directory. -/
theorem readDir_unharmed_by_failed_looks :
    let d : Directory := { parent := 0, entries := [([0x66], 1), ([0x6c], 2)] }
    let s : Session :=
      { world :=
          { nodes := #[⟨.directory d, 0o755, true, [], {}, {}, {}⟩,
              ⟨.regular [0x78], 0o644, true, [], {}, {}, {}⟩,
              ⟨.symlink ⟨[0x66], by decide, by decide⟩, 0o777, true, [], {}, {}, {}⟩]
            cwd := 0, mask := 0o022, now := {} } }
    let script : List Fault :=
      [⟨.fstatat, some .enomem⟩, ⟨.readdir, some .eio⟩, ⟨.fstatat, some .eintr⟩]
    let script' : List Fault := [⟨.readdir, some .eio⟩]
    let disguise : Disguise := { hints := [([0x66], Hint.unknown)] }
    let t : Trial := { request := .readDir [0x2e] .ofTarget, script, disguise }
    let t' : Trial := { request := .readDir [0x2e] .none, script := script' }
    Fault.unlooked script' = Fault.unlooked script
      ∧ (t.report {} s).result.toOption
        = some [⟨[0x66], some .unknown⟩, ⟨[0x6c], some .unknown⟩]
      ∧ (t'.report {} s).result.toOption = some [⟨[0x66], none⟩, ⟨[0x6c], none⟩]
      ∧ System.namesListed (t.report {} s).result = System.namesListed (t'.report {} s).result
      ∧ (∀ ys, (t.report {} s).result = .ok ys →
        (∀ y ∈ ys, y.type = none ↔ TypeQuery.ofTarget = .none)
          ∧ ∀ before after dir n c,
            (t.report {} s).exchanges = before ++ ⟨.fstatat dir n, .error c⟩ :: after →
            ∃ k, (before.filterMap Exchange.delivered?).length = k + 1
              ∧ ys[k]? = some ⟨n, some .unknown⟩)
      ∧ (⟨.readdir, some .zero⟩ ∉ script → ∀ stir cell,
        System.namesListed (((t.system.signalled stir).readDir [0x2e] .ofTarget).run
            ⟨cell, ⟨[], ⟨script, s⟩⟩⟩).result
          = System.namesListed (t'.report {} s).result) :=
  ⟨by decide, by decide +kernel, by decide +kernel,
    readDir_unharmed {} [0x2e] _ .ofTarget .none _ {} (by decide)⟩

end Trial
end PosixFiles
