/-
Listings with and without interruptions.

Reading a directory is not repeated call by call: an interruption is one
turn of the loop that goes through the entries, and leaves an event. So
the loop is followed in the state with interruptions to come; where it
takes such a turn it stays alike the other loop, which takes none. The
status of an entry is asked for once, and an interruption there shows in
the type of the entry, with both scripts.
-/
import PosixFiles.Proofs.Interruption.Agreement
import PosixFiles.Proofs.Listing.Stream

namespace PosixFiles.System

variable {σ : Type} {n : Nat} {S : System σ} {holds : Handle → σ → Prop}

-- ================================================================= types

/-- The status of an entry agrees, and the directory stays open. -/
theorem agrees_typeByStatus (hS : Calm S holds) (dir : Handle) (name : Name) :
    Agrees (holds dir) (S.faulty.recorded.typeByStatus dir name) fun _ s => holds dir s := by
  refine (Agrees.issue hS (c := .fstatat dir name) rfl rfl dir).bind fun r => ?_
  cases r with
  | ok s => exact Agrees.pure _ fun _ h => h
  | error e => exact (Agrees.emit _).bind fun _ => Agrees.pure _ fun _ h => h

theorem agrees_typeOfEntry (hS : Calm S holds) (dir : Handle) (e : StreamEntry)
    (followLinks : Bool) :
    Agrees (holds dir) (S.faulty.recorded.typeOfEntry dir e followLinks)
      fun _ s => holds dir s := by
  unfold typeOfEntry
  split
  · exact Agrees.pure _ fun _ h => h
  split
  · exact Agrees.pure _ fun _ h => h
  split
  · exact Agrees.pure _ fun _ h => h
  split
  · exact agrees_typeByStatus hS dir e.name
  · exact Agrees.pure _ fun _ h => h

theorem agrees_typedEntry (hS : Calm S holds) (dir : Handle) (query : TypeQuery)
    (e : StreamEntry) :
    Agrees (holds dir) (S.faulty.recorded.typedEntry dir query e) fun _ s => holds dir s := by
  cases query with
  | none => exact Agrees.pure _ fun _ h => h
  | ofEntry =>
      exact (agrees_typeOfEntry hS dir e false).bind fun _ => Agrees.pure _ fun _ h => h
  | ofTarget =>
      exact (agrees_typeOfEntry hS dir e true).bind fun _ => Agrees.pure _ fun _ h => h

-- =============================================================== the loop

/-- An entry that is read without an interruption is read alike, and the
directory stays open. -/
theorem readdir_alike (hS : Calm S holds) {dir : Handle} {a b : Recorded (Scripted σ)}
    (hab : Alike n a b) (hh : holds dir a.state.state) {r : Reply (.readdir dir)}
    (hr : (S.faulty.recorded.call (.readdir dir) a).1 = r) (hne : errno? r ≠ some .eintr) :
    (S.faulty.recorded.call (.readdir dir) b).1 = r
      ∧ Alike n (S.faulty.recorded.call (.readdir dir) a).2
          (S.faulty.recorded.call (.readdir dir) b).2
      ∧ holds dir (S.faulty.recorded.call (.readdir dir) a).2.state.state := by
  obtain ⟨heq, halike⟩ := hab.call_eq (S := S) (c := .readdir dir) rfl fun hi => by
    rw [hr] at hi
    exact absurd hi hne
  exact ⟨heq.trans hr, halike, Alike.holds_call hS rfl hh⟩

/-- The entries of an open directory agree. -/
theorem entriesFrom_alike (hS : Calm S holds) (p : Path) (dir : Handle) (query : TypeQuery)
    (a : Recorded (Scripted σ)) :
    ∀ b, Alike n a b → holds dir a.state.state →
      (S.faulty.recorded.entriesFrom p dir query b).result
          = (S.faulty.recorded.entriesFrom p dir query a).result
        ∧ Alike n (S.faulty.recorded.entriesFrom p dir query a).state
            (S.faulty.recorded.entriesFrom p dir query b).state
        ∧ Except.Spared (fun _ s => holds dir s)
            (S.faulty.recorded.entriesFrom p dir query a).state.state.state
            (S.faulty.recorded.entriesFrom p dir query a).result := by
  fun_induction System.entriesFrom S.faulty.recorded p dir query a with
  | case1 a r hr =>
      intro b hab hh
      obtain ⟨hreply, halike, hh'⟩ := readdir_alike hS hab hh hr fun hi => by cases hi
      rw [entriesFrom_eq, hreply]
      exact ⟨rfl, halike, hh'⟩
  | case2 a r e hr hdots ih =>
      intro b hab hh
      obtain ⟨hreply, halike, hh'⟩ := readdir_alike hS hab hh hr fun hi => by cases hi
      rw [entriesFrom_eq S.faulty.recorded p dir query b, hreply]
      dsimp only
      rw [if_pos hdots]
      exact ih _ halike hh'
  | case3 a r e hr hdots typed f htyped =>
      intro b hab hh
      obtain ⟨hreply, halike, hh'⟩ := readdir_alike hS hab hh hr fun hi => by cases hi
      obtain ⟨htype, halike', hspared⟩ := agrees_typedEntry hS dir query e _ _ _ halike hh'
      have hresult : ((S.faulty.recorded.typedEntry dir query e).run
          (S.faulty.recorded.call (.readdir dir) a).2).result = .error f := htyped
      rw [hresult] at htype hspared
      rw [entriesFrom_eq, hreply]
      dsimp only
      rw [if_neg hdots, htype]
      exact ⟨rfl, halike', hspared⟩
  | case4 a r e hr hdots typed entry htyped rest ih =>
      intro b hab hh
      obtain ⟨hreply, halike, hh'⟩ := readdir_alike hS hab hh hr fun hi => by cases hi
      obtain ⟨htype, halike', hspared⟩ := agrees_typedEntry hS dir query e _ _ _ halike hh'
      have hresult : ((S.faulty.recorded.typedEntry dir query e).run
          (S.faulty.recorded.call (.readdir dir) a).2).result = .ok entry := htyped
      rw [hresult] at htype hspared
      obtain ⟨hrest, halike'', hspared'⟩ := ih _ halike' hspared
      rw [entriesFrom_eq S.faulty.recorded p dir query b, hreply]
      dsimp only
      rw [if_neg hdots, htype]
      refine ⟨congrArg (Except.map (entry :: ·)) hrest, halike'', ?_⟩
      exact hspared'.map fun _ h => h
  | case5 a r e hr hp rest ih =>
      intro b hab hh
      by_cases he : e = .eintr
      · -- one turn here, and none in the other loop
        refine ih b (hab.of_interrupted hS rfl ?_) (Alike.holds_call (c := .readdir dir) hS rfl hh)
        show errno? r.1 = _
        rw [hr, he]
        rfl
      · obtain ⟨hreply, halike, hh'⟩ := readdir_alike hS hab hh hr
          fun hi => he (Option.some.inj hi)
        rw [entriesFrom_eq S.faulty.recorded p dir query b, hreply]
        dsimp only
        rw [if_pos hp]
        exact ih _ halike hh'
  | case6 a r e hr hp =>
      intro b hab hh
      have he : e ≠ .eintr := by
        rintro rfl
        exact hp rfl
      obtain ⟨hreply, halike, -⟩ := readdir_alike hS hab hh hr
        fun hi => he (Option.some.inj hi)
      rw [entriesFrom_eq, hreply]
      dsimp only
      rw [if_neg hp]
      exact ⟨rfl, halike, he⟩

-- =========================================================== the listing

/-- Closing a directory after its last entry. -/
theorem agrees_closeListing (hS : Calm S holds) (p : Path) (dir : Handle) :
    Agrees (holds dir) (S.faulty.recorded.closeListing p dir) anyValue := by
  refine Agrees.issue_close_bind (c := .closedir dir) rfl (fun s hh => ?_) (Agrees.closed _)
  rw [hS.closedir hh]
  rfl

/-- The entries of an open directory agree, and it is closed. -/
theorem agrees_entriesOf (hS : Calm S holds) (p : Path) (dir : Handle) (query : TypeQuery) :
    Agrees (holds dir) (S.faulty.recorded.entriesOf p dir query) anyValue := by
  intro n a b hab hh
  obtain ⟨hresult, halike, hspared⟩ := entriesFrom_alike hS p dir query a b hab hh
  cases hr : (S.faulty.recorded.entriesFrom p dir query a).result with
  | error f =>
      rw [hr] at hresult hspared
      rw [run_entriesOf_of_error _ hr, run_entriesOf_of_error _ hresult]
      exact ⟨rfl, (halike.call (S := S) (c := .closedir dir) fun _ => rfl).1, hspared⟩
  | ok entries =>
      rw [hr] at hresult hspared
      rw [run_entriesOf_of_ok _ hr, run_entriesOf_of_ok _ hresult]
      obtain ⟨hclosed, halike', hspared'⟩ := agrees_closeListing hS p dir _ _ _ halike hspared
      refine ⟨congrArg (Except.map fun _ => entries) hclosed, halike', ?_⟩
      exact hspared'.map fun _ _ => trivial

theorem agrees_readDir (hS : Calm S holds) (p : Path) (query : TypeQuery) :
    Agrees anyState (S.faulty.recorded.readDir p query) anyValue := by
  refine (Agrees.requireNoNul _ _).bind fun _ => ?_
  rw [← bind_assoc]
  refine (Agrees.persist_accept hS (.opendir p) rfl fun _ _ => hS.opendir).bind
    fun dir => ?_
  refine (agrees_entriesOf hS p dir query).bind fun entries => ?_
  exact (Agrees.emit _).bind fun _ => Agrees.pure _ fun _ h => h

end PosixFiles.System
