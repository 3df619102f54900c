/-
A parameter is looked up below the directory of parameters, or not at all.

# Names and paths

Going down from a directory by one part after the other is no safe thing in
general: a part that starts at the root takes the place of everything
before it (`Path.push`), and one made of full stops leads up again. The
parts of a name that is not malformed are neither, since they hold no slash
and no full stop. Each of them is one component further down, and cutting
the path at its slashes gives the parts back; so no two names share a path.

# Records

A file that is read whole is opened, read to its end and closed. Reads and
the closing work on what was opened, so the path is the only one that the
system is asked for (`LooksUp`).
-/
import Mathlib.Data.Set.Operations
import PosixFiles.Operation.Parameter
import PosixFiles.Proofs.Operation.Record
import PosixFiles.Proofs.Path.Ancestor
import PosixFiles.Proofs.Text.Encoding

namespace PosixFiles

-- ============================================================ going down

namespace Path

/-- A path with a further part: a part that starts at the root takes its
place, and any other comes behind it, after a slash. -/
def push (base part : Path) : Path :=
  if part.isAbsolute then part
  else if base = [] ∨ base.endsInSlash then base ++ part
  else base ++ Bytes.slash :: part

/-- A name does not start at the root. -/
theorem isAbsolute_of_name {n : Name} (hn : Bytes.slash ∉ n) : isAbsolute n = false := by
  cases n with
  | nil => rfl
  | cons c n =>
      have hc : c ≠ Bytes.slash := fun hc => hn (hc ▸ List.mem_cons_self ..)
      simpa [isAbsolute] using hc

/-- Behind a slash, a name ends the path as it ends itself. -/
theorem endsInSlash_append_name {base : Path} {n : Name} (hne : n ≠ []) (hn : Bytes.slash ∉ n) :
    endsInSlash (base ++ Bytes.slash :: n) = false := by
  obtain ⟨c, hc⟩ : ∃ c, n.getLast? = some c := ⟨_, List.getLast?_eq_some_getLast hne⟩
  have hslash : c ≠ Bytes.slash := fun h => hn (h ▸ List.mem_of_getLast? hc)
  have hlast : (base ++ Bytes.slash :: n).getLast? = some c := by
    rw [List.getLast?_append, List.getLast?_cons, hc]
    rfl
  simpa [endsInSlash, hlast] using hslash

theorem push_name {base : Path} (hbase : base ≠ []) (hend : base.endsInSlash = false) {n : Name}
    (hn : Bytes.slash ∉ n) : base.push n = base ++ Bytes.slash :: n := by
  unfold push
  rw [isAbsolute_of_name hn, if_neg Bool.false_ne_true, if_neg (by simp [hbase, hend])]

/-- Names that are pushed one after the other are written with slashes
between them. -/
theorem foldl_push {names : List Name} (hne : names ≠ [])
    (h : ∀ n ∈ names, n ≠ [] ∧ Bytes.slash ∉ n) :
    ∀ {base : Path}, base ≠ [] → base.endsInSlash = false →
      names.foldl push base = base ++ Bytes.slash :: joined Bytes.slash names := by
  induction names with
  | nil => exact absurd rfl hne
  | cons n names ih =>
      intro base hbase hend
      obtain ⟨hn, hslash⟩ := h n (List.mem_cons_self ..)
      rw [List.foldl_cons, push_name hbase hend hslash]
      cases names with
      | nil => rfl
      | cons m names =>
          rw [ih (List.cons_ne_nil _ _) (fun k hk => h k (List.mem_cons_of_mem _ hk))
            (by simp) (endsInSlash_append_name hn hslash), List.append_assoc]
          rfl

end Path

-- ================================================================= names

namespace Parameter

variable {name : String}

/-- Names that are refused: an empty one, one with a slash, and one with an
empty part. -/
def Malformed (name : String) : Prop :=
  name = "" ∨ '/' ∈ name.toList ∨ [] ∈ parts name

/-- The parts of a name as names of files. -/
def names (name : String) : List Name :=
  (parts name).map Bytes.ofChars

/-- An empty name has an empty part. -/
theorem malformed_iff : Malformed name ↔ '/' ∈ name.toList ∨ [] ∈ parts name := by
  constructor
  · rintro (rfl | h)
    · exact Or.inr (List.mem_singleton.2 rfl)
    · exact h
  · exact Or.inr

theorem isName_iff : isName name = true ↔ ¬ Malformed name := by
  rw [malformed_iff, not_or, isName, Bool.and_eq_true, Bool.not_eq_true', List.all_eq_true]
  simp [List.forall_mem_ne']

/-- What a part is made of. -/
theorem of_mem_parts (h : ¬ Malformed name) {part : List Char} (hpart : part ∈ parts name) :
    part ≠ [] ∧ '/' ∉ part ∧ '.' ∉ part := by
  rw [malformed_iff, not_or] at h
  refine ⟨fun hnil => h.2 (hnil ▸ hpart), fun hslash => h.1 ?_,
    separator_not_mem_of_mem_segments hpart⟩
  rw [← joined_segments '.' name.toList]
  exact (mem_joined (by decide)).2 ⟨part, hpart, hslash⟩

theorem of_mem_names (h : ¬ Malformed name) {n : Name} (hn : n ∈ names name) :
    n ≠ [] ∧ Bytes.slash ∉ n ∧ Bytes.dot ∉ n := by
  obtain ⟨part, hpart, rfl⟩ := List.mem_map.1 hn
  obtain ⟨hne, hslash, hdot⟩ := of_mem_parts h hpart
  refine ⟨fun hnil => hne (Bytes.ofChars_eq_nil.1 hnil), fun hmem => hslash ?_,
    fun hmem => hdot ?_⟩
  · exact (Bytes.mem_ofChars (by decide) rfl part).1 hmem
  · exact (Bytes.mem_ofChars (by decide) rfl part).1 hmem

theorem isDots_eq_false {n : Name} (hn : Bytes.dot ∉ n) : n.isDots = false := by
  have hself : n ≠ Name.self := fun h => hn (h ▸ List.mem_cons_self ..)
  have hparent : n ≠ Name.parent := fun h => hn (h ▸ List.mem_cons_self ..)
  simp [Name.isDots, hself, hparent]

theorem names_ne_nil (name : String) : names name ≠ [] := fun h =>
  segments_ne_nil _ _ (List.map_eq_nil_iff.1 h)

-- ================================================================= paths

/-- A path that leads down from the directory of parameters, by one step
for each part of a name. -/
structure Below (name : String) (q : Path) : Prop where
  eq : q = Bytes.ofString "/proc/sys/" ++ joined Bytes.slash (names name)
  /-- Pushing the parts one after the other leads there. -/
  pushed_eq : (names name).foldl Path.push (Bytes.ofString directory) = q
  /-- Every step leads down. -/
  of_mem : ∀ n ∈ names name, n ≠ [] ∧ Bytes.slash ∉ n ∧ Bytes.dot ∉ n
    ∧ Name.isDots n = false ∧ Path.isAbsolute n = false
  isAbsolute : q.isAbsolute = true
  components_eq : q.components = Path.components (Bytes.ofString directory) ++ names name
  mem_ancestors : Bytes.ofString directory ∈ q.ancestors

/-- The bytes of the path of a parameter. -/
theorem path?_eq (h : ¬ Malformed name) :
    path? name
      = some (Bytes.ofString directory ++ Bytes.slash :: joined Bytes.slash (names name)) := by
  unfold path?
  rw [if_pos (isName_iff.2 h), Bytes.ofString_eq]
  simp only [String.toList_append, String.toList_ofList, Bytes.ofChars_append,
    Bytes.ofChars_joined (show String.utf8EncodeChar '/' = [Bytes.slash] by decide),
    ← Bytes.ofString_eq, List.append_assoc]
  rfl

theorem path?_of_malformed (h : Malformed name) : path? name = none :=
  if_neg fun hname => isName_iff.1 hname h

theorem below (h : ¬ Malformed name) :
    Below name (Bytes.ofString directory ++ Bytes.slash :: joined Bytes.slash (names name)) := by
  have hnames : ∀ n ∈ names name, n ≠ [] ∧ Bytes.slash ∉ n := fun n hn =>
    ⟨(of_mem_names h hn).1, (of_mem_names h hn).2.1⟩
  refine ⟨rfl, ?_, fun n hn => ?_, rfl, ?_, ?_⟩
  · exact Path.foldl_push (names_ne_nil name) hnames (by decide) (by decide)
  · obtain ⟨hne, hslash, hdot⟩ := of_mem_names h hn
    exact ⟨hne, hslash, hdot, isDots_eq_false hdot, Path.isAbsolute_of_name hslash⟩
  · rw [Path.components_append_slash, Path.components_joined (names_ne_nil name) hnames]
  · obtain ⟨n, hn⟩ := List.exists_mem_of_ne_nil _ (names_ne_nil name)
    obtain ⟨hne, hslash⟩ := hnames n hn
    obtain ⟨d, hd⟩ := List.exists_mem_of_ne_nil _ hne
    have hds : d ≠ Bytes.slash := fun hds => hslash (hds ▸ hd)
    exact Path.mem_ancestors (c := 0x73) (by decide) (by decide)
      ((mem_joined hds).2 ⟨n, hn, hd⟩) hds

/-- A name is its parts with full stops between them, so names that share a
path are the same. -/
theorem path?_injOn : Set.InjOn path? {name | ¬ Malformed name} := by
  intro a ha b hb heq
  have hnames : joined Bytes.slash (names a) = joined Bytes.slash (names b) := by
    rw [path?_eq ha, path?_eq hb] at heq
    exact List.tail_eq_of_cons_eq (List.append_cancel_left (Option.some.inj heq))
  have hcut : names a = names b := by
    rw [← segments_joined (names_ne_nil a) fun n hn => (of_mem_names ha hn).2.1, hnames,
      segments_joined (names_ne_nil b) fun n hn => (of_mem_names hb hn).2.1]
  have hparts : parts a = parts b :=
    List.map_inj_right (fun _ _ => Bytes.ofChars_injective) |>.1 hcut
  have hchars : a.toList = b.toList := by
    rw [← joined_segments '.' a.toList, ← joined_segments '.' b.toList]
    exact congrArg (joined '.') hparts
  exact String.toList_injective hchars

/-- A path has a NUL if its name has one. -/
theorem hasNul_iff {q : Path} (hq : path? name = some q) :
    q.hasNul = true ↔ Char.ofNat 0 ∈ name.toList := by
  have hname : ¬ Malformed name := fun h => by
    rw [path?_of_malformed h] at hq
    cases hq
  rw [path?_eq hname, Option.some.injEq] at hq
  have hbytes : q.hasNul = true ↔ Bytes.nul ∈ joined Bytes.slash (names name) := by
    rw [← hq, Path.hasNul, List.contains_iff_mem, List.mem_append, List.mem_cons]
    refine ⟨fun h => ?_, fun h => Or.inr (Or.inr h)⟩
    rcases h with h | h | h
    · exact absurd h (by decide)
    · exact absurd h (by decide)
    · exact h
  rw [hbytes, mem_joined (by decide), ← joined_segments '.' name.toList, mem_joined (by decide)]
  constructor
  · rintro ⟨n, hn, hmem⟩
    obtain ⟨part, hpart, rfl⟩ := List.mem_map.1 hn
    exact ⟨part, hpart, (Bytes.mem_ofChars (by decide) rfl part).1 hmem⟩
  · rintro ⟨part, hpart, hmem⟩
    exact ⟨_, List.mem_map_of_mem hpart, (Bytes.mem_ofChars (by decide) rfl part).2 hmem⟩

end Parameter

-- =============================================================== records

/-- A record on which one path is looked up. Interruptions apart it is
opened once; that fails, or it gives a file that is read and closed, and
there is nothing else. -/
inductive LooksUp (q : Path) : List Exchange → Prop where
  | refused (k : Nat) {e : Errno} (he : e ≠ .eintr) :
      LooksUp q (List.replicate k ⟨.openFile q, .error .eintr⟩ ++ [⟨.openFile q, .error e⟩])
  | found (k : Nat) (file : Handle) {reads : List Exchange}
      (hreads : ∀ x ∈ reads, x.call = .read file System.wholeRoom)
      (closed : Reply (.close file)) :
      LooksUp q (List.replicate k ⟨.openFile q, .error .eintr⟩
        ++ ⟨.openFile q, .ok file⟩ :: (reads ++ [⟨.close file, closed⟩]))

namespace System

variable {σ : Type} {S : System σ} {subject : Subject} {p : Path}

theorem adds_contentsFrom (file : Handle) (r : Recorded σ) :
    Adds (fun x => x.call = .read file wholeRoom) r (S.recorded.contentsFrom file r).2 := by
  fun_induction System.contentsFrom S.recorded file r with
  | case1 r reply e hr => exact adds_persist (fun _ => rfl) r
  | case2 r reply hr => exact adds_persist (fun _ => rfl) r
  | case3 r reply piece hr hp rest ih => exact (adds_persist (fun _ => rfl) r).trans ih

theorem run_contents_of_hasNul (hnul : p.hasNul = true) (s : σ) :
    (S.contents subject p).run s = ⟨.error ⟨subject, .nulInFileName⟩, [], s⟩ := by
  unfold contents
  rw [if_pos hnul, Op.fail_bind]
  rfl

theorem run_contents_of_not_open (hnul : p.hasNul = false) {s t : σ} {e : Errno}
    (h : S.persist (.openFile p) s = (.error e, t)) :
    (S.contents subject p).run s = ⟨.error (.ofErrno subject e), [], t⟩ := by
  unfold contents
  rw [if_neg (by simp [hnul]), Op.run_persist_bind, h]
  rfl

/-- A file that was opened is read to its end or to a failure, and closed
in any case. -/
theorem state_contents_of_open (hnul : p.hasNul = false) {s t : σ} {file : Handle}
    (h : S.persist (.openFile p) s = (.ok file, t)) :
    ((S.contents subject p).run s).state
      = (S.call (.close file) (S.contentsFrom file t).2).2 := by
  unfold contents
  rw [if_neg (by simp [hnul]), Op.run_persist_bind, h, Op.accept_ok_bind]
  show ((Op.accept subject (S.contentsFrom file t).1).run _).state = _
  cases (S.contentsFrom file t).1 <;> rfl

/-- Reading a file whole looks up its path, and no other. -/
theorem looksUp_contents (hnul : p.hasNul = false) (s : σ) :
    LooksUp p ((S.recorded.contents subject p).run ⟨[], s⟩).state.exchanges := by
  obtain ⟨k, hk⟩ := exchanges_persist (S := S) (.openFile p) ⟨[], s⟩
  have hne := S.recorded.errno?_persist_ne (.openFile p) ⟨[], s⟩
  rcases hopened : S.recorded.persist (.openFile p) ⟨[], s⟩ with ⟨opened, t⟩
  rw [hopened] at hk hne
  change t.exchanges = List.replicate k _ ++ [_] at hk
  cases opened with
  | error e =>
      rw [run_contents_of_not_open hnul hopened, hk]
      exact .refused k fun he => hne (congrArg some he)
  | ok file =>
      obtain ⟨reads, hes, hreads⟩ := adds_contentsFrom (S := S) file t
      rw [state_contents_of_open hnul hopened, exchanges_call, hes, hk, List.append_assoc,
        List.append_assoc]
      exact .found k file hreads _

-- ============================================================ parameters

/-- What the contents of a file mean takes no calls to find out. -/
theorem state_systemParameter {name : String} {q : Path} (hq : Parameter.path? name = some q)
    (s : σ) :
    ((S.systemParameter name).run s).state = ((S.contents (.named name) q).run s).state := by
  unfold systemParameter
  rw [hq]
  refine Op.state_bind_of_still (fun bytes t => ?_) s
  cases bytes.toString? with
  | none => rfl
  | some text =>
      dsimp only
      cases Parameter.value? text <;> rfl

/-- A parameter is reached by its own file below the directory of
parameters, or not at all. A name that is malformed, and no other, is an
invalid argument before anything is called. Any other has one path, which
leads down from the directory by one step for each part of the name; it is
the only one that is looked up, unless it holds a NUL, and then none is. No
two such names have the same path. -/
theorem systemParameter_stays_below (S : System σ) (s : σ) (name : String) :
    let o := (S.recorded.systemParameter name).run ⟨[], s⟩
    (Parameter.Malformed name ∧ Parameter.path? name = none
        ∧ o.result = .error (.ofErrno (.named name) .einval) ∧ o.state = ⟨[], s⟩
      ∨ ¬ Parameter.Malformed name ∧ ∃ q, Parameter.path? name = some q
        ∧ Parameter.Below name q
        ∧ (Char.ofNat 0 ∈ name.toList
              ∧ o.result = .error ⟨.named name, .nulInFileName⟩ ∧ o.state = ⟨[], s⟩
            ∨ Char.ofNat 0 ∉ name.toList ∧ LooksUp q o.state.exchanges))
      ∧ Set.InjOn Parameter.path? {name | ¬ Parameter.Malformed name} := by
  intro o
  refine ⟨?_, Parameter.path?_injOn⟩
  by_cases hname : Parameter.Malformed name
  · have hnone := Parameter.path?_of_malformed hname
    have ho : o = ⟨.error (.ofErrno (.named name) .einval), [], ⟨[], s⟩⟩ := by
      show (S.recorded.systemParameter name).run _ = _
      unfold systemParameter
      rw [hnone]
      rfl
    rw [ho]
    exact Or.inl ⟨hname, hnone, rfl, rfl⟩
  · obtain ⟨q, hq, hbelow⟩ : ∃ q, Parameter.path? name = some q ∧ Parameter.Below name q :=
      ⟨_, Parameter.path?_eq hname, Parameter.below hname⟩
    refine Or.inr ⟨hname, q, hq, hbelow, ?_⟩
    have hstate := state_systemParameter (S := S.recorded) hq ⟨[], s⟩
    rw [← Parameter.hasNul_iff hq]
    rcases Bool.eq_false_or_eq_true q.hasNul with hnul | hnul
    · have hrun : (S.recorded.contents (.named name) q).run ⟨[], s⟩ = _ :=
        run_contents_of_hasNul hnul _
      refine Or.inl ⟨hnul, ?_, hstate.trans (by rw [hrun])⟩
      show ((S.recorded.systemParameter name).run _).result = _
      unfold systemParameter
      rw [hq]
      exact congrArg Outcome.result (Op.run_bind_error hrun)
    · refine Or.inr ⟨by simp [hnul], ?_⟩
      show LooksUp _ ((S.recorded.systemParameter name).run _).state.exchanges
      rw [hstate]
      exact looksUp_contents hnul s

end System
end PosixFiles
