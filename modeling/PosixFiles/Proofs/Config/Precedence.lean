/-
Which error a text is refused with.

# Three stages

A text that is no document is refused as such. In a document the keys are
looked at in their order, and the first that does not fit, or whose value
does not, ends the reading. Only a document in which everything fits gives
sizes, and these are looked at in the order of the settings.

# Order

So the order of the keys decides between keys that do not fit, and nothing
else: whether a size is in range does not matter before all keys have been
read, and then it does not matter any more where they stood
(`Config.error_precedence`). What that order is, is a matter of the lines of
the text (`Toml.arranged`).
-/
import PosixFiles.Proofs.Toml.Assignment
import PosixFiles.Proofs.Toml.Order
import PosixFiles.Config

namespace PosixFiles

open Toml (keysOf)

-- =============================================================== entries

/-- A key with its value does not fit a configuration: it names no setting,
or the value is no integer from zero on. -/
def Config.Offends (e : String × Toml.Value) : Prop :=
  (∀ s : Setting, s.name ≠ e.1) ∨ ∀ n : Nat, e.2 ≠ .integer n

/-- What is wrong with a key and its value. A key that names no setting is
wrong whatever its value is. -/
inductive Misfit.Describes : Misfit → String × Toml.Value → Prop where
  | unknownKey {key : String} {v : Toml.Value} (h : ∀ s : Setting, s.name ≠ key) :
      Describes (.unknownKey key) (key, v)
  | negative {s : Setting} {n : Int} (h : n < 0) : Describes (.negative n) (s.name, .integer n)
  | wrongType {s : Setting} {v : Toml.Value} (h : ∀ n, v ≠ .integer n) :
      Describes (.wrongType v) (s.name, v)

theorem Setting.name_injective {s t : Setting} (h : s.name = t.name) : s = t := by
  cases s <;> cases t <;> first | rfl | exact absurd h (by decide)

theorem Setting.ofName?_name (s : Setting) : ofName? s.name = some s := by
  cases s <;> decide

theorem Setting.ofName?_eq_none {key : String} (h : ∀ s : Setting, s.name ≠ key) :
    ofName? key = none :=
  List.find?_eq_none.2 fun s _ => by simpa using h s

namespace Config

/-- What fits gives a setting its size. -/
theorem exists_of_not_offends {e : String × Toml.Value} (h : ¬ Offends e) :
    ∃ (s : Setting) (n : Nat), e = (s.name, .integer n) := by
  unfold Offends at h
  push Not at h
  obtain ⟨⟨s, hs⟩, n, hn⟩ := h
  exact ⟨s, n, Prod.ext hs.symm hn⟩

theorem not_offends (s : Setting) (n : Nat) : ¬ Offends (s.name, .integer n) := by
  rintro (h | h)
  · exact h s rfl
  · exact h n rfl

/-- What does not fit is refused, with what is wrong with it. -/
theorem exists_setEntry_of_offends {e : String × Toml.Value} (h : Offends e) :
    ∃ m : Misfit, m.Describes e ∧ ∀ c : Config, c.setEntry e = .error m := by
  obtain ⟨key, v⟩ := e
  by_cases hkey : ∃ s : Setting, s.name = key
  · obtain ⟨s, rfl⟩ := hkey
    have hv : ∀ n : Nat, v ≠ .integer n := h.resolve_left fun hs => hs s rfl
    have hset : ∀ c : Config, c.setEntry (s.name, v) = (sizeOf v).map (c.set s) := fun c => by
      rw [setEntry, s.ofName?_name]
    have hrefused : ∀ {m : Misfit}, sizeOf v = .error m →
        ∀ c : Config, c.setEntry (s.name, v) = .error m := fun hm c => by
      rw [hset, hm]
      rfl
    by_cases hint : ∃ n : Int, v = .integer n
    · obtain ⟨n, rfl⟩ := hint
      have hneg : n < 0 := by
        by_contra hpos
        exact hv n.toNat (congrArg _ (Int.toNat_of_nonneg (Int.not_lt.1 hpos)).symm)
      exact ⟨_, .negative hneg, hrefused (if_neg (Int.not_le.2 hneg))⟩
    · have hother : ∀ n, v ≠ .integer n := fun n hn => hint ⟨n, hn⟩
      refine ⟨_, .wrongType hother, hrefused ?_⟩
      cases v with
      | integer n => exact absurd rfl (hother n)
      | _ => rfl
  · have hnone : ∀ s : Setting, s.name ≠ key := fun s hs => hkey ⟨s, hs⟩
    refine ⟨_, .unknownKey hnone, fun c => ?_⟩
    rw [setEntry, Setting.ofName?_eq_none hnone]

theorem setEntry_size (c : Config) (s : Setting) (n : Nat) :
    c.setEntry (s.name, .integer n) = .ok (c.set s n) := by
  rw [setEntry, s.ofName?_name]
  rfl

-- ============================================================= documents

theorem get_set_self (c : Config) (s : Setting) (n : Nat) : (c.set s n).get s = n := by
  cases s <;> rfl

theorem get_set_of_ne {s t : Setting} (h : s ≠ t) (c : Config) (n : Nat) :
    (c.set t n).get s = c.get s := by
  cases s <;> cases t <;> first | rfl | exact absurd rfl h

theorem ext_get {c d : Config} (h : ∀ s, c.get s = d.get s) : c = d := by
  obtain ⟨chunk, buffer⟩ := c
  obtain ⟨chunk', buffer'⟩ := d
  have hchunk : chunk = chunk' := h .digestChunkSize
  have hbuffer : buffer = buffer' := h .xattrBufferSize
  rw [hchunk, hbuffer]

/-- A configuration takes what is given, and the rest from another. -/
structure Takes (entries : List (String × Toml.Value)) (base c : Config) : Prop where
  given : ∀ (s : Setting) (n : Nat), (s.name, .integer n) ∈ entries → c.get s = n
  absent : ∀ s : Setting, s.name ∉ keysOf entries → c.get s = base.get s

/-- Where everything fits, every key is set, under a key as the only one of
its name. -/
theorem exists_foldlM_setEntry {entries : List (String × Toml.Value)}
    (hfits : ∀ e ∈ entries, ¬ Offends e) (hnodup : (keysOf entries).Nodup) :
    ∀ base : Config, ∃ c, entries.foldlM setEntry base = .ok c ∧ Takes entries base c := by
  induction entries with
  | nil => exact fun base => ⟨base, rfl, nofun, fun _ _ => rfl⟩
  | cons e entries ih =>
      intro base
      obtain ⟨he, hmore⟩ := List.forall_mem_cons.1 hfits
      obtain ⟨hnew, hdiffer⟩ := List.nodup_cons.1 hnodup
      obtain ⟨t, m, rfl⟩ := exists_of_not_offends he
      obtain ⟨c, hc, hgiven, habsent⟩ := ih hmore hdiffer (base.set t m)
      refine ⟨c, ?_, fun s n hmem => ?_, fun s hs => ?_⟩
      · rw [List.foldlM_cons, setEntry_size]
        exact hc
      · rcases List.mem_cons.1 hmem with heq | hmem
        · obtain ⟨hname, hvalue⟩ := Prod.mk.inj heq
          obtain rfl := Setting.name_injective hname
          rw [habsent s hnew, get_set_self]
          exact (Int.ofNat.inj (Toml.Value.integer.inj hvalue)).symm
        · exact hgiven s n hmem
      · obtain ⟨hne, hs⟩ := not_or.1 (mt List.mem_cons.2 hs)
        rw [habsent s hs, get_set_of_ne fun h => hne (congrArg Setting.name h)]

/-- The first key that does not fit ends the reading. -/
theorem foldlM_setEntry_of_first {before after : List (String × Toml.Value)}
    {e : String × Toml.Value} {m : Misfit} (hfits : ∀ b ∈ before, ¬ Offends b)
    (he : ∀ c : Config, c.setEntry e = .error m) :
    ∀ base : Config, (before ++ e :: after).foldlM setEntry base = .error m := by
  induction before with
  | nil =>
      intro base
      rw [List.nil_append, List.foldlM_cons, he]
      rfl
  | cons b before ih =>
      intro base
      obtain ⟨hb, hmore⟩ := List.forall_mem_cons.1 hfits
      obtain ⟨s, n, rfl⟩ := exists_of_not_offends hb
      rw [List.cons_append, List.foldlM_cons, setEntry_size]
      exact ih hmore (base.set s n)

/-- Where something does not fit, there is a first that does not. -/
theorem exists_first_offends {entries : List (String × Toml.Value)}
    (h : ∃ e ∈ entries, Offends e) :
    ∃ before e after, entries = before ++ e :: after ∧ (∀ b ∈ before, ¬ Offends b)
      ∧ Offends e := by
  induction entries with
  | nil =>
      obtain ⟨e, he, -⟩ := h
      cases he
  | cons e entries ih =>
      by_cases he : Offends e
      · exact ⟨[], e, entries, rfl, nofun, he⟩
      · have hlater : ∃ e ∈ entries, Offends e := by
          obtain ⟨o, ho, hoffends⟩ := h
          rcases List.mem_cons.1 ho with rfl | ho
          · exact absurd hoffends he
          · exact ⟨o, ho, hoffends⟩
        obtain ⟨before, o, after, rfl, hfits, ho⟩ := ih hlater
        exact ⟨e :: before, o, after, rfl, List.forall_mem_cons.2 ⟨he, hfits⟩, ho⟩

/-- The settings are looked at in their order. -/
theorem validate_eq (c : Config) :
    c.validate =
      if c.digestChunkSize = 0 ∨ 1048576 < c.digestChunkSize then
        .error (.outOfRange .digestChunkSize c.digestChunkSize)
      else if c.xattrBufferSize = 0 ∨ 1048576 < c.xattrBufferSize then
        .error (.outOfRange .xattrBufferSize c.xattrBufferSize)
      else .ok c := by
  have hrange : ∀ size, inRange size = false ↔ size = 0 ∨ 1048576 < size := by
    intro size
    rw [← Bool.not_eq_true, inRange_iff, largest]
    omega
  simp only [← hrange, validate, firstOutOfRange?, Setting.all, List.find?_cons,
    List.find?_nil, get]
  cases inRange c.digestChunkSize with
  | false => rfl
  | true => cases inRange c.xattrBufferSize <;> rfl

/-- What comes of a document with these keys and values, in this order. -/
structure Ruled (entries : List (String × Toml.Value)) (result : Except ConfigError Config) :
    Prop where
  /-- The first that does not fit is what is wrong with it, whatever sizes
  there are besides. -/
  of_offends : (∃ e ∈ entries, Offends e) →
    ∃ (before : List (String × Toml.Value)) (e : String × Toml.Value)
      (after : List (String × Toml.Value)) (m : Misfit),
      entries = before ++ e :: after ∧ (∀ b ∈ before, ¬ Offends b) ∧ Offends e
        ∧ m.Describes e ∧ result = .error (.misfit m)
  /-- Where everything fits, the settings are looked at in their order, with
  defaults for those that are absent. -/
  of_fits : (∀ e ∈ entries, ¬ Offends e) →
    ∃ c : Config, Takes entries ⟨8192, 4096⟩ c ∧ result =
      if c.digestChunkSize = 0 ∨ 1048576 < c.digestChunkSize then
        .error (.outOfRange .digestChunkSize c.digestChunkSize)
      else if c.xattrBufferSize = 0 ∨ 1048576 < c.xattrBufferSize then
        .error (.outOfRange .xattrBufferSize c.xattrBufferSize)
      else .ok c

theorem ruled_of_document {text : String} {d : Toml.Document}
    (h : Toml.Document.ofText? text = some d) (hnodup : (keysOf d.entries).Nodup) :
    Ruled d.entries (ofText text) := by
  refine ⟨fun hoffends => ?_, fun hfits => ?_⟩
  · obtain ⟨before, e, after, heq, hfits, he⟩ := exists_first_offends hoffends
    obtain ⟨m, hm, hset⟩ := exists_setEntry_of_offends he
    refine ⟨before, e, after, m, heq, hfits, he, hm, ?_⟩
    rw [ofText, h]
    dsimp only
    rw [ofDocument, heq, foldlM_setEntry_of_first hfits hset]
  · obtain ⟨c, hc, htakes⟩ := exists_foldlM_setEntry hfits hnodup {}
    refine ⟨c, htakes, ?_⟩
    rw [ofText, h]
    dsimp only
    rw [ofDocument, hc]
    exact validate_eq c

/-- What is taken does not depend on the order. -/
theorem Takes.unique {entries entries' : List (String × Toml.Value)} {base c c' : Config}
    (h : Takes entries base c) (h' : Takes entries' base c') (hperm : entries.Perm entries')
    (hfits : ∀ e ∈ entries, ¬ Offends e) : c = c' := by
  refine ext_get fun s => ?_
  by_cases hs : s.name ∈ keysOf entries
  · obtain ⟨e, he, hname⟩ := List.mem_map.1 hs
    obtain ⟨t, n, rfl⟩ := exists_of_not_offends (hfits e he)
    obtain rfl := Setting.name_injective hname
    rw [h.given _ _ he, h'.given _ _ (hperm.mem_iff.1 he)]
  · have hs' : s.name ∉ keysOf entries' := fun hmem =>
      hs ((hperm.map Prod.fst).mem_iff.2 hmem)
    rw [h.absent s hs, h'.absent s hs']

/-- A text that is no document is malformed, whatever else is in it. A
document has its keys in the order of its lines, all of them different, and
the first that does not fit, or whose value does not, is what is wrong. That
order is the one in which the keys first appear, unless a table gets its own
header after others have passed through it: then it has its place there.
Where everything fits the sizes are looked at, that of digests before that
of attributes, and the order of the keys has no part in that. -/
theorem error_precedence :
    (∀ text, Toml.Document.ofText? text = none → ofText text = .error .malformed)
      ∧ (∀ text d, Toml.Document.ofText? text = some d →
          (∃ lines, Toml.lines? (Toml.withoutMark text.toList) = some lines
            ∧ keysOf d.entries = Toml.arranged [] [] lines
            ∧ (Toml.Unmoved lines → keysOf d.entries = (Toml.mentions [] lines).eraseDups))
          ∧ (keysOf d.entries).Nodup ∧ Ruled d.entries (ofText text))
      ∧ ∀ text text' d d', Toml.Document.ofText? text = some d →
          Toml.Document.ofText? text' = some d' → d.entries.Perm d'.entries →
          (∀ e ∈ d.entries, ¬ Offends e) → ofText text' = ofText text := by
  refine ⟨fun text h => ?_, fun text d h => ?_, fun text text' d d' h h' hperm hfits => ?_⟩
  · rw [ofText, h]
  · obtain ⟨hnodup, hlines⟩ := Toml.Document.keys_eq h
    exact ⟨hlines, hnodup, ruled_of_document h hnodup⟩
  · obtain ⟨hnodup, -⟩ := Toml.Document.keys_eq h
    obtain ⟨hnodup', -⟩ := Toml.Document.keys_eq h'
    have hfits' : ∀ e ∈ d'.entries, ¬ Offends e := fun e he => hfits e (hperm.mem_iff.2 he)
    obtain ⟨c, htakes, hresult⟩ := (ruled_of_document h hnodup).of_fits hfits
    obtain ⟨c', htakes', hresult'⟩ := (ruled_of_document h' hnodup').of_fits hfits'
    rw [hresult, hresult', htakes.unique htakes' hperm hfits]

/-- Both sizes are out of range, in either order. -/
theorem error_precedence_swapped :
    let text := "xattr_buffer_size = 0\ndigest_chunk_size = 1048577\n"
    let text' := "digest_chunk_size = 1048577\nxattr_buffer_size = 0\n"
    let entries := [("xattr_buffer_size", 0), ("digest_chunk_size", 1048577)].map Toml.assigned
    let entries' := [("digest_chunk_size", 1048577), ("xattr_buffer_size", 0)].map Toml.assigned
    Toml.Document.ofText? text = some ⟨entries⟩ ∧ Toml.Document.ofText? text' = some ⟨entries'⟩
      ∧ entries.Perm entries' ∧ (∀ e ∈ entries, ¬ Offends e)
      ∧ Ruled entries (ofText text) ∧ ofText text' = ofText text
      ∧ ofText text = .error (.outOfRange .digestChunkSize 1048577) := by
  intro text text' entries entries'
  have hdocument : Toml.Document.ofText? text = some ⟨entries⟩ :=
    Toml.Document.ofText?_assignments (by decide) (by decide) (by decide) (by decide)
  have hdocument' : Toml.Document.ofText? text' = some ⟨entries'⟩ :=
    Toml.Document.ofText?_assignments (by decide) (by decide) (by decide) (by decide)
  have hperm : entries.Perm entries' := .swap ..
  have hfits : ∀ e ∈ entries, ¬ Offends e :=
    List.forall_mem_cons.2 ⟨not_offends .xattrBufferSize 0,
      List.forall_mem_cons.2 ⟨not_offends .digestChunkSize 1048577, nofun⟩⟩
  obtain ⟨-, -, hruled⟩ := error_precedence.2.1 text _ hdocument
  have hsame := error_precedence.2.2 text text' _ _ hdocument hdocument' hperm hfits
  refine ⟨hdocument, hdocument', hperm, hfits, hruled, hsame, ?_⟩
  obtain ⟨c, htakes, hresult⟩ := hruled.of_fits hfits
  have hsize : c.digestChunkSize = 1048577 :=
    htakes.given .digestChunkSize 1048577 (List.mem_cons_of_mem _ (List.mem_cons_self ..))
  rw [hresult, hsize]
  rfl

end Config
end PosixFiles
