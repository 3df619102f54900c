/-
A configuration that is written down is read again as itself.

# Writing

A configuration is written as one assignment for each setting, so the text
is a document of assignments, and reading it sets every setting to what it
was. Only that its sizes are in range matters: they are numbers that a
document can hold, and the configuration that is read is valid.

# Reading

Whatever a text looks like, what is read from it is valid. So it is taken
by `Files.ofConfig`, and writing it down gives a text from which it is
read again.

# What validity is for

A request that asks for no room at all is refused before anything is
called. Which requests are refused so is not up to the configuration,
since a valid one always gives some room.
-/
import PosixFiles.Proofs.Operation.Refusal
import PosixFiles.Proofs.Toml.Assignment

namespace PosixFiles

namespace Config

-- =============================================================== writing

/-- What a configuration says, setting by setting. -/
def assignments (c : Config) : List (String × Nat) :=
  Setting.all.map fun s => (s.name, c.get s)

theorem toList_toText (c : Config) :
    c.toText.toList = (c.assignments.map Toml.assignmentLine).flatten := by
  have hline : ∀ s : Setting, (s.name ++ " = " ++ toString (c.get s) ++ "\n").toList
      = Toml.assignmentLine (s.name, c.get s) := by
    intro s
    rw [Toml.assignmentLine, Nat.toString_eq_ofList_toDigits]
    simp only [String.toList_append, String.toList_ofList, List.append_assoc]
    rfl
  rw [toText, String.toList_join, assignments, List.flatMap_def, List.map_map, List.map_map]
  exact congrArg List.flatten (List.map_congr_left fun s _ => hline s)

/-- The text of a configuration, character by character. -/
theorem toText_eq (c : Config) :
    c.toText = "digest_chunk_size = " ++ toString c.digestChunkSize
      ++ "\nxattr_buffer_size = " ++ toString c.xattrBufferSize ++ "\n" := by
  refine String.toList_inj.1 ?_
  rw [toText, String.toList_join]
  simp only [Setting.all, List.map_cons, List.map_nil, List.flatMap_cons, List.flatMap_nil,
    String.toList_append, List.append_assoc, List.append_nil]
  rfl

-- =============================================================== reading

theorem setEntry_assigned (d : Config) (s : Setting) (size : Nat) :
    d.setEntry (Toml.assigned (s.name, size)) = .ok (d.set s size) := by
  have hname : Setting.ofName? s.name = some s := by
    cases s <;> decide
  rw [setEntry, Toml.assigned, hname]
  rfl

/-- Assignments are carried out one after the other. -/
theorem foldlM_setEntry (c d : Config) (ss : List Setting) :
    (ss.map fun s => Toml.assigned (s.name, c.get s)).foldlM setEntry d
      = .ok (ss.foldl (fun d s => d.set s (c.get s)) d) := by
  induction ss generalizing d with
  | nil => rfl
  | cons s ss ih =>
      rw [List.map_cons, List.foldlM_cons, setEntry_assigned]
      exact ih _

/-- A size in range is a number that a document can hold. -/
theorem isWord_of_le_largest {n : Nat} (h : n ≤ largest) : Toml.isWord n = true := by
  have hmin : Int64.minValue.toInt = -9223372036854775808 := rfl
  have hmax : Int64.maxValue.toInt = 9223372036854775807 := rfl
  rw [Toml.isWord, hmin, hmax, Bool.and_eq_true, decide_eq_true_iff, decide_eq_true_iff]
  rw [largest] at h
  omega

/-- A valid configuration is read from its text. -/
theorem ofText_of_valid {c : Config} (h : c.Valid) : ofText c.toText = .ok c := by
  have hbare : ∀ s : Setting, Toml.isBareKey s.name = true := by
    intro s
    cases s <;> decide
  have hdocument : Toml.Document.ofText? c.toText = some ⟨c.assignments.map Toml.assigned⟩ := by
    refine Toml.Document.ofText?_assignments c.toList_toText ?_ ?_ ?_
    · intro a ha
      obtain ⟨s, -, rfl⟩ := List.mem_map.1 ha
      exact hbare s
    · intro a ha
      obtain ⟨s, -, rfl⟩ := List.mem_map.1 ha
      exact isWord_of_le_largest (h.get_le s).2
    · rw [assignments, List.map_map]
      show (Setting.all.map Setting.name).Nodup
      decide
  have hread : ofDocument ⟨c.assignments.map Toml.assigned⟩ = .ok c := by
    rw [ofDocument, assignments, List.map_map]
    exact foldlM_setEntry c {} Setting.all
  rw [ofText, hdocument]
  dsimp only
  rw [hread]
  dsimp only
  rw [validate, firstOutOfRange?_eq_none_iff.2 h]

/-- What is read is valid. -/
theorem valid_of_ofText {text : String} {c : Config} (h : ofText text = .ok c) : c.Valid := by
  unfold ofText at h
  split at h
  · cases h
  split at h
  · cases h
  unfold validate at h
  split at h
  next hnone =>
    cases h
    exact firstOutOfRange?_eq_none_iff.1 hnone
  next => cases h

end Config

-- ============================================================== requests

namespace Files

/-- A valid configuration is taken as it is. -/
theorem exists_ofConfig {c : Config} (h : c.Valid) : ∃ F, ofConfig c = .ok F ∧ F.config = c := by
  have hnone := Config.firstOutOfRange?_eq_none_iff.2 h
  unfold ofConfig
  split
  next => exact ⟨_, rfl, rfl⟩
  next s hs =>
    rw [hnone] at hs
    cases hs

/-- Every valid configuration is read from its text, which differs from
that of every other. What is read from any text is valid and taken by
`ofConfig`, and it is read again from its own text. And since whoever
performs requests has a valid configuration, a digest or an attribute is
refused for want of room only where the request itself leaves none: where
it says nothing there is room. -/
theorem config_round_trip :
    (∀ c : Config, c.toText = "digest_chunk_size = " ++ toString c.digestChunkSize
        ++ "\nxattr_buffer_size = " ++ toString c.xattrBufferSize ++ "\n")
      ∧ (∀ c : Config, c.Valid → Config.ofText c.toText = .ok c)
      ∧ (∀ (text : String) (c : Config), Config.ofText text = .ok c →
          (∀ s, 1 ≤ c.get s ∧ c.get s ≤ 1048576) ∧ (∃ F, ofConfig c = .ok F ∧ F.config = c)
            ∧ Config.ofText c.toText = .ok c)
      ∧ (∀ c d : Config, c.Valid → d.Valid → c.toText = d.toText → c = d)
      ∧ ∀ (F : Files) {σ : Type} (S : System σ) (s : σ) (p : Path) (room : Option Nat),
          (System.RefusedForRoom p ((F.perform S.recorded (.md5 p room)).run ⟨[], s⟩)
              ↔ room = some 0)
            ∧ ∀ follow name,
              System.RefusedForRoom p
                  ((F.perform S.recorded (.getxattr follow p name room)).run ⟨[], s⟩)
                ↔ room = some 0 := by
  refine ⟨Config.toText_eq, fun c => Config.ofText_of_valid, fun text c h => ?_,
    fun c d hc hd h => ?_, fun F σ S s p room => ?_⟩
  · have hvalid := Config.valid_of_ofText h
    exact ⟨hvalid.get_le, exists_ofConfig hvalid, Config.ofText_of_valid hvalid⟩
  · have hread := Config.ofText_of_valid hc
    rw [h, Config.ofText_of_valid hd] at hread
    exact (Except.ok.inj hread).symm
  · refine ⟨(System.md5_refused_iff p _ s).trans (F.room_eq_zero_iff room .digestChunkSize),
      fun follow name => ?_⟩
    exact (System.getxattr_refused_iff follow p name _ s).trans
      (F.room_eq_zero_iff room .xattrBufferSize)

/-- A text that is not what would have been written: one setting is left
out, and the other is in hexadecimal digits with a leading zero, a group
mark, a comment and another line end. -/
theorem config_round_trip_rewritten :
    let text := "\n\t xattr_buffer_size=0x0_1F # bytes\r\n"
    let c : Config := ⟨8192, 31⟩
    Config.ofText text = .ok c
      ∧ (∀ s, 1 ≤ c.get s ∧ c.get s ≤ 1048576) ∧ (∃ F, ofConfig c = .ok F ∧ F.config = c)
      ∧ Config.ofText c.toText = .ok c
      ∧ c.toText = "digest_chunk_size = 8192\nxattr_buffer_size = 31\n" := by
  intro text c
  have hsome : (Config.ofText text).toOption = some c := by decide +kernel
  have hread : Config.ofText text = .ok c := by
    cases h : Config.ofText text with
    | ok d =>
        rw [h] at hsome
        exact congrArg Except.ok (Option.some.inj hsome)
    | error e =>
        rw [h] at hsome
        cases hsome
  obtain ⟨hrange, htaken, hagain⟩ := config_round_trip.2.2.1 text c hread
  exact ⟨hread, hrange, htaken, hagain, (config_round_trip.1 c).trans (by decide)⟩

end Files
end PosixFiles
