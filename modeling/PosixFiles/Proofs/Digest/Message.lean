/-
The digest of a message, and of the same message in pieces.

# Blocks

Padding fills a message up to whole blocks, so the digest folds the blocks
of the padded message one after the other and nothing is left over
(`exists_blocks_digest_eq`). The lengths 55 and 56 after the last whole
block are the border: up to the first the length still fits the block, from
the second on there is one block more.

# Pieces

Folding can be broken off anywhere and taken up again: the words reached so
far and the bytes after the last whole block are all that the rest of a
message needs (`foldBlocks_append`). A context holds just these, with the
length of the message, and what it holds is a message and not the pieces
in which that came (`Context.Holds`). So the digest of a context is that of
the message, wherever it was cut.
-/
import PosixFiles.Md5

namespace PosixFiles.Md5

-- ================================================================ blocks

theorem foldBlocks_of_length_lt {b : Bytes} (h : b.length < 64) (w : Words) :
    foldBlocks w b = (w, b) := by
  rw [foldBlocks, if_pos (List.drop_eq_nil_of_le (by omega))]

theorem foldBlocks_of_le_length {b : Bytes} (h : 64 ≤ b.length) (w : Words) :
    foldBlocks w b = foldBlocks (fold w (b.take 64)) (b.drop 64) := by
  rw [foldBlocks, if_neg]
  intro hshort
  have := List.drop_eq_nil_iff.1 hshort
  omega

/-- Folding a message means folding what comes first, and then what is left
of that together with the rest. -/
theorem foldBlocks_append (w : Words) (a b : Bytes) :
    foldBlocks w (a ++ b) = foldBlocks (foldBlocks w a).1 ((foldBlocks w a).2 ++ b) := by
  fun_induction foldBlocks w a with
  | case1 w a h => rfl
  | case2 w a h ih =>
      have hlong : 64 ≤ a.length := by
        have : ¬ a.length ≤ 63 := fun hshort => h (List.drop_eq_nil_of_le hshort)
        omega
      have hall : 64 ≤ (a ++ b).length := by
        rw [List.length_append]
        omega
      rw [foldBlocks_of_le_length hall, List.take_append_of_le_length hlong,
        List.drop_append_of_le_length hlong]
      exact ih

/-- Whole blocks are folded one after the other. -/
theorem foldBlocks_flatten (w : Words) {blocks : List Bytes}
    (h : ∀ block ∈ blocks, block.length = 64) :
    foldBlocks w blocks.flatten = (blocks.foldl fold w, []) := by
  induction blocks generalizing w with
  | nil => exact foldBlocks_of_length_lt (by decide) w
  | cons block blocks ih =>
      obtain ⟨hblock, hblocks⟩ := List.forall_mem_cons.1 h
      have hlong : 64 ≤ (block ++ blocks.flatten).length := by
        rw [List.length_append]
        omega
      rw [List.flatten_cons, foldBlocks_of_le_length hlong, List.take_left' hblock,
        List.drop_left' hblock]
      exact ih _ hblocks

-- =============================================================== padding

theorem length_padding (n : Nat) : (padding n).length = (119 - n % 64) % 64 + 9 := by
  unfold padding
  rw [List.length_append, List.length_cons, List.length_replicate, List.length_map,
    List.length_range]

/-- A message and its padding together are whole blocks. -/
theorem length_padded (n : Nat) : 64 ∣ n + (padding n).length := by
  rw [length_padding]
  omega

/-- Bytes that are whole blocks together can be cut into them. -/
theorem exists_blocks (k : Nat) (b : Bytes) (h : b.length = 64 * k) :
    ∃ blocks : List Bytes, blocks.flatten = b ∧ ∀ block ∈ blocks, block.length = 64 := by
  induction k generalizing b with
  | zero => exact ⟨[], (List.eq_nil_of_length_eq_zero h).symm, nofun⟩
  | succ k ih =>
      obtain ⟨blocks, hflatten, hblocks⟩ := ih (b.drop 64) (by rw [List.length_drop]; omega)
      refine ⟨b.take 64 :: blocks, ?_, List.forall_mem_cons.2 ⟨?_, hblocks⟩⟩
      · rw [List.flatten_cons, hflatten, List.take_append_drop]
      · rw [List.length_take]
        omega

/-- A digest folds the blocks of the padded message, all of them. -/
theorem exists_blocks_digest_eq (message : Bytes) :
    ∃ blocks : List Bytes, blocks.flatten = message ++ padding message.length
      ∧ (∀ block ∈ blocks, block.length = 64)
      ∧ digest message = (blocks.foldl fold .start).digest := by
  obtain ⟨k, hk⟩ := length_padded message.length
  obtain ⟨blocks, hflatten, hblocks⟩ :=
    exists_blocks k (message ++ padding message.length) (by rw [List.length_append, hk])
  refine ⟨blocks, hflatten, hblocks, ?_⟩
  rw [digest, ← hflatten, foldBlocks_flatten _ hblocks]

example : (digest []).toHex = "d41d8cd98f00b204e9800998ecf8427e" := by decide +kernel

example : (digest (List.replicate 8 [49, 50, 51, 52, 53, 54, 55, 56, 57, 48]).flatten).toHex
    = "57edf4a22be3c955ac49da2e2107b67a" := by decide +kernel

-- ================================================================ pieces

namespace Context

/-- The context is what a message comes to, in whatever pieces. -/
structure Holds (ctx : Context) (message : Bytes) : Prop where
  folded : foldBlocks .start message = (ctx.words, ctx.pending)
  length_eq : ctx.length = message.length

theorem holds_nil : ({} : Context).Holds [] where
  folded := foldBlocks_of_length_lt (by decide) _
  length_eq := rfl

theorem Holds.append {ctx : Context} {message : Bytes} (h : ctx.Holds message) (piece : Bytes) :
    (ctx.append piece).Holds (message ++ piece) where
  folded := by
    rw [foldBlocks_append, h.folded]
    rfl
  length_eq := by
    rw [List.length_append, ← h.length_eq]
    rfl

theorem Holds.digest_eq {ctx : Context} {message : Bytes} (h : ctx.Holds message) :
    ctx.digest = Md5.digest message := by
  unfold Context.digest Md5.digest
  rw [foldBlocks_append .start message, h.folded, h.length_eq]

end Context
end PosixFiles.Md5
