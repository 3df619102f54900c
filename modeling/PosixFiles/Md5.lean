/-
The MD5 digest: of a whole message at once, and of a message that comes
in pieces.

A message is padded to a whole number of blocks of 64 bytes, and the
blocks are folded into four words one after the other. A `Context` holds
the words after all whole blocks so far, and the bytes since. Cutting a
message into pieces makes no difference because a context depends only on
all the bytes together; the padding is added once, at the end.
-/
import PosixFiles.Bytes

namespace PosixFiles

/-- An MD5 digest: sixteen bytes. -/
structure Digest where
  bytes : Bytes
  length_bytes : bytes.length = 16
  deriving DecidableEq, Repr

/-- Sixteen bytes as a digest. -/
def Digest.ofBytes? (b : Bytes) : Option Digest :=
  if h : b.length = 16 then some ⟨b, h⟩ else none

/-- A digest as thirty-two lower-case hexadecimal digits. -/
def Digest.toHex (d : Digest) : String := d.bytes.toHex

namespace Md5

/-- The four words that blocks are folded into. -/
structure Words where
  a : UInt32
  b : UInt32
  c : UInt32
  d : UInt32
  deriving DecidableEq, Repr

/-- The words before the first block. -/
def Words.start : Words := ⟨0x67452301, 0xefcdab89, 0x98badcfe, 0x10325476⟩

/-- The constants of the 64 steps: the whole parts of 2^32 times the
absolute values of the sines of 1 to 64. -/
def sines : Array UInt32 :=
  #[0xd76aa478, 0xe8c7b756, 0x242070db, 0xc1bdceee, 0xf57c0faf, 0x4787c62a,
    0xa8304613, 0xfd469501, 0x698098d8, 0x8b44f7af, 0xffff5bb1, 0x895cd7be,
    0x6b901122, 0xfd987193, 0xa679438e, 0x49b40821, 0xf61e2562, 0xc040b340,
    0x265e5a51, 0xe9b6c7aa, 0xd62f105d, 0x02441453, 0xd8a1e681, 0xe7d3fbc8,
    0x21e1cde6, 0xc33707d6, 0xf4d50d87, 0x455a14ed, 0xa9e3e905, 0xfcefa3f8,
    0x676f02d9, 0x8d2a4c8a, 0xfffa3942, 0x8771f681, 0x6d9d6122, 0xfde5380c,
    0xa4beea44, 0x4bdecfa9, 0xf6bb4b60, 0xbebfbc70, 0x289b7ec6, 0xeaa127fa,
    0xd4ef3085, 0x04881d05, 0xd9d4d039, 0xe6db99e5, 0x1fa27cf8, 0xc4ac5665,
    0xf4292244, 0x432aff97, 0xab9423a7, 0xfc93a039, 0x655b59c3, 0x8f0ccc92,
    0xffeff47d, 0x85845dd1, 0x6fa87e4f, 0xfe2ce6e0, 0xa3014314, 0x4e0811a1,
    0xf7537e82, 0xbd3af235, 0x2ad7d2bb, 0xeb86d391]

/-- How far the sum of a step is rotated. -/
def shift (step : Nat) : UInt32 :=
  match step / 16, step % 4 with
  | 0, 0 => 7 | 0, 1 => 12 | 0, 2 => 17 | 0, _ => 22
  | 1, 0 => 5 | 1, 1 => 9 | 1, 2 => 14 | 1, _ => 20
  | 2, 0 => 4 | 2, 1 => 11 | 2, 2 => 16 | 2, _ => 23
  | _, 0 => 6 | _, 1 => 10 | _, 2 => 15 | _, _ => 21

/-- A word with its bits moved up, those that fall off coming in below. -/
def rotate (x n : UInt32) : UInt32 :=
  (x <<< n) ||| (x >>> (32 - n))

/-- How a step mixes three of the words, and which word of the block it
takes in. -/
def mixing (step : Nat) (w : Words) : UInt32 × Nat :=
  match step / 16 with
  | 0 => ((w.b &&& w.c) ||| (~~~w.b &&& w.d), step)
  | 1 => ((w.d &&& w.b) ||| (~~~w.d &&& w.c), (5 * step + 1) % 16)
  | 2 => (w.b ^^^ w.c ^^^ w.d, (3 * step + 5) % 16)
  | _ => (w.c ^^^ (w.b ||| ~~~w.d), 7 * step % 16)

/-- One of the 64 steps over a block of sixteen words. -/
def takeStep (block : Array UInt32) (w : Words) (step : Nat) : Words :=
  let (mixed, index) := mixing step w
  let sum := w.a + mixed + sines.getD step 0 + block.getD index 0
  ⟨w.d, w.b + rotate sum (shift step), w.b, w.c⟩

/-- The bytes of a block as words, the low byte first. -/
def blockWords : Bytes → List UInt32
  | x :: y :: z :: t :: rest =>
      (x.toUInt32 ||| y.toUInt32 <<< 8 ||| z.toUInt32 <<< 16 ||| t.toUInt32 <<< 24)
        :: blockWords rest
  | _ => []

/-- Folds one block of 64 bytes into the words. -/
def fold (w : Words) (block : Bytes) : Words :=
  let r := (List.range 64).foldl (takeStep (blockWords block).toArray) w
  ⟨w.a + r.a, w.b + r.b, w.c + r.c, w.d + r.d⟩

/-- Folds all whole blocks at the front into the words; gives the bytes
that are left as well, fewer than a block. -/
def foldBlocks (w : Words) (b : Bytes) : Words × Bytes :=
  if b.drop 63 = [] then (w, b)
  else foldBlocks (fold w (b.take 64)) (b.drop 64)
termination_by b.length
decreasing_by
  rename_i h
  simp only [List.drop_eq_nil_iff, Nat.not_le] at h
  simp only [List.length_drop]
  omega

/-- A word as four bytes, the low byte first. -/
def wordBytes (x : UInt32) : Bytes :=
  [x.toUInt8, (x >>> 8).toUInt8, (x >>> 16).toUInt8, (x >>> 24).toUInt8]

/-- What follows a message of the given length: one bit, zeros up to
eight bytes before the end of a block, and the length in bits, which
counts modulo 2^64. -/
def padding (length : Nat) : Bytes :=
  let bits := UInt64.ofNat (8 * length)
  0x80 :: List.replicate ((119 - length % 64) % 64) 0
    ++ (List.range 8).map fun i => (bits >>> UInt64.ofNat (8 * i)).toUInt8

/-- The words as a digest. -/
def Words.digest (w : Words) : Digest where
  bytes := wordBytes w.a ++ wordBytes w.b ++ wordBytes w.c ++ wordBytes w.d
  length_bytes := rfl

/-- The digest of a whole message. -/
def digest (message : Bytes) : Digest :=
  (foldBlocks .start (message ++ padding message.length)).1.digest

-- ======================================================= in pieces

/-- A message so far. -/
structure Context where
  /-- The words after all whole blocks. -/
  words : Words := .start
  /-- The bytes since the last whole block. -/
  pending : Bytes := []
  /-- How many bytes there were in all. -/
  length : Nat := 0

namespace Context

/-- The message with one more piece. -/
def append (ctx : Context) (piece : Bytes) : Context :=
  let (words, pending) := foldBlocks ctx.words (ctx.pending ++ piece)
  ⟨words, pending, ctx.length + piece.length⟩

/-- The digest of the message. -/
def digest (ctx : Context) : Digest :=
  (foldBlocks ctx.words (ctx.pending ++ padding ctx.length)).1.digest

end Context
end Md5
end PosixFiles
