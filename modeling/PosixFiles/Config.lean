/-
Configurations: how much room an operation gets where its caller does not
say.

A configuration is written down as a TOML document with one integer for
each setting; a setting that is left out has its default. Three stages can
refuse a text, each for the whole text before the next: that it is no
document, that a key or its value is none of a configuration's, and that a
size is out of range. The second reports the first key that does not fit,
the third the first setting, in the order of `Setting.all`.
-/
import PosixFiles.Toml.Document
import PosixFiles.Text.Quoted

namespace PosixFiles

/-- What can be configured. -/
inductive Setting where
  /-- How many bytes are read at once to compute a digest. -/
  | digestChunkSize
  /-- How many bytes the value of an attribute may have. -/
  | xattrBufferSize
  deriving DecidableEq, Repr

namespace Setting

def name : Setting → String
  | .digestChunkSize => "digest_chunk_size"
  | .xattrBufferSize => "xattr_buffer_size"

/-- Every setting. -/
def all : List Setting := [.digestChunkSize, .xattrBufferSize]

/-- The setting of the given name. -/
def ofName? (s : String) : Option Setting :=
  all.find? (·.name = s)

theorem mem_all (s : Setting) : s ∈ all := by
  cases s <;> decide

end Setting

/-- A size for each setting. -/
structure Config where
  digestChunkSize : Nat := 8192
  xattrBufferSize : Nat := 4096
  deriving DecidableEq, Repr

namespace Config

/-- The size of a setting. -/
def get (c : Config) : Setting → Nat
  | .digestChunkSize => c.digestChunkSize
  | .xattrBufferSize => c.xattrBufferSize

/-- A configuration with another size for a setting. -/
def set (c : Config) (s : Setting) (size : Nat) : Config :=
  match s with
  | .digestChunkSize => { c with digestChunkSize := size }
  | .xattrBufferSize => { c with xattrBufferSize := size }

-- =============================================================== validity

/-- The largest size. -/
def largest : Nat := 1048576

/-- Whether a size is in range. -/
def inRange (size : Nat) : Bool :=
  1 ≤ size && size ≤ largest

/-- All sizes are in range. -/
def Valid (c : Config) : Prop :=
  ∀ s, inRange (c.get s) = true

theorem inRange_iff {size : Nat} : inRange size = true ↔ 1 ≤ size ∧ size ≤ largest := by
  rw [inRange, Bool.and_eq_true, decide_eq_true_iff, decide_eq_true_iff]

theorem Valid.get_le {c : Config} (h : c.Valid) (s : Setting) :
    1 ≤ c.get s ∧ c.get s ≤ largest :=
  inRange_iff.1 (h s)

/-- The first setting whose size is out of range. -/
def firstOutOfRange? (c : Config) : Option Setting :=
  Setting.all.find? fun s => !inRange (c.get s)

theorem firstOutOfRange?_eq_none_iff {c : Config} : c.firstOutOfRange? = none ↔ c.Valid := by
  simp only [firstOutOfRange?, List.find?_eq_none, Valid]
  constructor
  · intro h s
    simpa using h s s.mem_all
  · intro h s _
    simp [h s]

instance (c : Config) : Decidable c.Valid :=
  decidable_of_iff _ firstOutOfRange?_eq_none_iff

/-- The configuration in which nothing is set is valid. -/
theorem valid_default : ({} : Config).Valid := by
  intro s
  cases s <;> decide

-- ================================================================ written

/-- A configuration as a document, one setting on each line. -/
def toText (c : Config) : String :=
  String.join (Setting.all.map fun s => s.name ++ " = " ++ toString (c.get s) ++ "\n")

end Config

-- ================================================================= errors

/-- What does not fit a configuration in a document. -/
inductive Misfit where
  | unknownKey (key : String)
  | negative (n : Int)
  | wrongType (v : Toml.Value)

/-- Why a configuration is refused. -/
inductive ConfigError where
  /-- The text is no document. -/
  | malformed
  | misfit (m : Misfit)
  | outOfRange (s : Setting) (size : Nat)

/-- What a value is, in words. -/
def Toml.Value.description : Toml.Value → String
  | .string s => "string " ++ Quoted.ofString s
  | .integer n => "integer `" ++ toString n ++ "`"
  | .float f => "floating point `" ++ Decimal.floatText f ++ "`"
  | .bool b => "boolean `" ++ (if b then "true" else "false") ++ "`"
  | .moment _ => "map"
  | .array _ => "sequence"
  | .table _ => "map"

def Misfit.message : Misfit → String
  | .unknownKey key =>
      "unknown field `" ++ key ++ "`, expected "
        ++ " or ".intercalate (Setting.all.map fun s => "`" ++ s.name ++ "`")
  | .negative n => "invalid value: " ++ (Toml.Value.integer n).description ++ ", expected usize"
  | .wrongType v => "invalid type: " ++ v.description ++ ", expected usize"

/-- The wording of a size that is out of range. -/
def Setting.rangeMessage (s : Setting) (size : Nat) : String :=
  s.name ++ " must be between 1 and " ++ toString Config.largest ++ " bytes, got "
    ++ toString size

-- ================================================================ reading

namespace Config

/-- The size that a value stands for. -/
def sizeOf : Toml.Value → Except Misfit Nat
  | .integer n => if 0 ≤ n then .ok n.toNat else .error (.negative n)
  | v => .error (.wrongType v)

/-- A configuration with what one key of a document says. -/
def setEntry (c : Config) (entry : String × Toml.Value) : Except Misfit Config :=
  match Setting.ofName? entry.1 with
  | none => .error (.unknownKey entry.1)
  | some s => (sizeOf entry.2).map (c.set s)

/-- The configuration that a document writes down. -/
def ofDocument (d : Toml.Document) : Except Misfit Config :=
  d.entries.foldlM setEntry {}

/-- A configuration is passed on if it is valid. -/
def validate (c : Config) : Except ConfigError Config :=
  match c.firstOutOfRange? with
  | none => .ok c
  | some s => .error (.outOfRange s (c.get s))

/-- The valid configuration that a text writes down. -/
def ofText (text : String) : Except ConfigError Config :=
  match Toml.Document.ofText? text with
  | none => .error .malformed
  | some d =>
      match ofDocument d with
      | .error m => .error (.misfit m)
      | .ok c => c.validate

end Config
end PosixFiles
