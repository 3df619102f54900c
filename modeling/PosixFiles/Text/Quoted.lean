/-
Texts, paths and names in quotation marks, the way they appear in events
and in messages.

Inside the marks a character stands for itself unless it has no visible
form, would attach itself to its neighbour, or is a quotation mark or a
backslash. Bytes that are not valid UTF-8 are written in hexadecimal, so
a quoted path can be told apart from every other path. The name of a
directory's entry is written byte by byte where it is ASCII: an
apostrophe is escaped too, and a control is a byte in hexadecimal.
-/
import PosixFiles.Text.Utf8
import PosixFiles.Text.Printable

namespace PosixFiles
namespace Quoted

/-- The digits of a number in base 16, lower case, without leading zeros. -/
def hexDigits (n : Nat) : List Char :=
  Nat.toDigits 16 n

/-- One character as it stands between quotation marks. -/
def charText (c : Char) : List Char :=
  if c = '\x00' then ['\\', '0']
  else if c = '\t' then ['\\', 't']
  else if c = '\r' then ['\\', 'r']
  else if c = '\n' then ['\\', 'n']
  else if c = '"' then ['\\', '"']
  else if c = '\\' then ['\\', '\\']
  else if isCombining c || !isPrintable c then
    ['\\', 'u', '\x7b'] ++ hexDigits c.toNat ++ ['\x7d']
  else [c]

/-- The two lower-case hexadecimal digits of a byte. -/
def byteDigits (b : UInt8) : List Char :=
  [Bytes.hexDigit (b >>> 4), Bytes.hexDigit (b &&& 0xf)]

/-- A byte of a path that belongs to no character: `\x` and its digits in
upper case. -/
def strayByteText (b : UInt8) : List Char :=
  '\\' :: 'x' :: (byteDigits b).map Char.toUpper

/-- A byte of an entry's name that is no character to show: `\x` and its
digits in lower case. -/
def byteText (b : UInt8) : List Char :=
  '\\' :: 'x' :: byteDigits b

/-- One stretch of a path as it stands between quotation marks. -/
def pathPieceText : Utf8.Piece → List Char
  | .char c => charText c
  | .broken bytes => bytes.flatMap strayByteText

/-- Whether a character is a control that has no letter of its own in
escapes: of ASCII all controls but the null, the tab and the ends of line. -/
def isBareControl (c : Char) : Bool :=
  (c < ' ' || c = '\x7f') && !(c = '\x00' || c = '\t' || c = '\r' || c = '\n')

/-- One character of an entry's name as it stands between quotation marks. -/
def nameCharText (c : Char) : List Char :=
  if c = '\'' then ['\\', '\'']
  else if isBareControl c then byteText c.toNat.toUInt8
  else charText c

/-- One stretch of an entry's name as it stands between quotation marks. -/
def namePieceText : Utf8.Piece → List Char
  | .char c => nameCharText c
  | .broken bytes => bytes.flatMap byteText

/-- The given characters between quotation marks. -/
def inMarks (cs : List Char) : String :=
  String.ofList ('"' :: cs ++ ['"'])

/-- A text between quotation marks. -/
def ofString (s : String) : String :=
  inMarks (s.toList.flatMap charText)

/-- A path between quotation marks. -/
def ofPath (b : Bytes) : String :=
  inMarks ((Utf8.pieces b).flatMap pathPieceText)

/-- The name of a directory's entry between quotation marks. -/
def ofName (b : Bytes) : String :=
  inMarks ((Utf8.pieces b).flatMap namePieceText)

end Quoted
end PosixFiles
