import CallTree.Json.Value
import CallTree.Text.Hex

/-!
# JSON tokens

The written form of a value is a row of tokens, and a token is written without any choice: no
blanks, integers in decimal, and in texts an escape for the quote, the backslash and the control
characters only.
-/

namespace CallTree

namespace Json

/-- The smallest parts of the written form. -/
inductive Token
  | openArray
  | closeArray
  | openObject
  | closeObject
  | comma
  | colon
  | null
  | bool (value : Bool)
  | number (value : Number)
  | text (value : Text)
  deriving DecidableEq, Repr

/-! ## Characters of texts and numbers -/

/-- The written form of a character inside a text. -/
def escape (c : Char) : List Char :=
  if c = '"' then ['\\', '"']
  else if c = '\\' then ['\\', '\\']
  else if c = '\x08' then ['\\', 'b']
  else if c = '\x0c' then ['\\', 'f']
  else if c = '\n' then ['\\', 'n']
  else if c = '\r' then ['\\', 'r']
  else if c = '\t' then ['\\', 't']
  else if c.toNat < 0x20 then '\\' :: 'u' :: Hex.digits 4 c.toNat
  else [c]

/-- The written form of a text. One that stands for no string is written as half of a surrogate
pair. -/
def textChars : Text → List Char
  | some s => '"' :: (s.toList.flatMap escape ++ ['"'])
  | none => ['"', '\\', 'u', 'd', '8', '0', '0', '"']

/-- The digits of a natural number. -/
def natChars (n : Nat) : List Char :=
  Nat.toDigits 10 n

/-- The written form of an integer, with a sign only where it is negative. -/
def intChars (n : Int) : List Char :=
  if n < 0 then '-' :: natChars n.natAbs else natChars n.natAbs

/-- The written form of the part of a number behind its integer. -/
def fractionChars : List (Fin 10) → List Char
  | [] => []
  | digits => '.' :: digits.map fun d => Nat.digitChar d.val

/-- The written form of an exponent. -/
def exponentChars : Option Int → List Char
  | none => []
  | some e => 'e' :: intChars e

/-- The written form of a number. -/
def Number.chars (n : Number) : List Char :=
  let digits := natChars n.whole ++ (fractionChars n.fraction ++ exponentChars n.exponent)
  if n.negative then '-' :: digits else digits

/-- The written form of a token. -/
def Token.chars : Token → List Char
  | openArray => ['[']
  | closeArray => [']']
  | openObject => ['\x7b']
  | closeObject => ['\x7d']
  | comma => [',']
  | colon => [':']
  | null => ['n', 'u', 'l', 'l']
  | bool true => ['t', 'r', 'u', 'e']
  | bool false => ['f', 'a', 'l', 's', 'e']
  | number n => n.chars
  | text content => textChars content

example : (Token.text (some "a\"\n\x01")).chars =
    ['"', 'a', '\\', '"', '\\', 'n', '\\', 'u', '0', '0', '0', '1', '"'] := by decide +kernel
example : (Token.number ⟨true, 10, [0, 5], some (-2)⟩).chars =
    ['-', '1', '0', '.', '0', '5', 'e', '-', '2'] := by decide

end Json

end CallTree
