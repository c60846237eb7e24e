import CallTree.Json.Token

/-!
# Reading JSON tokens

`Token.next?` reads the token at the head of a text, the longest one that starts there. Blanks may
stand between tokens (`isBlank`). Every token takes some of the text (`length_of_next?`), and that
is why reading one token after another ends.

Escapes in texts are first collected as pieces, since two of them may stand for one character.
-/

namespace CallTree

namespace Json

namespace Token

/-! ## Texts -/

/-- A part of a text: a character, or an escape of half a surrogate pair. -/
inductive Piece
  | char (c : Char)
  | half (unit : Nat)
  deriving DecidableEq, Repr

/-- The character behind a backslash stands for another one. -/
def unescape? (c : Char) : Option Char :=
  match c with
  | '"' => some '"'
  | '\\' => some '\\'
  | '/' => some '/'
  | 'b' => some '\x08'
  | 'f' => some '\x0c'
  | 'n' => some '\n'
  | 'r' => some '\r'
  | 't' => some '\t'
  | _ => none

/-- The unit opens a surrogate pair. -/
def isHigh (unit : Nat) : Bool := 0xd800 ≤ unit && unit < 0xdc00

/-- The unit ends a surrogate pair. -/
def isLow (unit : Nat) : Bool := 0xdc00 ≤ unit && unit < 0xe000

/-- The piece that an escape of four digits stands for. -/
def pieceOfUnit (unit : Nat) : Piece :=
  if isHigh unit || isLow unit then .half unit else .char (Char.ofNat unit)

/-- The character that a surrogate pair stands for. -/
def joinPair (high low : Nat) : Char :=
  Char.ofNat (0x10000 + (high - 0xd800) * 0x400 + (low - 0xdc00))

/-- Reads a text behind its opening quote. The pieces come out most recent first, followed by
those read before. -/
def scanBody (done : List Piece) : List Char → Option (List Piece × List Char)
  | [] => none
  | c :: rest =>
    if c = '"' then some (done, rest)
    else if c = '\\' then
      match rest with
      | 'u' :: a :: b :: c :: d :: rest =>
        match Hex.value? [a, b, c, d] with
        | some unit => scanBody (pieceOfUnit unit :: done) rest
        | none => none
      | c :: rest =>
        match unescape? c with
        | some meant => scanBody (.char meant :: done) rest
        | none => none
      | [] => none
    else if c.toNat < 0x20 then none
    else scanBody (.char c :: done) rest

/-- The characters of pieces given most recent first, followed by those found before. There are
none if a half of a surrogate pair stands alone. -/
def joinOnto (found : List Char) : List Piece → Option (List Char)
  | [] => some found
  | .char c :: earlier => joinOnto (c :: found) earlier
  | .half low :: .half high :: earlier =>
    if isHigh high && isLow low then joinOnto (joinPair high low :: found) earlier else none
  | .half _ :: _ => none

/-- Reads a text behind its opening quote. -/
def scanText? (cs : List Char) : Option (Token × List Char) :=
  match scanBody [] cs with
  | some (pieces, rest) => some (.text ((joinOnto [] pieces).map String.ofList), rest)
  | none => none

/-! ## Numbers -/

/-- The digits at the head of a text, of which there is at least one, and the rest. -/
def scanDigits? (cs : List Char) : Option (List Char × List Char) :=
  match cs.takeWhile Char.isDigit with
  | [] => none
  | digits => some (digits, cs.dropWhile Char.isDigit)

/-- The number that digits stand for. -/
def digitsValue (digits : List Char) : Nat :=
  Nat.ofDigitChars 10 digits 0

/-- Reads the integer of a number, which has no leading zero. -/
def scanWhole? (cs : List Char) : Option (Nat × List Char) :=
  match scanDigits? cs with
  | some ('0' :: _ :: _, _) => none
  | some (digits, rest) => some (digitsValue digits, rest)
  | none => none

/-- Reads the digits behind the point, if there is a point. -/
def scanFraction? : List Char → Option (List (Fin 10) × List Char)
  | '.' :: cs =>
    match scanDigits? cs with
    | some (digits, rest) => some (digits.map fun c => Fin.ofNat 10 (c.toNat - 48), rest)
    | none => none
  | cs => some ([], cs)

/-- Reads the digits of an exponent, its sign being known. -/
def scanMagnitude? (sign : Int) (cs : List Char) : Option (Option Int × List Char) :=
  match scanDigits? cs with
  | some (digits, rest) => some (some (sign * digitsValue digits), rest)
  | none => none

/-- Reads the exponent of a number behind its letter. -/
def scanSigned? : List Char → Option (Option Int × List Char)
  | '-' :: cs => scanMagnitude? (-1) cs
  | '+' :: cs => scanMagnitude? 1 cs
  | cs => scanMagnitude? 1 cs

/-- Reads the exponent of a number, if there is one. -/
def scanExponent? : List Char → Option (Option Int × List Char)
  | 'e' :: cs => scanSigned? cs
  | 'E' :: cs => scanSigned? cs
  | cs => some (none, cs)

/-- Reads a number whose sign is known. -/
def scanUnsigned? (negative : Bool) (cs : List Char) : Option (Token × List Char) := do
  let (whole, rest) ← scanWhole? cs
  let (fraction, rest) ← scanFraction? rest
  let (exponent, rest) ← scanExponent? rest
  some (.number ⟨negative, whole, fraction, exponent⟩, rest)

/-- Reads a number. -/
def scanNumber? : List Char → Option (Token × List Char)
  | '-' :: cs => scanUnsigned? true cs
  | cs => scanUnsigned? false cs

/-! ## Tokens -/

/-- Reads a word that stands for a token. -/
def scanWord? (token : Token) (cs : List Char) : Option (Token × List Char) :=
  if token.chars.isPrefixOf cs then some (token, cs.drop token.chars.length) else none

/-- Reads the token at the head of a text. -/
def next? (cs : List Char) : Option (Token × List Char) :=
  match cs with
  | '[' :: rest => some (.openArray, rest)
  | ']' :: rest => some (.closeArray, rest)
  | '\x7b' :: rest => some (.openObject, rest)
  | '\x7d' :: rest => some (.closeObject, rest)
  | ',' :: rest => some (.comma, rest)
  | ':' :: rest => some (.colon, rest)
  | '"' :: rest => scanText? rest
  | 'n' :: _ => scanWord? .null cs
  | 't' :: _ => scanWord? (.bool true) cs
  | 'f' :: _ => scanWord? (.bool false) cs
  | _ => scanNumber? cs

/-- Blanks may stand between tokens. -/
def isBlank (c : Char) : Bool :=
  c == ' ' || c == '\n' || c == '\t' || c == '\r'

/-! ## Every token takes some of the text -/

theorem length_of_scanBody {done pieces : List Piece} {cs rest : List Char}
    (h : scanBody done cs = some (pieces, rest)) : rest.length < cs.length := by
  fun_induction scanBody done cs with
  | case1 => cases h
  | case2 done tail =>
    cases h
    exact Nat.lt_succ_self _
  | case3 done a b c d tail unit hunit hquote ih =>
    have := ih h
    simp only [List.length_cons]
    omega
  | case4 => cases h
  | case5 done e tail meant hmeant hne hquote ih =>
    have := ih h
    simp only [List.length_cons]
    omega
  | case6 => cases h
  | case7 => cases h
  | case8 => cases h
  | case9 done c tail hquote hslash hcontrol ih =>
    have := ih h
    simp only [List.length_cons]
    omega

theorem length_of_scanText? {cs rest : List Char} {token : Token}
    (h : scanText? cs = some (token, rest)) : rest.length < cs.length := by
  unfold scanText? at h
  split at h
  next hbody =>
    cases h
    exact length_of_scanBody hbody
  next => cases h

theorem length_of_scanDigits? {cs digits rest : List Char}
    (h : scanDigits? cs = some (digits, rest)) : rest.length < cs.length := by
  unfold scanDigits? at h
  split at h
  next => cases h
  next hne =>
    cases h
    have hsplit : (cs.takeWhile Char.isDigit ++ cs.dropWhile Char.isDigit).length = cs.length :=
      congrArg List.length List.takeWhile_append_dropWhile
    rw [List.length_append] at hsplit
    have hpos : 0 < (cs.takeWhile Char.isDigit).length := List.length_pos_iff.mpr hne
    omega

theorem length_of_scanWhole? {cs rest : List Char} {n : Nat}
    (h : scanWhole? cs = some (n, rest)) : rest.length < cs.length := by
  unfold scanWhole? at h
  split at h
  next => cases h
  next hdigits =>
    cases h
    exact length_of_scanDigits? hdigits
  next => cases h

theorem length_of_scanFraction? {cs rest : List Char} {digits : List (Fin 10)}
    (h : scanFraction? cs = some (digits, rest)) : rest.length ≤ cs.length := by
  unfold scanFraction? at h
  split at h
  next =>
    split at h
    next hdigits =>
      cases h
      have := length_of_scanDigits? hdigits
      simp only [List.length_cons]
      omega
    next => cases h
  next =>
    cases h
    exact Nat.le_refl _

theorem length_of_scanMagnitude? {sign : Int} {cs rest : List Char} {e : Option Int}
    (h : scanMagnitude? sign cs = some (e, rest)) : rest.length ≤ cs.length := by
  unfold scanMagnitude? at h
  split at h
  next hdigits =>
    cases h
    exact Nat.le_of_lt (length_of_scanDigits? hdigits)
  next => cases h

theorem length_of_scanSigned? {cs rest : List Char} {e : Option Int}
    (h : scanSigned? cs = some (e, rest)) : rest.length ≤ cs.length := by
  unfold scanSigned? at h
  split at h
  next => exact Nat.le_succ_of_le (length_of_scanMagnitude? h)
  next => exact Nat.le_succ_of_le (length_of_scanMagnitude? h)
  next => exact length_of_scanMagnitude? h

theorem length_of_scanExponent? {cs rest : List Char} {e : Option Int}
    (h : scanExponent? cs = some (e, rest)) : rest.length ≤ cs.length := by
  unfold scanExponent? at h
  split at h
  next =>
    have := length_of_scanSigned? h
    simp only [List.length_cons]
    omega
  next =>
    have := length_of_scanSigned? h
    simp only [List.length_cons]
    omega
  next =>
    cases h
    exact Nat.le_refl _

theorem length_of_scanUnsigned? {negative : Bool} {cs rest : List Char} {token : Token}
    (h : scanUnsigned? negative cs = some (token, rest)) : rest.length < cs.length := by
  simp only [scanUnsigned?, Option.bind_eq_bind, Option.bind_eq_some_iff, Option.some.injEq,
    Prod.mk.injEq] at h
  obtain ⟨⟨n, r₁⟩, hwhole, ⟨digits, r₂⟩, hfraction, ⟨e, r₃⟩, hexponent, -, rfl⟩ := h
  have h₁ := length_of_scanWhole? hwhole
  have h₂ : r₂.length ≤ r₁.length := length_of_scanFraction? hfraction
  have h₃ : r₃.length ≤ r₂.length := length_of_scanExponent? hexponent
  show r₃.length < cs.length
  omega

theorem length_of_scanNumber? {cs rest : List Char} {token : Token}
    (h : scanNumber? cs = some (token, rest)) : rest.length < cs.length := by
  unfold scanNumber? at h
  split at h
  next =>
    have := length_of_scanUnsigned? h
    simp only [List.length_cons]
    omega
  next => exact length_of_scanUnsigned? h

theorem length_of_scanWord? {word token : Token} {cs rest : List Char} (hpos : word.chars ≠ [])
    (h : scanWord? word cs = some (token, rest)) : rest.length < cs.length := by
  unfold scanWord? at h
  split at h
  next hstart =>
    cases h
    have hle := (List.isPrefixOf_iff_prefix.mp hstart).length_le
    have := List.length_pos_iff.mpr hpos
    rw [List.length_drop]
    omega
  next => cases h

theorem length_of_next? {cs rest : List Char} {token : Token}
    (h : next? cs = some (token, rest)) : rest.length < cs.length := by
  unfold next? at h
  split at h
  case h_7 =>
    have := length_of_scanText? h
    simp only [List.length_cons]
    omega
  case h_8 => exact length_of_scanWord? (by decide) h
  case h_9 => exact length_of_scanWord? (by decide) h
  case h_10 => exact length_of_scanWord? (by decide) h
  case h_11 => exact length_of_scanNumber? h
  all_goals
    cases h
    exact Nat.lt_succ_self _

example : next? ['-', '0', '.', '5', 'E', '+', '1', ']'] =
    some (.number ⟨true, 0, [5], some 1⟩, [']']) := by decide
example : next? ['0', '1'] = none := by decide
example : scanText? ['\\', 'u', 'd', '8', '3', 'd', '\\', 'u', 'd', 'e', '0', '0', '"'] =
    some (.text (some "😀"), []) := by decide +kernel
example : scanText? ['\\', 'u', 'd', '8', '3', 'd', '"'] = some (.text none, []) := by
  decide +kernel

end Token

end Json

end CallTree
