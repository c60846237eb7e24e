import CallTree.Json.Token.Scan

/-!
# Texts in which no byte comes

A reader that expects a byte, an integer below 256, looks at a text until it sees that no byte
comes. `Token.afterMisfit?` gives the text that it has not looked at.
* A text, a number or a word has been passed as a whole. Of a malformed one only a part has been
  passed: `afterText?`, `afterNumber?` and `afterWord?` say which faults are passed themselves.
* An array or an object has not been entered, and a character with which no value begins has not
  been passed.

The reader moves by the bytes of UTF-8. Where it stops inside of a character there is no text left
to give, and neither is there where a byte comes after all.
-/

namespace CallTree

namespace Json

namespace Token

/-- The text behind its first bytes in UTF-8, if these are whole characters. -/
def dropBytes? : Nat → List Char → Option (List Char)
  | 0, cs => some cs
  | _ + 1, [] => none
  | n + 1, c :: rest =>
    if c.utf8Size ≤ n + 1 then dropBytes? (n + 1 - c.utf8Size) rest else none

/-! ## Words and texts -/

/-- The text behind a word, or behind the first character that differs from the word. -/
def afterWord? : List Char → List Char → Option (List Char)
  | [], cs => some cs
  | _ :: _, [] => none
  | w :: word, c :: rest => if c = w then afterWord? word rest else dropBytes? 1 (c :: rest)

/-- The text behind a closing quote, or behind the first fault in front of it. A fault is a control
character, an escape that means nothing, or half of a surrogate pair that stands alone. -/
def afterText? : List Char → Option (List Char)
  | [] => none
  | c :: rest =>
    if c = '"' then some rest
    else if c = '\\' then
      match rest with
      | 'u' :: a :: b :: c :: d :: rest =>
        match Hex.value? [a, b, c, d] with
        | some unit =>
          if isHigh unit then
            match rest with
            | '\\' :: 'u' :: e :: f :: g :: h :: rest =>
              match Hex.value? [e, f, g, h] with
              | some low => if isLow low then afterText? rest else some rest
              | none => dropBytes? 4 (e :: f :: g :: h :: rest)
            | '\\' :: 'u' :: rest => dropBytes? 4 rest
            | '\\' :: rest => dropBytes? 1 rest
            | rest => dropBytes? 1 rest
          else if isLow unit then some rest
          else afterText? rest
        | none => dropBytes? 4 (a :: b :: c :: d :: rest)
      | 'u' :: rest => dropBytes? 4 rest
      | c :: rest => if (unescape? c).isSome then afterText? rest else dropBytes? 1 (c :: rest)
      | [] => none
    else if c.toNat < 0x20 then some rest
    else afterText? rest

/-! ## Numbers -/

/-- The text behind the digits of an exponent, or behind the digit with which it is `2 ^ 31` or
more. -/
def afterBounded (n : Nat) : List Char → List Char
  | [] => []
  | c :: rest =>
    if c.isDigit then
      let n := 10 * n + (c.toNat - 48)
      if n < Nat.pow 2 31 then afterBounded n rest else rest
    else c :: rest

/-- The text behind the digits of an exponent, or behind what comes instead of the first digit. -/
def afterMagnitude? (bounded : Bool) (cs : List Char) : Option (List Char) :=
  match scanDigits? cs with
  | some (_, rest) => some (if bounded then afterBounded 0 cs else rest)
  | none => dropBytes? 1 cs

/-- The text behind an exponent. An exponent may have any size if it is negative or belongs to a
zero. -/
def afterExponent? (zero : Bool) : List Char → Option (List Char)
  | '-' :: cs => afterMagnitude? false cs
  | '+' :: cs => afterMagnitude? (!zero) cs
  | cs => afterMagnitude? (!zero) cs

/-- The text behind a number whose sign has been read. If the digits behind the point are missing,
or the integer has a leading zero, it is the text behind the point or behind the zero. -/
def afterNumber? (negative : Bool) (cs : List Char) : Option (List Char) :=
  match scanWhole? cs with
  | some (whole, '.' :: rest) =>
    match scanDigits? rest with
    | some (digits, rest) =>
      let zero := whole == 0 && digits.all (· == '0')
      match rest with
      | 'e' :: rest => afterExponent? zero rest
      | 'E' :: rest => afterExponent? zero rest
      | rest => some rest
    | none => some rest
  | some (whole, 'e' :: rest) => afterExponent? (whole == 0) rest
  | some (whole, 'E' :: rest) => afterExponent? (whole == 0) rest
  | some (whole, rest) => if negative || 256 ≤ whole then some rest else none
  | none => dropBytes? 1 cs

/-! ## Items of a row of bytes -/

/-- The text that is left by a reader to whom no byte comes. -/
def afterMisfit? (cs : List Char) : Option (List Char) :=
  match cs with
  | [] => none
  | 'n' :: _ => afterWord? null.chars cs
  | 't' :: _ => afterWord? (bool true).chars cs
  | 'f' :: _ => afterWord? (bool false).chars cs
  | '"' :: rest => afterText? rest
  | '-' :: rest => afterNumber? true rest
  | c :: _ => if c.isDigit then afterNumber? false cs else some cs

/-- The text behind the bracket that closes an array in whose last place no byte comes. -/
def afterRow? (cs : List Char) : Option (List Char) :=
  match (afterMisfit? cs).map (·.dropWhile isBlank) with
  | some (']' :: rest) => some rest
  | _ => none

/-! ## No text grows -/

theorem length_of_dropBytes? {n : Nat} {cs rest : List Char} (h : dropBytes? n cs = some rest) :
    rest.length ≤ cs.length := by
  induction cs generalizing n with
  | nil =>
    cases n with
    | zero =>
      cases h
      exact Nat.le_refl _
    | succ n => cases h
  | cons c tail ih =>
    cases n with
    | zero =>
      cases h
      exact Nat.le_refl _
    | succ n =>
      unfold dropBytes? at h
      split at h
      next => exact Nat.le_succ_of_le (ih h)
      next => cases h

theorem length_of_afterWord? {word cs rest : List Char} (h : afterWord? word cs = some rest) :
    rest.length ≤ cs.length := by
  fun_induction afterWord? word cs with
  | case1 =>
    cases h
    exact Nat.le_refl _
  | case2 => cases h
  | case3 word w tail ih => exact Nat.le_succ_of_le (ih h)
  | case4 => exact length_of_dropBytes? h

theorem length_of_afterText? {cs rest : List Char} (h : afterText? cs = some rest) :
    rest.length ≤ cs.length := by
  fun_induction afterText? cs
  all_goals
    first
    | contradiction
    | cases h; simp only [List.length_cons]; omega
    | replace h := length_of_dropBytes? h; simp only [List.length_cons] at h ⊢; omega
    | rename_i ih; replace h := ih h; simp only [List.length_cons]; omega

theorem length_of_afterBounded (n : Nat) (cs : List Char) :
    (afterBounded n cs).length ≤ cs.length := by
  fun_induction afterBounded n cs with
  | case1 => exact Nat.le_refl _
  | case2 _ _ _ _ _ _ ih => exact Nat.le_succ_of_le ih
  | case3 => exact Nat.le_succ _
  | case4 => exact Nat.le_refl _

theorem length_of_afterMagnitude? {bounded : Bool} {cs rest : List Char}
    (h : afterMagnitude? bounded cs = some rest) : rest.length ≤ cs.length := by
  unfold afterMagnitude? at h
  split at h
  next hdigits =>
    cases h
    split
    next => exact length_of_afterBounded 0 cs
    next => exact Nat.le_of_lt (length_of_scanDigits? hdigits)
  next => exact length_of_dropBytes? h

theorem length_of_afterExponent? {zero : Bool} {cs rest : List Char}
    (h : afterExponent? zero cs = some rest) : rest.length ≤ cs.length := by
  unfold afterExponent? at h
  split at h
  next => exact Nat.le_succ_of_le (length_of_afterMagnitude? h)
  next => exact Nat.le_succ_of_le (length_of_afterMagnitude? h)
  next => exact length_of_afterMagnitude? h

theorem length_of_afterNumber? {negative : Bool} {cs rest : List Char}
    (h : afterNumber? negative cs = some rest) : rest.length ≤ cs.length := by
  unfold afterNumber? at h
  split at h
  next hwhole =>
    have hlt := length_of_scanWhole? hwhole
    rw [List.length_cons] at hlt
    split at h
    next hdigits =>
      have hlt' := length_of_scanDigits? hdigits
      split at h
      next =>
        have := length_of_afterExponent? h
        rw [List.length_cons] at hlt'
        omega
      next =>
        have := length_of_afterExponent? h
        rw [List.length_cons] at hlt'
        omega
      next =>
        cases h
        omega
    next =>
      cases h
      omega
  next hwhole =>
    have hlt := length_of_scanWhole? hwhole
    have := length_of_afterExponent? h
    rw [List.length_cons] at hlt
    omega
  next hwhole =>
    have hlt := length_of_scanWhole? hwhole
    have := length_of_afterExponent? h
    rw [List.length_cons] at hlt
    omega
  next hwhole =>
    have hlt := length_of_scanWhole? hwhole
    split at h
    next =>
      cases h
      omega
    next => cases h
  next => exact length_of_dropBytes? h

theorem length_of_afterMisfit? {cs rest : List Char} (h : afterMisfit? cs = some rest) :
    rest.length ≤ cs.length := by
  unfold afterMisfit? at h
  split at h
  next => cases h
  next => exact length_of_afterWord? h
  next => exact length_of_afterWord? h
  next => exact length_of_afterWord? h
  next => exact Nat.le_succ_of_le (length_of_afterText? h)
  next => exact Nat.le_succ_of_le (length_of_afterNumber? h)
  next =>
    split at h
    next => exact length_of_afterNumber? h
    next =>
      cases h
      exact Nat.le_refl _

theorem length_of_afterRow? {cs rest : List Char} (h : afterRow? cs = some rest) :
    rest.length < cs.length := by
  unfold afterRow? at h
  split at h
  next left hleft =>
    cases h
    obtain ⟨passed, hpassed, hblank⟩ := Option.map_eq_some_iff.mp hleft
    have hle := length_of_afterMisfit? hpassed
    have hdrop := (List.dropWhile_sublist isBlank (l := passed)).length_le
    rw [hblank, List.length_cons] at hdrop
    omega
  next => cases h

example : afterRow? ['2', '5', '6', ' ', ']', ','] = some [','] := by decide
example : afterRow? ['2', '5', '5', ']'] = none := by decide
example : afterRow? [']'] = some [] := by decide
example : afterRow? ['t', ']', ']'] = some [] := by decide
example : afterRow? ['1', '.', ']'] = some [] := by decide
example : afterRow? ['[', ']', ']'] = none := by decide

end Token

end Json

end CallTree
