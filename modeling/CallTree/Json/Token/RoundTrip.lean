import CallTree.Json.Token.Scan

/-!
# Written tokens read back

The written form of a token, followed by any text that cannot continue it, reads as that token and
leaves the text (`next?_chars`). Only numbers can be continued, by a digit, a point or the letter
of an exponent; `Delimits` says that a text starts with none of these.
-/

namespace CallTree

namespace Json

namespace Token

/-! ## Texts -/

theorem scanBody_quote (done : List Piece) (rest : List Char) :
    scanBody done ('"' :: rest) = some (done, rest) := by
  unfold scanBody
  exact if_pos rfl

theorem scanBody_plain {c : Char} (done : List Piece) (rest : List Char) (hquote : c ≠ '"')
    (hslash : c ≠ '\\') (hcontrol : ¬ c.toNat < 0x20) :
    scanBody done (c :: rest) = scanBody (.char c :: done) rest := by
  rw [scanBody.eq_def]
  simp only [if_neg hquote, if_neg hslash, if_neg hcontrol]

theorem scanBody_escaped {c meant : Char} (done : List Piece) (rest : List Char)
    (h : unescape? c = some meant) (hu : c ≠ 'u') :
    scanBody done ('\\' :: c :: rest) = scanBody (.char meant :: done) rest := by
  rw [scanBody.eq_def]
  simp [h, hu]

theorem scanBody_unit {a b x d : Char} {unit : Nat} (done : List Piece) (rest : List Char)
    (h : Hex.value? [a, b, x, d] = some unit) :
    scanBody done ('\\' :: 'u' :: a :: b :: x :: d :: rest) =
    scanBody (pieceOfUnit unit :: done) rest := by
  rw [scanBody.eq_def]
  simp [h]

theorem exists_digits_of_control {c : Char} (h : c.toNat < 0x20) :
    ∃ a b x d, Hex.digits 4 c.toNat = [a, b, x, d] ∧ Hex.value? [a, b, x, d] = some c.toNat ∧
      pieceOfUnit c.toNat = .char c := by
  have hvalue := Hex.value?_digits 4 c.toNat
  rw [Nat.mod_eq_of_lt (show c.toNat < 65536 by omega)] at hvalue
  have hhigh : isHigh c.toNat = false := by
    simp [isHigh]
    omega
  have hlow : isLow c.toNat = false := by
    simp [isLow]
    omega
  have hpiece : pieceOfUnit c.toNat = .char c := by simp [pieceOfUnit, hhigh, hlow]
  exact ⟨_, _, _, _, rfl, hvalue, hpiece⟩

theorem scanBody_escape (done : List Piece) (c : Char) (rest : List Char) :
    scanBody done (escape c ++ rest) = scanBody (.char c :: done) rest := by
  unfold escape
  split
  next h => subst h; exact scanBody_escaped done rest rfl (by decide)
  split
  next h => subst h; exact scanBody_escaped done rest rfl (by decide)
  split
  next h => subst h; exact scanBody_escaped done rest rfl (by decide)
  split
  next h => subst h; exact scanBody_escaped done rest rfl (by decide)
  split
  next h => subst h; exact scanBody_escaped done rest rfl (by decide)
  split
  next h => subst h; exact scanBody_escaped done rest rfl (by decide)
  split
  next h => subst h; exact scanBody_escaped done rest rfl (by decide)
  split
  next h =>
    obtain ⟨a, b, x, d, hdigits, hvalue, hpiece⟩ := exists_digits_of_control h
    rw [hdigits]
    exact (scanBody_unit done rest hvalue).trans (by rw [hpiece])
  next hquote hslash _ _ _ _ _ hcontrol => exact scanBody_plain done rest hquote hslash hcontrol

theorem scanBody_flatMap_escape (done : List Piece) (s rest : List Char) :
    scanBody done (s.flatMap escape ++ '"' :: rest) =
    some ((s.map Piece.char).reverse ++ done, rest) := by
  induction s generalizing done with
  | nil => exact scanBody_quote done rest
  | cons c s ih =>
    rw [List.flatMap_cons, List.append_assoc, scanBody_escape, ih]
    simp

theorem joinOnto_map_char (found s : List Char) :
    joinOnto found (s.map Piece.char) = some (s.reverse ++ found) := by
  induction s generalizing found with
  | nil => rfl
  | cons c s ih => simp [joinOnto, ih]

/-- A written text reads back. -/
theorem scanText?_textChars (content : Text) (rest : List Char) :
    ∃ tail, textChars content = '"' :: tail ∧
      scanText? (tail ++ rest) = some (.text content, rest) := by
  cases content with
  | none =>
    refine ⟨_, rfl, ?_⟩
    have hvalue : Hex.value? ['d', '8', '0', '0'] = some 0xd800 := by decide
    have hpiece : pieceOfUnit 0xd800 = .half 0xd800 := by decide
    have hbody : scanBody [] ('\\' :: 'u' :: 'd' :: '8' :: '0' :: '0' :: '"' :: rest) =
        some ([.half 0xd800], rest) := by
      rw [scanBody_unit [] _ hvalue, hpiece, scanBody_quote]
    simp only [List.cons_append, List.nil_append, scanText?, hbody]
    rfl
  | some s =>
    refine ⟨_, rfl, ?_⟩
    have hbody := scanBody_flatMap_escape [] s.toList rest
    rw [List.append_nil] at hbody
    have hjoin := joinOnto_map_char [] s.toList.reverse
    rw [List.reverse_reverse, List.append_nil, List.map_reverse] at hjoin
    simp only [scanText?, List.append_assoc, List.singleton_append, hbody, hjoin, Option.map_some,
      String.ofList_toList]

/-! ## Numbers -/

/-- The text cannot continue a number. -/
def Delimits (rest : List Char) : Prop :=
  ∀ c ∈ rest.head?, c.isDigit = false ∧ c ≠ '.' ∧ c ≠ 'e' ∧ c ≠ 'E'

theorem delimits_nil : Delimits [] := by
  intro c hc
  cases hc

/-- The first character of a text is no digit. -/
def NoDigit (rest : List Char) : Prop :=
  ∀ c ∈ rest.head?, c.isDigit = false

theorem Delimits.noDigit {rest : List Char} (h : Delimits rest) : NoDigit rest :=
  fun c hc => (h c hc).1

theorem scanDigits?_append {digits rest : List Char} (hne : digits ≠ [])
    (hdigits : ∀ c ∈ digits, c.isDigit = true) (hrest : NoDigit rest) :
    scanDigits? (digits ++ rest) = some (digits, rest) := by
  have htake : rest.takeWhile Char.isDigit = [] := by
    cases rest with
    | nil => rfl
    | cons c tail => simp [hrest c rfl]
  have hdrop : rest.dropWhile Char.isDigit = rest := by
    cases rest with
    | nil => rfl
    | cons c tail => simp [hrest c rfl]
  unfold scanDigits?
  rw [List.takeWhile_append_of_pos hdigits, List.dropWhile_append_of_pos hdigits, htake, hdrop,
    List.append_nil]
  cases digits with
  | nil => exact absurd rfl hne
  | cons c tail => rfl

theorem isDigit_of_mem_natChars {n : Nat} : ∀ c ∈ natChars n, c.isDigit = true :=
  fun _ hc => Nat.isDigit_of_mem_toDigits (by omega) (Nat.le_refl 10) hc

theorem natChars_ne_nil {n : Nat} : natChars n ≠ [] :=
  Nat.toDigits_ne_nil

theorem digitsValue_natChars (n : Nat) : digitsValue (natChars n) = n :=
  Nat.ofDigitChars_ten_toDigits

theorem head?_natChars_ne_zero {n : Nat} (h : 0 < n) : (natChars n).head? ≠ some '0' := by
  induction n using Nat.strongRecOn with
  | ind n ih =>
    unfold natChars at ih ⊢
    by_cases hn : n < 10
    · rw [Nat.toDigits_of_lt_base hn]
      have hsmall : ∀ d : Fin 10, 0 < d.val → [Nat.digitChar d.val].head? ≠ some '0' := by decide
      exact hsmall ⟨n, hn⟩ h
    · rw [Nat.toDigits_of_base_le (by omega) (by omega), List.head?_append]
      have hhead := ih (n / 10) (by omega) (by omega)
      cases hd : (Nat.toDigits 10 (n / 10)).head? with
      | none => exact absurd (List.head?_eq_none_iff.mp hd) Nat.toDigits_ne_nil
      | some c => rwa [hd] at hhead

theorem natChars_ne_zero_cons {n : Nat} {c : Char} {tail : List Char} :
    natChars n ≠ '0' :: c :: tail := by
  intro h
  by_cases hn : 0 < n
  · exact head?_natChars_ne_zero hn (by rw [h]; rfl)
  · have hzero : n = 0 := by omega
    subst hzero
    cases h

theorem scanWhole?_natChars (n : Nat) {rest : List Char} (hrest : NoDigit rest) :
    scanWhole? (natChars n ++ rest) = some (n, rest) := by
  unfold scanWhole?
  rw [scanDigits?_append natChars_ne_nil isDigit_of_mem_natChars hrest]
  split
  next h =>
    rw [Option.some.injEq, Prod.mk.injEq] at h
    exact absurd h.1 natChars_ne_zero_cons
  next h =>
    cases h
    rw [digitsValue_natChars]
  next h => cases h

theorem toFin_digitChar : ∀ d : Fin 10,
    Fin.ofNat 10 ((Nat.digitChar d.val).toNat - 48) = d ∧ (Nat.digitChar d.val).isDigit := by
  decide

theorem scanFraction?_fractionChars (digits : List (Fin 10)) {rest : List Char}
    (hdigit : NoDigit rest) (hpoint : ∀ c ∈ rest.head?, c ≠ '.') :
    scanFraction? (fractionChars digits ++ rest) = some (digits, rest) := by
  cases digits with
  | nil =>
    cases rest with
    | nil => rfl
    | cons c tail =>
      have hc : c ≠ '.' := hpoint c rfl
      simp [fractionChars, scanFraction?, hc]
  | cons d tail =>
    have hall : ∀ c ∈ (d :: tail).map fun d => Nat.digitChar d.val, c.isDigit = true := by
      intro c hc
      obtain ⟨e, -, rfl⟩ := List.mem_map.mp hc
      exact (toFin_digitChar e).2
    have hscan := scanDigits?_append (by simp) hall hdigit
    have hback : ∀ l : List (Fin 10),
        (l.map fun d => Nat.digitChar d.val).map (fun c => Fin.ofNat 10 (c.toNat - 48)) = l := by
      intro l
      induction l with
      | nil => rfl
      | cons e l ih => rw [List.map_cons, List.map_cons, (toFin_digitChar e).1, ih]
    simp only [fractionChars, List.cons_append, scanFraction?]
    simp only [List.map_cons, List.cons_append] at hscan hback ⊢
    rw [hscan]
    exact congrArg (fun l => some (l, rest)) (hback (d :: tail))

theorem scanMagnitude?_natChars (sign : Int) (n : Nat) {rest : List Char}
    (hrest : NoDigit rest) :
    scanMagnitude? sign (natChars n ++ rest) = some (some (sign * n), rest) := by
  unfold scanMagnitude?
  rw [scanDigits?_append natChars_ne_nil isDigit_of_mem_natChars hrest]
  simp only [digitsValue_natChars]

theorem exists_natChars_eq_cons (n : Nat) :
    ∃ c tail, natChars n = c :: tail ∧ c.isDigit = true := by
  cases h : natChars n with
  | nil => exact absurd h Nat.toDigits_ne_nil
  | cons c tail =>
    exact ⟨c, tail, rfl, isDigit_of_mem_natChars c (by rw [h]; exact List.mem_cons_self)⟩

theorem scanSigned?_intChars (e : Int) {rest : List Char} (hrest : NoDigit rest) :
    scanSigned? (intChars e ++ rest) = some (some e, rest) := by
  unfold intChars
  split
  next h =>
    rw [List.cons_append]
    show scanMagnitude? (-1) (natChars e.natAbs ++ rest) = _
    rw [scanMagnitude?_natChars _ _ hrest]
    congr 3
    omega
  next h =>
    have hmag := scanMagnitude?_natChars 1 e.natAbs hrest
    obtain ⟨c, tail, hc, hdigit⟩ := exists_natChars_eq_cons e.natAbs
    have hminus : c ≠ '-' := by rintro rfl; cases hdigit
    have hplus : c ≠ '+' := by rintro rfl; cases hdigit
    rw [hc, List.cons_append] at hmag ⊢
    unfold scanSigned?
    split
    next heq => cases heq; exact absurd rfl hminus
    next heq => cases heq; exact absurd rfl hplus
    next =>
      rw [hmag]
      congr 3
      omega

theorem scanExponent?_exponentChars (e : Option Int) {rest : List Char} (hrest : Delimits rest) :
    scanExponent? (exponentChars e ++ rest) = some (e, rest) := by
  cases e with
  | some e => exact scanSigned?_intChars e hrest.noDigit
  | none =>
    cases rest with
    | nil => rfl
    | cons c tail =>
      obtain ⟨-, -, hsmall, hlarge⟩ := hrest c rfl
      simp [exponentChars, scanExponent?, hsmall, hlarge]

theorem head?_exponentChars_append (e : Option Int) {rest : List Char} (hrest : Delimits rest) :
    ∀ c ∈ (exponentChars e ++ rest).head?, c.isDigit = false ∧ c ≠ '.' := by
  cases e with
  | none => exact fun c hc => ⟨(hrest c hc).1, (hrest c hc).2.1⟩
  | some e =>
    intro c hc
    cases hc
    decide

theorem noDigit_fractionChars_append (digits : List (Fin 10)) {rest : List Char}
    (hrest : NoDigit rest) : NoDigit (fractionChars digits ++ rest) := by
  cases digits with
  | nil => exact hrest
  | cons d tail =>
    intro c hc
    cases hc
    decide

theorem scanUnsigned?_chars (n : Number) {rest : List Char} (hrest : Delimits rest) :
    scanUnsigned? n.negative (natChars n.whole ++
      (fractionChars n.fraction ++ exponentChars n.exponent) ++ rest) = some (.number n, rest) := by
  have hhead := head?_exponentChars_append n.exponent hrest
  have hdigit : NoDigit (exponentChars n.exponent ++ rest) := fun c hc => (hhead c hc).1
  have hwhole := scanWhole?_natChars n.whole (noDigit_fractionChars_append n.fraction hdigit)
  have hfraction := scanFraction?_fractionChars n.fraction hdigit fun c hc => (hhead c hc).2
  have hexponent := scanExponent?_exponentChars n.exponent hrest
  rw [List.append_assoc, List.append_assoc]
  simp only [scanUnsigned?, hwhole, hfraction, hexponent, Option.bind_eq_bind, Option.bind_some]

/-- A written number reads back. -/
theorem scanNumber?_chars (n : Number) {rest : List Char} (hrest : Delimits rest) :
    scanNumber? (n.chars ++ rest) = some (.number n, rest) := by
  have hscan := scanUnsigned?_chars n hrest
  unfold Number.chars
  split
  next h =>
    rw [h] at hscan
    exact hscan
  next h =>
    rw [Bool.not_eq_true] at h
    rw [h] at hscan
    obtain ⟨c, tail, hc, hdigit⟩ := exists_natChars_eq_cons n.whole
    have hminus : c ≠ '-' := by rintro rfl; cases hdigit
    simp only [hc, List.cons_append] at hscan ⊢
    unfold scanNumber?
    split
    next heq => cases heq; exact absurd rfl hminus
    next => exact hscan

/-! ## Tokens -/

/-- The first character of a written number is a digit or the sign. -/
theorem exists_chars_eq_cons (n : Number) :
    ∃ c tail, n.chars = c :: tail ∧ (c.isDigit = true ∨ c = '-') := by
  unfold Number.chars
  split
  next => exact ⟨_, _, rfl, .inr rfl⟩
  next =>
    obtain ⟨c, tail, hc, hdigit⟩ := exists_natChars_eq_cons n.whole
    exact ⟨c, _, by rw [hc]; rfl, .inl hdigit⟩

theorem next?_eq_scanNumber? {c : Char} {tail : List Char} (h : c.isDigit = true ∨ c = '-') :
    next? (c :: tail) = scanNumber? (c :: tail) := by
  unfold next?
  split
  case h_11 => rfl
  all_goals
    next heq =>
      cases heq
      cases h with
      | inl hdigit => cases hdigit
      | inr hminus => cases hminus

theorem next?_chars (token : Token) {rest : List Char}
    (hrest : ∀ n, token = .number n → Delimits rest) :
    next? (token.chars ++ rest) = some (token, rest) := by
  cases token with
  | number n =>
    obtain ⟨c, tail, hc, hfirst⟩ := exists_chars_eq_cons n
    have hscan := scanNumber?_chars n (hrest n rfl)
    show next? (n.chars ++ rest) = _
    rw [hc, List.cons_append] at hscan ⊢
    rw [next?_eq_scanNumber? hfirst, hscan]
  | text content =>
    obtain ⟨tail, htail, hscan⟩ := scanText?_textChars content rest
    show next? (textChars content ++ rest) = _
    rw [htail]
    exact hscan
  | bool b => cases b <;> rfl
  | _ => rfl

/-- The first character of a written token is no blank. -/
theorem exists_chars_eq_cons_not_blank (token : Token) :
    ∃ c tail, token.chars = c :: tail ∧ isBlank c = false := by
  cases token with
  | number n =>
    obtain ⟨c, tail, hc, hfirst⟩ := exists_chars_eq_cons n
    refine ⟨c, tail, hc, ?_⟩
    cases hblank : isBlank c with
    | false => rfl
    | true =>
      simp only [isBlank, Bool.or_eq_true, beq_iff_eq] at hblank
      rcases hblank with ((rfl | rfl) | rfl) | rfl <;> simp at hfirst
  | text content =>
    obtain ⟨tail, htail, -⟩ := scanText?_textChars content []
    exact ⟨_, tail, htail, by decide⟩
  | bool b => cases b <;> exact ⟨_, _, rfl, by decide⟩
  | _ => exact ⟨_, _, rfl, by decide⟩

end Token

end Json

end CallTree
