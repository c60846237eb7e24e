import CallTree.Duration
import Mathlib.Data.List.TakeWhile

/-!
# The text of a duration

The text of a duration is a whole number, perhaps a fraction, and a unit. Each of the three can be
told from the other two by its characters. The unit gives the number of decimals, and with it the zeros
that have been cut from the fraction. So the text determines the number of nanoseconds, and two
durations with the same text are equal (`text_injective`).

Results:
1. `span_inj`: where a text can be cut in one way only.
2. `decimals_inj`, `fraction_inj`, `inUnit_inj`: the parts of a text.
3. `text_injective`.
-/

namespace CallTree

namespace Duration

/-! ## 1. Cutting a text -/

/-- A text is cut in one way only into characters of one sort and a rest that starts with another. -/
theorem span_inj {p : Char → Bool} {first second rest rest' : List Char}
    (hfirst : ∀ c ∈ first, p c = true) (hsecond : ∀ c ∈ second, p c = true)
    (hrest : ∀ c ∈ rest.head?, p c = false) (hrest' : ∀ c ∈ rest'.head?, p c = false)
    (h : first ++ rest = second ++ rest') : first = second ∧ rest = rest' := by
  have htake {front back : List Char} (hfront : ∀ c ∈ front, p c = true)
      (hback : ∀ c ∈ back.head?, p c = false) : (front ++ back).takeWhile p = front := by
    rw [List.takeWhile_append_of_pos hfront]
    cases back with
    | nil => simp
    | cons c tail => simp [hback c rfl]
  have hsame : first = second := by rw [← htake hfirst hrest, h, htake hsecond hrest']
  subst hsame
  exact ⟨rfl, List.append_cancel_left h⟩

/-- Two texts of one length are equal if they are without the zeros at their heads. -/
theorem eq_of_dropWhile_zero {first second : List Char} (hlength : first.length = second.length)
    (h : first.dropWhile (· == '0') = second.dropWhile (· == '0')) : first = second := by
  have hzeros (text : List Char) : text.takeWhile (· == '0') =
      List.replicate (text.length - (text.dropWhile (· == '0')).length) '0' := by
    refine List.eq_replicate_iff.mpr ⟨?_, fun c hc => by simpa using List.mem_takeWhile_imp hc⟩
    have hsplit := congrArg List.length
      (List.takeWhile_append_dropWhile (p := (· == '0')) (l := text))
    rw [List.length_append] at hsplit
    exact Nat.eq_sub_of_add_eq hsplit
  calc first = first.takeWhile (· == '0') ++ first.dropWhile (· == '0') :=
        List.takeWhile_append_dropWhile.symm
    _ = second.takeWhile (· == '0') ++ second.dropWhile (· == '0') := by
        rw [hzeros, hzeros, h, hlength]
    _ = second := List.takeWhile_append_dropWhile

/-! ## 2. The parts of a text -/

theorem digitChar_inj : ∀ d e : Fin 10, Nat.digitChar d.val = Nat.digitChar e.val → d = e := by
  decide

theorem toDigits_inj {n m : Nat} (h : Nat.toDigits 10 n = Nat.toDigits 10 m) : n = m := by
  rw [← Nat.ofDigitChars_ten_toDigits (n := n), h, Nat.ofDigitChars_ten_toDigits]

theorem isDigit_of_mem_toDigits {n : Nat} {c : Char} (h : c ∈ Nat.toDigits 10 n) :
    c.isDigit = true :=
  Nat.isDigit_of_mem_toDigits (by decide) (Nat.le_refl 10) h

@[simp] theorem length_decimals (width n : Nat) : (decimals width n).length = width := by
  induction width generalizing n with
  | zero => rfl
  | succ width ih => simp [decimals, ih]

theorem isDigit_of_mem_decimals {width n : Nat} {c : Char} (h : c ∈ decimals width n) :
    c.isDigit = true := by
  induction width generalizing n with
  | zero => cases h
  | succ width ih =>
    rw [decimals, List.mem_append, List.mem_singleton] at h
    rcases h with hfront | rfl
    · exact ih hfront
    · rw [Nat.isDigit_digitChar]
      exact decide_eq_true (Nat.mod_lt n (by decide))

theorem decimals_inj {width n m : Nat} (h : decimals width n = decimals width m) :
    n % Nat.pow 10 width = m % Nat.pow 10 width := by
  induction width generalizing n m with
  | zero => exact (Nat.mod_one n).trans (Nat.mod_one m).symm
  | succ width ih =>
    obtain ⟨hfront, hlast⟩ := List.append_inj' h rfl
    have hdigit := digitChar_inj ⟨n % 10, Nat.mod_lt n (by decide)⟩ ⟨m % 10, Nat.mod_lt m (by decide)⟩
      (List.singleton_inj.mp hlast)
    have hpow : Nat.pow 10 (width + 1) = 10 * Nat.pow 10 width := Nat.pow_succ'
    rw [hpow, Nat.mod_mul, Nat.mod_mul, ih hfront, Fin.mk.inj hdigit]

/-- A fraction has digits behind its point, and does not end with a zero. -/
theorem fraction_eq (width n : Nat) :
    fraction width n = [] ∧ (decimals width n).reverse.dropWhile (· == '0') = [] ∨
    fraction width n = '.' :: ((decimals width n).reverse.dropWhile (· == '0')).reverse := by
  unfold fraction
  split
  next h => exact .inl ⟨rfl, h⟩
  next => exact .inr rfl

theorem mem_fraction {width n : Nat} {c : Char} (h : c ∈ fraction width n) :
    c.isDigit = true ∨ c = '.' := by
  rcases fraction_eq width n with ⟨hnil, -⟩ | hpoint
  · rw [hnil] at h
    cases h
  · rw [hpoint, List.mem_cons, List.mem_reverse] at h
    refine h.symm.imp_left fun hdigit => ?_
    have hmem := List.dropWhile_subset _ hdigit
    exact isDigit_of_mem_decimals (List.mem_reverse.mp hmem)

theorem head?_fraction {width n : Nat} {c : Char} (h : c ∈ (fraction width n).head?) : c = '.' := by
  rcases fraction_eq width n with ⟨hnil, -⟩ | hpoint
  · rw [hnil] at h
    cases h
  · rw [hpoint] at h
    exact (Option.some.inj h).symm

theorem fraction_inj {width n m : Nat} (h : fraction width n = fraction width m) :
    n % Nat.pow 10 width = m % Nat.pow 10 width := by
  have hcut : (decimals width n).reverse.dropWhile (· == '0') =
      (decimals width m).reverse.dropWhile (· == '0') := by
    rcases fraction_eq width n with ⟨hn, hzeros⟩ | hn <;>
      rcases fraction_eq width m with ⟨hm, hzeros'⟩ | hm <;> rw [hn, hm] at h
    · rw [hzeros, hzeros']
    · cases h
    · cases h
    · exact List.reverse_inj.mp (List.cons.inj h).2
  have hsame := eq_of_dropWhile_zero (by simp) hcut
  exact decimals_inj (List.reverse_inj.mp hsame)

/-- The units, each with the number of decimals that go with it. -/
def units : List (Nat × List Char) :=
  [(9, ['s']), (6, ['m', 's']), (3, ['µ', 's']), (0, ['n', 's'])]

/-- The character stands in a number. -/
def isNumeric (c : Char) : Bool :=
  c.isDigit || c == '.'

theorem isNumeric_head?_units : ∀ unit ∈ units, ∀ c ∈ unit.2.head?, isNumeric c = false := by
  simp [units, isNumeric, Char.isDigit]

theorem eq_of_units : ∀ first ∈ units, ∀ second ∈ units, first.2 = second.2 → first = second := by
  decide

/-- The text of a number with its unit determines the number. -/
theorem inUnit_inj {first second : Nat × List Char} {n m : Nat} (hfirst : first ∈ units)
    (hsecond : second ∈ units) (h : inUnit first.1 n first.2 = inUnit second.1 m second.2) :
    n = m := by
  have hnumeric (width n : Nat) :
      ∀ c ∈ Nat.toDigits 10 (n / Nat.pow 10 width) ++ fraction width (n % Nat.pow 10 width),
        isNumeric c = true := by
    intro c hc
    rw [isNumeric, Bool.or_eq_true, beq_iff_eq]
    rcases List.mem_append.mp hc with hwhole | hfraction
    · exact .inl (isDigit_of_mem_toDigits hwhole)
    · exact mem_fraction hfraction
  have hpoint (width n : Nat) : ∀ c ∈ (fraction width n).head?, c.isDigit = false := by
    intro c hc
    rw [head?_fraction hc]
    decide
  obtain ⟨hnumber, hunit⟩ := span_inj (hnumeric _ _) (hnumeric _ _)
    (isNumeric_head?_units first hfirst) (isNumeric_head?_units second hsecond) h
  obtain rfl := eq_of_units first hfirst second hsecond hunit
  obtain ⟨hwhole, hfraction⟩ := span_inj (fun _ => isDigit_of_mem_toDigits)
    (fun _ => isDigit_of_mem_toDigits) (hpoint _ _) (hpoint _ _) hnumber
  have hrest := fraction_inj hfraction
  rw [Nat.mod_mod, Nat.mod_mod] at hrest
  rw [← Nat.div_add_mod n (Nat.pow 10 first.1), toDigits_inj hwhole, hrest, Nat.div_add_mod]

/-! ## 3. The whole text -/

/-- A duration in nanoseconds. -/
def total (d : Duration) : Nat :=
  1000000000 * d.secs.toNat + d.nanos.val

theorem total_injective {d e : Duration} (h : d.total = e.total) : d = e := by
  have hd := d.nanos.isLt
  have he := e.nanos.isLt
  have hsecs : d.secs = e.secs := UInt64.toNat_inj.mp (by unfold total at h; omega)
  have hnanos : d.nanos = e.nanos := Fin.ext (by rw [total, total, hsecs] at h; omega)
  cases d
  cases e
  cases hsecs
  cases hnanos
  rfl

/-- A text is the number of all nanoseconds in one of the units. -/
theorem exists_chars_eq (d : Duration) :
    ∃ unit ∈ units, d.chars = inUnit unit.1 d.total unit.2 := by
  unfold chars
  by_cases hsecs : 0 < d.secs
  · rw [if_pos hsecs]
    exact ⟨(9, ['s']), by decide, rfl⟩
  · have htotal : d.total = d.nanos.val := by
      have hzero : d.secs.toNat = 0 := Nat.eq_zero_of_not_pos fun hpos => hsecs hpos
      rw [total, hzero, Nat.mul_zero, Nat.zero_add]
    rw [if_neg hsecs, htotal]
    split
    · exact ⟨(6, ['m', 's']), by decide, rfl⟩
    · split
      · exact ⟨(3, ['µ', 's']), by decide, rfl⟩
      · exact ⟨(0, ['n', 's']), by decide, rfl⟩

/-- Two durations with the same text are equal. -/
theorem text_injective {d e : Duration} (h : d.text = e.text) : d = e := by
  obtain ⟨unit, hunit, hd⟩ := d.exists_chars_eq
  obtain ⟨unit', hunit', he⟩ := e.exists_chars_eq
  have hchars : d.chars = e.chars := String.ofList_injective h
  rw [hd, he] at hchars
  exact total_injective (inUnit_inj hunit hunit' hchars)

end Duration

end CallTree
