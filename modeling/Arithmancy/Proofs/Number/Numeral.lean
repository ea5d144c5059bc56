import Mathlib.Data.Nat.Log
import Arithmancy.Number.Scalar
import Arithmancy.Proofs.Number.Whole

/-!
# Numerals of integers

A number is written and a numeral is read. An integer of at most `2 ^ 53` that is not below zero
is written by its decimal digits, and by a minus sign before them if it is the negative zero, the
only number that has a sign without being below zero (`text_toList`). Digits are read back as the
number they denote, and a minus sign before them is read as the opposite (`Decimal.read?_digits`).
A minus sign after a digit is no numeral at all (`Decimal.read?_digits_minus`).
-/

namespace Arithmancy

/-! ## Digits -/

/-- Digits have the value that the standard library gives them. -/
theorem digitsValue_eq (cs : List Char) : digitsValue cs = Nat.ofDigitChars 10 cs 0 :=
  Nat.ofDigitChars_eq_foldl.symm

theorem digitsValue_toDigits (n : ℕ) : digitsValue (Nat.toDigits 10 n) = n := by
  rw [digitsValue_eq, Nat.ofDigitChars_ten_toDigits]

/-- **Digits before others** are worth a power of ten more for each of them. -/
theorem digitsValue_append (cs ds : List Char) :
    digitsValue (cs ++ ds) = digitsValue cs * 10 ^ ds.length + digitsValue ds := by
  simp only [digitsValue_eq]
  rw [Nat.ofDigitChars_append, Nat.ofDigitChars_eq_ofDigitChars_zero, Nat.mul_comm]

/-- The number of decimal digits, one for zero. -/
theorem length_toDigits (n : ℕ) : (Nat.toDigits 10 n).length = Nat.log 10 n + 1 := by
  refine le_antisymm ?_ ?_
  · rw [Nat.length_toDigits_le_iff (by decide) (Nat.succ_pos _)]
    exact Nat.lt_pow_succ_log_self (by decide) n
  · have hlt : n < 10 ^ (Nat.toDigits 10 n).length :=
      (Nat.length_toDigits_le_iff (by decide) Nat.length_toDigits_pos).mp le_rfl
    exact Nat.log_lt_of_lt_pow' Nat.length_toDigits_pos.ne' hlt

namespace Decimal

/-! ## Reading digits -/

/-- The minus sign, if there is one. -/
def minus (negative : Bool) : List Char := if negative then ['-'] else []

variable {negative : Bool} {c : Char} {cs ds : List Char}

/-- A leading digit is no sign. -/
theorem splitSign_minus (hc : c.isDigit = true) :
    splitSign (minus negative ++ c :: cs) = (negative, c :: cs) := by
  cases negative with
  | true => rfl
  | false =>
    show splitSign (c :: cs) = _
    unfold splitSign
    split
    · next h => cases h; exact absurd hc (by decide)
    · next h => cases h; exact absurd hc (by decide)
    · rfl

theorem toLower_of_isDigit (hc : c.isDigit = true) : c.toLower = c := by
  refine Char.toLower_eq_of_not_isUpper fun hupper => ?_
  have hA : 'A'.toNat ≤ c.toNat := (of_decide_eq_true hupper).1
  have h9 : c.toNat ≤ '9'.toNat := (Char.isDigit_iff_toNat.mp hc).2
  exact absurd (hA.trans h9) (by decide)

/-- **A leading digit** makes a numeral one of digits and not a word. -/
theorem read?_of_isDigit {s : String} (hs : s.toList = minus negative ++ c :: cs)
    (hc : c.isDigit = true) : read? s = readDigits? negative (c :: cs) := by
  have hword {d : Char} (hd : d.isDigit = false) (w : List Char) :
      ¬(c :: cs).map Char.toLower = d :: w := by
    rw [List.map_cons, toLower_of_isDigit hc, List.cons.injEq]
    rintro ⟨rfl, -⟩
    exact absurd hc (by simp [hd])
  rw [read?, hs, splitSign_minus hc]
  simp only [Bool.or_eq_true, decide_eq_true_eq]
  rw [if_neg, if_neg]
  · exact hword (d := 'n') (by decide) ['a', 'n']
  · exact not_or.mpr ⟨hword (d := 'i') (by decide) ['n', 'f'],
      hword (d := 'i') (by decide) ['n', 'f', 'i', 'n', 'i', 't', 'y']⟩

/-- **Digits are read as the number they denote**, and with a minus sign as its opposite. -/
theorem read?_digits {s : String} (hs : s.toList = minus negative ++ ds) (hne : ds ≠ [])
    (hds : ∀ c ∈ ds, c.isDigit = true) :
    read? s = some (.finite negative (digitsValue ds) 0) := by
  obtain ⟨c, cs, rfl⟩ := List.exists_cons_of_ne_nil hne
  rw [read?_of_isDigit hs (hds c List.mem_cons_self), readDigits?,
    List.takeWhile_eq_self_iff.mpr hds, List.dropWhile_eq_nil_iff.mpr hds]
  simp [splitFraction, readExponent?]

/-- **A minus sign after digits** makes the whole no numeral. -/
theorem read?_digits_minus {s : String} (hs : s.toList = minus negative ++ (ds ++ '-' :: cs))
    (hne : ds ≠ []) (hds : ∀ c ∈ ds, c.isDigit = true) : read? s = none := by
  obtain ⟨c, ds, rfl⟩ := List.exists_cons_of_ne_nil hne
  rw [read?_of_isDigit hs (hds c List.mem_cons_self)]
  show readDigits? negative (c :: ds ++ '-' :: cs) = none
  rw [readDigits?, List.takeWhile_append_of_pos hds, List.dropWhile_append_of_pos hds]
  simp [splitFraction, readExponent?]

end Decimal

namespace Binary64

/-! ## Writing integers -/

/-- Whether a number is written with a minus sign. Of the numbers that are not below zero, the
negative zero is. -/
def isSigned (x : Float) : Bool := (decode? x).any Finite.negative

variable {x : Float} {n : ℕ}

/-- **A number with a sign that is not below zero is zero.** -/
theorem eq_zero_of_isSigned (h : value? x = some (n : ℚ)) (hsign : isSigned x = true) : n = 0 := by
  obtain ⟨d, hd, hvalue⟩ := Option.map_eq_some_iff.mp h
  have hnegative : d.negative = true := by rwa [isSigned, hd] at hsign
  rw [Finite.value, if_pos hnegative] at hvalue
  have hnonneg := d.magnitude_nonneg
  have hn : (n : ℚ) ≤ 0 := by linarith
  exact_mod_cast le_antisymm hn (Nat.cast_nonneg n)

/-- **The text of an integer** of at most `2 ^ 53`: its sign, if it has one, and its digits. -/
theorem text_toList (h : value? x = some (n : ℚ)) (hn : n ≤ 2 ^ 53) :
    (text x).toList = Decimal.minus (isSigned x) ++ Nat.toDigits 10 n := by
  obtain ⟨d, hd, hvalue⟩ := Option.map_eq_some_iff.mp h
  have hwhole : d.whole = n := Finite.whole_of_value (z := n) (by exact_mod_cast hvalue)
  have hmagnitude : (magnitudeText d).toList = Nat.toDigits 10 n := by
    have hsmall : (d.isWhole && decide (d.whole ≤ Nat.pow 2 53)) = true := by
      rw [Finite.isWhole_of_value (z := n) (by exact_mod_cast hvalue), hwhole]
      exact decide_eq_true hn
    rw [magnitudeText, if_pos hsmall, hwhole, Nat.toString_eq_repr, Nat.toList_repr]
  rw [text, isSigned, hd]
  cases hnegative : d.negative with
  | true =>
    simp [Decimal.minus, hnegative, hmagnitude]
  | false =>
    simp [Decimal.minus, hnegative, hmagnitude]

/-! ## Integers read -/

/-- **An integer of at most `2 ^ 53` is its own value**, and has no sign. -/
theorem ofNat_exact {k : ℕ} (hk : k ≤ 2 ^ 53) :
    value? (Float.ofNat k) = some (k : ℚ) ∧ isSigned (Float.ofNat k) = false := by
  rcases hk.lt_or_eq with hlt | rfl
  · refine ⟨value?_ofNat hlt, ?_⟩
    rw [isSigned, ofNat_eq_dyadic hlt]
    rcases eq_or_ne k 0 with rfl | hne
    · rw [decode?_zero]
      rfl
    · rw [decode?_dyadic hne hlt (by decide) (by decide)]
      rfl
  · have hdecode : decode? (Float.ofNat (2 ^ 53)) = some ⟨false, 2 ^ 52, 1⟩ := by decide +kernel
    refine ⟨?_, by rw [isSigned, hdecode]; rfl⟩
    rw [value?_of_decode? hdecode]
    norm_num [Finite.value]

/-- **The numeral of an integer** of at most `2 ^ 53` is read as that integer. -/
theorem ofDecimal_natural {k : ℕ} (hk : k ≤ 2 ^ 53) (negative : Bool) :
    ofDecimal (.finite negative k 0) = if negative then -Float.ofNat k else Float.ofNat k := by
  have hlength : (toString k).length ≤ 16 := by
    rw [← String.length_toList, Nat.toString_eq_repr, Nat.toList_repr,
      Nat.length_toDigits_le_iff (by decide) (by decide)]
    exact hk.trans_lt (by decide)
  have hmagnitude : (if (decide (k = 0) || decide (((toString k).length : ℤ) + 0 < -400)) = true
      then (0 : Float) else if 400 < ((toString k).length : ℤ) + 0 then 1 / 0
      else Float.ofScientific k false 0) = Float.ofNat k := by
    rcases eq_or_ne k 0 with rfl | hne
    · rfl
    · rw [if_neg, if_neg (by omega)]
      · rfl
      · simp [hne]
  exact congrArg (fun m : Float => if negative then -m else m) hmagnitude

end Binary64

end Arithmancy
