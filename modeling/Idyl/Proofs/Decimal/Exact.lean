import Mathlib
import Idyl.Decimal.Shortest
import Idyl.Literal
import Idyl.Proofs.Token.Spelling

/-!
# Decimal texts of numbers

A whole number is denoted by its digits.  A finite floating-point number is a whole number of
units of `2⁻¹⁰⁷⁴`, so it has a decimal expansion of at most 1074 digits after the point, and
this expansion denotes it without any rounding.  A text of digits, a point and digits denotes
nothing else than such a number or infinity.

## Main definitions

* `Idyl.Binary64.exactText` — the decimal expansion of a number.

## Main results

* `Idyl.readInt?_toDigits` — the digits of a whole number denote it.
* `Idyl.Binary64.ofText?_decimal` — what a decimal text denotes.
* `Idyl.Binary64.ofText?_exactText` — the decimal expansion of a number denotes it.
-/

set_option autoImplicit false

namespace Idyl

/-! ## Digits -/

section Digits

open Binary64

/-- Numbers are written with digits. -/
lemma isDigits_toDigits (n : Nat) : isDigits (Nat.toDigits 10 n) = true := by
  refine isDigits_iff.2 ⟨Nat.toDigits_ne_nil, List.all_eq_true.2 fun c hc => ?_⟩
  exact Nat.isDigit_of_mem_toDigits (by omega) (by omega) hc

/-- The digits of a number have its value. -/
lemma digitsValue_toDigits (n : Nat) : digitsValue (Nat.toDigits 10 n) = n :=
  Nat.ofDigitChars_ten_toDigits

/-- Digits behind others shift these to the left. -/
lemma digitsValue_append (ds es : List Char) :
    digitsValue (ds ++ es) = 10 ^ es.length * digitsValue ds + digitsValue es := by
  rw [digitsValue, List.foldl_append]
  exact Nat.ofDigitChars_eq_ofDigitChars_zero

/-- Digits have less than the value that needs one more of them. -/
lemma digitsValue_lt {ds : List Char} (h : ds.all Char.isDigit = true) :
    digitsValue ds < 10 ^ ds.length := by
  induction ds with
  | nil => decide
  | cons d ds ih =>
    obtain ⟨hd, hds⟩ : d.isDigit = true ∧ ds.all Char.isDigit = true := by simpa using h
    have hdigit : digitsValue [d] ≤ 9 := by
      have hle : d.toNat ≤ 57 := by
        simp only [Char.isDigit, Bool.and_eq_true, decide_eq_true_eq] at hd
        exact UInt32.le_iff_toNat_le.1 hd.2
      have hzero : '0'.toNat = 48 := rfl
      simp only [digitsValue, List.foldl_cons, List.foldl_nil, hzero]
      omega
    have hpow : 10 ^ ds.length * digitsValue [d] ≤ 10 ^ ds.length * 9 :=
      Nat.mul_le_mul_left _ hdigit
    rw [← List.singleton_append, digitsValue_append, List.length_append, List.length_singleton,
      Nat.add_comm 1, Nat.pow_succ]
    have := ih hds
    omega

/-- A number of so many digits is less than that power of ten. -/
lemma lt_pow_length_toDigits (n : Nat) : n < 10 ^ (Nat.toDigits 10 n).length := by
  simpa only [digitsValue_toDigits] using digitsValue_lt (isDigits_iff.1 (isDigits_toDigits n)).2

/-- Digits have no sign in front of them. -/
lemma splitSign_of_isDigits {cs : List Char} (h : isDigits cs = true) (rest : List Char) :
    splitSign (cs ++ rest) = (false, cs ++ rest) := by
  cases cs with
  | nil => simp [isDigits] at h
  | cons c cs =>
    have hc := (isDigits_cons.1 h).1
    rw [List.cons_append, splitSign]
    all_goals
      intro ds hds
      obtain ⟨rfl, -⟩ := List.cons.inj hds
      exact absurd hc (by decide)

end Digits

/-- The digits of a whole number below `2⁶³` denote it. -/
lemma readInt?_toDigits {n : Nat} (h : n < 2 ^ 63) :
    readInt? (String.ofList (Nat.toDigits 10 n)) = some (.ofNat n) := by
  have hsign := splitSign_of_isDigits (isDigits_toDigits n) []
  rw [List.append_nil] at hsign
  have hall := (isDigits_iff.1 (isDigits_toDigits n)).2
  have hne : (Nat.toDigits 10 n).isEmpty = false := by simp [Nat.toDigits_ne_nil]
  rw [readInt?, String.toList_ofList, hsign]
  simp only [hne, hall, Bool.not_true, Bool.or_self, Bool.false_eq_true, if_false,
    digitsValue_toDigits]
  exact if_pos h

namespace Binary64

/-! ## Decimal texts -/

/-- Digits have no case. -/
lemma toLower_of_isDigit {c : Char} (h : c.isDigit = true) : c.toLower = c := by
  have hupper : c.isUpper = false := by
    simp only [Char.isDigit, Char.isUpper] at *
    grind
  simp only [Char.isUpper] at hupper
  simp only [Char.toLower]
  grind

/-- A text that starts with a digit is none of the words for special numbers. -/
lemma ofList_map_toLower_ne {c : Char} (hc : c.isDigit = true) (cs : List Char) {word : String}
    (hword : word.toList.head?.all (!·.isDigit) = true) :
    String.ofList ((c :: cs).map Char.toLower) ≠ word := by
  rintro rfl
  rw [String.toList_ofList, List.map_cons, toLower_of_isDigit hc] at hword
  simp [hc] at hword

/-- **What a decimal text denotes**: the number nearest to its digits, scaled by the number of
digits behind the point. -/
lemma ofText?_decimal {text : String} {whole fraction : List Char}
    (htext : text.toList = whole ++ '.' :: fraction) (hwhole : isDigits whole = true)
    (hfraction : isDigits fraction = true) :
    ofText? text =
      some (ofDecimal false (digitsValue (whole ++ fraction)) (-(fraction.length : Int))) := by
  have hall : ∀ c ∈ whole, c.isDigit = true := by simpa using (isDigits_iff.1 hwhole).2
  have hall' : ∀ c ∈ fraction, c.isDigit = true := by simpa using (isDigits_iff.1 hfraction).2
  have hpoint : Char.isDigit '.' = false := by decide
  have hunsigned : unsignedDecimal? false text.toList =
      some (ofDecimal false (digitsValue (whole ++ fraction)) (-(fraction.length : Int))) := by
    rw [unsignedDecimal?, htext, List.takeWhile_append_of_pos hall,
      List.dropWhile_append_of_pos hall, List.takeWhile_cons_of_neg (by simp [hpoint]),
      List.dropWhile_cons_of_neg (by simp [hpoint]), splitFraction]
    have hdrop : fraction.dropWhile Char.isDigit = [] := List.dropWhile_eq_nil_iff.2 hall'
    have htake : fraction.takeWhile Char.isDigit = fraction := List.takeWhile_eq_self_iff.2 hall'
    simp [hdrop, htake, (isDigits_iff.1 hwhole).1, exponentValue?]
  have hsign := splitSign_of_isDigits hwhole ('.' :: fraction)
  obtain _ | ⟨c, cs⟩ := whole
  · simp [isDigits] at hwhole
  have hc := (isDigits_cons.1 hwhole).1
  have hword : ∀ word ∈ ["inf", "infinity", "nan"],
      String.ofList ((c :: (cs ++ '.' :: fraction)).map Char.toLower) ≠ word := by
    intro word hmem
    refine ofList_map_toLower_ne hc _ ?_
    revert word
    decide
  rw [← hunsigned, ofText?, htext, hsign]
  simp only [List.cons_append, hword "inf" (by simp), hword "infinity" (by simp),
    hword "nan" (by simp), decide_false, Bool.or_self, Bool.false_eq_true, if_false]

/-- A number of up to `count` digits, filled up with zeros in front. -/
def paddedDigits (count n : Nat) : List Char :=
  List.replicate (count - (Nat.toDigits 10 n).length) '0' ++ Nat.toDigits 10 n

/-- Padded digits fill their count, if the number is not too large. -/
lemma length_paddedDigits {count n : Nat} (hcount : 0 < count) (h : n < 10 ^ count) :
    (paddedDigits count n).length = count := by
  have := Nat.toDigits_length 10 n count hcount h
  rw [paddedDigits, List.length_append, List.length_replicate]
  omega

/-- Padded digits are digits. -/
lemma isDigits_paddedDigits (count n : Nat) : isDigits (paddedDigits count n) = true := by
  have hdigits := isDigits_iff.1 (isDigits_toDigits n)
  refine isDigits_iff.2 ⟨by simp [paddedDigits, hdigits.1], ?_⟩
  rw [paddedDigits, List.all_append, hdigits.2]
  simp

/-- Zeros in front do not change the value. -/
lemma digitsValue_paddedDigits (count n : Nat) : digitsValue (paddedDigits count n) = n := by
  have hzeros : digitsValue (List.replicate (count - (Nat.toDigits 10 n).length) '0') = 0 := by
    exact Nat.ofDigitChars_replicate_zero.trans (Nat.mul_zero _)
  rw [paddedDigits, digitsValue_append, hzeros, digitsValue_toDigits, Nat.mul_zero, Nat.zero_add]

/-- The number of digits behind the point that a unit has. -/
def unitDigits : Nat := 1074

/-- The decimal expansion of a number of units.  A unit is `5¹⁰⁷⁴ · 10⁻¹⁰⁷⁴`. -/
def unitsText (units : Nat) : String :=
  let mantissa := units * 5 ^ unitDigits
  String.ofList (Nat.toDigits 10 (mantissa / 10 ^ unitDigits) ++
    '.' :: paddedDigits unitDigits (mantissa % 10 ^ unitDigits))

/-- The number of zeros in a number that is taken for infinite. -/
def infinityZeros : Nat := 310

/-- A text for infinity: more digits than any finite number has. -/
def infinityText : String := String.ofList (Nat.toDigits 10 (10 ^ infinityZeros) ++ ['.', '0'])

/-- The decimal expansion of a magnitude. -/
def exactText (x : Binary64) : String :=
  if x.code = infinityCode then infinityText
  else unitsText ((unitsOfCode x.code).1 * 2 ^ (unitsOfCode x.code).2)

/-- A decimal expansion denotes the number of units that it was made from. -/
lemma ofText?_unitsText (units : Nat) :
    ofText? (unitsText units) =
      some (ofDecimal false (units * 5 ^ unitDigits) (-(unitDigits : Int))) := by
  have hpow : 0 < 10 ^ unitDigits := Nat.pow_pos (by omega)
  have hlength : (paddedDigits unitDigits (units * 5 ^ unitDigits % 10 ^ unitDigits)).length =
      unitDigits := length_paddedDigits (by decide) (Nat.mod_lt _ hpow)
  rw [unitsText, ofText?_decimal String.toList_ofList (isDigits_toDigits _)
    (isDigits_paddedDigits _ _), digitsValue_append, digitsValue_toDigits,
    digitsValue_paddedDigits, hlength, Nat.div_add_mod]

/-- A count of smallest units is written as a decimal. -/
lemma isDecimal_unitsText (units : Nat) : IsDecimal (unitsText units).toList :=
  ⟨_, _, String.toList_ofList, isDigits_toDigits _, isDigits_paddedDigits _ _⟩

/-! ## Rounding nothing -/

/-- A quotient without a remainder is not rounded. -/
lemma roundDiv_mul_right (n : Nat) {den : Nat} (h : 0 < den) : roundDiv (n * den) den = n := by
  simp [roundDiv, Nat.mul_div_cancel n h, h]

/-- The code of a magnitude whose number of units needs no rounding. -/
lemma codeOfUnits_unitsOfCode {code den : Nat} (h : code < infinityCode) (hden : 0 < den) :
    codeOfUnits ((unitsOfCode code).1 * 2 ^ (unitsOfCode code).2 * den) den = code := by
  have hbinade : binade = 2 ^ 52 := rfl
  by_cases hsmall : code < 2 * binade
  · have hunits : unitsOfCode code = (code, 0) := if_pos hsmall
    rw [hunits, codeOfUnits, Nat.pow_zero, Nat.mul_one, Nat.mul_div_cancel _ hden]
    simp only [hsmall, if_true, Nat.pow_eq, Nat.pow_zero, Nat.mul_one, Nat.zero_mul,
      Nat.zero_add, roundDiv_mul_right _ hden]
    omega
  · have hunits : unitsOfCode code = (binade + code % binade, code / binade - 1) :=
      if_neg hsmall
    -- the units are `m · 2 ^ k` with `m` in the binade, so `k` is the shift that is found
    obtain ⟨m, hm⟩ : ∃ m, m = binade + code % binade := ⟨_, rfl⟩
    obtain ⟨k, hk⟩ : ∃ k, k = code / binade - 1 := ⟨_, rfl⟩
    have hcode : k * binade + m = code := by
      have hdivMod := Nat.div_add_mod' code binade
      have hone : 1 ≤ code / binade := (Nat.le_div_iff_mul_le (by decide)).2 (by omega)
      have hle : 1 * binade ≤ code / binade * binade := Nat.mul_le_mul_right _ hone
      rw [hk, hm, Nat.sub_mul]
      omega
    have hk_pos : 2 ≤ 2 ^ k := by
      have : 2 ≤ code / binade := (Nat.le_div_iff_mul_le (by decide)).2 (by omega)
      exact Nat.le_self_pow (by omega) 2
    have hm_lt : m < 2 * binade := by
      have := Nat.mod_lt code (by decide : 0 < binade)
      omega
    have hlarge : ¬m * 2 ^ k < 2 * binade := by
      have : binade * 2 ≤ m * 2 ^ k := Nat.mul_le_mul (by omega) hk_pos
      omega
    have hlog : (m * 2 ^ k).log2 = 52 + k := by
      rw [Nat.log2_eq_iff (by omega), Nat.pow_succ, Nat.pow_add, ← hbinade]
      constructor
      · exact Nat.mul_le_mul_right _ (by omega)
      · calc m * 2 ^ k < 2 * binade * 2 ^ k := Nat.mul_lt_mul_of_pos_right hm_lt (by omega)
          _ = binade * 2 ^ k * 2 := by rw [Nat.mul_comm 2, Nat.mul_right_comm]
    have hexact : m * 2 ^ k * den = m * (den * 2 ^ k) := by
      rw [Nat.mul_assoc, Nat.mul_comm (2 ^ k)]
    rw [hunits, ← hm, ← hk, codeOfUnits, Nat.mul_div_cancel _ hden]
    simp only [hlarge, if_false, hlog, Nat.add_sub_cancel_left, hexact, Nat.pow_eq,
      roundDiv_mul_right m (Nat.mul_pos hden (by omega : 0 < 2 ^ k)), hcode]
    omega

/-- Finite magnitudes are not so large that reading takes them for infinite. -/
lemma units_lt {code : Nat} (h : code < infinityCode) :
    (unitsOfCode code).1 * 2 ^ (unitsOfCode code).2 < 2 ^ (53 + 2045) := by
  have hbinade : binade = 2 ^ 52 := rfl
  have hinfinity : infinityCode = 0x7ff * binade := rfl
  have hm : (unitsOfCode code).1 < 2 ^ 53 := by
    rw [unitsOfCode]
    split
    · omega
    · have := Nat.mod_lt code (by decide : 0 < binade)
      dsimp only
      omega
  have hk : (unitsOfCode code).2 ≤ 2045 := by
    rw [unitsOfCode]
    split
    · omega
    · have : code / binade < 0x7ff := (Nat.div_lt_iff_lt_mul (by decide)).2 (by omega)
      dsimp only
      omega
  calc (unitsOfCode code).1 * 2 ^ (unitsOfCode code).2
      < 2 ^ 53 * 2 ^ (unitsOfCode code).2 :=
        Nat.mul_lt_mul_of_pos_right hm (Nat.two_pow_pos _)
    _ ≤ 2 ^ 53 * 2 ^ 2045 := Nat.mul_le_mul_left _ (Nat.pow_le_pow_right (by omega) hk)
    _ = 2 ^ (53 + 2045) := by rw [Nat.pow_add 2 53 2045]

/-- **The decimal expansion of a finite magnitude denotes it.**

**Proof sketch.** As a decimal the magnitude has between 744 and 1384 digits, so reading takes it
neither for zero nor for infinity, and what it then rounds is a whole number of units. -/
lemma codeOfDecimal_units {code : Nat} (h : code < infinityCode) :
    codeOfDecimal ((unitsOfCode code).1 * 2 ^ (unitsOfCode code).2 * 5 ^ unitDigits)
      (-(unitDigits : Int)) = code := by
  have hlt := units_lt h
  have hcode : ∀ den, 0 < den →
      codeOfUnits ((unitsOfCode code).1 * 2 ^ (unitsOfCode code).2 * den) den = code :=
    fun den hden => codeOfUnits_unitsOfCode h hden
  generalize (unitsOfCode code).1 * 2 ^ (unitsOfCode code).2 = units at hlt hcode ⊢
  by_cases hzero : units = 0
  · have hcode := hcode 1 (by omega)
    rw [hzero] at hcode ⊢
    rw [Nat.zero_mul, codeOfDecimal, if_pos rfl, ← hcode]
    decide
  have hpos : units * 5 ^ unitDigits ≠ 0 :=
    Nat.mul_ne_zero hzero (Nat.pow_pos (by omega)).ne'
  have hupper : (Nat.toDigits 10 (units * 5 ^ unitDigits)).length ≤ 1384 := by
    refine Nat.toDigits_length 10 _ 1384 (by omega) ?_
    calc units * 5 ^ unitDigits < 2 ^ (53 + 2045) * 5 ^ unitDigits :=
          Nat.mul_lt_mul_of_pos_right hlt (Nat.pow_pos (by omega))
      _ ≤ 10 ^ 1384 := by decide +kernel
  have hlower : 744 ≤ (Nat.toDigits 10 (units * 5 ^ unitDigits)).length := by
    by_contra hshort
    have hsmall := calc units * 5 ^ unitDigits
        < 10 ^ (Nat.toDigits 10 (units * 5 ^ unitDigits)).length := lt_pow_length_toDigits _
      _ ≤ 10 ^ 744 := Nat.pow_le_pow_right (by omega) (by omega)
      _ ≤ 5 ^ unitDigits := by decide +kernel
    have hlarge : 1 * 5 ^ unitDigits ≤ units * 5 ^ unitDigits :=
      Nat.mul_le_mul_right _ (Nat.pos_of_ne_zero hzero)
    rw [Nat.one_mul] at hlarge
    exact absurd (Nat.lt_of_lt_of_le hsmall hlarge) (Nat.lt_irrefl _)
  have hdigits : unitDigits = 1074 := rfl
  have hone : unitsPerOne = 2 ^ unitDigits := by decide +kernel
  have hscale : ∀ n, Nat.pow 10 n = 10 ^ n := fun _ => Nat.pow_eq
  have hunits : units * 5 ^ unitDigits * unitsPerOne = units * 10 ^ unitDigits := by
    rw [Nat.mul_assoc, hone, ← Nat.mul_pow]
  rw [codeOfDecimal, if_neg hpos]
  dsimp only
  rw [if_neg (by omega), if_neg (by omega), if_neg (by omega), Int.neg_neg, Int.toNat_natCast,
    hunits, hscale]
  exact hcode _ (Nat.pow_pos (by omega))

/-! ## Exact texts -/

/-- No decimal is beyond infinity. -/
lemma codeOfDecimal_le (mantissa : Nat) (exponent : Int) :
    codeOfDecimal mantissa exponent ≤ infinityCode := by
  have hunits : ∀ num den, codeOfUnits num den ≤ infinityCode :=
    fun num den => Nat.min_le_left _ _
  unfold codeOfDecimal
  dsimp only
  split_ifs <;> first | exact hunits _ _ | omega

/-- A positive number is known by its code. -/
lemma code_ofCode {c : Nat} (h : c ≤ infinityCode) : (ofCode false c).code = c := by
  have hinfinity : infinityCode < signBit := by decide
  have hsign : signBit = 2 ^ 63 := rfl
  have hbits : (UInt64.ofNat c).toNat = c := by
    rw [UInt64.toNat_ofNat']
    exact Nat.mod_eq_of_lt (by omega)
  rw [code, ofCode, if_neg Bool.false_ne_true, hbits]
  exact Nat.mod_eq_of_lt (by omega)

/-- The text for infinity is a decimal. -/
lemma isDecimal_infinityText : IsDecimal infinityText.toList :=
  ⟨_, ['0'], String.toList_ofList, isDigits_toDigits _, by decide⟩

/-- The text for infinity is read as infinity. -/
lemma ofText?_infinityText : ofText? infinityText = some (infinity false) := by
  have hvalue : digitsValue (Nat.toDigits 10 (10 ^ infinityZeros) ++ ['0']) =
      10 ^ (infinityZeros + 1) := by
    have hzero : digitsValue ['0'] = 0 := rfl
    rw [digitsValue_append, digitsValue_toDigits, hzero, List.length_singleton, Nat.pow_one,
      Nat.add_zero, Nat.pow_succ']
  have hlength : infinityZeros + 1 < (Nat.toDigits 10 (10 ^ (infinityZeros + 1))).length :=
    (Nat.pow_lt_pow_iff_right (by omega)).1 (lt_pow_length_toDigits (10 ^ (infinityZeros + 1)))
  have hzeros : infinityZeros = 310 := rfl
  rw [infinityText, ofText?_decimal String.toList_ofList (isDigits_toDigits _) (by decide), hvalue,
    ofDecimal, codeOfDecimal, if_neg (Nat.pow_pos (by omega)).ne', infinity]
  dsimp only [List.length_singleton]
  rw [if_pos (by omega)]

/-- The exact text of a number is a decimal. -/
lemma isDecimal_exactText (x : Binary64) : IsDecimal x.exactText.toList := by
  rw [exactText]
  split_ifs
  · exact isDecimal_infinityText
  · exact isDecimal_unitsText _

/-- **Every number that a decimal text denotes is denoted by its decimal expansion.**

**Proof sketch.** A decimal text denotes infinity or a finite magnitude without a sign; the
expansion of the latter is `codeOfDecimal_units`. -/
lemma ofText?_exactText {x : Binary64}
    (h : ∃ text : String, IsDecimal text.toList ∧ ofText? text = some x) :
    ofText? x.exactText = some x := by
  obtain ⟨text, ⟨whole, fraction, htext, hwhole, hfraction⟩, hx⟩ := h
  rw [ofText?_decimal htext hwhole hfraction, Option.some.injEq, ofDecimal] at hx
  have hle := codeOfDecimal_le (digitsValue (whole ++ fraction)) (-(fraction.length : Int))
  generalize codeOfDecimal (digitsValue (whole ++ fraction)) (-(fraction.length : Int)) = c at *
  have hcode : x.code = c := by rw [← hx, code_ofCode hle]
  rw [exactText, hcode]
  split_ifs with hc
  · rw [ofText?_infinityText, ← hx, hc, infinity]
  · rw [ofText?_unitsText, ofDecimal, codeOfDecimal_units (Nat.lt_of_le_of_ne hle hc), hx]

end Binary64

end Idyl
