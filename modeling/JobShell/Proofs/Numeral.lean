import JobShell.Proofs.Coerce
import Mathlib.Algebra.Order.Field.Power
import Mathlib.Data.Nat.Cast.Field
import Mathlib.Tactic.Linarith
import Mathlib.Tactic.Positivity
import Mathlib.Tactic.Ring

/-!
Whole numbers as they are typed.

A whole number that does not fit in 64 bits is read as a floating point number, by way of roundings
that never go below a number of 53 bits. So what is out of range stays out of range, except for the
numbers that are rounded to the least signed one. Main statement: with that exception, a whole
number that is read as an integer is read as itself.
-/

namespace JobShell

open Json List Option Value Binary64 Nat Text

/-! ### Rounding -/

namespace Binary64

/-- The value of a number without its sign. -/
def magnitude (x : Binary64) : ℚ := x.mantissa * 2 ^ x.exponent

lemma magnitude_zero (negative : Bool) : (zero negative).magnitude = 0 := by
  simp [magnitude, zero]

lemma scaled_div (num den : ℕ) (e : ℤ) :
    ((scaled num den e).1 : ℚ) / (scaled num den e).2 = num / den / 2 ^ e := by
  unfold scaled
  split_ifs with he
  · obtain ⟨k, rfl⟩ := Int.eq_ofNat_of_zero_le he
    simp [div_div]
  · obtain ⟨k, rfl⟩ : ∃ k : ℕ, e = -k := ⟨(-e).toNat, by omega⟩
    simp [mul_div_right_comm]

lemma scaled_pos {num den : ℕ} (hden : 0 < den) (e : ℤ) : 0 < (scaled num den e).2 := by
  unfold scaled
  split_ifs
  · positivity
  · exact hden

lemma quotient_pos (x : Binary64) : 0 < x.quotient.2 := by
  unfold quotient
  split_ifs <;> positivity

lemma quotient_div (x : Binary64) : (x.quotient.1 : ℚ) / x.quotient.2 = x.magnitude := by
  unfold quotient magnitude
  split_ifs with he
  · obtain ⟨k, hk⟩ := Int.eq_ofNat_of_zero_le he
    simp [hk]
  · obtain ⟨k, hk⟩ : ∃ k : ℕ, x.exponent = -k := ⟨(-x.exponent).toNat, by omega⟩
    simp [hk, div_eq_mul_inv]

lemma le_nearestEven {num den c : ℕ} (hden : 0 < den) (h : c * den ≤ num) :
    c ≤ nearestEven num den := by
  have hc : c ≤ num / den := (le_div_iff_mul_le hden).mpr h
  unfold nearestEven
  simp only
  split_ifs <;> omega

lemma lt_nearestEven {num den c : ℕ} (hden : 0 < den) (h : (2 * c + 1) * den < 2 * num) :
    c < nearestEven num den := by
  have hmod := div_add_mod num den
  have hlt := mod_lt num hden
  rcases lt_or_ge c (num / den) with hc | hc
  · unfold nearestEven
    simp only
    split_ifs <;> omega
  · have hmul : den * (num / den) ≤ den * c := mul_le_mul_left _ hc
    have hround : den < 2 * (num % den) := by nlinarith
    have hq : c ≤ num / den := by
      by_contra hlt'
      have : den * (num / den + 1) ≤ den * c := mul_le_mul_left _ (by omega)
      nlinarith
    unfold nearestEven
    simp only
    rw [if_neg (by omega), if_neg (by omega)]
    omega

/-- An exponent other than the least one leaves 53 bits for the mantissa. -/
lemma exponentOf_cases {num den : ℕ} (hnum : 0 < num) (hden : 0 < den) :
    exponentOf num den = -1074 ∨ (2 : ℚ) ^ 52 * 2 ^ exponentOf num den ≤ num / den := by
  have hden' : (0 : ℚ) < den := by exact_mod_cast hden
  set e : ℤ := (log2 num : ℤ) - log2 den - 52 with he
  have hlow : (2 : ℚ) ^ 52 * 2 ^ (e - 1) ≤ num / den := by
    have hn : (2 : ℚ) ^ log2 num ≤ num := by exact_mod_cast log2_self_le hnum.ne'
    have hd : (den : ℚ) ≤ 2 ^ (log2 den + 1) := by exact_mod_cast lt_log2_self.le
    have hpow : (2 : ℚ) ^ 52 * 2 ^ (e - 1) * 2 ^ (log2 den + 1) = 2 ^ log2 num := by
      simp only [← zpow_natCast, ← zpow_add₀ (two_ne_zero (α := ℚ))]
      congr 1
      push_cast
      omega
    rw [le_div_iff₀ hden']
    calc (2 : ℚ) ^ 52 * 2 ^ (e - 1) * (den : ℚ)
        ≤ 2 ^ 52 * 2 ^ (e - 1) * 2 ^ (log2 den + 1) := by gcongr
      _ ≤ (num : ℚ) := hpow ▸ hn
  have hmax : exponentOf num den =
      max (if (scaled num den e).1 / (scaled num den e).2 < 2 ^ 52 then e - 1 else e) (-1074) := rfl
  rw [hmax]
  split_ifs with hfloor
  · rcases le_total (e - 1) (-1074) with h | h
    · exact .inl (max_eq_right h)
    · exact .inr (by rwa [max_eq_left h])
  · rcases le_total e (-1074) with h | h
    · exact .inl (max_eq_right h)
    · refine .inr ?_
      have hmul := (le_div_iff_mul_le (scaled_pos hden e)).mp (not_lt.mp hfloor)
      have hscaled : (2 : ℚ) ^ 52 ≤ num / den / 2 ^ e := by
        rw [← scaled_div, le_div_iff₀ (by exact_mod_cast scaled_pos hden e)]
        exact_mod_cast hmul
      rwa [max_eq_left h, ← le_div_iff₀ (by positivity)]

lemma magnitude_of_ofQuotient? {negative : Bool} {num den : ℕ} {x : Binary64} (hnum : num ≠ 0)
    (h : ofQuotient? negative num den = some x) :
    x.magnitude = nearestEven (scaled num den (exponentOf num den)).1
      (scaled num den (exponentOf num den)).2 * 2 ^ exponentOf num den := by
  set e := exponentOf num den
  set m := nearestEven (scaled num den e).1 (scaled num den e).2 with hm
  simp only [ofQuotient?, hnum, if_false] at h
  by_cases hround : m = 2 ^ 53
  · rw [← hm, if_pos hround] at h
    simp only [reducePow, OfNat.ofNat_ne_zero, if_false] at h
    split_ifs at h
    cases h
    rw [magnitude, hround, zpow_add_one₀ two_ne_zero]
    norm_num
    ring
  · rw [← hm, if_neg hround] at h
    simp only at h
    split_ifs at h with hzero
    · cases h
      rw [magnitude_zero, hzero, cast_zero, zero_mul]
    · cases h
      rfl

/-- Rounding does not go below a number of 53 bits. -/
lemma le_magnitude {negative : Bool} {num den c : ℕ} {j : ℤ} {x : Binary64}
    (h : ofQuotient? negative num den = some x) (hden : 0 < den) (hc : c ≤ 2 ^ 53) (hj : -1074 ≤ j)
    (hle : (c : ℚ) * 2 ^ j ≤ num / den) : (c : ℚ) * 2 ^ j ≤ x.magnitude := by
  rcases Nat.eq_zero_or_pos num with rfl | hnum
  · cases h
    simpa [magnitude_zero] using hle
  rw [magnitude_of_ofQuotient? hnum.ne' h]
  set e := exponentOf num den with he
  have hpos : 0 < (scaled num den e).2 := scaled_pos hden e
  -- a whole number of units that is not above the quotient is not above the mantissa
  have hunits : ∀ u : ℕ, (u : ℚ) * 2 ^ e ≤ num / den →
      u ≤ nearestEven (scaled num den e).1 (scaled num den e).2 := by
    intro u hu
    refine le_nearestEven hpos ?_
    have hscaled : (u : ℚ) ≤ num / den / 2 ^ e := (le_div_iff₀ (by positivity)).mpr hu
    rw [← scaled_div, le_div_iff₀ (by exact_mod_cast hpos)] at hscaled
    exact_mod_cast hscaled
  rcases le_or_gt e j with hej | hej
  · obtain ⟨k, hk⟩ := Int.eq_ofNat_of_zero_le (sub_nonneg.mpr hej)
    have hshift : (c : ℚ) * 2 ^ j = (c * 2 ^ k : ℕ) * 2 ^ e := by
      rw [show j = k + e by omega, zpow_add₀ two_ne_zero, zpow_natCast]
      push_cast
      ring
    rw [hshift] at hle ⊢
    gcongr
    exact hunits _ hle
  · have hnormal := (exponentOf_cases hnum hden).resolve_left (by omega)
    have hmantissa := hunits (2 ^ 52) (by exact_mod_cast hnormal)
    calc (c : ℚ) * 2 ^ j ≤ 2 ^ 53 * 2 ^ (e - 1) := by
          gcongr
          · exact_mod_cast hc
          · exact one_le_two
          · omega
      _ = (2 ^ 52 : ℕ) * 2 ^ e := by
          rw [zpow_sub_one₀ two_ne_zero]
          push_cast
          ring
      _ ≤ _ := by gcongr

lemma le_magnitude_mul {x y z : Binary64} {c : ℕ} {i j : ℤ} (h : x.mul? y = some z)
    (hc : c ≤ 2 ^ 53) (hij : -1074 ≤ i + j) (hx : (c : ℚ) * 2 ^ i ≤ x.magnitude)
    (hy : 2 ^ j ≤ y.magnitude) : (c : ℚ) * 2 ^ (i + j) ≤ z.magnitude := by
  have hround : ofQuotient? (x.negative != y.negative) (x.quotient.1 * y.quotient.1)
      (x.quotient.2 * y.quotient.2) = some z := h
  refine le_magnitude hround (mul_pos x.quotient_pos y.quotient_pos) hc hij ?_
  rw [cast_mul, cast_mul, mul_div_mul_comm, quotient_div, quotient_div,
    zpow_add₀ two_ne_zero, ← mul_assoc]
  exact mul_le_mul hx hy (by positivity) (le_trans (by positivity) hx)

lemma ofQuotient?_ofNat {n : ℕ} (hn : n < 2 ^ 64) : ofQuotient? false n 1 = some (ofNat n) := by
  rcases Nat.eq_zero_or_pos n with rfl | hpos
  · rfl
  have hlog : log2 n < 64 := (log2_lt hpos.ne').mpr hn
  have hexp : exponentOf n 1 ≤ 11 := by
    have hone : log2 1 = 0 := by decide
    unfold exponentOf
    simp only [hone]
    split_ifs <;> omega
  suffices ∃ x, ofQuotient? false n 1 = some x by
    obtain ⟨x, hx⟩ := this
    rw [ofNat, hx, getD_some]
  simp only [ofQuotient?, hpos.ne', if_false]
  split_ifs
  all_goals first | exact ⟨_, rfl⟩ | (simp at *; omega)

lemma magnitude_of_whole? {x : Binary64} {i : ℤ} (h : x.whole? = some i) :
    x.magnitude = i.natAbs := by
  have hwhole : x.whole? = if x.quotient.1 % x.quotient.2 = 0 then
      some (if x.negative then -((x.quotient.1 / x.quotient.2 : ℕ) : ℤ)
        else (x.quotient.1 / x.quotient.2 : ℕ)) else none := rfl
  rw [hwhole] at h
  split_ifs at h with hmod hneg <;> cases h
  all_goals
    have hne : (x.quotient.2 : ℚ) ≠ 0 := by exact_mod_cast x.quotient_pos.ne'
    rw [← quotient_div, ← cast_div (dvd_of_mod_eq_zero hmod) hne]
    simp only [Int.natAbs_neg, Int.natAbs_natCast]

/-- A number that is rounded to more than the least signed one. -/
lemma lt_magnitude_ofNat {n : ℕ} (hn : n < 2 ^ 64) (hlow : 2 ^ 63 + 1024 < n) :
    ((2 ^ 52 + 1 : ℕ) : ℚ) * 2 ^ (11 : ℤ) ≤ (ofNat n).magnitude := by
  have hlog : log2 n = 63 := (log2_eq_iff (by omega)).mpr ⟨by omega, hn⟩
  have hscaled : scaled n 1 11 = (n, 2 ^ 11) := by simp [scaled]
  have hexp : exponentOf n 1 = 11 := by
    have hone : log2 1 = 0 := by decide
    simp only [exponentOf, hlog, hone, cast_ofNat, cast_zero, sub_zero, Int.reduceSub, hscaled]
    rw [if_neg (by omega)]
    rfl
  have hround : 2 ^ 52 < nearestEven n (2 ^ 11) := lt_nearestEven (by decide) (by omega)
  rw [magnitude_of_ofQuotient? (by omega) (ofQuotient?_ofNat hn), hexp, hscaled]
  gcongr
  exact hround

lemma le_magnitude_pow {e : ℕ} (he : 0 < e) (hmax : e ≤ 308) :
    (2 : ℚ) ^ (3 : ℤ) ≤ (ofNat (10 ^ e)).magnitude := by
  have hall : ∀ e < 309, 0 < e → 8 * (ofNat (10 ^ e)).quotient.2 ≤ (ofNat (10 ^ e)).quotient.1 := by
    decide +kernel
  have h := hall e (by omega) he
  rw [← quotient_div, le_div_iff₀ (by exact_mod_cast quotient_pos _)]
  norm_num
  exact_mod_cast h

end Binary64

/-! ### Whole numbers that are read -/

namespace Number

lemma integral_float {x : Binary64} (hx : 2 ^ 63 < x.magnitude) :
    integral (.float x) = .float x := by
  unfold integral
  simp only
  split
  next i hi =>
    have habs : 2 ^ 63 < i.natAbs := by
      rw [magnitude_of_whole? hi] at hx
      exact_mod_cast hx
    rw [if_neg (by omega)]
  next => rfl

/-- What is read by rounding is out of range if it was before. -/
lemma lt_magnitude_of_scaleTen {s e : ℕ} {x : Binary64} (hs : s < 2 ^ 64)
    (h : scaleTen 4 (ofNat s) e = some x)
    (hlarge : e = 0 ∧ 2 ^ 63 + 1024 < s ∨ 0 < e ∧ 3 * 2 ^ 59 ≤ s) : 2 ^ 63 < x.magnitude := by
  have hround := ofQuotient?_ofNat hs
  have hmul : 0 < (ofNat s).magnitude → e ≤ 308 ∧
      (ofNat s).mul? (ofNat (10 ^ e)) = some x := by
    intro hpos
    have hzero : (ofNat s).isZero = false := by
      simp only [isZero, beq_eq_false_iff_ne]
      intro hzero
      simp [magnitude, hzero] at hpos
    simpa [scaleTen, hzero] using h
  rcases hlarge with ⟨rfl, hlow⟩ | ⟨he, hlow⟩
  · have hfirst := lt_magnitude_ofNat hs hlow
    obtain ⟨-, hx⟩ := hmul (lt_of_lt_of_le (by positivity) hfirst)
    have hone : (2 : ℚ) ^ (0 : ℤ) ≤ (ofNat (10 ^ 0)).magnitude := by
      have hround := ofQuotient?_ofNat (n := 10 ^ 0) (by decide)
      simpa using le_magnitude (c := 1) (j := 0) hround (by decide) (by decide) (by decide)
        (by norm_num)
    refine lt_of_lt_of_le ?_ (le_magnitude_mul hx (by decide) (by decide) hfirst hone)
    norm_num
  · have hfirst : ((3 : ℕ) : ℚ) * 2 ^ (59 : ℤ) ≤ (ofNat s).magnitude := by
      refine le_magnitude hround (by decide) (by decide) (by decide) ?_
      rw [cast_one, div_one]
      exact_mod_cast hlow
    obtain ⟨hmax, hx⟩ := hmul (lt_of_lt_of_le (by positivity) hfirst)
    have hten := le_magnitude_pow he hmax
    refine lt_of_lt_of_le ?_ (le_magnitude_mul hx (by decide) (by decide) hfirst hten)
    norm_num

lemma integral_floatOf? {negative : Bool} {s e : ℕ} {n : Number} (hs : s < 2 ^ 64)
    (h : floatOf? negative s e = some n)
    (hlarge : e = 0 ∧ 2 ^ 63 + 1024 < s ∨ 0 < e ∧ 3 * 2 ^ 59 ≤ s) (m : ℤ) :
    integral n ≠ .int m := by
  obtain ⟨x, hx, hn⟩ := bind_eq_some_iff.mp h
  cases hn
  have hmagnitude : 2 ^ 63 < x.magnitude := lt_magnitude_of_scaleTen hs hx hlarge
  rw [integral_float (x := { x with negative }) hmagnitude]
  nofun

/-- Digits that do not fit are left when the others have filled the significand. -/
lemma gather_stops {ds : List ℕ} (hds : ∀ d ∈ ds, d < 10) {s : ℕ} (hs : s ≤ maxSignificand)
    (h : maxSignificand < Text.ofDigits s ds) :
    (gather s ds).2 ≠ [] ∧ maxSignificand < (gather s ds).1 * 10 + 10 := by
  induction ds generalizing s with
  | nil => exact absurd h (not_lt.mpr hs)
  | cons d ds ih =>
    have hd : d < 10 := hds d mem_cons_self
    rw [gather]
    split_ifs with hfits
    · exact ih (fun d hd => hds d (mem_cons_of_mem _ hd)) hfits h
    · exact ⟨cons_ne_nil _ _, by omega⟩

lemma digitValue_lt {c : Char} (h : c.isDigit = true) : digitValue c < 10 := by
  have hrange : 48 ≤ c.toNat ∧ c.toNat ≤ 57 := by
    simpa [Char.isDigit, UInt32.le_iff_toNat_le] using h
  have hzero : '0'.toNat = 48 := rfl
  rw [digitValue, hzero]
  omega

/-- A whole number that is read as an integer is in range, and is read as itself. -/
lemma eq_of_integral_ofLiteral? {n m : ℤ} {l : Number} (h : ofLiteral? (.ofInt n) = some l)
    (hm : integral l = .int m) (hn : ¬ (-2 ^ 63 - 1024 ≤ n ∧ n < -2 ^ 63)) :
    Fits n ∧ m = n := by
  by_cases hfits : Fits n
  · rw [ofLiteral?_ofInt hfits] at h
    cases h
    cases hm
    exact ⟨hfits, rfl⟩
  rw [Fits] at hfits
  set ds := (toDigits 10 n.natAbs).map digitValue with hds
  have hdigits : ∀ d ∈ ds, d < 10 := by
    intro d hd
    obtain ⟨c, hc, rfl⟩ := mem_map.mp hd
    exact digitValue_lt (isDigit_of_mem_toDigits (by decide) (by decide) hc)
  have hvalue : Text.ofDigits 0 ds = n.natAbs := ofDigits_toDigits _
  have hlit : Literal.ofInt n = ⟨decide (n < 0), ds, [], none⟩ := rfl
  rcases lt_or_ge maxSignificand n.natAbs with hbig | hsmall
  · obtain ⟨hleft, hfull⟩ := gather_stops hdigits (zero_le _) (hvalue ▸ hbig)
    have hmax := gather_le ds (zero_le maxSignificand)
    rcases hgather : gather 0 ds with ⟨s, dropped⟩
    rw [hgather] at hleft hfull hmax
    rw [maxSignificand] at hfull hmax
    have hread : ofLiteral? (.ofInt n) = floatOf? (decide (n < 0)) s dropped.length := by
      simp [hlit, ofLiteral?, hgather, gather, hleft]
    exact absurd hm (integral_floatOf? (by omega) (hread ▸ h)
      (.inr ⟨length_pos_of_ne_nil hleft, by omega⟩) m)
  · have hgather : gather 0 ds = (n.natAbs, []) := by
      rw [gather_eq _ _ (hvalue ▸ hsmall), hvalue]
    rw [maxSignificand] at hsmall
    have hread : ofLiteral? (.ofInt n) = floatOf? true n.natAbs (0 : ℕ) := by
      have hneg : n < 0 := by omega
      have hlarge : 2 ^ 63 < n.natAbs := by omega
      simp only [hlit, ofLiteral?, hgather, gather, hneg, hlarge, decide_true, isEmpty_nil,
        Bool.and_self, if_true, Bool.not_true, Bool.false_eq_true, if_false, Bool.or_true,
        cast_zero]
    exact absurd hm (integral_floatOf? (by omega) (hread ▸ h) (.inl ⟨rfl, by omega⟩) m)

end Number

/-- A whole number as it is typed: perhaps a sign, and digits of which the first is no zero unless
it is the only one. -/
structure Numeral where
  negative : Bool
  magnitude : ℕ

namespace Numeral

def text (t : Numeral) : String :=
  String.ofList ((if t.negative then ['-'] else []) ++ Nat.toDigits 10 t.magnitude)

def value (t : Numeral) : ℤ := if t.negative then -t.magnitude else t.magnitude

/-- A whole number is typed as it is written, except for a negative zero. -/
lemma text_eq (t : Numeral) (h : t ≠ ⟨true, 0⟩) : t.text = (int t.value).json := by
  obtain ⟨negative, k⟩ := t
  cases negative
  · have hk : ¬ (k : ℤ) < 0 := by omega
    simp [text, value, json, int, chars, Number.chars, hk]
  · have hk : 0 < k := pos_of_ne_zero fun hk => h (by rw [hk])
    simp [text, value, json, int, chars, Number.chars, hk]

/-- Any integer is written as a whole number that denotes it. -/
lemma exists_text (n : ℤ) : ∃ u : Numeral, (int n).json = u.text ∧ u.value = n := by
  have hvalue : value ⟨decide (n < 0), n.natAbs⟩ = n := by
    by_cases hn : n < 0
    · simp only [value, hn, decide_true, if_true]
      omega
    · simp only [value, hn, decide_false, Bool.false_eq_true, if_false]
      omega
  refine ⟨⟨decide (n < 0), n.natAbs⟩, ?_, hvalue⟩
  rw [text_eq, hvalue]
  intro h
  simp only [mk.injEq, decide_eq_true_eq] at h
  omega

lemma coerce_json {n : ℤ} (hn : Number.Fits n) : coerce (int n).json = .int n :=
  Value.coerce_json (v := .int n) (w := .int n) trivial trivial
    (congrArg (Option.map number) (Number.ofLiteral?_ofInt hn)) trivial

lemma eq_of_coerce_json {n m : ℤ} (h : coerce (int n).json = .int m)
    (hn : ¬ (-2 ^ 63 - 1024 ≤ n ∧ n < -2 ^ 63)) : Number.Fits n ∧ m = n := by
  rcases coerce_cases (int n).json with ht | ⟨w, hparse, -, ht⟩
  · rw [ht] at h
    cases h
  · rw [parse?, Raw.parse?_json (v := .int n) trivial, bind_some] at hparse
    obtain ⟨l, hl, rfl⟩ := map_eq_some_iff.mp hparse
    rw [ht] at h
    exact Number.eq_of_integral_ofLiteral? hl (number.inj h) hn

lemma eq_of_same_int {v : Value} {n : ℤ} (h : v.same (.int n) = true) : v = .int n := by
  rcases v with _ | _ | (m | x) | _ | _ | _
  case number.int => exact congrArg int (eq_of_beq h)
  all_goals cases h

/-- What is typed as a whole number and read as an integer is read as itself, and is written so that
it denotes the same. The exceptions are those that are rounded to the least signed number. -/
theorem read_exactly (t : Numeral) (m : ℤ) (hn : ¬ (-2 ^ 63 - 1024 ≤ t.value ∧ t.value < -2 ^ 63)) :
    (Value.coerce t.text = .int m ↔ m = t.value ∧ -2 ^ 63 ≤ t.value ∧ t.value < 2 ^ 64) ∧
      (Value.coerce t.text = .int m →
        ∃ u : Numeral, (Value.coerce t.text).render = u.text ∧ u.value = t.value) := by
  have hread : coerce t.text = .int m ↔ m = t.value ∧ Number.Fits t.value := by
    by_cases hzero : t = ⟨true, 0⟩
    · have hcoerce : coerce t.text = .int 0 := by
        rw [hzero]
        exact eq_of_same_int (by decide +kernel)
      have hvalue : t.value = 0 := by rw [hzero]; rfl
      rw [hcoerce, hvalue, int, int, number.injEq, Number.int.injEq]
      exact ⟨fun h => ⟨h.symm, by decide, by decide⟩, fun h => h.1.symm⟩
    · rw [t.text_eq hzero]
      constructor
      · intro h
        exact (eq_of_coerce_json h hn).symm
      · rintro ⟨rfl, hfits⟩
        exact coerce_json hfits
  refine ⟨hread, fun h => ?_⟩
  rw [h, (hread.mp h).1]
  exact exists_text _

theorem read_exactly_seven : Value.coerce (text ⟨true, 7⟩) = .int (-7) :=
  (read_exactly ⟨true, 7⟩ (-7) (by decide)).1.mpr (by decide)

/-- A whole number that is read as another one. -/
theorem read_rounded :
    value ⟨true, 9223372036854775809⟩ = -9223372036854775809 ∧
      Value.coerce (text ⟨true, 9223372036854775809⟩) = .int (-9223372036854775808) :=
  ⟨rfl, eq_of_same_int (by decide +kernel)⟩

end Numeral

end JobShell
