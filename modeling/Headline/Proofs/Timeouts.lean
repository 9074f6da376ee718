import Headline.Feed.Network
import Mathlib.Algebra.Order.Field.Power
import Mathlib.Algebra.Order.Ring.Rat
import Mathlib.Tactic.Linarith
import Mathlib.Tactic.NormNum
import Mathlib.Tactic.Positivity
import Mathlib.Tactic.Ring

/-!
# Times that are too long to wait

A time in seconds is made one in nanoseconds, which is rounded to 53 bits before it is compared with
the bound of a machine word. So what counts is the middle between the bound and the number of the
format in front of it, or behind it (`rounded_cases`), and this is when one cannot wait for so long
(`tooLong_finite_iff`).
-/

namespace Headline

namespace Binary64

/-! ## Rounded quotients -/

theorem lt_roundDiv_iff {num den k : Nat} (hden : 0 < den) :
    k < roundDiv num den ↔
      (2 * k + 1) * den < 2 * num ∨ (2 * k + 1) * den = 2 * num ∧ k % 2 = 1 := by
  have hnum : den * (num / den) + num % den = num := Nat.div_add_mod num den
  have hrest : num % den < den := Nat.mod_lt num hden
  rw [roundDiv]
  generalize num / den = q at *
  generalize num % den = r at *
  rcases Nat.lt_trichotomy k q with h | rfl | h
  · have hexact : (2 * k + 1) * den < 2 * num := by
      have hmul : (k + 1) * den ≤ q * den := Nat.mul_le_mul_right den h
      linarith
    refine iff_of_true ?_ (.inl hexact)
    split
    · omega
    · exact h
  -- the quotient is rounded up just when the rest is the larger part, or half of it and `k` is odd
  · have hsplit : (2 * k + 1) * den < 2 * num ↔ den < 2 * r := by
      constructor <;> intro h <;> linarith
    have hhalf : (2 * k + 1) * den = 2 * num ↔ 2 * r = den := by
      constructor <;> intro h <;> linarith
    rw [hsplit, hhalf]
    split
    · next h => exact iff_of_true (Nat.lt_succ_self k) h
    · next h => exact iff_of_false (Nat.lt_irrefl k) h
  · have hexact : 2 * num < (2 * k + 1) * den := by
      have hmul : (q + 1) * den ≤ k * den := Nat.mul_le_mul_right den h
      linarith
    refine iff_of_false ?_ (by omega)
    split <;> omega

/-! ## Powers of two -/

theorem twoTo_pos (n : Nat) : 0 < twoTo n := Nat.pow_pos (by decide)

theorem cast_twoTo (n : Nat) : (twoTo n : ℚ) = 2 ^ n := by
  rw [twoTo, Nat.pow_eq, Nat.cast_pow, Nat.cast_ofNat]

/-- The two powers that stand for one with an exponent of any sign. -/
theorem twoTo_mul_zpow (e : Int) : (twoTo (-e).toNat : ℚ) * 2 ^ e = twoTo e.toNat := by
  rw [cast_twoTo, cast_twoTo]
  cases e with
  | ofNat n => simp
  | negSucc n =>
    rw [zpow_negSucc]
    simp

theorem cast_mul_twoTo (n : Nat) (e : Int) :
    ((n * twoTo e.toNat : Nat) : ℚ) = twoTo (-e).toNat * (n * 2 ^ e) := by
  rw [Nat.cast_mul, ← twoTo_mul_zpow]
  ring

theorem cast_twoTo_pos (n : Nat) : (0 : ℚ) < twoTo n := by exact_mod_cast twoTo_pos n

theorem mul_twoTo_lt_iff {m n : Nat} {e : Int} :
    m * twoTo e.toNat < n * twoTo (-e).toNat ↔ (m : ℚ) * 2 ^ e < n := by
  rw [← Nat.cast_lt (α := ℚ), cast_mul_twoTo, Nat.cast_mul, mul_comm (n : ℚ)]
  exact mul_lt_mul_iff_right₀ (cast_twoTo_pos _)

theorem lt_mul_twoTo_iff {m n : Nat} {e : Int} :
    n * twoTo (-e).toNat < m * twoTo e.toNat ↔ (n : ℚ) < m * 2 ^ e := by
  rw [← Nat.cast_lt (α := ℚ), cast_mul_twoTo m, Nat.cast_mul, mul_comm (n : ℚ)]
  exact mul_lt_mul_iff_right₀ (cast_twoTo_pos _)

/-! ## Mantissas and exponents -/

variable {num den k : Nat} {x : ℚ}

/-- A number is rounded up beyond the middle of two mantissas, and in the middle to the even one. -/
theorem lt_mantissaAt_iff (hden : 0 < den) (hx : (num : ℚ) = x * den) (e : Int) :
    k < mantissaAt num den e ↔
      (2 * k + 1) * 2 ^ e < 2 * x ∨ (2 * k + 1) * 2 ^ e = 2 * x ∧ k % 2 = 1 := by
  have hpos : (0 : ℚ) < den * twoTo (-e).toNat :=
    mul_pos (by exact_mod_cast hden) (cast_twoTo_pos _)
  have hleft : (((2 * k + 1) * (den * twoTo e.toNat) : Nat) : ℚ) =
      (2 * k + 1) * 2 ^ e * (den * twoTo (-e).toNat) := by
    push_cast
    rw [← twoTo_mul_zpow e]
    ring
  have hright : ((2 * (num * twoTo (-e).toNat) : Nat) : ℚ) = 2 * x * (den * twoTo (-e).toNat) := by
    push_cast
    rw [hx]
    ring
  rw [mantissaAt, lt_roundDiv_iff (Nat.mul_pos hden (twoTo_pos _)), ← Nat.cast_lt (α := ℚ),
    ← Nat.cast_inj (R := ℚ), hleft, hright, mul_lt_mul_iff_left₀ hpos, mul_left_inj' hpos.ne']

theorem zpow_log2_le {n : Nat} (h : n ≠ 0) : (2 : ℚ) ^ (n.log2 : Int) ≤ n := by
  rw [zpow_natCast]
  exact_mod_cast Nat.log2_self_le h

theorem lt_zpow_log2 (n : Nat) : (n : ℚ) < 2 ^ (n.log2 + 1 : Int) := by
  have hlt : n < 2 ^ (n.log2 + 1) := Nat.lt_log2_self
  have hcast : (n : ℚ) < 2 ^ (n.log2 + 1) := by exact_mod_cast hlt
  rwa [← zpow_natCast, Nat.cast_add, Nat.cast_one] at hcast

/-- The logarithms of two numbers tell that of their quotient, up to one bit. -/
theorem zpow_log2_quotient (hnum : num ≠ 0) (hden : 0 < den) (hx : (num : ℚ) = x * den) :
    2 ^ ((num.log2 : Int) - den.log2 - 1) ≤ x ∧ x < 2 ^ ((num.log2 : Int) - den.log2 + 1) := by
  have hdenpos : (0 : ℚ) < den := by exact_mod_cast hden
  constructor
  · refine le_of_mul_le_mul_right ?_ hdenpos
    calc 2 ^ ((num.log2 : Int) - den.log2 - 1) * (den : ℚ)
        ≤ 2 ^ ((num.log2 : Int) - den.log2 - 1) * 2 ^ (den.log2 + 1 : Int) := by
          gcongr
          exact (lt_zpow_log2 den).le
      _ = 2 ^ (num.log2 : Int) := by
        rw [← zpow_add₀ (by norm_num)]
        congr 1
        omega
      _ ≤ num := zpow_log2_le hnum
      _ = x * den := hx
  · refine lt_of_mul_lt_mul_right ?_ hdenpos.le
    calc x * den = num := hx.symm
      _ < 2 ^ (num.log2 + 1 : Int) := lt_zpow_log2 num
      _ = 2 ^ ((num.log2 : Int) - den.log2 + 1) * 2 ^ (den.log2 : Int) := by
        rw [← zpow_add₀ (by norm_num)]
        congr 1
        omega
      _ ≤ 2 ^ ((num.log2 : Int) - den.log2 + 1) * den := by
        gcongr
        exact zpow_log2_le hden.ne'

/-- The mantissa has at most 53 bits at the exponent, and all of them unless the exponent is the
smallest. -/
theorem exponentOf_spec (hnum : num ≠ 0) (hden : 0 < den) (hx : (num : ℚ) = x * den) :
    x < 2 ^ (53 + exponentOf num den) ∧
      (exponentOf num den = minExponent ∨ 2 ^ (52 + exponentOf num den) ≤ x) := by
  obtain ⟨hlower, hupper⟩ := zpow_log2_quotient hnum hden hx
  have hfits (e : Int) : num * twoTo (-e).toNat < mantissaBound * (den * twoTo e.toNat) ↔
      x < 2 ^ (53 + e) := by
    have hdenpos : (0 : ℚ) < den := by exact_mod_cast hden
    have hbound : (mantissaBound : ℚ) = 2 ^ (53 : Int) := by norm_num [mantissaBound]
    rw [← Nat.mul_assoc, lt_mul_twoTo_iff, Nat.cast_mul, hbound, hx, mul_right_comm,
      mul_lt_mul_iff_left₀ hdenpos, ← zpow_add₀ (by norm_num)]
  -- the guess is the exponent or one less, and where it is too small the smallest one is taken
  obtain ⟨tight, htight, hbelow, habove⟩ : ∃ tight, exponentOf num den = max tight minExponent ∧
      x < 2 ^ (53 + tight) ∧ 2 ^ (52 + tight) ≤ x := by
    by_cases h : x < 2 ^ (53 + ((num.log2 : Int) - den.log2 - 53))
    · refine ⟨_, by simp only [exponentOf, if_pos ((hfits _).2 h)], h, ?_⟩
      rwa [show 52 + ((num.log2 : Int) - den.log2 - 53) = num.log2 - den.log2 - 1 by omega]
    · refine ⟨(num.log2 : Int) - den.log2 - 53 + 1, ?_, ?_, ?_⟩
      · simp only [exponentOf, if_neg (mt (hfits _).1 h)]
      · rwa [show 53 + ((num.log2 : Int) - den.log2 - 53 + 1) = num.log2 - den.log2 + 1 by omega]
      · rw [show 52 + ((num.log2 : Int) - den.log2 - 53 + 1) =
          53 + (num.log2 - den.log2 - 53) by omega]
        exact not_lt.1 h
  rw [htight]
  rcases le_total minExponent tight with h | h
  · rw [max_eq_left h]
    exact ⟨hbelow, .inr habove⟩
  · rw [max_eq_right h]
    exact ⟨hbelow.trans_le (zpow_le_zpow_right₀ (by norm_num) (by omega)), .inl rfl⟩

/-! ## Rounded numbers -/

/-- A quotient rounded to 53 bits. -/
def rounded (num den : Nat) : ℚ :=
  mantissaAt num den (exponentOf num den) * 2 ^ exponentOf num den

theorem mantissaAt_le (hnum : num ≠ 0) (hden : 0 < den) (hx : (num : ℚ) = x * den) :
    mantissaAt num den (exponentOf num den) ≤ 2 ^ 53 := by
  have hbelow := (exponentOf_spec hnum hden hx).1
  rw [zpow_add₀ (by norm_num)] at hbelow
  have hpos : (0 : ℚ) < 2 ^ exponentOf num den := by positivity
  rw [← not_lt, lt_mantissaAt_iff hden hx]
  push_cast
  rintro (h | ⟨h, -⟩) <;> linarith

theorem le_mantissaAt (hden : 0 < den) (hx : (num : ℚ) = x * den)
    (h : 2 ^ (52 + exponentOf num den) ≤ x) : 2 ^ 52 ≤ mantissaAt num den (exponentOf num den) := by
  have hpos : (0 : ℚ) < 2 ^ exponentOf num den := by positivity
  rw [zpow_add₀ (by norm_num)] at h
  have hlt : 2 ^ 52 - 1 < mantissaAt num den (exponentOf num den) := by
    rw [lt_mantissaAt_iff hden hx]
    refine .inl ?_
    norm_num
    linarith
  omega

/-- At this exponent 2 to the power of 63 is one step behind the largest mantissa, which is odd. -/
theorem mantissaAt_ten (hden : 0 < den) (hx : (num : ℚ) = x * den)
    (hle : mantissaAt num den 10 ≤ 2 ^ 53) :
    mantissaAt num den 10 < 2 ^ 53 ∧ x < 2 ^ 63 - 512 ∨
      mantissaAt num den 10 = 2 ^ 53 ∧ 2 ^ 63 - 512 ≤ x := by
  have hlast := lt_mantissaAt_iff (k := 2 ^ 53 - 1) hden hx 10
  by_cases h : 2 ^ 63 - 512 ≤ x
  · have hlt : 2 ^ 53 - 1 < mantissaAt num den 10 := by
      refine hlast.2 ?_
      norm_num
      exact h.lt_or_eq.imp (fun h => by linarith) fun h => by linarith
    exact .inr ⟨by omega, h⟩
  · have hnot : ¬ 2 ^ 53 - 1 < mantissaAt num den 10 := by
      refine mt hlast.1 ?_
      norm_num at h ⊢
      constructor <;> linarith
    exact .inl ⟨by omega, not_le.1 h⟩

/-- At this exponent 2 to the power of 63 has the smallest mantissa, which is even. -/
theorem mantissaAt_eleven (hden : 0 < den) (hx : (num : ℚ) = x * den)
    (hge : 2 ^ 52 ≤ mantissaAt num den 11) :
    mantissaAt num den 11 = 2 ^ 52 ∧ x ≤ 2 ^ 63 + 1024 ∨
      2 ^ 52 < mantissaAt num den 11 ∧ 2 ^ 63 + 1024 < x := by
  have hnext := lt_mantissaAt_iff (k := 2 ^ 52) hden hx 11
  by_cases h : 2 ^ 63 + 1024 < x
  · refine .inr ⟨hnext.2 (.inl ?_), h⟩
    norm_num
    linarith
  · have hnot : ¬ 2 ^ 52 < mantissaAt num den 11 := by
      refine mt hnext.1 ?_
      norm_num at h ⊢
      linarith
    exact .inl ⟨by omega, not_lt.1 h⟩

/-- Where a rounded number stands to 2 to the power of 63 depends on the middles between this one
and the numbers beside it. -/
theorem rounded_cases (hnum : num ≠ 0) (hden : 0 < den) (hx : (num : ℚ) = x * den) :
    rounded num den < 2 ^ 63 ∧ x < 2 ^ 63 - 512 ∨
      rounded num den = 2 ^ 63 ∧ 2 ^ 63 - 512 ≤ x ∧ x ≤ 2 ^ 63 + 1024 ∨
      2 ^ 63 < rounded num den ∧ 2 ^ 63 + 1024 < x := by
  obtain ⟨hbelow, habove⟩ := exponentOf_spec hnum hden hx
  have hle := mantissaAt_le hnum hden hx
  have hge := le_mantissaAt hden hx
  have hcases : exponentOf num den ≤ 9 ∨ exponentOf num den = 10 ∨ exponentOf num den = 11 ∨
      12 ≤ exponentOf num den := by omega
  rw [rounded]
  rcases hcases with h | h | h | h
  · have hm : (mantissaAt num den (exponentOf num den) : ℚ) * 2 ^ exponentOf num den ≤
        2 ^ 53 * 2 ^ (9 : Int) := by
      gcongr
      · exact_mod_cast hle
      · norm_num
    have hx' : x < 2 ^ (62 : Int) :=
      hbelow.trans_le (zpow_le_zpow_right₀ (by norm_num) (by omega))
    norm_num at hm hx'
    exact .inl ⟨by linarith, by linarith⟩
  · rw [h] at hbelow hle ⊢
    have hx' : x < 2 ^ 63 := by exact_mod_cast hbelow
    have hpow : (2 : ℚ) ^ (10 : Int) = 1024 := by norm_num
    rw [hpow]
    rcases mantissaAt_ten hden hx hle with ⟨hm, h⟩ | ⟨hm, h⟩
    · have hm' : (mantissaAt num den 10 : ℚ) < 2 ^ 53 := by exact_mod_cast hm
      exact .inl ⟨by linarith, h⟩
    · exact .inr (.inl ⟨by rw [hm]; norm_num, h, by linarith⟩)
  · rw [h] at habove hge ⊢
    have habove := habove.resolve_left (by decide)
    have hx' : 2 ^ 63 ≤ x := by exact_mod_cast habove
    have hpow : (2 : ℚ) ^ (11 : Int) = 2048 := by norm_num
    rw [hpow]
    rcases mantissaAt_eleven hden hx (hge habove) with ⟨hm, h⟩ | ⟨hm, h⟩
    · exact .inr (.inl ⟨by rw [hm]; norm_num, by linarith, h⟩)
    · have hm' : (2 ^ 52 : ℚ) < mantissaAt num den 11 := by exact_mod_cast hm
      exact .inr (.inr ⟨by linarith, h⟩)
  · have habove := habove.resolve_left (by rw [minExponent]; omega)
    have hm : 2 ^ 52 * 2 ^ (12 : Int) ≤
        (mantissaAt num den (exponentOf num den) : ℚ) * 2 ^ exponentOf num den := by
      gcongr
      · exact_mod_cast hge habove
      · norm_num
    have hx' : 2 ^ (64 : Int) ≤ x := (zpow_le_zpow_right₀ (by norm_num) (by omega)).trans habove
    norm_num at hm hx'
    exact .inr (.inr ⟨by linarith, by linarith⟩)

theorem ofRatio_cases (negative : Bool) (hnum : num ≠ 0) (hden : 0 < den)
    (hx : (num : ℚ) = x * den) :
    (∃ m e, ofRatio negative num den = .finite negative m e ∧ (m : ℚ) * 2 ^ e = rounded num den) ∨
      ofRatio negative num den = .infinite negative ∧ 2 ^ 63 < rounded num den := by
  have hspec := exponentOf_spec hnum hden hx
  -- a carry into the 54th bit is shifted out
  obtain ⟨m, e, hof, hvalue, hle⟩ : ∃ m e,
      ofRatio negative num den =
        (if maxExponent < e then .infinite negative else .finite negative m e) ∧
      (m : ℚ) * 2 ^ e = rounded num den ∧ e ≤ exponentOf num den + 1 := by
    simp only [ofRatio, if_neg hnum]
    by_cases hcarry : mantissaAt num den (exponentOf num den) = mantissaBound
    · refine ⟨mantissaBound / 2, exponentOf num den + 1, by simp only [hcarry, if_true], ?_, le_rfl⟩
      rw [rounded, hcarry, zpow_add₀ (by norm_num)]
      norm_num [mantissaBound]
      ring
    · exact ⟨_, exponentOf num den, by simp only [if_neg hcarry], rfl, by omega⟩
  by_cases hlarge : maxExponent < e
  · refine .inr ⟨hof.trans (if_pos hlarge), ?_⟩
    have hexponent : 12 ≤ exponentOf num den := by
      rw [maxExponent] at hlarge
      omega
    have habove := hspec.2.resolve_left (by rw [minExponent]; omega)
    have hx' : 2 ^ (64 : Int) ≤ x := (zpow_le_zpow_right₀ (by norm_num) (by omega)).trans habove
    norm_num at hx'
    rcases rounded_cases hnum hden hx with ⟨-, h⟩ | ⟨-, -, h⟩ | ⟨h, -⟩
    · linarith
    · linarith
    · exact h
  · exact .inl ⟨m, e, hof.trans (if_neg hlarge), hvalue⟩

end Binary64

namespace Feed

open Binary64

/-! ## Times to wait -/

theorem compareWithBound_finite (negative : Bool) {m : Nat} {e : Int} {v : ℚ}
    (hv : (m : ℚ) * 2 ^ e = v) :
    (v < 2 ^ 63 → compareWithBound (.finite negative m e) = .lt) ∧
      (v = 2 ^ 63 → compareWithBound (.finite negative m e) = .eq) ∧
      (2 ^ 63 < v → compareWithBound (.finite negative m e) = .gt) := by
  have hbound : (wordBound : ℚ) = 2 ^ 63 := by norm_num [wordBound]
  have hlt := mul_twoTo_lt_iff (m := m) (n := wordBound) (e := e)
  have hgt := lt_mul_twoTo_iff (m := m) (n := wordBound) (e := e)
  rw [hv, hbound] at hlt hgt
  rw [compareWithBound]
  refine ⟨fun h => Nat.compare_eq_lt.2 (hlt.2 h), fun h => Nat.compare_eq_eq.2 ?_,
    fun h => Nat.compare_eq_gt.2 (hgt.2 h)⟩
  exact le_antisymm (not_lt.1 (mt hgt.1 h.not_gt)) (not_lt.1 (mt hlt.1 h.not_lt))

theorem compareNanoseconds_cases (mantissa : Nat) (exponent : Int) :
    let nanoseconds : ℚ := mantissa * 2 ^ exponent * 10 ^ 9
    compareNanoseconds mantissa exponent = .lt ∧ nanoseconds < 2 ^ 63 - 512 ∨
      compareNanoseconds mantissa exponent = .eq ∧ 2 ^ 63 - 512 ≤ nanoseconds ∧
        nanoseconds ≤ 2 ^ 63 + 1024 ∨
      compareNanoseconds mantissa exponent = .gt ∧ 2 ^ 63 + 1024 < nanoseconds := by
  intro nanoseconds
  have hden := twoTo_pos (-exponent).toNat
  have hx : ((mantissa * 1000000000 * twoTo exponent.toNat : Nat) : ℚ) =
      nanoseconds * twoTo (-exponent).toNat := by
    rw [cast_mul_twoTo, Nat.cast_mul, Nat.cast_ofNat]
    ring
  by_cases hnum : mantissa * 1000000000 * twoTo exponent.toNat = 0
  · have hzero : nanoseconds = 0 := by
      rw [hnum, Nat.cast_zero] at hx
      exact (mul_eq_zero.1 hx.symm).resolve_right (cast_twoTo_pos _).ne'
    refine .inl ⟨?_, by rw [hzero]; norm_num⟩
    rw [compareNanoseconds, ofRatio, if_pos hnum]
    exact (compareWithBound_finite false rfl).1 (by norm_num)
  rw [compareNanoseconds]
  rcases ofRatio_cases false hnum hden hx with ⟨m, e, hof, hvalue⟩ | ⟨hof, hlarge⟩
  · rw [hof]
    obtain ⟨hlt, heq, hgt⟩ := compareWithBound_finite false hvalue
    rcases rounded_cases hnum hden hx with ⟨hv, h⟩ | ⟨hv, h⟩ | ⟨hv, h⟩
    · exact .inl ⟨hlt hv, h⟩
    · exact .inr (.inl ⟨heq hv, h⟩)
    · exact .inr (.inr ⟨hgt hv, h⟩)
  · rw [hof]
    rcases rounded_cases hnum hden hx with ⟨hv, -⟩ | ⟨hv, -⟩ | ⟨-, h⟩
    · exact absurd hlarge hv.not_gt
    · exact absurd hlarge hv.not_gt
    · exact .inr (.inr ⟨rfl, h⟩)

/-- One cannot wait so many seconds: without end, or for 2 to the power of 63 nanoseconds and more,
counting what is rounded up to that. Below zero it takes more than is rounded down to it. -/
def TooLong : Binary64 → Prop
  | .nan => False
  | .infinite _ => True
  | .finite false mantissa exponent => (2 ^ 63 - 512 : ℚ) ≤ mantissa * 2 ^ exponent * 10 ^ 9
  | .finite true mantissa exponent => (2 ^ 63 + 1024 : ℚ) < mantissa * 2 ^ exponent * 10 ^ 9

theorem tooLong_finite_iff {negative : Bool} {mantissa : Nat} {exponent : Int} :
    TooLong (.finite negative mantissa exponent) ↔
      compareNanoseconds mantissa exponent = .gt ∨
        compareNanoseconds mantissa exponent = .eq ∧ ¬ negative := by
  have hcases := compareNanoseconds_cases mantissa exponent
  cases negative with
  | false =>
    show (2 ^ 63 - 512 : ℚ) ≤ _ ↔ _
    rcases hcases with ⟨hcompare, h⟩ | ⟨hcompare, h, -⟩ | ⟨hcompare, h⟩ <;> rw [hcompare]
    · exact iff_of_false h.not_ge (by simp)
    · exact iff_of_true h (by simp)
    · exact iff_of_true (by linarith) (.inl rfl)
  | true =>
    show (2 ^ 63 + 1024 : ℚ) < _ ↔ _
    rcases hcases with ⟨hcompare, h⟩ | ⟨hcompare, -, h⟩ | ⟨hcompare, h⟩ <;> rw [hcompare]
    · exact iff_of_false (by linarith) (by simp)
    · exact iff_of_false h.not_gt (by simp)
    · exact iff_of_true h (.inl rfl)

theorem checkTimeout_eq_undialled_iff {timeout : Binary64} {f : Link.DialFault} :
    checkTimeout timeout = .error (.undialled f) ↔ TooLong timeout ∧ f = .timeoutTooLarge := by
  cases timeout with
  | nan => simp [checkTimeout, TooLong]
  | infinite negative => simp [checkTimeout, TooLong, eq_comm]
  | finite negative mantissa exponent =>
    rw [checkTimeout, tooLong_finite_iff]
    by_cases h : compareNanoseconds mantissa exponent = .gt ∨
        compareNanoseconds mantissa exponent = .eq ∧ ¬ negative
    · rw [if_pos h]
      exact ⟨fun hf => ⟨h, by cases hf; rfl⟩, fun hf => by rw [hf.2]⟩
    · rw [if_neg h]
      refine iff_of_false (fun hf => ?_) fun hf => h hf.1
      split at hf <;> cases hf

end Feed

end Headline
