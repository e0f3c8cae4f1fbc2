/-
# Correct rounding

A decimal is rounded in whole steps of `2 ^ -1074`, by integer arithmetic on
magnitudes. This module says what that comes to in terms of the numbers
themselves: the result is the nearest number of the format, of two that are equally
near the one with the even significand, and infinity from half a step beyond the
greatest finite number on.

The value of a number is decoded from its fields and not from its count of steps, so
the count is something to prove. That done, everything rests on two facts. The
steps of a magnitude grow with it, so nothing of the format lies between a magnitude
and the next one. And scaling a quotient down leaves it between two neighbours of
which rounding takes the nearer one. Infinity and zero need no computation of their
own, because what is nearest decides both.
-/

import Mathlib
import Lox.Numeric.Binary64

namespace Lox

namespace Binary64

/-! ## Values -/

/-- The significand of a number: the low 52 bits, and the hidden one in front of
them unless the exponent field is zero. -/
def significand (x : Binary64) : ℕ :=
  if x.magnitude / 2 ^ 52 = 0 then x.magnitude % 2 ^ 52 else 2 ^ 52 + x.magnitude % 2 ^ 52

/-- The power of two that the last bit of the significand counts. Subnormal numbers
share that of the least normal ones. -/
def exponent (x : Binary64) : ℤ := max (x.magnitude / 2 ^ 52 : ℕ) 1 - 1075

/-- The rational number that a finite number is. -/
def value (x : Binary64) : ℚ :=
  (if x.negative then -1 else 1) * x.significand * 2 ^ x.exponent

/-- A number without a sign bit, infinity being beyond all others. -/
def extended (x : Binary64) : WithTop ℚ := if x.isFinite then x.value else ⊤

/-- Whether a number is the one that a rational number without a sign is rounded
to, a half going to the even significand. -/
structure IsRounded (x : Binary64) (q : ℚ) : Prop where
  positive : x.negative = false
  notNaN : x.isNaN = false
  nearest : x.isFinite = true → ∀ y : Binary64, y.isFinite = true →
    |x.value - q| ≤ |y.value - q|
  even : x.isFinite = true → ∀ y : Binary64, y.isFinite = true → y.value ≠ x.value →
    |y.value - q| = |x.value - q| → x.significand % 2 = 0
  infinite_iff : x.magnitude = infinite ↔ 2 ^ 1024 - 2 ^ 970 ≤ q
  zero_iff : x.magnitude = 0 ↔ q ≤ 1 / 2 ^ 1075

/-! ## Steps -/

/-- How often the steps between the neighbours of a magnitude are doubled. -/
def doublings (magnitude : ℕ) : ℕ := magnitude / 2 ^ 52 - 1

/-- Steps are doubled in every binade but the first two. -/
theorem steps_eq (m : ℕ) : steps m = (m - doublings m * 2 ^ 52) * 2 ^ doublings m := by
  simp only [steps, Nat.pow_eq, doublings]
  have hdivision := Nat.div_add_mod m (2 ^ 52)
  split
  next hsmall =>
    have hfield : m / 2 ^ 52 = 0 := Nat.div_eq_of_lt hsmall
    rw [hfield, Nat.zero_sub, Nat.zero_mul, Nat.sub_zero, pow_zero, Nat.mul_one]
  next hlarge =>
    have hfield : 1 ≤ m / 2 ^ 52 := (Nat.one_le_div_iff (by decide)).mpr (Nat.le_of_not_lt hlarge)
    congr 1
    omega

/-- A significand of 53 bits, or one more, that is doubled some times. -/
theorem steps_doubled {times row : ℕ} (hrow : row ≤ 2 ^ 53) (htimes : times = 0 ∨ 2 ^ 52 ≤ row) :
    steps (times * 2 ^ 52 + row) = row * 2 ^ times := by
  rw [steps_eq]
  by_cases hcarry : row = 2 ^ 53
  · -- The carry into the exponent doubles once more and halves the significand.
    have hdoublings : doublings (times * 2 ^ 52 + row) = times + 1 := by
      unfold doublings
      omega
    have hrest : times * 2 ^ 52 + row - (times + 1) * 2 ^ 52 = 2 ^ 52 := by omega
    rw [hdoublings, hrest, hcarry, pow_succ' 2 times]
    ring
  · have hdoublings : doublings (times * 2 ^ 52 + row) = times := by
      unfold doublings
      omega
    rw [hdoublings, Nat.add_sub_cancel_left]

theorem steps_succ (m : ℕ) : steps (m + 1) = steps m + 2 ^ doublings m := by
  have hrow : m - doublings m * 2 ^ 52 + 1 ≤ 2 ^ 53 := by
    unfold doublings
    omega
  have htimes : doublings m = 0 ∨ 2 ^ 52 ≤ m - doublings m * 2 ^ 52 + 1 := by
    unfold doublings
    omega
  have hnext : m + 1 = doublings m * 2 ^ 52 + (m - doublings m * 2 ^ 52 + 1) := by
    unfold doublings
    omega
  rw [hnext, steps_doubled hrow htimes, Nat.succ_mul, ← steps_eq]

theorem steps_strictMono : StrictMono steps := by
  apply strictMono_nat_of_lt_succ
  intro m
  rw [steps_succ]
  exact Nat.lt_add_of_pos_right (Nat.two_pow_pos _)

theorem cast_steps_strictMono : StrictMono fun m => (steps m : ℚ) :=
  Nat.strictMono_cast.comp steps_strictMono

theorem steps_zero : steps 0 = 0 := rfl

theorem steps_one : steps 1 = 1 := rfl

/-- The value of a number is its count of steps. -/
theorem value_eq (x : Binary64) :
    x.value = (if x.negative then -1 else 1) * (steps x.magnitude / 2 ^ 1074) := by
  have hcount : (x.significand : ℚ) * 2 ^ x.exponent = steps x.magnitude / 2 ^ 1074 := by
    have hsteps : steps x.magnitude = x.significand * 2 ^ doublings x.magnitude := by
      rw [steps_eq, significand, doublings]
      congr 1
      split <;> omega
    have hexponent : x.exponent = (doublings x.magnitude : ℤ) - 1074 := by
      unfold exponent doublings
      omega
    rw [hsteps, hexponent, zpow_sub₀ two_ne_zero, zpow_natCast, Nat.cast_mul, Nat.cast_pow,
      Nat.cast_ofNat, mul_div_assoc]
    rfl
  rw [value, mul_assoc, hcount]

theorem significand_mod_two (x : Binary64) : x.significand % 2 = x.magnitude % 2 := by
  unfold significand
  split <;> omega

/-! ## The nearest magnitude

Magnitudes are compared here as if the format went on beyond its greatest finite
number. -/

/-- Whether no magnitude is nearer to a number of steps, nor as near unless this one
is even. -/
structure IsNearest (m : ℕ) (v : ℚ) : Prop where
  nearest : ∀ other, |(steps m : ℚ) - v| ≤ |(steps other : ℚ) - v|
  even : ∀ other, other ≠ m → |(steps other : ℚ) - v| = |(steps m : ℚ) - v| → m % 2 = 0

section Neighbours

variable {lower : ℕ} {v : ℚ}

/-- Where a number of steps stands between two neighbours, all other magnitudes are
beyond them. -/
theorem le_or_le_of_between (hle : (steps lower : ℚ) ≤ v) (hge : v ≤ steps (lower + 1))
    (other : ℕ) :
    (other ≤ lower ∧ |(steps other : ℚ) - v| = v - steps other ∧
        v - steps lower ≤ v - steps other) ∨
      (lower + 1 ≤ other ∧ |(steps other : ℚ) - v| = steps other - v ∧
        steps (lower + 1) - v ≤ steps other - v) := by
  rcases Nat.lt_or_ge lower other with habove | hbelow
  · right
    have hmono : (steps (lower + 1) : ℚ) ≤ steps other := cast_steps_strictMono.monotone habove
    exact ⟨habove, abs_of_nonneg (by linarith), by linarith⟩
  · left
    have hmono : (steps other : ℚ) ≤ steps lower := cast_steps_strictMono.monotone hbelow
    refine ⟨hbelow, ?_, by linarith⟩
    rw [abs_of_nonpos (by linarith), neg_sub]

theorem isNearest_lower (hle : (steps lower : ℚ) ≤ v) (hge : v ≤ steps (lower + 1))
    (hnear : v - steps lower ≤ steps (lower + 1) - v)
    (heven : v - steps lower = steps (lower + 1) - v → lower % 2 = 0) : IsNearest lower v := by
  have hself : |(steps lower : ℚ) - v| = v - steps lower := by
    rw [abs_of_nonpos (by linarith), neg_sub]
  constructor
  · intro other
    rcases le_or_le_of_between hle hge other with ⟨-, habs, hfar⟩ | ⟨-, habs, hfar⟩ <;>
      rw [hself, habs] <;> linarith
  · intro other hother htie
    rw [hself] at htie
    rcases le_or_le_of_between hle hge other with ⟨hbelow, habs, -⟩ | ⟨-, habs, hfar⟩
    · rw [habs] at htie
      have hsame : (steps other : ℚ) = steps lower := by linarith
      exact absurd (cast_steps_strictMono.injective hsame) hother
    · exact heven (by linarith)

theorem isNearest_upper (hle : (steps lower : ℚ) ≤ v) (hge : v ≤ steps (lower + 1))
    (hnear : steps (lower + 1) - v ≤ v - steps lower)
    (heven : steps (lower + 1) - v = v - steps lower → (lower + 1) % 2 = 0) :
    IsNearest (lower + 1) v := by
  have hself : |(steps (lower + 1) : ℚ) - v| = steps (lower + 1) - v :=
    abs_of_nonneg (by linarith)
  constructor
  · intro other
    rcases le_or_le_of_between hle hge other with ⟨-, habs, hfar⟩ | ⟨-, habs, hfar⟩ <;>
      rw [hself, habs] <;> linarith
  · intro other hother htie
    rw [hself] at htie
    rcases le_or_le_of_between hle hge other with ⟨-, habs, hfar⟩ | ⟨habove, habs, -⟩
    · exact heven (by linarith)
    · rw [habs] at htie
      have hsame : (steps other : ℚ) = steps (lower + 1) := by linarith
      exact absurd (cast_steps_strictMono.injective hsame) hother

end Neighbours

/-! ## The magnitude of a quotient -/

/-- Scaling down leaves 53 bits, or fewer if there is nothing to scale. -/
theorem scaled_bounds (whole : ℕ) :
    whole / 2 ^ (whole.log2 - 52) < 2 ^ 53 ∧
      (whole.log2 - 52 = 0 ∨ 2 ^ 52 ≤ whole / 2 ^ (whole.log2 - 52)) := by
  constructor
  · rw [Nat.div_lt_iff_lt_mul (Nat.two_pow_pos _), ← pow_add]
    exact Nat.lt_log2_self.trans_le (Nat.pow_le_pow_right (by decide) (by omega))
  · by_cases hsmall : whole.log2 - 52 = 0
    · exact .inl hsmall
    · right
      have hne : whole ≠ 0 := by
        rintro rfl
        exact hsmall rfl
      rw [Nat.le_div_iff_mul_le (Nat.two_pow_pos _), ← pow_add]
      exact (Nat.pow_le_pow_right (by decide) (by omega)).trans (Nat.log2_self_le hne)

/-- How far a quotient is from the two multiples of a power of two around it. -/
theorem quotient_sub (numerator : ℕ) {denominator : ℕ} (hpos : 0 < denominator) (times : ℕ) :
    let scaled := denominator * 2 ^ times
    (numerator : ℚ) / denominator - (numerator / scaled * 2 ^ times : ℕ) =
        (numerator % scaled : ℕ) / denominator ∧
      ((numerator / scaled + 1) * 2 ^ times : ℕ) - (numerator : ℚ) / denominator =
        ((scaled : ℚ) - (numerator % scaled : ℕ)) / denominator := by
  intro scaled
  have hdivision : (numerator : ℚ) =
      scaled * (numerator / scaled : ℕ) + (numerator % scaled : ℕ) := by
    exact_mod_cast (Nat.div_add_mod numerator scaled).symm
  have hne : (denominator : ℚ) ≠ 0 := Nat.cast_ne_zero.mpr hpos.ne'
  have hscaled : (scaled : ℚ) = denominator * 2 ^ times := by simp [scaled]
  generalize (numerator / scaled : ℕ) = quotient at *
  generalize (numerator % scaled : ℕ) = rest at *
  rw [hdivision, hscaled]
  push_cast
  constructor <;> field_simp <;> ring

/-- Which of the two multiples is nearer can be told from the remainder alone. -/
theorem rest_le_sub_rest_iff (rest scaled : ℕ) {denominator : ℕ} (hpos : 0 < denominator) :
    ((rest : ℚ) / denominator ≤ (scaled - rest) / denominator ↔ 2 * rest ≤ scaled) ∧
      (((scaled : ℚ) - rest) / denominator ≤ rest / denominator ↔ scaled ≤ 2 * rest) := by
  have hdenominator : (0 : ℚ) < denominator := Nat.cast_pos.mpr hpos
  rw [div_le_div_iff_of_pos_right hdenominator, div_le_div_iff_of_pos_right hdenominator,
    le_sub_iff_add_le, sub_le_iff_le_add, ← two_mul]
  exact ⟨by exact_mod_cast Iff.rfl, by exact_mod_cast Iff.rfl⟩

/-- The magnitude of a quotient of steps is the nearest one, up to infinity. -/
theorem exists_isNearest (numerator : ℕ) {denominator : ℕ} (hpos : 0 < denominator) :
    ∃ m, nearestMagnitude numerator denominator = min m infinite ∧
      IsNearest m (numerator / denominator) := by
  refine ⟨_, rfl, ?_⟩
  simp only [Nat.pow_eq, roundHalfEven]
  generalize htimes : (numerator / denominator).log2 - 52 = times
  obtain ⟨hrow, hscale⟩ := scaled_bounds (numerator / denominator)
  rw [htimes, Nat.div_div_eq_div_mul] at hrow hscale
  obtain ⟨hbelow, habove⟩ := quotient_sub numerator hpos times
  have hrest := Nat.mod_lt numerator (Nat.mul_pos hpos (Nat.two_pow_pos times))
  generalize denominator * 2 ^ times = scaled at *
  generalize numerator / scaled = row at *
  generalize numerator % scaled = rest at *
  have hlower : steps (times * 2 ^ 52 + row) = row * 2 ^ times := steps_doubled hrow.le hscale
  have hupper : steps (times * 2 ^ 52 + row + 1) = (row + 1) * 2 ^ times := by
    rw [Nat.add_assoc]
    exact steps_doubled hrow (hscale.imp_right Nat.le_succ_of_le)
  rw [← hlower] at hbelow
  rw [← hupper] at habove
  have hle : (steps (times * 2 ^ 52 + row) : ℚ) ≤ numerator / denominator := by
    rw [← sub_nonneg, hbelow]
    positivity
  have hge : (numerator : ℚ) / denominator ≤ steps (times * 2 ^ 52 + row + 1) := by
    rw [← sub_nonneg, habove]
    exact div_nonneg (sub_nonneg.mpr (Nat.cast_le.mpr hrest.le)) denominator.cast_nonneg
  obtain ⟨hnearBelow, hnearAbove⟩ := rest_le_sub_rest_iff rest scaled hpos
  rw [← hbelow, ← habove] at hnearBelow hnearAbove
  split
  next hdown =>
    apply isNearest_lower hle hge (hnearBelow.mpr (by omega))
    intro htie
    have hhalf := hnearAbove.mp htie.ge
    omega
  next hup =>
    rw [← Nat.add_assoc]
    apply isNearest_upper hle hge (hnearAbove.mpr (by omega))
    intro htie
    have hhalf := hnearBelow.mp htie.ge
    omega

/-! ## Halfway between two numbers -/

/-- What is no nearer to the lesser of two numbers is not below the middle of them. -/
theorem add_le_of_abs_sub_le {a b v : ℚ} (hlt : a < b) (h : |b - v| ≤ |a - v|) : a + b ≤ 2 * v := by
  by_contra hbelow
  have hnearer : |a - v| < b - v := abs_lt.mpr ⟨by linarith, by linarith⟩
  have hfar := le_abs_self (b - v)
  linarith

/-- What is no nearer to the greater of two numbers is not above the middle of them. -/
theorem le_add_of_abs_sub_le {a b v : ℚ} (hlt : a < b) (h : |a - v| ≤ |b - v|) : 2 * v ≤ a + b := by
  by_contra habove
  have hnearer : |b - v| < v - a := abs_lt.mpr ⟨by linarith, by linarith⟩
  have hfar := neg_le_abs (a - v)
  linarith

theorem abs_sub_eq_of_add_eq {a b v : ℚ} (h : a + b = 2 * v) : |a - v| = |b - v| := by
  have hopposite : a - v = -(b - v) := by linarith
  rw [hopposite, abs_neg]

/-- Rounding goes beyond a magnitude exactly from the middle between it and the next
one on, the middle itself belonging to the even one. -/
theorem IsNearest.lt_iff {m : ℕ} {v : ℚ} (h : IsNearest m v) (k : ℕ) :
    k < m ↔ (steps k + steps (k + 1) : ℚ) < 2 * v ∨
      (steps k + steps (k + 1) : ℚ) = 2 * v ∧ k % 2 = 1 := by
  have hcast {i j : ℕ} (hij : i < j) : (steps i : ℚ) < steps j := cast_steps_strictMono hij
  constructor
  · intro hlt
    have hmiddle := add_le_of_abs_sub_le (hcast hlt) (h.nearest k)
    rcases Nat.lt_or_eq_of_le hlt with hbeyond | hnext
    · exact .inl (by linarith [hcast hbeyond])
    · subst hnext
      refine (lt_or_eq_of_le hmiddle).imp_right fun htie => ⟨htie, ?_⟩
      have heven := h.even k (Nat.ne_of_lt hlt) (abs_sub_eq_of_add_eq htie)
      omega
  · intro hmiddle
    by_contra hle
    have hnear := le_add_of_abs_sub_le (hcast (by omega : m < k + 1)) (h.nearest (k + 1))
    have hmono : (steps m : ℚ) ≤ steps k :=
      cast_steps_strictMono.monotone (Nat.le_of_not_lt hle)
    rcases hmiddle with habove | ⟨htie, hodd⟩
    · linarith
    · have hsame : (steps m : ℚ) = steps k := by linarith
      obtain rfl := cast_steps_strictMono.injective hsame
      have heven := h.even (m + 1) (Nat.succ_ne_self m)
        (abs_sub_eq_of_add_eq (by linarith : (steps (m + 1) : ℚ) + steps m = 2 * v))
      omega

/-- Half a step is the greatest that is rounded to nothing. -/
theorem IsNearest.eq_zero_iff {m : ℕ} {v : ℚ} (h : IsNearest m v) : m = 0 ↔ v ≤ 1 / 2 := by
  have hpos := h.lt_iff 0
  rw [steps_zero, steps_one] at hpos
  rw [← Nat.le_zero, ← Nat.not_lt, hpos, ← not_lt, not_iff_not]
  constructor
  · rintro (hlt | ⟨-, hodd⟩)
    · push_cast at hlt
      linarith
    · cases hodd
  · intro hlt
    left
    push_cast
    linarith

/-- Half a step of the greatest binade, on top of the greatest finite number, is the
least that is rounded beyond it. -/
theorem IsNearest.infinite_le_iff {m : ℕ} {v : ℚ} (h : IsNearest m v) :
    infinite ≤ m ↔ 2 ^ 2098 - 2 ^ 2044 ≤ v := by
  have hgreatest : infinite - 1 = 2045 * 2 ^ 52 + (2 ^ 53 - 1) := by decide
  have hlast : steps (infinite - 1) = (2 ^ 53 - 1) * 2 ^ 2045 := by
    rw [hgreatest]
    exact steps_doubled (by decide) (.inr (by decide))
  have hbeyond : steps (infinite - 1 + 1) = 2 ^ 53 * 2 ^ 2045 := by
    have hcarry : infinite - 1 + 1 = 2045 * 2 ^ 52 + 2 ^ 53 := by decide
    rw [hcarry]
    exact steps_doubled (by decide) (.inr (by decide))
  have hsum : (steps (infinite - 1) + steps (infinite - 1 + 1) : ℚ) =
      2 * (2 ^ 2098 - 2 ^ 2044) := by
    have hrow : ((2 ^ 53 - 1 : ℕ) : ℚ) = 2 ^ 53 - 1 := by norm_num
    have hpower : (2 : ℚ) ^ 2045 = 2 * 2 ^ 2044 := pow_succ' 2 2044
    have hsplit : (2 : ℚ) ^ 2098 = 2 ^ 54 * 2 ^ 2044 := pow_add 2 54 2044
    rw [hlast, hbeyond, Nat.cast_mul, Nat.cast_mul, hrow, Nat.cast_pow, Nat.cast_pow,
      Nat.cast_ofNat, hpower, hsplit]
    generalize (2 : ℚ) ^ 2044 = power
    ring
  have hodd : (infinite - 1) % 2 = 1 := by decide
  have hinfinite : infinite ≤ m ↔ infinite - 1 < m := by
    have hpos : 0 < infinite := by decide
    omega
  rw [hinfinite, h.lt_iff, hsum, mul_lt_mul_iff_right₀ two_pos, mul_right_inj' two_ne_zero,
    and_iff_left hodd, ← le_iff_lt_or_eq]

/-! ## Rounded numbers -/

theorem value_of_positive {x : Binary64} (h : x.negative = false) :
    x.value = steps x.magnitude / 2 ^ 1074 := by
  rw [value_eq, h]
  simp

/-- A sign takes a number no nearer to one that has none. -/
theorem abs_steps_sub_le (y : Binary64) {q : ℚ} (hq : 0 ≤ q) :
    |(steps y.magnitude : ℚ) / 2 ^ 1074 - q| ≤ |y.value - q| := by
  have hnonneg : (0 : ℚ) ≤ steps y.magnitude / 2 ^ 1074 := by positivity
  rw [value_eq]
  cases y.negative with
  | false => simp
  | true =>
      generalize (steps y.magnitude : ℚ) / 2 ^ 1074 = a at *
      have hfar : |(if true then (-1 : ℚ) else 1) * a - q| = a + q := by
        rw [if_pos rfl, neg_one_mul, ← abs_neg, neg_sub, sub_neg_eq_add, add_comm]
        exact abs_of_nonneg (by linarith)
      rw [hfar]
      exact abs_le.mpr ⟨by linarith, by linarith⟩

/-- If a number and its opposite are as near to a number without a sign as zero is, they
are zero. -/
theorem magnitude_eq_zero_of_opposite {x y : Binary64} {q : ℚ} (hpositive : x.negative = false)
    (hsame : y.magnitude = x.magnitude) (hne : y.value ≠ x.value)
    (htie : |y.value - q| = |x.value - q|) (hzero : |x.value - q| ≤ q) : x.magnitude = 0 := by
  have hy : y.value = -x.value := by
    rw [value_of_positive hpositive, value_eq, hsame]
    cases hsign : y.negative with
    | true => simp
    | false =>
        refine absurd ?_ hne
        rw [value_of_positive hpositive, value_of_positive hsign, hsame]
  rw [← htie, hy, ← neg_add', abs_neg] at hzero
  have hvalue : x.value ≤ 0 := by linarith [le_abs_self (x.value + q)]
  rw [value_of_positive hpositive, div_le_iff₀ (by positivity), zero_mul, ← Nat.cast_zero,
    ← steps_zero] at hvalue
  exact Nat.le_zero.mp (cast_steps_strictMono.le_iff_le.mp hvalue)

/-- The nearest magnitude, up to infinity, is that of the rounded number. -/
theorem isRounded_of_isNearest {x : Binary64} {q : ℚ} {m : ℕ} (hpositive : x.negative = false)
    (hq : 0 ≤ q) (h : IsNearest m (q * 2 ^ 1074)) (hmagnitude : x.magnitude = min m infinite) :
    x.IsRounded q := by
  have hscale (other : ℕ) :
      |(steps other : ℚ) / 2 ^ 1074 - q| = |(steps other : ℚ) - q * 2 ^ 1074| / 2 ^ 1074 := by
    have hpos : (0 : ℚ) < 2 ^ 1074 := by positivity
    rw [← abs_of_pos hpos, ← abs_div, abs_of_pos hpos, sub_div, mul_div_cancel_right₀ _ hpos.ne']
  have hfinite (hx : x.isFinite = true) : x.magnitude = m := by
    have hlt : x.magnitude < infinite := of_decide_eq_true hx
    omega
  have hnearest (hx : x.isFinite = true) (other : ℕ) :
      |x.value - q| ≤ |(steps other : ℚ) / 2 ^ 1074 - q| := by
    rw [value_of_positive hpositive, hfinite hx, hscale, hscale]
    exact div_le_div_of_nonneg_right (h.nearest other) (by positivity)
  constructor
  · exact hpositive
  · exact decide_eq_false (by omega)
  · intro hx y _
    exact (hnearest hx y.magnitude).trans (abs_steps_sub_le y hq)
  · intro hx y _ hne htie
    rw [significand_mod_two, hfinite hx]
    have hsteps : |(steps y.magnitude : ℚ) / 2 ^ 1074 - q| = |x.value - q| :=
      le_antisymm ((abs_steps_sub_le y hq).trans_eq htie) (hnearest hx y.magnitude)
    by_cases hsame : y.magnitude = m
    · have hzero := hnearest hx 0
      rw [steps_zero, Nat.cast_zero, zero_div, zero_sub, abs_neg, abs_of_nonneg hq] at hzero
      rw [← hfinite hx] at hsame ⊢
      rw [magnitude_eq_zero_of_opposite hpositive hsame hne htie hzero]
    · apply h.even y.magnitude hsame
      rw [value_of_positive hpositive, hfinite hx, hscale, hscale] at hsteps
      exact (div_left_inj' (by positivity)).mp hsteps
  · have hscaled : (2 : ℚ) ^ 2098 - 2 ^ 2044 = (2 ^ 1024 - 2 ^ 970) * 2 ^ 1074 := by
      rw [sub_mul, ← pow_add, ← pow_add]
    rw [hmagnitude, min_eq_right_iff, h.infinite_le_iff, hscaled,
      mul_le_mul_iff_left₀ (by positivity)]
  · have hzero : min m infinite = 0 ↔ m = 0 := by
      have hpos : 0 < infinite := by decide
      omega
    rw [hmagnitude, hzero, h.eq_zero_iff, le_div_iff₀ two_pos, mul_assoc, ← pow_succ,
      le_div_iff₀ (by positivity)]

section Order

variable {x y : Binary64} {q q' : ℚ}

theorem magnitude_le_infinite (h : x.isNaN = false) : x.magnitude ≤ infinite :=
  Nat.le_of_not_lt (of_decide_eq_false h)

/-- A greater number is not rounded to a lesser one. -/
theorem IsRounded.magnitude_le (hx : x.IsRounded q) (hy : y.IsRounded q') (hq : q ≤ q') :
    x.magnitude ≤ y.magnitude := by
  by_contra hgreater
  have hlt : y.magnitude < x.magnitude := Nat.lt_of_not_le hgreater
  have hbound := magnitude_le_infinite hx.notNaN
  have hyfinite : y.isFinite = true := decide_eq_true (by omega)
  have hxfinite : x.isFinite = true := by
    apply decide_eq_true (Nat.lt_of_le_of_ne hbound _)
    intro hinfinite
    have hyinfinite := hy.infinite_iff.mpr ((hx.infinite_iff.mp hinfinite).trans hq)
    omega
  have hless {a b : Binary64} (ha : a.negative = false) (hb : b.negative = false)
      (hab : a.magnitude < b.magnitude) : a.value < b.value := by
    rw [value_of_positive ha, value_of_positive hb, div_lt_div_iff_of_pos_right (by positivity)]
    exact cast_steps_strictMono hab
  have hvalues := hless hy.positive hx.positive hlt
  -- Both roundings leave no room but for `q` and `q'` in the middle of the two.
  have hbelow := add_le_of_abs_sub_le hvalues (hx.nearest hxfinite y hyfinite)
  have habove := le_add_of_abs_sub_le hvalues (hy.nearest hyfinite x hxfinite)
  obtain rfl : q = q' := by linarith
  have htie : |y.value - q| = |x.value - q| := abs_sub_eq_of_add_eq (by linarith)
  have hxeven := hx.even hxfinite y hyfinite hvalues.ne htie
  have hyeven := hy.even hyfinite x hxfinite hvalues.ne' htie.symm
  rw [significand_mod_two] at hxeven hyeven
  -- Both are even, so a number is between them, and nearer.
  let z : Binary64 := ⟨false, y.magnitude + 1, by have := x.magnitude_lt; omega⟩
  have hzfinite : z.isFinite = true := decide_eq_true (show y.magnitude + 1 < infinite by omega)
  have hyz : y.value < z.value := hless hy.positive rfl (Nat.lt_succ_self _)
  have hgap : y.magnitude + 1 < x.magnitude := by omega
  have hzx : z.value < x.value := hless rfl hx.positive hgap
  have hfar := add_le_of_abs_sub_le hzx (hx.nearest hxfinite z hzfinite)
  linarith

/-- A number is rounded in one way only. -/
theorem IsRounded.unique (hx : x.IsRounded q) (hy : y.IsRounded q) : x = y := by
  have hmagnitude := Nat.le_antisymm (hx.magnitude_le hy le_rfl) (hy.magnitude_le hx le_rfl)
  obtain ⟨negative, magnitude, hlt⟩ := x
  obtain ⟨negative', magnitude', hlt'⟩ := y
  obtain rfl : negative = false := hx.positive
  obtain rfl : negative' = false := hy.positive
  obtain rfl : magnitude = magnitude' := hmagnitude
  rfl

theorem IsRounded.extended_le (hx : x.IsRounded q) (hy : y.IsRounded q') (hq : q ≤ q') :
    x.extended ≤ y.extended := by
  have hle := hx.magnitude_le hy hq
  unfold extended
  by_cases hyfinite : y.isFinite = true
  · have hxfinite : x.isFinite = true :=
      decide_eq_true (Nat.lt_of_le_of_lt hle (of_decide_eq_true hyfinite))
    rw [if_pos hxfinite, if_pos hyfinite, WithTop.coe_le_coe, value_of_positive hx.positive,
      value_of_positive hy.positive]
    have hsteps : (steps x.magnitude : ℚ) ≤ steps y.magnitude :=
      cast_steps_strictMono.monotone hle
    exact div_le_div_of_nonneg_right hsteps (by positivity)
  · rw [if_neg hyfinite]
    exact le_top

/-- A number of the format is rounded to itself. -/
theorem isRounded_value (hpositive : x.negative = false) (hfinite : x.isFinite = true) :
    x.IsRounded x.value := by
  have hlt : x.magnitude < infinite := of_decide_eq_true hfinite
  have hvalue := value_of_positive hpositive
  have hsteps : x.value * 2 ^ 1074 = steps x.magnitude := by
    rw [hvalue, div_mul_cancel₀ _ (by positivity)]
  apply isRounded_of_isNearest (m := x.magnitude) hpositive (by rw [hvalue]; positivity)
  · rw [hsteps]
    constructor
    · intro other
      rw [sub_self, abs_zero]
      exact abs_nonneg _
    · intro other hother htie
      rw [sub_self, abs_zero, abs_eq_zero, sub_eq_zero] at htie
      exact absurd (cast_steps_strictMono.injective htie) hother
  · omega

end Order

end Binary64

/-! ## Decimals -/

namespace Decimal

/-- The rational number that a decimal is. -/
def value (d : Decimal) : ℚ := d.digits * 10 ^ d.exponent

theorem value_nonneg (d : Decimal) : 0 ≤ d.value := by
  unfold value
  positivity

/-- A decimal is its quotient of natural numbers. -/
theorem ratio_eq_value (d : Decimal) : (d.ratio.1 : ℚ) / d.ratio.2 = d.value := by
  have hpower : (10 : ℚ) ^ d.exponent = 10 ^ d.exponent.toNat / 10 ^ (-d.exponent).toNat := by
    rw [← zpow_natCast, ← zpow_natCast, ← zpow_sub₀ (by norm_num), Int.toNat_sub_toNat_neg]
  rw [value, hpower, ratio, Nat.pow_eq, Nat.pow_eq]
  push_cast
  ring

end Decimal

namespace Binary64

/-- A decimal is rounded correctly. -/
theorem isRounded_ofDecimal (d : Decimal) : (ofDecimal d).IsRounded d.value := by
  have hexists : ∃ m, (ofDecimal d).magnitude = min m infinite ∧ IsNearest m _ :=
    exists_isNearest _ d.ratio_snd_pos
  obtain ⟨m, hmagnitude, hnearest⟩ := hexists
  rw [Nat.cast_mul, mul_div_right_comm, d.ratio_eq_value] at hnearest
  simp only [Nat.pow_eq, Nat.cast_pow, Nat.cast_ofNat] at hnearest
  exact isRounded_of_isNearest rfl d.value_nonneg hnearest hmagnitude

end Binary64

end Lox
