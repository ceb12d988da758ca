import Mathlib.Tactic.Ring
import FollowerSync.Duration

set_option autoImplicit false

namespace FollowerSync
namespace Numeric

theorem roundHalfEven_mul_le (num den : Nat) : roundHalfEven num den * den ≤ 2 * num := by
  rcases Nat.eq_zero_or_pos den with rfl | pos
  · exact Nat.zero_le _
  · have near := (roundHalfEven_near num den pos).2
    rcases Nat.eq_zero_or_pos (roundHalfEven num den) with zero | some
    · rw [zero, Nat.zero_mul]
      exact Nat.zero_le _
    · have once := Nat.le_mul_of_pos_left den some
      omega

namespace Binary64

theorem one_eq_two_pow : ∃ k, k = 1074 ∧ one = 2 ^ k := by
  refine ⟨1074, rfl, ?_⟩
  unfold one
  generalize 1074 = k
  exact Nat.one_shiftLeft k

theorem one_pos : 0 < one := by
  obtain ⟨k, -, same⟩ := one_eq_two_pow
  exact same ▸ Nat.two_pow_pos k

/-- A magnitude put together from a shift and the significant bits, which may carry. -/
theorem unitsOf_shifted {shift bits : Nat} (significant : shift = 0 ∨ stride ≤ bits)
    (carry : bits ≤ 2 * stride) : unitsOf (shift * stride + bits) = bits * 2 ^ shift := by
  have pos : 0 < stride := by decide
  have split : shift * stride + bits = stride * shift + bits := by rw [Nat.mul_comm]
  unfold unitsOf
  dsimp only
  rw [split, Nat.mul_add_div pos, Nat.mul_add_mod]
  rcases Nat.lt_or_ge bits stride with subnormal | normal
  · obtain rfl : shift = 0 := significant.resolve_right (Nat.not_le.mpr subnormal)
    simp [Nat.div_eq_of_lt subnormal, Nat.mod_eq_of_lt subnormal]
  · obtain ⟨rest, rfl⟩ := Nat.exists_eq_add_of_le normal
    rw [Nat.add_div_left _ pos, Nat.add_mod_left, ← Nat.add_assoc, if_neg (Nat.succ_ne_zero _),
      Nat.add_sub_cancel, Nat.shiftLeft_eq]
    rcases Nat.lt_or_ge rest stride with exact | carried
    · rw [Nat.div_eq_of_lt exact, Nat.mod_eq_of_lt exact, Nat.add_zero]
    · obtain rfl : rest = stride := by omega
      rw [Nat.div_self pos, Nat.mod_self]
      ring

theorem significant_bits (num den : Nat) :
    let shift := (num / den).log2 - 52
    let bits := roundHalfEven num (den <<< shift)
    (shift = 0 ∨ stride ≤ bits) ∧ bits ≤ 2 * stride := by
  intro shift bits
  have whole : num / (den <<< shift) = num / den / 2 ^ shift := by
    rw [Nat.shiftLeft_eq, Nat.div_div_eq_div_mul]
  have low := le_roundHalfEven num (den <<< shift)
  have high := roundHalfEven_le num (den <<< shift)
  rw [whole] at low high
  refine ⟨?enough, ?few⟩
  case enough =>
    rcases Nat.eq_zero_or_pos shift with zero | shifted
    · exact .inl zero
    · have nonzero : num / den ≠ 0 := by
        intro zero
        simp [shift, zero] at shifted
      refine .inr (Nat.le_trans ?_ low)
      change 2 ^ 52 ≤ _
      rw [Nat.le_div_iff_mul_le (Nat.two_pow_pos _), ← Nat.pow_add]
      exact (Nat.pow_le_pow_right Nat.two_pos (by omega)).trans (Nat.log2_self_le nonzero)
  case few =>
    have kept : num / den / 2 ^ shift < 2 ^ 53 := by
      rw [Nat.div_lt_iff_lt_mul (Nat.two_pow_pos _), ← Nat.pow_add]
      exact Nat.lt_log2_self.trans_le (Nat.pow_le_pow_right Nat.two_pos (by omega))
    change bits ≤ 2 ^ 53
    omega

structure AtMost (x : Binary64) (bound : Nat) : Prop where
  positive : x.negative = false
  finite : x.magnitude < infiniteMagnitude
  units_le : x.units ≤ bound

section
variable {x y : Binary64} {a b bound : Nat}

theorem AtMost.not_nan (small : x.AtMost bound) : x.isNaN = false :=
  decide_eq_false (Nat.not_lt.mpr small.finite.le)

theorem AtMost.not_infinite (small : x.AtMost bound) : x.isInfinite = false :=
  decide_eq_false small.finite.ne

theorem compose_magnitude {magnitude : Nat} (fits : magnitude < infiniteMagnitude) :
    (compose false magnitude).magnitude = magnitude ∧
      (compose false magnitude).negative = false := by
  have below : magnitude < signWeight := fits.trans (by decide)
  have value : (compose false magnitude).bits.toNat = magnitude :=
    UInt64.toNat_ofNat_of_lt (below.trans (by decide))
  refine ⟨?_, ?_⟩
  · rw [Binary64.magnitude, value, Nat.mod_eq_of_lt below]
  · rw [negative, value]
    exact decide_eq_false (Nat.not_le.mpr below)

theorem shift_lt {n : Nat} (moderate : n ≤ 2 ^ 128 * one) : n.log2 - 52 < 2000 := by
  obtain ⟨k, isExponent, same⟩ := one_eq_two_pow
  rcases Nat.eq_zero_or_pos n with rfl | pos
  · simp
  · have bounded : n < 2 ^ (129 + k) := by
      rw [same] at moderate
      have := Nat.two_pow_pos k
      rw [Nat.pow_add]
      omega
    have := (Nat.log2_lt (Nat.ne_of_gt pos)).mpr bounded
    omega

theorem atMost_ofRatio {num den : Nat} (pos : 0 < den) (le : 2 * (num * one) ≤ bound * den)
    (moderate : bound ≤ 2 ^ 128 * one) : (ofRatio false num den).AtMost bound := by
  let shift := (num * one / den).log2 - 52
  let bits := roundHalfEven (num * one) (den <<< shift)
  obtain ⟨significant, carry⟩ : (shift = 0 ∨ stride ≤ bits) ∧ bits ≤ 2 * stride :=
    significant_bits (num * one) den
  have quotient : num * one / den ≤ bound := by
    rw [Nat.div_le_iff_le_mul pos]
    omega
  have fits : shift * stride + bits < infiniteMagnitude := by
    have := shift_lt (quotient.trans moderate)
    have : shift < 2000 := this
    unfold infiniteMagnitude
    have : shift * stride ≤ 2000 * stride := Nat.mul_le_mul_right stride this.le
    have : 0 < stride := by decide
    omega
  have nearest : nearestMagnitude num den = shift * stride + bits := Nat.min_eq_left fits.le
  obtain ⟨magnitude, positive⟩ := compose_magnitude fits
  refine ⟨?_, ?_, ?_⟩
  · rw [ofRatio, nearest, positive]
  · rw [ofRatio, nearest, magnitude]
    exact fits
  · rw [ofRatio, nearest, units, magnitude, unitsOf_shifted significant carry]
    refine Nat.le_of_mul_le_mul_right ?_ pos
    calc bits * 2 ^ shift * den = bits * (den <<< shift) := by
          rw [Nat.shiftLeft_eq, Nat.mul_assoc, Nat.mul_comm den]
      _ ≤ 2 * (num * one) := roundHalfEven_mul_le _ _
      _ ≤ bound * den := le

theorem AtMost.add_eq (first : x.AtMost a) (second : y.AtMost b) :
    x.add y = ofRatio false (x.units + y.units) one := by
  have sum : x.signedUnits + y.signedUnits = ((x.units + y.units : Nat) : Int) := by
    simp [signedUnits, first.positive, second.positive]
  have nonneg : ¬((x.units + y.units : Nat) : Int) < 0 := by omega
  unfold Binary64.add
  simp only [first.not_nan, second.not_nan, first.not_infinite, second.not_infinite, sum,
    first.positive, second.positive, decide_eq_false nonneg, Int.natAbs_natCast, Bool.or_self,
    Bool.and_self, ite_self, Bool.false_eq_true, if_false]

theorem AtMost.mul_eq (first : x.AtMost a) (second : y.AtMost b) :
    x.mul y = ofRatio false (x.units * y.units) (one * one) := by
  unfold Binary64.mul
  simp only [first.not_nan, second.not_nan, first.not_infinite, second.not_infinite,
    first.positive, second.positive, Bool.or_self, Bool.false_eq_true, if_false,
    bne_self_eq_false]

theorem AtMost.add (first : x.AtMost a) (second : y.AtMost b) (le : 2 * (a + b) ≤ bound)
    (moderate : bound ≤ 2 ^ 128 * one) : (x.add y).AtMost bound := by
  rw [first.add_eq second]
  refine atMost_ofRatio one_pos ?_ moderate
  rw [← Nat.mul_assoc]
  have := first.units_le
  have := second.units_le
  exact Nat.mul_le_mul_right one (by omega)

theorem AtMost.mul (first : x.AtMost a) (second : y.AtMost b) (le : 2 * (a * b) ≤ bound * one)
    (moderate : bound ≤ 2 ^ 128 * one) : (x.mul y).AtMost bound := by
  rw [first.mul_eq second]
  refine atMost_ofRatio (Nat.mul_pos one_pos one_pos) ?_ moderate
  calc 2 * (x.units * y.units * one) = 2 * (x.units * y.units) * one :=
        (Nat.mul_assoc ..).symm
    _ ≤ 2 * (a * b) * one := Nat.mul_le_mul_right one
        (Nat.mul_le_mul_left 2 (Nat.mul_le_mul first.units_le second.units_le))
    _ ≤ bound * one * one := Nat.mul_le_mul_right one le
    _ = bound * (one * one) := Nat.mul_assoc ..

end
end Binary64
end Numeric

namespace Duration
open Numeric

theorem toSeconds_atMost (d : Duration) : d.toSeconds.AtMost ((2 ^ 66 + 4) * Binary64.one) := by
  have pos := Binary64.one_pos
  have whole : (Binary64.ofNat d.secs).AtMost (2 ^ 65 * Binary64.one) := by
    refine Binary64.atMost_ofRatio Nat.one_pos ?_ (by omega)
    have := Nat.mul_le_mul_right Binary64.one d.secs_lt.le
    unfold UInt64.size at this
    omega
  have fraction :
      (Binary64.ofRatio false d.subsecNanos nanosPerSecond).AtMost (2 * Binary64.one) := by
    refine Binary64.atMost_ofRatio (by decide) ?_ (by omega)
    calc 2 * (d.subsecNanos * Binary64.one) ≤ 2 * (nanosPerSecond * Binary64.one) :=
          Nat.mul_le_mul_left 2 (Nat.mul_le_mul_right _ d.subsecNanos_lt.le)
      _ = 2 * Binary64.one * nanosPerSecond := by ring
  exact whole.add fraction (by omega) (by omega)

theorem ofSeconds?_isSome {x : Binary64} {bound : Nat} (small : x.AtMost bound)
    (inRange : bound < (UInt64.size - 1) * Binary64.one) : (ofSeconds? x).isSome := by
  have units_lt := Nat.lt_of_le_of_lt small.units_le inRange
  have rounded : roundHalfEven (x.units * nanosPerSecond) Binary64.one <
      UInt64.size * nanosPerSecond := by
    have le := roundHalfEven_le (x.units * nanosPerSecond) Binary64.one
    have quotient : x.units * nanosPerSecond / Binary64.one <
        (UInt64.size - 1) * nanosPerSecond := by
      rw [Nat.div_lt_iff_lt_mul Binary64.one_pos, Nat.mul_right_comm]
      exact Nat.mul_lt_mul_of_pos_right units_lt (by decide)
    unfold UInt64.size nanosPerSecond at *
    omega
  have below : ¬UInt64.size * Binary64.one ≤ x.units := by
    unfold UInt64.size at *
    omega
  simp [ofSeconds?, ofNanos?, small.not_nan, small.not_infinite, small.positive, below, rounded]

theorem scale?_tenth_isSome (d : Duration) : (d.scale? (.ofRatio false 1 10)).isSome := by
  have pos := Binary64.one_pos
  have tenth : (Binary64.ofRatio false 1 10).AtMost (Binary64.one / 9) :=
    ⟨by decide +kernel, by decide +kernel, by decide +kernel⟩
  let bound := (2 ^ 67 + 8) * (Binary64.one / 9)
  have product : ((Binary64.ofRatio false 1 10).mul d.toSeconds).AtMost bound := by
    refine tenth.mul d.toSeconds_atMost ?_ (by omega)
    exact Nat.le_of_eq (by ring)
  refine ofSeconds?_isSome product ?_
  unfold UInt64.size
  omega

end Duration
end FollowerSync
