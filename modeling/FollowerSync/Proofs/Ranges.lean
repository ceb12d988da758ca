import FollowerSync.Config.Settings
import FollowerSync.Proofs.Roundings

set_option autoImplicit false

namespace FollowerSync
namespace Numeric

theorem roundHalfEven_le_of_le {num den k : Nat} (pos : 0 < den) (le : num ≤ k * den) :
    roundHalfEven num den ≤ k := by
  have quotient : num / den ≤ k := Nat.div_le_of_le_mul (Nat.mul_comm k den ▸ le)
  rcases Nat.lt_or_eq_of_le quotient with less | same
  · have := roundHalfEven_le num den
    omega
  · have floor := Nat.div_mul_le_self num den
    rw [same] at floor
    rw [Nat.le_antisymm le floor, roundHalfEven_mul k den pos]

theorem roundHalfEven_mul_right (num den : Nat) {c : Nat} (pos : 0 < c) :
    roundHalfEven (num * c) (den * c) = roundHalfEven num den := by
  have less (a b : Nat) : a * c < b * c ↔ a < b := Nat.mul_lt_mul_right pos
  unfold roundHalfEven
  simp only [Nat.mul_div_mul_right _ _ pos, Nat.mul_mod_mul_right, ← Nat.mul_assoc, less]

namespace Binary64

theorem exists_shifted (m : Nat) : ∃ shift bits, m = shift * stride + bits ∧
    (shift = 0 ∨ stride ≤ bits) ∧ bits < 2 * stride := by
  have pos : 0 < stride := by decide
  have low := Nat.mod_lt m pos
  have whole := Nat.div_add_mod m stride
  by_cases subnormal : m < stride
  · exact ⟨0, m, by omega, .inl rfl, by omega⟩
  · have scale : 0 < m / stride := Nat.div_pos (Nat.not_lt.mp subnormal) pos
    obtain ⟨shift, isScale⟩ := Nat.exists_eq_succ_of_ne_zero (Nat.ne_of_gt scale)
    refine ⟨shift, stride + m % stride, ?_, .inr (by omega), by omega⟩
    rw [isScale, Nat.mul_succ, Nat.mul_comm] at whole
    omega

section
variable {num den m m' : Nat}

theorem nearestMagnitude_le (pos : 0 < den) (le : num * one ≤ unitsOf m * den) :
    nearestMagnitude num den ≤ m := by
  obtain ⟨shift, bits, rfl, significant, few⟩ := exists_shifted m
  rw [unitsOf_shifted significant few.le] at le
  have quotient : num * one / den ≤ bits * 2 ^ shift := by
    rw [Nat.mul_comm _ den] at le
    exact Nat.div_le_of_le_mul le
  have carry := (significant_bits (num * one) den).2
  have shift_le : (num * one / den).log2 - 52 ≤ shift := by
    by_cases zero : num * one / den = 0
    · simp [zero]
    · have size : bits * 2 ^ shift < 2 ^ (53 + shift) := by
        rw [Nat.pow_add]
        exact Nat.mul_lt_mul_of_pos_right few (Nat.two_pow_pos shift)
      have := (Nat.log2_lt zero).mpr (quotient.trans_lt size)
      omega
  refine (Nat.min_le_left _ _).trans ?_
  -- With a smaller shift the bits may still carry, but only as far as the next stride.
  rcases Nat.lt_or_eq_of_le shift_le with less | same
  · have := Nat.mul_le_mul_right stride (Nat.succ_le_of_lt less)
    rw [Nat.succ_mul] at this
    have : stride ≤ bits := significant.resolve_left (by omega)
    omega
  · rw [same] at carry ⊢
    refine Nat.add_le_add_left (roundHalfEven_le_of_le ?_ ?_) _
    · rw [Nat.shiftLeft_eq]
      exact Nat.mul_pos pos (Nat.two_pow_pos shift)
    · rw [Nat.shiftLeft_eq, Nat.mul_left_comm, Nat.mul_comm den]
      exact le

theorem le_nearestMagnitude (pos : 0 < den) (finite : m ≤ infiniteMagnitude)
    (le : unitsOf m * den ≤ num * one) : m ≤ nearestMagnitude num den := by
  obtain ⟨shift, bits, rfl, significant, few⟩ := exists_shifted m
  rw [unitsOf_shifted significant few.le] at le
  have quotient : bits * 2 ^ shift ≤ num * one / den := (Nat.le_div_iff_mul_le pos).mpr le
  have enough := (significant_bits (num * one) den).1
  have shift_le : shift ≤ (num * one / den).log2 - 52 := by
    rcases significant with rfl | normal
    · exact Nat.zero_le _
    · have size : 2 ^ (52 + shift) ≤ num * one / den := by
        rw [Nat.pow_add]
        exact (Nat.mul_le_mul_right _ normal).trans quotient
      have nonzero : num * one / den ≠ 0 := by
        have := Nat.two_pow_pos (52 + shift)
        omega
      have := (Nat.le_log2 nonzero).mpr size
      omega
  refine Nat.le_min.mpr ⟨?_, finite⟩
  rcases Nat.lt_or_eq_of_le shift_le with less | same
  · have := Nat.mul_le_mul_right stride (Nat.succ_le_of_lt less)
    rw [Nat.succ_mul] at this
    have := enough.resolve_left (by omega)
    omega
  · rw [← same]
    refine Nat.add_le_add_left ((le_roundHalfEven _ _).trans' ?_) _
    rw [Nat.shiftLeft_eq, ← Nat.div_div_eq_div_mul]
    exact (Nat.le_div_iff_mul_le (Nat.two_pow_pos shift)).mpr quotient

theorem nearestMagnitude_eq (pos : 0 < den) (finite : m ≤ infiniteMagnitude)
    (same : num * one = unitsOf m * den) : nearestMagnitude num den = m :=
  Nat.le_antisymm (nearestMagnitude_le pos same.le) (le_nearestMagnitude pos finite same.ge)

theorem unitsOf_le_unitsOf (le : m ≤ m') (finite : m' ≤ infiniteMagnitude) :
    unitsOf m ≤ unitsOf m' := by
  by_contra less
  have kept : nearestMagnitude (unitsOf m) one = m :=
    nearestMagnitude_eq one_pos (le.trans finite) rfl
  have bounded : m' ≤ nearestMagnitude (unitsOf m) one :=
    le_nearestMagnitude one_pos finite (Nat.mul_le_mul_right one (Nat.le_of_not_le less))
  rw [kept] at bounded
  exact less (Nat.le_antisymm le bounded ▸ Nat.le_refl _)

end

def oneMagnitude : Nat := 1023 * stride

def limitMagnitude : Nat := 1087 * stride

theorem limitMagnitude_lt : limitMagnitude < infiniteMagnitude := by decide

theorem unitsOf_near_one : unitsOf oneMagnitude = one ∧
    unitsOf (oneMagnitude - 1) * UInt64.size = (UInt64.size - 2048) * one := by decide +kernel

theorem unitsOf_add_strides {m : Nat} (normal : stride ≤ m) (k : Nat) :
    unitsOf (m + k * stride) = unitsOf m * 2 ^ k := by
  obtain ⟨shift, bits, rfl, significant, few⟩ := exists_shifted m
  have enough : stride ≤ bits := by
    rcases significant with rfl | enough
    · omega
    · exact enough
  have moved : shift * stride + bits + k * stride = (shift + k) * stride + bits := by
    rw [Nat.add_mul]
    omega
  rw [moved, unitsOf_shifted (.inr enough) few.le, unitsOf_shifted significant few.le,
    Nat.pow_add, Nat.mul_assoc]

theorem unitsOf_half_limit : unitsOf (1086 * stride) = 2 ^ 63 * one := by
  have moved : 1086 * stride = oneMagnitude + 63 * stride := by decide
  rw [moved, unitsOf_add_strides (by decide), unitsOf_near_one.1, Nat.mul_comm]

theorem unitsOf_limitMagnitude : unitsOf limitMagnitude = UInt64.size * one := by
  have moved : limitMagnitude = oneMagnitude + 64 * stride := by decide
  rw [moved, unitsOf_add_strides (by decide), unitsOf_near_one.1, Nat.mul_comm]
  rfl

theorem unitsOf_limitMagnitude_pred :
    unitsOf (limitMagnitude - 1) = (UInt64.size - 2048) * one := by
  have moved : limitMagnitude - 1 = oneMagnitude - 1 + 64 * stride := by decide
  rw [moved, unitsOf_add_strides (by decide), ← unitsOf_near_one.2]
  rfl

theorem compose_magnitude_self {x : Binary64} (positive : x.negative = false) :
    compose false x.magnitude = x := by
  have below : x.bits.toNat < signWeight := by
    simpa [negative] using positive
  unfold compose magnitude
  rw [Nat.mod_eq_of_lt below]
  simp

theorem atMost_units {x : Binary64} (positive : x.negative = false)
    (finite : x.magnitude < infiniteMagnitude) : x.AtMost x.units :=
  ⟨positive, finite, Nat.le_refl _⟩

theorem nearestMagnitude_zero {den : Nat} (pos : 0 < den) : nearestMagnitude 0 den = 0 := by
  have le : 0 * one ≤ unitsOf 0 * den := by
    rw [Nat.zero_mul]
    exact Nat.zero_le _
  exact Nat.le_zero.mp (nearestMagnitude_le pos le)

theorem nearestMagnitude_one_one : nearestMagnitude 1 1 = oneMagnitude := by
  refine nearestMagnitude_eq Nat.one_pos (by decide) ?_
  rw [unitsOf_near_one.1, Nat.mul_comm]

theorem nearestMagnitude_limit : nearestMagnitude (2 ^ 64) 1 = limitMagnitude := by
  refine nearestMagnitude_eq Nat.one_pos limitMagnitude_lt.le ?_
  rw [unitsOf_limitMagnitude, Nat.mul_one]
  rfl

theorem ofNat_rank {n m : Nat} (nearest : nearestMagnitude n 1 = m) (fits : m < infiniteMagnitude) :
    (Binary64.ofNat n).rank = m ∧ (Binary64.ofNat n).isNaN = false := by
  obtain ⟨magnitude, positive⟩ := compose_magnitude fits
  unfold Binary64.ofNat ofRatio
  rw [nearest]
  refine ⟨?_, ?_⟩
  · rw [rank, positive, magnitude]
    rfl
  · rw [isNaN, magnitude]
    exact decide_eq_false fits.not_gt

theorem ofNat_zero_rank : (Binary64.ofNat 0).rank = 0 ∧ (Binary64.ofNat 0).isNaN = false :=
  ofNat_rank (nearestMagnitude_zero Nat.one_pos) (by decide)

theorem log2_mul_one {n : Nat} (nonzero : n ≠ 0) : (n * one).log2 = n.log2 + 1074 := by
  obtain ⟨k, isExponent, same⟩ := one_eq_two_pow
  have pos := Nat.two_pow_pos k
  rw [same, ← isExponent, Nat.log2_eq_iff (Nat.mul_ne_zero nonzero (Nat.ne_of_gt pos)),
    Nat.add_right_comm, Nat.pow_add, Nat.pow_add]
  exact ⟨Nat.mul_le_mul_right _ (Nat.log2_self_le nonzero),
    Nat.mul_lt_mul_of_pos_right Nat.lt_log2_self pos⟩

/-- From `2 ^ 63` on, the doubles are 2048 apart. -/
theorem nearestMagnitude_high {n : Nat} (low : 2 ^ 63 ≤ n) (high : n < 2 ^ 64) :
    nearestMagnitude n 1 = 1085 * stride + roundHalfEven n 2048 := by
  have nonzero : n ≠ 0 := by omega
  have size : n.log2 = 63 := (Nat.log2_eq_iff nonzero).mpr ⟨low, high⟩
  have scale : (1 : Nat) <<< (1074 + 11) = 2048 * one := by
    rw [Nat.shiftLeft_add, Nat.shiftLeft_eq _ 11, Nat.mul_comm]
    rfl
  have near := roundHalfEven_le n 2048
  have few : 1085 * stride + roundHalfEven n 2048 ≤ infiniteMagnitude := by
    unfold infiniteMagnitude stride
    omega
  unfold nearestMagnitude
  dsimp only
  rw [Nat.div_one, log2_mul_one nonzero, size, scale, roundHalfEven_mul_right n 2048 one_pos,
    Nat.min_eq_left few]

theorem nearestMagnitude_le_limit {n : Nat} (high : n ≤ UInt64.size) :
    nearestMagnitude n 1 ≤ limitMagnitude := by
  refine nearestMagnitude_le Nat.one_pos ?_
  rw [unitsOf_limitMagnitude, Nat.mul_one]
  exact Nat.mul_le_mul_right one high

theorem ofNat_toNat (s : UInt64) :
    (Binary64.ofNat s.toNat).magnitude = nearestMagnitude s.toNat 1 ∧
      (Binary64.ofNat s.toNat).negative = false :=
  compose_magnitude ((nearestMagnitude_le_limit s.toNat_lt.le).trans_lt limitMagnitude_lt)

/-- A whole number of 64 bits rounds up to `2 ^ 64` when it is at most half the way below. -/
theorem nearestMagnitude_eq_limit_iff {n : Nat} (high : n < 2 ^ 64) :
    nearestMagnitude n 1 = limitMagnitude ↔ 2 ^ 64 - 1024 ≤ n := by
  rcases Nat.lt_or_ge n (2 ^ 63) with less | low
  · have le : nearestMagnitude n 1 ≤ 1086 * stride := by
      refine nearestMagnitude_le Nat.one_pos ?_
      rw [unitsOf_half_limit, Nat.mul_one]
      exact Nat.mul_le_mul_right one less.le
    have below : 1086 * stride < limitMagnitude := by decide
    constructor
    · intro same
      omega
    · intro most
      omega
  · rw [nearestMagnitude_high low high]
    unfold limitMagnitude stride roundHalfEven
    dsimp only
    split
    · omega
    · split <;> omega

theorem nearestMagnitude_part_le {part m : Nat} (le : part ≤ one) :
    nearestMagnitude (part * unitsOf m) (one * one) ≤ m := by
  refine nearestMagnitude_le (Nat.mul_pos one_pos one_pos) ?_
  calc part * unitsOf m * one ≤ one * unitsOf m * one :=
        Nat.mul_le_mul_right _ (Nat.mul_le_mul_right _ le)
    _ = unitsOf m * (one * one) := by rw [Nat.mul_comm one, Nat.mul_assoc]

theorem nearestMagnitude_proper_part_lt {part : Nat} (le : part ≤ unitsOf (oneMagnitude - 1)) :
    nearestMagnitude (part * unitsOf limitMagnitude) (one * one) < limitMagnitude := by
  have some : 0 < limitMagnitude := by decide
  refine (nearestMagnitude_le (Nat.mul_pos one_pos one_pos) ?_).trans_lt (Nat.pred_lt_of_lt some)
  rw [Nat.pred_eq_sub_one, unitsOf_limitMagnitude_pred, ← unitsOf_near_one.2,
    unitsOf_limitMagnitude]
  calc part * (UInt64.size * one) * one = part * UInt64.size * (one * one) := by ring
    _ ≤ _ := Nat.mul_le_mul_right _ (Nat.mul_le_mul_right _ le)

section
variable {x y : Binary64}

theorem units_le_one (le : x.magnitude ≤ oneMagnitude) : x.units ≤ one := by
  rw [← unitsOf_near_one.1]
  exact unitsOf_le_unitsOf le (by decide)

theorem mul_eq_nearest (share : x.negative = false) (share_le : x.magnitude ≤ oneMagnitude)
    (time : y.negative = false) (finite : y.magnitude < infiniteMagnitude) :
    (x.mul y).magnitude = nearestMagnitude (x.units * y.units) (one * one) ∧
      (x.mul y).negative = false := by
  have one_lt : oneMagnitude < infiniteMagnitude := by decide
  rw [(atMost_units share (share_le.trans_lt one_lt)).mul_eq (atMost_units time finite)]
  exact compose_magnitude ((nearestMagnitude_part_le (units_le_one share_le)).trans_lt finite)

theorem mul_magnitude_le (share : x.negative = false) (share_le : x.magnitude ≤ oneMagnitude)
    (time : y.negative = false) (finite : y.magnitude < infiniteMagnitude) :
    (x.mul y).magnitude ≤ y.magnitude :=
  (mul_eq_nearest share share_le time finite).1.trans_le
    (nearestMagnitude_part_le (units_le_one share_le))

theorem mul_magnitude_lt_limit_iff (share : x.negative = false)
    (share_le : x.magnitude ≤ oneMagnitude) (time : y.negative = false)
    (time_le : y.magnitude ≤ limitMagnitude) :
    (x.mul y).magnitude < limitMagnitude ↔
      ¬(x.magnitude = oneMagnitude ∧ y.magnitude = limitMagnitude) := by
  have finite := time_le.trans_lt limitMagnitude_lt
  rcases Nat.lt_or_eq_of_le time_le with less | whole
  · have no_more := mul_magnitude_le share share_le time finite
    exact ⟨fun _ both => less.ne both.2, fun _ => no_more.trans_lt less⟩
  · have seconds : y.units = unitsOf limitMagnitude := congrArg unitsOf whole
    rw [(mul_eq_nearest share share_le time finite).1, seconds]
    rcases Nat.lt_or_eq_of_le share_le with part | all
    · have fewer : x.units ≤ unitsOf (oneMagnitude - 1) :=
        unitsOf_le_unitsOf (Nat.le_sub_one_of_lt part) (by decide)
      exact ⟨fun _ both => part.ne both.1, fun _ => nearestMagnitude_proper_part_lt fewer⟩
    · have same : nearestMagnitude (x.units * unitsOf limitMagnitude) (one * one) =
          limitMagnitude := by
        refine nearestMagnitude_eq (Nat.mul_pos one_pos one_pos) limitMagnitude_lt.le ?_
        rw [units, all, unitsOf_near_one.1]
        ring
      exact ⟨fun less => absurd same less.ne, fun apart => absurd ⟨all, whole⟩ apart⟩

end

end Binary64
end Numeric

namespace Duration
open Numeric

theorem ofSecs_secs (s : UInt64) : (ofSecs s).secs = s.toNat :=
  Nat.mul_div_cancel _ (by decide)

theorem ofSecs_subsecNanos (s : UInt64) : (ofSecs s).subsecNanos = 0 := Nat.mul_mod_left _ _

theorem toSeconds_ofSecs (s : UInt64) : (ofSecs s).toSeconds = Binary64.ofNat s.toNat := by
  obtain ⟨whole, positive⟩ := Binary64.ofNat_toNat s
  have fits := Binary64.nearestMagnitude_le_limit s.toNat_lt.le
  have finite := fits.trans_lt Binary64.limitMagnitude_lt
  have seconds : (Binary64.ofNat s.toNat).AtMost (Binary64.ofNat s.toNat).units :=
    Binary64.atMost_units positive (whole.trans_lt finite)
  have fraction : (Binary64.ofRatio false 0 nanosPerSecond).AtMost 0 :=
    Binary64.atMost_ofRatio (by decide) (by simp) (Nat.zero_le _)
  have nothing := Nat.le_zero.mp fraction.units_le
  unfold toSeconds
  rw [ofSecs_secs, ofSecs_subsecNanos, seconds.add_eq fraction, nothing, Nat.add_zero]
  -- The sum is a double already and is not rounded a second time.
  refine congrArg (Binary64.compose false)
    (Binary64.nearestMagnitude_eq Binary64.one_pos finite.le ?_)
  exact congrArg (Binary64.unitsOf · * Binary64.one) whole

theorem ofSeconds?_isSome_iff {x : Binary64} (finite : x.isFinite = true)
    (nonneg : x.negative = false ∨ x.magnitude = 0) :
    (ofSeconds? x).isSome ↔ x.magnitude < Binary64.limitMagnitude := by
  have finite : x.magnitude < Binary64.infiniteMagnitude := of_decide_eq_true finite
  have notNaN : x.isNaN = false := decide_eq_false (Nat.not_lt.mpr finite.le)
  have notInfinite : x.isInfinite = false := decide_eq_false finite.ne
  constructor
  · intro isSome
    by_contra large
    have units_le : UInt64.size * Binary64.one ≤ x.units := by
      rw [← Binary64.unitsOf_limitMagnitude]
      exact Binary64.unitsOf_le_unitsOf (Nat.not_lt.mp large) finite.le
    simp [ofSeconds?, notNaN, notInfinite, units_le] at isSome
  · intro below
    by_cases zero : x.magnitude = 0
    · have none : x.units = 0 := congrArg Binary64.unitsOf zero
      have some : Binary64.one ≠ 0 := Nat.ne_of_gt Binary64.one_pos
      simp [ofSeconds?, notNaN, notInfinite, none, some, ofNanos?, roundHalfEven, UInt64.size,
        nanosPerSecond]
    · have units_le : x.units ≤ (UInt64.size - 2048) * Binary64.one := by
        have := Binary64.limitMagnitude_lt
        rw [← Binary64.unitsOf_limitMagnitude_pred]
        exact Binary64.unitsOf_le_unitsOf (by omega) (by omega)
      have small : x.AtMost ((UInt64.size - 2048) * Binary64.one) :=
        ⟨nonneg.resolve_right zero, finite, units_le⟩
      have less : UInt64.size - 2048 < UInt64.size - 1 := by decide
      exact ofSeconds?_isSome small (Nat.mul_lt_mul_of_pos_right less Binary64.one_pos)

/-- A share of a whole number of seconds is a duration unless it is all of them and they round up
to `2 ^ 64`. -/
theorem scale?_ofSecs_isSome_iff {x : Binary64} (s : UInt64) (share : x.negative = false)
    (share_le : x.magnitude ≤ Binary64.oneMagnitude) :
    ((ofSecs s).scale? x).isSome ↔
      ¬(x.magnitude = Binary64.oneMagnitude ∧ 2 ^ 64 - 1024 ≤ s.toNat) := by
  obtain ⟨whole, positive⟩ := Binary64.ofNat_toNat s
  have time_le := whole.trans_le (Binary64.nearestMagnitude_le_limit s.toNat_lt.le)
  have finite := time_le.trans_lt Binary64.limitMagnitude_lt
  have part_le := Binary64.mul_magnitude_le share share_le positive finite
  have nonneg := (Binary64.mul_eq_nearest share share_le positive finite).2
  rw [scale?, toSeconds_ofSecs,
    ofSeconds?_isSome_iff (decide_eq_true (part_le.trans_lt finite)) (.inl nonneg),
    Binary64.mul_magnitude_lt_limit_iff share share_le positive time_le, whole,
    Binary64.nearestMagnitude_eq_limit_iff s.toNat_lt]

end Duration

namespace Config
open Numeric

theorem isShare_iff {x : Binary64} : isShare x = true ↔
    x.negative = false ∧ 0 < x.magnitude ∧ x.magnitude ≤ Binary64.oneMagnitude := by
  have zero := Binary64.ofNat_zero_rank
  have one_lt : Binary64.oneMagnitude < Binary64.infiniteMagnitude := by decide
  have whole := Binary64.ofNat_rank Binary64.nearestMagnitude_one_one one_lt
  unfold isShare Binary64.lt Binary64.le
  rw [zero.1, zero.2, whole.1, whole.2]
  unfold Binary64.rank Binary64.isNaN
  cases x.negative
  · simp
    omega
  · simp

theorem isSpan_iff {x : Binary64} : isSpan x = true ↔
    x.isFinite = true ∧ (x.negative = false ∨ x.magnitude = 0) := by
  have zero := Binary64.ofNat_zero_rank
  unfold isSpan Binary64.le
  rw [zero.1, zero.2]
  unfold Binary64.rank Binary64.isNaN Binary64.isFinite
  cases x.negative
  · simp
    omega
  · simp
    omega

theorem lt_limit_iff {x : Binary64} (span : isSpan x = true) :
    x.lt (.ofNat (2 ^ 64)) = true ↔ x.magnitude < Binary64.limitMagnitude := by
  have limit := Binary64.ofNat_rank Binary64.nearestMagnitude_limit Binary64.limitMagnitude_lt
  obtain ⟨finite, nonneg⟩ := isSpan_iff.mp span
  have finite : x.magnitude < Binary64.infiniteMagnitude := of_decide_eq_true finite
  unfold Binary64.lt
  rw [limit.1, limit.2]
  unfold Binary64.rank Binary64.isNaN
  rcases nonneg with positive | zero
  · simp [positive, finite.le]
  · simp [zero]

theorem eq_one_iff {x : Binary64} (share : isShare x = true) :
    x = .ofNat 1 ↔ x.magnitude = Binary64.oneMagnitude := by
  have one : Binary64.ofNat 1 = .compose false Binary64.oneMagnitude :=
    congrArg (Binary64.compose false) Binary64.nearestMagnitude_one_one
  constructor
  · rintro rfl
    rw [one]
    exact (Binary64.compose_magnitude (by decide)).1
  · intro same
    rw [one, ← same, Binary64.compose_magnitude_self (isShare_iff.mp share).1]

theorem complain_first_eq_none_iff {broken : Prop} [Decidable broken] {reason : String}
    {rest : Option String} :
    (if broken then some reason else rest) = none ↔ ¬broken ∧ rest = none := by
  split <;> simp [*]

theorem complaint?_eq_none_iff {c : Config} : c.complaint? = none ↔
    c.node.id ≠ "" ∧ isShare c.pacing.softLockDutyCycle = true ∧ c.pacing.softLockMaxRounds ≠ 0 ∧
      isSpan c.pacing.backoffMax = true ∧ c.pacing.readinessPollMillis ≠ 0 ∧
      c.pacing.backoffStepMillis ≠ 0 := by
  simp [complaint?, complain_first_eq_none_iff]

theorem validate_eq_ok_iff {c : Config} : c.validate = .ok () ↔ c.complaint? = none := by
  unfold validate
  cases c.complaint? <;> simp

/-- The checks leave room for too long a delay and for too much of too long a soft lock. -/
theorem settings_and_budget_defined_iff {c : Config} (valid : c.validate = .ok ()) :
    (c.settings?.isSome ↔ c.pacing.backoffMax.lt (.ofNat (2 ^ 64))) ∧
      ∀ settings, c.settings? = some settings →
        (settings.softCatchUpBudget?.isSome ↔
          ¬(c.pacing.softLockDutyCycle = .ofNat 1 ∧
            2 ^ 64 - 1024 ≤ c.pacing.softLockTimeout.toNat)) := by
  obtain ⟨-, share, -, span, -⟩ := complaint?_eq_none_iff.mp (validate_eq_ok_iff.mp valid)
  obtain ⟨finite, nonneg⟩ := isSpan_iff.mp span
  obtain ⟨positive, -, share_le⟩ := isShare_iff.mp share
  constructor
  · rw [lt_limit_iff span, ← Duration.ofSeconds?_isSome_iff finite nonneg, settings?,
      Pacing.settings?, Option.isSome_map]
  · intro settings resolved
    obtain ⟨cap, -, rfl⟩ := Option.map_eq_some_iff.mp resolved
    rw [eq_one_iff share]
    exact Duration.scale?_ofSecs_isSome_iff _ positive share_le

theorem forNode_settings_and_budget :
    (forNode "PRMR-0001").validate = .ok () ∧ (forNode "PRMR-0001").settings?.isSome ∧
      ∀ settings, (forNode "PRMR-0001").settings? = some settings →
        settings.softCatchUpBudget?.isSome := by
  have valid : (forNode "PRMR-0001").validate = .ok () := by decide +kernel
  obtain ⟨cap, share⟩ := settings_and_budget_defined_iff valid
  exact ⟨valid, cap.mpr (by decide +kernel),
    fun settings resolved => (share settings resolved).mpr (by decide +kernel)⟩

def endlessDelays : Config :=
  { node := { id := "PRMR-0001" }, pacing := { backoffMax := .ofNat (10 ^ 20) } }

def endlessSoftLock : Config :=
  { node := { id := "PRMR-0001" }
    pacing := { softLockDutyCycle := .ofNat 1, softLockTimeout := 0xffffffffffffffff } }

theorem endless_out_of_range :
    endlessDelays.validate = .ok () ∧ endlessDelays.settings? = none ∧
      endlessSoftLock.validate = .ok () ∧ endlessSoftLock.settings?.isSome ∧
      endlessSoftLock.settings?.bind Settings.softCatchUpBudget? = none := by
  decide +kernel

end Config

end FollowerSync
