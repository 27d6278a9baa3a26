import Mathlib.Tactic.SplitIfs
import Postbox.Polling.Policy

/-!
# Rounding and the growth of sleeps

Rounding to the nearest number keeps the order of what is rounded, at every magnitude: where the gap
between neighbours doubles, the greatest value below and the least above meet.  So a sleep that
grows by a factor of at least one never comes out below a value that is exact.
-/

namespace Postbox

namespace Binary64

/-! ## Quotients -/

section Quotients

variable {num other den : Nat}

theorem div_le_roundDiv (num den : Nat) :
    num / den ≤ roundDiv num den := by
  unfold roundDiv
  split_ifs <;> omega

theorem roundDiv_le_succ_div (num den : Nat) :
    roundDiv num den ≤ num / den + 1 := by
  unfold roundDiv
  split_ifs <;> omega

/-- Rounding a quotient keeps the order of the dividends. -/
theorem roundDiv_mono
    (h : num ≤ other) :
    roundDiv num den ≤ roundDiv other den := by
  rcases Nat.lt_or_eq_of_le (Nat.div_le_div_right h) with hlt | heq
  · calc
      roundDiv num den ≤ num / den + 1 := roundDiv_le_succ_div num den
      _ ≤ other / den := hlt
      _ ≤ roundDiv other den := div_le_roundDiv other den
  · have hmod : num % den ≤ other % den := by
      have hnum := Nat.div_add_mod num den
      have hother := Nat.div_add_mod other den
      rw [← heq] at hother
      omega
    unfold roundDiv
    rw [heq]
    split_ifs <;> omega

theorem roundDiv_le_of_lt
    {bound : Nat} (h : num < bound * den) :
    roundDiv num den ≤ bound :=
  Nat.le_trans (roundDiv_le_succ_div num den) (Nat.div_lt_of_lt_mul (Nat.mul_comm bound den ▸ h))

theorem le_roundDiv
    {bound : Nat} (hden : 0 < den) (h : bound * den ≤ num) :
    bound ≤ roundDiv num den :=
  Nat.le_trans ((Nat.le_div_iff_mul_le hden).mpr h) (div_le_roundDiv num den)

end Quotients

/-! ## Magnitudes -/

section Magnitudes

variable {num other den : Nat} {x y : Binary64}

/-- The gap between neighbours at a quotient, as a number of doublings. -/
def gap (quotient : Nat) : Nat :=
  quotient.log2 - fractionWidth

theorem gap_mono
    {a b : Nat} (h : a ≤ b) :
    gap a ≤ gap b := by
  refine Nat.sub_le_sub_right ?_ fractionWidth
  rcases Nat.eq_zero_or_pos a with rfl | hpos
  · exact Nat.zero_le _
  · exact (Nat.le_log2 (by omega)).mpr (Nat.le_trans (Nat.log2_self_le (by omega)) h)

/-- The significand has at most 53 bits. -/
theorem lt_of_gap_eq
    {quotient doublings : Nat} (h : gap quotient = doublings) :
    quotient < Nat.pow 2 (fractionWidth + 1) * Nat.pow 2 doublings := by
  have hlog : quotient.log2 + 1 ≤ fractionWidth + 1 + doublings := by
    rw [gap] at h
    omega
  calc
    quotient < 2 ^ (quotient.log2 + 1) := Nat.lt_log2_self
    _ ≤ 2 ^ (fractionWidth + 1 + doublings) := Nat.pow_le_pow_right (by decide) hlog
    _ = Nat.pow 2 (fractionWidth + 1) * Nat.pow 2 doublings := Nat.pow_add 2 _ _

/-- The significand has at least 53 bits where the gap has doubled. -/
theorem le_of_gap_eq
    {quotient doublings : Nat} (h : gap quotient = doublings) (hpos : 0 < doublings) :
    Nat.pow 2 fractionWidth * Nat.pow 2 doublings ≤ quotient := by
  have hlog : fractionWidth + doublings = quotient.log2 := by
    rw [gap] at h
    omega
  have hne : quotient ≠ 0 := by
    rintro rfl
    rw [Nat.log2_zero] at hlog
    omega
  calc
    Nat.pow 2 fractionWidth * Nat.pow 2 doublings = 2 ^ (fractionWidth + doublings) :=
      (Nat.pow_add 2 _ _).symm
    _ = 2 ^ quotient.log2 := by rw [hlog]
    _ ≤ quotient := Nat.log2_self_le hne

theorem pow_fractionWidth_succ :
    Nat.pow 2 (fractionWidth + 1) = 2 * Nat.pow 2 fractionWidth := by
  decide

/-- Two steps of the exponent below meet one step of it above. -/
theorem step_le_step
    {low high : Nat} (h : low < high) :
    Nat.pow 2 (fractionWidth + 1) + low * Nat.pow 2 fractionWidth ≤
      Nat.pow 2 fractionWidth + high * Nat.pow 2 fractionWidth := by
  have hdouble := pow_fractionWidth_succ
  have hmul := Nat.mul_le_mul_right (Nat.pow 2 fractionWidth) h
  rw [Nat.succ_mul] at hmul
  omega

/-- A rounded significand is at most the least one of the next exponent. -/
theorem significand_le (num : Nat)
    (hden : 0 < den) :
    roundDiv num (den * Nat.pow 2 (gap (num / den))) ≤ Nat.pow 2 (fractionWidth + 1) := by
  refine roundDiv_le_of_lt ?_
  have hlt : num / den < Nat.pow 2 (fractionWidth + 1) * Nat.pow 2 (gap (num / den)) :=
    lt_of_gap_eq rfl
  have hquotient := (Nat.div_lt_iff_lt_mul hden).mp hlt
  rwa [Nat.mul_right_comm, Nat.mul_assoc] at hquotient

/-- Where the gap has doubled, a rounded significand has all its bits. -/
theorem le_significand
    (hden : 0 < den) (hpos : 0 < gap (num / den)) :
    Nat.pow 2 fractionWidth ≤ roundDiv num (den * Nat.pow 2 (gap (num / den))) := by
  refine le_roundDiv (Nat.mul_pos hden (Nat.pow_pos (by decide))) ?_
  have hquotient := (Nat.le_div_iff_mul_le hden).mp (le_of_gap_eq rfl hpos)
  rwa [Nat.mul_right_comm, Nat.mul_assoc] at hquotient

/-- Rounding to the nearest number keeps the order. -/
theorem nearestBits_mono
    (hden : 0 < den) (h : num ≤ other) :
    nearestBits num den ≤ nearestBits other den := by
  refine Nat.le_min.mpr ⟨Nat.le_trans (Nat.min_le_left _ _) ?_, Nat.min_le_right _ _⟩
  have hupper := significand_le num hden
  have hlower : 0 < gap (other / den) → _ := le_significand hden
  have hgap := gap_mono (Nat.div_le_div_right (c := den) h)
  change roundDiv num (den * Nat.pow 2 (gap (num / den))) + gap (num / den) * _ ≤
    roundDiv other (den * Nat.pow 2 (gap (other / den))) + gap (other / den) * _
  generalize gap (num / den) = low at hgap hupper ⊢
  generalize gap (other / den) = high at hgap hlower ⊢
  rcases Nat.lt_or_eq_of_le hgap with hlt | rfl
  · calc
      _ ≤ Nat.pow 2 (fractionWidth + 1) + low * Nat.pow 2 fractionWidth :=
        Nat.add_le_add_right hupper _
      _ ≤ Nat.pow 2 fractionWidth + high * Nat.pow 2 fractionWidth := step_le_step hlt
      _ ≤ _ := Nat.add_le_add_right (hlower (by omega)) _
  · exact Nat.add_le_add_right (roundDiv_mono h) _

theorem magnitudeBits_nearest (num den : Nat) :
    (nearest false num den).magnitudeBits = nearestBits num den := by
  have hle : nearestBits num den ≤ infiniteBits := Nat.min_le_right _ _
  have hlt : infiniteBits < Nat.pow 2 63 := by decide
  have hsize : (UInt64.ofNat (nearestBits num den)).toNat = nearestBits num den :=
    UInt64.toNat_ofNat_of_lt' (by
      rw [UInt64.size]
      exact Nat.lt_trans (Nat.lt_of_le_of_lt hle hlt) (by decide))
  rw [nearest, ofMagnitude, magnitudeBits, if_neg Bool.false_ne_true, hsize]
  exact Nat.mod_eq_of_lt (Nat.lt_of_le_of_lt hle hlt)

/-- The significand of a number has at most 53 bits. -/
theorem magnitudeBits_lt (x : Binary64) :
    x.magnitudeBits < (x.doublings + 2) * Nat.pow 2 fractionWidth := by
  refine (Nat.div_lt_iff_lt_mul (by decide)).mp ?_
  rw [doublings]
  omega

/-- The significand of a number has at least 53 bits where the gap has doubled. -/
theorem le_magnitudeBits
    (hpos : 0 < x.doublings) :
    (x.doublings + 1) * Nat.pow 2 fractionWidth ≤ x.magnitudeBits := by
  refine (Nat.le_div_iff_mul_le (by decide)).mp ?_
  rw [doublings] at hpos ⊢
  omega

/-- Magnitudes are in the order of their bits. -/
theorem units_mono
    (h : x.magnitudeBits ≤ y.magnitudeBits) :
    x.units ≤ y.units := by
  have hdoublings : x.doublings ≤ y.doublings :=
    Nat.sub_le_sub_right (Nat.div_le_div_right h) 1
  rcases Nat.lt_or_eq_of_le hdoublings with hlt | heq
  · have hx : x.magnitudeBits - x.doublings * Nat.pow 2 fractionWidth ≤
        Nat.pow 2 (fractionWidth + 1) := by
      have hbits := magnitudeBits_lt x
      rw [Nat.add_mul] at hbits
      have hdouble := pow_fractionWidth_succ
      omega
    have hy : Nat.pow 2 fractionWidth ≤
        y.magnitudeBits - y.doublings * Nat.pow 2 fractionWidth := by
      have hbits := le_magnitudeBits (Nat.zero_lt_of_lt hlt)
      rw [Nat.succ_mul] at hbits
      omega
    calc
      x.units ≤ Nat.pow 2 (fractionWidth + 1) * Nat.pow 2 x.doublings :=
        Nat.mul_le_mul_right _ hx
      _ = Nat.pow 2 fractionWidth * Nat.pow 2 (x.doublings + 1) := by
        change 2 ^ (fractionWidth + 1) * 2 ^ x.doublings = 2 ^ fractionWidth * 2 ^ (x.doublings + 1)
        rw [← Nat.pow_add, ← Nat.pow_add, Nat.add_right_comm, Nat.add_assoc]
      _ ≤ Nat.pow 2 fractionWidth * Nat.pow 2 y.doublings :=
        Nat.mul_le_mul_left _ (Nat.pow_le_pow_right (by decide) hlt)
      _ ≤ y.units := Nat.mul_le_mul_right _ hy
  · rw [units, units, heq]
    exact Nat.mul_le_mul_right _ (Nat.sub_le_sub_right h _)

theorem units_nearest_mono
    (hden : 0 < den) (h : num ≤ other) :
    (nearest false num den).units ≤ (nearest false other den).units := by
  refine units_mono ?_
  rw [magnitudeBits_nearest, magnitudeBits_nearest]
  exact nearestBits_mono hden h

theorem units_ofNat_mono
    {n m : Nat} (h : n ≤ m) :
    (ofNat n).units ≤ (ofNat m).units :=
  units_nearest_mono (by decide) (Nat.mul_le_mul_right _ h)

theorem units_product_mono
    {x' y' : Binary64} (hx : x.units ≤ x'.units) (hy : y.units ≤ y'.units) :
    (x.product y).units ≤ (x'.product y').units :=
  units_nearest_mono (by decide +kernel) (Nat.mul_le_mul hx hy)

theorem roundUnits_mono
    (h : x.units ≤ y.units) :
    x.roundUnits ≤ y.roundUnits :=
  Nat.div_le_div_right (Nat.add_le_add_right h _)

theorem one_units_le_of_isGrowth
    (h : x.isGrowth = true) :
    one.units ≤ x.units := by
  simp only [isGrowth, Bool.and_eq_true, decide_eq_true_eq] at h
  exact units_mono h.2

end Magnitudes

end Binary64

/-! ## Sleeps -/

namespace PollPolicy

variable {policy : PollPolicy} {least current : Duration}

theorem one_units_le_factor (policy : PollPolicy) :
    Binary64.one.units ≤ policy.factor.units := by
  unfold factor
  split
  · rename_i hgrowth
    exact Binary64.one_units_le_of_isGrowth hgrowth
  · exact Nat.le_refl _

/-- A length that growth by one does not lower is a lower bound of all later sleeps once it is one
of a sleep and of the cap. -/
theorem le_nextInterval
    (hexact : least ≤ ((Binary64.ofNat least).product .one).roundUnits) (hlongest : least ≤ longest)
    (hcap : least ≤ policy.cap) (hcurrent : least ≤ current) :
    least ≤ policy.nextInterval current := by
  rw [nextInterval]
  split
  · exact hcap
  · refine Nat.le_min.mpr ⟨Nat.le_trans hexact (Binary64.roundUnits_mono ?_), hlongest⟩
    exact Binary64.units_product_mono (Binary64.units_ofNat_mono hcurrent)
      policy.one_units_le_factor

/-- A sleep of a millisecond stays one, whatever the factor. -/
theorem millisecond_le_nextInterval
    (hcap : Duration.ofMillis 1 ≤ policy.cap) (hcurrent : Duration.ofMillis 1 ≤ current) :
    Duration.ofMillis 1 ≤ policy.nextInterval current :=
  le_nextInterval (by decide +kernel) (by decide) hcap hcurrent

end PollPolicy

end Postbox
