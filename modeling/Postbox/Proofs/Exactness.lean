import Mathlib.Tactic.Ring
import Postbox.Proofs.Rounding

/-!
# Exact numbers

A number of the format is a significand of at most 53 bits, doubled some times.  Rounding leaves
such a number as it is, and since it keeps the order, no quotient that lies above one is rounded to
something below it.  So growth by a factor of at least one keeps every exact value, and a factor
above one makes up for what the conversion of an inexact one has lost.
-/

namespace Postbox

namespace Binary64

variable {x y : Binary64} {num den n : Nat}

/-! ## Numbers of the format -/

section Format

variable {significand quotient doublings : Nat}

theorem units_congr
    (h : x.magnitudeBits = y.magnitudeBits) :
    x.units = y.units := by
  rw [units, units, Binary64.doublings, Binary64.doublings, h]

/-- A number whose bits hold a significand and a count of doublings. -/
theorem units_eq
    (hbits : x.magnitudeBits = significand + doublings * Nat.pow 2 fractionWidth)
    (hupper : significand ≤ Nat.pow 2 (fractionWidth + 1))
    (hlower : 0 < doublings → Nat.pow 2 fractionWidth ≤ significand) :
    x.units = significand * Nat.pow 2 doublings := by
  have hdouble := pow_fractionWidth_succ
  have hpos : 0 < Nat.pow 2 fractionWidth := by decide
  have hdiv : x.magnitudeBits / Nat.pow 2 fractionWidth =
      significand / Nat.pow 2 fractionWidth + doublings := by
    rw [hbits, Nat.add_mul_div_right _ _ hpos]
  rcases Nat.lt_or_eq_of_le hupper with hlt | rfl
  · have hdoublings : x.doublings = doublings := by
      rw [Binary64.doublings, hdiv]
      rcases Nat.eq_zero_or_pos doublings with rfl | hdoubled
      · have hquotient : significand / Nat.pow 2 fractionWidth < 2 :=
          (Nat.div_lt_iff_lt_mul hpos).mpr (by omega)
        omega
      · have hquotient : significand / Nat.pow 2 fractionWidth = 1 :=
          Nat.div_eq_of_lt_le (by have := hlower hdoubled; omega) (by omega)
        omega
    rw [units, hdoublings, hbits, Nat.add_sub_cancel]
  -- The significand has overflowed, to the least one of the next exponent.
  · have hdoublings : x.doublings = doublings + 1 := by
      rw [Binary64.doublings, hdiv, hdouble, Nat.mul_div_cancel _ hpos]
      omega
    have hrest : x.magnitudeBits - (doublings + 1) * Nat.pow 2 fractionWidth =
        Nat.pow 2 fractionWidth := by
      rw [hbits, hdouble, Nat.add_mul doublings]
      omega
    rw [units, hdoublings, hrest, hdouble]
    simp only [Nat.pow_eq]
    ring

theorem gap_le
    (h : quotient < Nat.pow 2 (fractionWidth + 1) * Nat.pow 2 doublings) :
    gap quotient ≤ doublings := by
  rcases Nat.eq_zero_or_pos quotient with rfl | hpos
  · exact Nat.zero_le _
  · have hlog : quotient.log2 < fractionWidth + 1 + doublings := by
      refine (Nat.log2_lt (by omega)).mpr ?_
      rwa [Nat.pow_add]
    rw [gap]
    omega

theorem le_gap
    (h : Nat.pow 2 fractionWidth * Nat.pow 2 doublings ≤ quotient) :
    doublings ≤ gap quotient := by
  have hpos : 0 < Nat.pow 2 fractionWidth * Nat.pow 2 doublings :=
    Nat.mul_pos (Nat.two_pow_pos _) (Nat.two_pow_pos _)
  have hlog : fractionWidth + doublings ≤ quotient.log2 := by
    refine (Nat.le_log2 (by omega)).mpr ?_
    rwa [Nat.pow_add]
  rw [gap]
  omega

theorem significand_lt (x : Binary64) :
    x.magnitudeBits - x.doublings * Nat.pow 2 fractionWidth < Nat.pow 2 (fractionWidth + 1) := by
  have hupper := magnitudeBits_lt x
  have hdouble := pow_fractionWidth_succ
  have hfraction : 0 < Nat.pow 2 fractionWidth := by decide
  rw [Nat.add_mul] at hupper
  omega

/-- The gap at a number is the one that its bits count. -/
theorem gap_units (x : Binary64) :
    gap x.units = x.doublings := by
  refine Nat.le_antisymm (gap_le ?_) ?_
  · exact Nat.mul_lt_mul_of_pos_right (significand_lt x) (Nat.two_pow_pos _)
  · rcases Nat.eq_zero_or_pos x.doublings with hzero | hpos
    · omega
    · refine le_gap (Nat.mul_le_mul_right _ ?_)
      have hlower := le_magnitudeBits hpos
      rw [Nat.succ_mul] at hlower
      omega

end Format

/-! ## Rounding an exact number -/

theorem roundDiv_mul (quotient : Nat)
    (hden : 0 < den) :
    roundDiv (quotient * den) den = quotient := by
  rw [roundDiv, Nat.mul_mod_left, if_pos (by omega), Nat.mul_div_cancel _ hden]

/-- A number of the format is the nearest one to itself. -/
theorem nearestBits_units
    (hden : 0 < den) (hx : x.magnitudeBits ≤ infiniteBits) :
    nearestBits (x.units * den) den = x.magnitudeBits := by
  have hround : roundDiv (x.units * den) (den * Nat.pow 2 x.doublings) =
      x.magnitudeBits - x.doublings * Nat.pow 2 fractionWidth := by
    rw [units, Nat.mul_assoc, Nat.mul_comm (Nat.pow 2 x.doublings)]
    exact roundDiv_mul _ (Nat.mul_pos hden (Nat.two_pow_pos _))
  have hlower : x.doublings * Nat.pow 2 fractionWidth ≤ x.magnitudeBits := by
    rcases Nat.eq_zero_or_pos x.doublings with hzero | hpos
    · rw [hzero, Nat.zero_mul]
      exact Nat.zero_le _
    · exact Nat.le_trans (Nat.mul_le_mul_right _ (Nat.le_succ _)) (le_magnitudeBits hpos)
  change min (roundDiv (x.units * den) (den * Nat.pow 2 (gap (x.units * den / den))) +
    gap (x.units * den / den) * _) _ = _
  rw [Nat.mul_div_cancel _ hden, gap_units, hround, Nat.sub_add_cancel hlower]
  exact Nat.min_eq_left hx

theorem magnitudeBits_nearest_le (num den : Nat) :
    (nearest false num den).magnitudeBits ≤ infiniteBits := by
  rw [magnitudeBits_nearest]
  exact Nat.min_le_right _ _

theorem units_nearest_units
    (hden : 0 < den) (hx : x.magnitudeBits ≤ infiniteBits) :
    (nearest false (x.units * den) den).units = x.units := by
  refine units_congr ?_
  rw [magnitudeBits_nearest, nearestBits_units hden hx]

/-- No quotient below a number of the format is rounded to one above it. -/
theorem units_nearest_le_units
    (hden : 0 < den) (hx : x.magnitudeBits ≤ infiniteBits) (h : num ≤ x.units * den) :
    (nearest false num den).units ≤ x.units :=
  units_nearest_units hden hx ▸ units_nearest_mono hden h

theorem units_product_one
    (hx : x.magnitudeBits ≤ infiniteBits) :
    (x.product one).units = x.units := by
  have hone : one.units = Nat.pow 2 scale := by decide +kernel
  rw [product, hone]
  exact units_nearest_units (by decide +kernel) hx

/-- Growth by a factor of at least one does not lower a number. -/
theorem units_le_units_product
    (hx : x.magnitudeBits ≤ infiniteBits) (hy : one.units ≤ y.units) :
    x.units ≤ (x.product y).units := by
  calc
    x.units = (x.product one).units := (units_product_one hx).symm
    _ ≤ (x.product y).units := units_product_mono (Nat.le_refl _) hy

/-- A finite result is a rounded significand, doubled as often as the gap has. -/
theorem units_nearest
    (hden : 0 < den) (hfinite : (nearest false num den).units < (infinity false).units) :
    (nearest false num den).units =
      roundDiv num (den * Nat.pow 2 (gap (num / den))) * Nat.pow 2 (gap (num / den)) := by
  refine units_eq ?_ (significand_le num hden) (le_significand hden)
  rw [magnitudeBits_nearest]
  refine Nat.min_eq_left (Nat.le_of_not_lt fun hlarge => ?_)
  have hbits : (nearest false num den).magnitudeBits = (infinity false).magnitudeBits := by
    rw [magnitudeBits_nearest, nearestBits, Nat.min_eq_right (Nat.le_of_lt hlarge)]
    decide +kernel
  exact absurd (units_congr hbits) (Nat.ne_of_lt hfinite)

/-! ## Whole numbers -/

/-- A whole number with a significand of at most 53 bits. -/
def Fits (n : Nat) : Prop :=
  ∃ significand doublings,
    significand < Nat.pow 2 (fractionWidth + 1) ∧ n = significand * Nat.pow 2 doublings

theorem fits_of_lt
    (h : n < Nat.pow 2 (fractionWidth + 1)) :
    Fits n :=
  ⟨n, 0, h, (Nat.mul_one n).symm⟩

theorem fits_of_le
    {significand doublings : Nat} (h : significand ≤ Nat.pow 2 (fractionWidth + 1)) :
    Fits (significand * Nat.pow 2 doublings) := by
  rcases Nat.lt_or_eq_of_le h with hlt | rfl
  · exact ⟨significand, doublings, hlt, rfl⟩
  · refine ⟨Nat.pow 2 fractionWidth, doublings + 1, by decide, ?_⟩
    simp only [Nat.pow_eq]
    ring

theorem pow_scale_pos :
    0 < Nat.pow 2 scale := by
  decide +kernel

theorem half_lt_pow_scale :
    Nat.pow 2 (scale - 1) < Nat.pow 2 scale := by
  decide +kernel

theorem pow_add_scale (doublings : Nat) :
    Nat.pow 2 (doublings + scale) = Nat.pow 2 doublings * Nat.pow 2 scale := by
  simp only [Nat.pow_eq, Nat.pow_add]

theorem roundDiv_mul_mul (num den : Nat)
    {factor : Nat} (hfactor : 0 < factor) :
    roundDiv (num * factor) (den * factor) = roundDiv num den := by
  have hless : 2 * (num % den * factor) < den * factor ↔ 2 * (num % den) < den := by
    rw [← Nat.mul_assoc]
    exact Nat.mul_lt_mul_right hfactor
  have hmore : den * factor < 2 * (num % den * factor) ↔ den < 2 * (num % den) := by
    rw [← Nat.mul_assoc]
    exact Nat.mul_lt_mul_right hfactor
  simp only [roundDiv, Nat.mul_mod_mul_right, Nat.mul_div_mul_right _ _ hfactor, hless, hmore]

theorem nearest_mul_mul (num den : Nat)
    {factor : Nat} (hfactor : 0 < factor) :
    nearest false (num * factor) (den * factor) = nearest false num den := by
  simp only [nearest, nearestBits, Nat.mul_div_mul_right _ _ hfactor, Nat.mul_right_comm den factor,
    roundDiv_mul_mul _ _ hfactor]

theorem magnitudeBits_ofNat_le (n : Nat) :
    (ofNat n).magnitudeBits ≤ infiniteBits :=
  magnitudeBits_nearest_le _ _

theorem units_ofNat_le_units_nearest
    (hden : 0 < den) (h : n * Nat.pow 2 scale * den ≤ num) :
    (ofNat n).units ≤ (nearest false num den).units := by
  calc
    (ofNat n).units = (nearest false (n * Nat.pow 2 scale * den) (1 * den)).units := by
      rw [nearest_mul_mul _ _ hden, ofNat]
    _ ≤ (nearest false num den).units := by
      rw [Nat.one_mul]
      exact units_nearest_mono hden h

/-- A whole number of units that is a multiple of its gap is a number of the format. -/
theorem units_nearest_of_dvd
    (hfinite : (nearest false num 1).units < (infinity false).units)
    (hdvd : Nat.pow 2 (gap num) ∣ num) :
    (nearest false num 1).units = num := by
  rw [units_nearest Nat.one_pos hfinite, Nat.div_one, Nat.one_mul]
  generalize gap num = doublings at hdvd ⊢
  obtain ⟨significand, rfl⟩ := hdvd
  have hpos : 0 < Nat.pow 2 doublings := Nat.two_pow_pos _
  rw [Nat.mul_comm (Nat.pow 2 doublings), roundDiv_mul _ hpos]

/-- Conversion keeps a whole number whose significand is short enough. -/
theorem Fits.units_ofNat
    (h : Fits n) (hfinite : (ofNat n).units < (infinity false).units) :
    (ofNat n).units = n * Nat.pow 2 scale := by
  obtain ⟨significand, doublings, hlt, rfl⟩ := h
  rw [ofNat, Nat.mul_assoc, ← pow_add_scale] at hfinite ⊢
  refine units_nearest_of_dvd hfinite (Dvd.dvd.mul_left (Nat.pow_dvd_pow 2 ?_) significand)
  exact gap_le (Nat.mul_lt_mul_of_pos_right hlt (Nat.two_pow_pos _))

/-! ## Rounding to whole numbers -/

theorem le_roundUnits
    (h : n * Nat.pow 2 scale ≤ x.units) :
    n ≤ x.roundUnits := by
  refine (Nat.le_div_iff_mul_le pow_scale_pos).mpr ?_
  exact Nat.le_add_right_of_le h

theorem roundUnits_eq
    (h : x.units = n * Nat.pow 2 scale) :
    x.roundUnits = n := by
  rw [roundUnits, h, Nat.add_comm, Nat.add_mul_div_right _ _ pow_scale_pos,
    Nat.div_eq_of_lt half_lt_pow_scale, Nat.zero_add]

/-- A number rounded to a whole one has a short significand: only a fraction is lost. -/
theorem fits_roundUnits (x : Binary64) :
    Fits x.roundUnits := by
  have hlt := significand_lt x
  rcases Nat.lt_or_ge x.doublings scale with hless | hmore
  · have hhalf : Nat.pow 2 scale = 2 * Nat.pow 2 (scale - 1) := by decide +kernel
    have hexponent := Nat.le_sub_one_of_lt hless
    have hpow : Nat.pow 2 x.doublings ≤ Nat.pow 2 (scale - 1) := by
      generalize scale - 1 = exponent at hexponent ⊢
      exact Nat.pow_le_pow_right Nat.two_pos hexponent
    have hunits : x.units ≤ Nat.pow 2 (fractionWidth + 1) * Nat.pow 2 (scale - 1) :=
      Nat.mul_le_mul (Nat.le_of_lt hlt) hpow
    have hroom : 2 * Nat.pow 2 (scale - 1) ≤
        Nat.pow 2 (fractionWidth + 1) * Nat.pow 2 (scale - 1) :=
      Nat.mul_le_mul_right _ (by decide)
    have hpos : 0 < Nat.pow 2 (scale - 1) := by decide +kernel
    refine fits_of_lt ((Nat.div_lt_iff_lt_mul pow_scale_pos).mpr ?_)
    rw [hhalf, Nat.mul_left_comm]
    omega
  · obtain ⟨doublings, hdoublings⟩ := Nat.exists_eq_add_of_le hmore
    refine ⟨_, doublings, hlt, roundUnits_eq ?_⟩
    rw [units, hdoublings, Nat.add_comm scale, pow_add_scale, Nat.mul_assoc]

theorem roundUnits_product_one (n : Nat) :
    ((ofNat n).product one).roundUnits = (ofNat n).roundUnits := by
  rw [roundUnits, units_product_one (magnitudeBits_ofNat_le n), roundUnits]

/-- What lies below a rounded whole number, rounds to at most that. -/
theorem roundUnits_le
    (hx : x.magnitudeBits ≤ infiniteBits) (h : x.units < (ofNat n).units) :
    x.roundUnits ≤ n := by
  -- A greater result comes from a number of the format that is at least `n`, and so at least what
  -- `n` is rounded to.
  refine Nat.le_of_not_lt fun hmore => ?_
  have hhalf := half_lt_pow_scale
  have hunits : (n + 1) * Nat.pow 2 scale ≤ x.units + Nat.pow 2 (scale - 1) :=
    (Nat.le_div_iff_mul_le pow_scale_pos).mp hmore
  rw [Nat.succ_mul] at hunits
  have hle : (ofNat n).units ≤ x.units :=
    units_nearest_le_units Nat.one_pos hx (by omega)
  exact absurd h (Nat.not_lt.mpr hle)

/-- No quotient above a whole number with a short significand is rounded to one below it. -/
theorem Fits.le_roundUnits_nearest
    (hfits : Fits n) (hden : 0 < den)
    (hfinite : (nearest false num den).units < (infinity false).units)
    (h : n * Nat.pow 2 scale * den ≤ num) :
    n ≤ (nearest false num den).roundUnits := by
  have hle := units_ofNat_le_units_nearest hden h
  refine le_roundUnits ?_
  rwa [hfits.units_ofNat (Nat.lt_of_le_of_lt hle hfinite)] at hle

/-! ## Growth -/

theorem two_mul_le_roundDiv (num : Nat)
    (hden : 0 < den) :
    2 * num ≤ den * (2 * roundDiv num den + 1) := by
  have hnum := Nat.div_add_mod num den
  have hmod := Nat.mod_lt num hden
  rw [roundDiv, Nat.mul_add, Nat.mul_left_comm]
  split_ifs with hless hmore
  · omega
  · rw [Nat.mul_add]
    omega
  · rw [Nat.mul_add]
    have := Nat.zero_le (den * (num / den % 2))
    omega

theorem gap_pos
    (h : Nat.pow 2 (fractionWidth + 1) ≤ n) :
    0 < gap n := by
  have hdouble : Nat.pow 2 fractionWidth * Nat.pow 2 1 = Nat.pow 2 (fractionWidth + 1) := by decide
  exact le_gap (hdouble ▸ h)

/-- At least 53 bits are kept. -/
theorem pow_gap_le
    (h : Nat.pow 2 fractionWidth ≤ n) :
    Nat.pow 2 fractionWidth * Nat.pow 2 (gap n) ≤ n := by
  rcases Nat.eq_zero_or_pos (gap n) with hzero | hpos
  · rw [hzero]
    exact h
  · exact le_of_gap_eq rfl hpos

/-- A whole number lies between two multiples of its gap. -/
theorem exists_significand
    (h : Nat.pow 2 fractionWidth ≤ n) :
    ∃ significand, Nat.pow 2 fractionWidth ≤ significand ∧
      significand < Nat.pow 2 (fractionWidth + 1) ∧ significand * Nat.pow 2 (gap n) ≤ n ∧
        n < (significand + 1) * Nat.pow 2 (gap n) := by
  have hgap : 0 < Nat.pow 2 (gap n) := Nat.two_pow_pos _
  refine ⟨n / Nat.pow 2 (gap n), ?_, ?_, ?_, ?_⟩
  · exact (Nat.le_div_iff_mul_le hgap).mpr (pow_gap_le h)
  · exact (Nat.div_lt_iff_lt_mul hgap).mpr (lt_of_gap_eq rfl)
  · exact Nat.div_mul_le_self _ _
  · exact Nat.lt_mul_of_div_lt (Nat.lt_succ_self _) hgap

theorem gap_mul_pow_scale
    (h : Nat.pow 2 fractionWidth ≤ n) :
    gap (n * Nat.pow 2 scale) = gap n + scale := by
  refine Nat.le_antisymm (gap_le ?_) (le_gap ?_)
  · rw [pow_add_scale, ← Nat.mul_assoc]
    exact Nat.mul_lt_mul_of_pos_right (lt_of_gap_eq rfl) pow_scale_pos
  · rw [pow_add_scale, ← Nat.mul_assoc]
    exact Nat.mul_le_mul_right _ (pow_gap_le h)

/-- A whole number is rounded to a multiple of its gap. -/
theorem roundUnits_ofNat
    (h : Nat.pow 2 fractionWidth ≤ n) (hfinite : (ofNat n).units < (infinity false).units) :
    (ofNat n).roundUnits = roundDiv n (Nat.pow 2 (gap n)) * Nat.pow 2 (gap n) := by
  refine roundUnits_eq ?_
  rw [ofNat] at hfinite ⊢
  rw [units_nearest Nat.one_pos hfinite, Nat.div_one, Nat.one_mul, gap_mul_pow_scale h,
    pow_add_scale, roundDiv_mul_mul _ _ pow_scale_pos, Nat.mul_assoc]

/-- Conversion of a whole number loses at most half a gap. -/
theorem le_roundUnits_ofNat_add
    (hfinite : (ofNat n).units < (infinity false).units) :
    n ≤ (ofNat n).roundUnits + n / Nat.pow 2 (fractionWidth + 1) := by
  rcases Nat.lt_or_ge n (Nat.pow 2 (fractionWidth + 1)) with hlt | hge
  · rw [roundUnits_eq ((fits_of_lt hlt).units_ofNat hfinite)]
    exact Nat.le_add_right _ _
  · have hwidth : Nat.pow 2 fractionWidth ≤ n := Nat.le_trans (by decide) hge
    have hlower := pow_gap_le hwidth
    have hgap : 0 < Nat.pow 2 (gap n) := Nat.two_pow_pos _
    have hupper := two_mul_le_roundDiv n hgap
    rw [roundUnits_ofNat hwidth hfinite]
    obtain ⟨half, hhalf⟩ := Nat.exists_eq_add_one.mpr (gap_pos hge)
    have hpow : Nat.pow 2 (half + 1) = 2 * Nat.pow 2 half := Nat.pow_succ'
    rw [hhalf, hpow] at hlower hupper
    rw [hhalf, hpow]
    have hlost : Nat.pow 2 half ≤ n / Nat.pow 2 (fractionWidth + 1) := by
      refine (Nat.le_div_iff_mul_le (by decide)).mpr ?_
      rwa [pow_fractionWidth_succ, Nat.mul_left_comm, Nat.mul_comm (Nat.pow 2 half),
        Nat.mul_left_comm]
    generalize roundDiv n (2 * Nat.pow 2 half) = rounded at hupper ⊢
    have hsplit : 2 * Nat.pow 2 half * (2 * rounded + 1) =
        2 * (rounded * (2 * Nat.pow 2 half) + Nat.pow 2 half) := by
      ring
    omega

/-- The number after one. -/
theorem le_units_of_one_lt
    (hy : one.magnitudeBits < y.magnitudeBits) :
    Nat.pow 2 scale + Nat.pow 2 (scale - fractionWidth) ≤ y.units := by
  have hnext : (⟨0x3FF0000000000001⟩ : Binary64).units =
      Nat.pow 2 scale + Nat.pow 2 (scale - fractionWidth) := by
    decide +kernel
  have hbits : (⟨0x3FF0000000000001⟩ : Binary64).magnitudeBits = one.magnitudeBits + 1 := by
    decide
  rw [← hnext]
  exact units_mono (hbits ▸ hy)

/-- Growth by the number after one is growth by a gap at least. -/
theorem step_le_mul
    {significand : Nat} (h : Nat.pow 2 fractionWidth ≤ significand) (gap : Nat) :
    (significand + 1) * gap * Nat.pow 2 scale ≤
      significand * gap * (Nat.pow 2 scale + Nat.pow 2 (scale - fractionWidth)) := by
  have hscale : Nat.pow 2 scale = Nat.pow 2 fractionWidth * Nat.pow 2 (scale - fractionWidth) := by
    decide +kernel
  have hgrowth : gap * Nat.pow 2 scale ≤ significand * gap * Nat.pow 2 (scale - fractionWidth) := by
    rw [hscale, Nat.mul_left_comm, ← Nat.mul_assoc]
    exact Nat.mul_le_mul_right _ (Nat.mul_le_mul_right _ h)
  rw [Nat.mul_add, Nat.succ_mul, Nat.add_mul]
  exact Nat.add_le_add_left hgrowth _

/-- A factor above one makes up for what conversion loses. -/
theorem le_roundUnits_product
    (hfinite : ((ofNat n).product y).units < (infinity false).units)
    (hy : one.magnitudeBits < y.magnitudeBits) :
    n ≤ ((ofNat n).product y).roundUnits := by
  have hgrown : (ofNat n).units ≤ ((ofNat n).product y).units :=
    units_le_units_product (magnitudeBits_ofNat_le n) (units_mono (Nat.le_of_lt hy))
  rcases Nat.lt_or_ge n (Nat.pow 2 (fractionWidth + 1)) with hlt | hge
  · refine le_roundUnits (Nat.le_trans (Nat.le_of_eq ?_) hgrown)
    exact ((fits_of_lt hlt).units_ofNat (Nat.lt_of_le_of_lt hgrown hfinite)).symm
  -- The multiple of the gap above is a number of the format, and growth reaches it from below.
  · obtain ⟨significand, hlower, hupper, hbelow, habove⟩ :=
      exists_significand (Nat.le_trans (by decide) hge)
    have hunits := units_ofNat_mono hbelow
    rw [Fits.units_ofNat (fits_of_le (Nat.le_of_lt hupper))
      (Nat.lt_of_le_of_lt (Nat.le_trans hunits hgrown) hfinite)] at hunits
    have hstep : (significand + 1) * Nat.pow 2 (gap n) * Nat.pow 2 scale ≤
        significand * Nat.pow 2 (gap n) * (Nat.pow 2 scale + Nat.pow 2 (scale - fractionWidth)) :=
      step_le_mul hlower _
    refine Nat.le_trans (Nat.le_of_lt habove)
      ((fits_of_le hupper).le_roundUnits_nearest pow_scale_pos hfinite ?_)
    calc
      _ ≤ significand * Nat.pow 2 (gap n) *
          (Nat.pow 2 scale + Nat.pow 2 (scale - fractionWidth)) * Nat.pow 2 scale :=
        Nat.mul_le_mul_right _ hstep
      _ = significand * Nat.pow 2 (gap n) * Nat.pow 2 scale *
          (Nat.pow 2 scale + Nat.pow 2 (scale - fractionWidth)) :=
        Nat.mul_right_comm _ _ _
      _ ≤ (ofNat n).units * y.units := Nat.mul_le_mul hunits (le_units_of_one_lt hy)

end Binary64

end Postbox
