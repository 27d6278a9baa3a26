import Mathlib.Algebra.Order.Field.Rat
import Mathlib.Order.Monotone.Defs
import Mathlib.Tactic.Linarith
import Postbox.Proofs.Growth

/-!
# The ceiling of growing sleeps

Sleeps are compared with the cap as rounded numbers, but the cap they end at is the exact one.  No
grown sleep is above it: a number of the format below the rounded cap rounds to a whole number that
is at most the cap itself.  Growth keeps the order of sleeps, so it takes all of them to the cap in
the same order, and none away from it.
-/

namespace Postbox

namespace Binary64

variable {x : Binary64}

/-- The value of a finite number. -/
def value (x : Binary64) : ℚ :=
  (if x.isNegative then -1 else 1) * (x.units / (Nat.pow 2 scale : ℕ))

/-! ## Numbers of at least one -/

/-- The number before one. -/
theorem units_lt_of_lt_one
    (h : x.magnitudeBits < one.magnitudeBits) :
    x.units < one.units := by
  have hbefore : (⟨0x3FEFFFFFFFFFFFFF⟩ : Binary64).magnitudeBits = one.magnitudeBits - 1 := by
    decide
  calc
    x.units ≤ (⟨0x3FEFFFFFFFFFFFFF⟩ : Binary64).units :=
      units_mono (hbefore ▸ Nat.le_sub_one_of_lt h)
    _ < one.units := by decide +kernel

theorem one_units_le_iff :
    one.units ≤ x.units ↔ one.magnitudeBits ≤ x.magnitudeBits := by
  refine ⟨fun h => ?_, units_mono⟩
  by_contra hless
  exact absurd h (Nat.not_le.mpr (units_lt_of_lt_one (Nat.lt_of_not_le hless)))

theorem one_le_value_iff :
    1 ≤ x.value ↔ x.isNegative = false ∧ one.units ≤ x.units := by
  have hone : one.units = Nat.pow 2 scale := by decide +kernel
  have hpos : (0 : ℚ) < (Nat.pow 2 scale : ℕ) := Nat.cast_pos.mpr pow_scale_pos
  rw [value, hone]
  cases x.isNegative with
  | true =>
      have hunits : (0 : ℚ) ≤ x.units / (Nat.pow 2 scale : ℕ) :=
        div_nonneg (Nat.cast_nonneg _) (Nat.cast_nonneg _)
      simp only [if_true, Bool.true_eq_false, false_and, iff_false, not_le]
      linarith
  | false =>
      simp only [Bool.false_eq_true, if_false, one_mul, true_and]
      rw [le_div_iff₀ hpos, one_mul, Nat.cast_le]

/-- A factor counts if it is finite and not below one. -/
theorem isGrowth_iff :
    x.isGrowth = true ↔ x.isFinite = true ∧ 1 ≤ x.value := by
  simp only [isGrowth, Bool.and_eq_true, Bool.not_eq_true', decide_eq_true_eq, one_le_value_iff,
    one_units_le_iff, and_assoc]

end Binary64

namespace PollPolicy

open Binary64

variable {policy : PollPolicy} {current : Duration}

/-- Longer sleeps are followed by longer ones. -/
theorem nextInterval_mono (policy : PollPolicy) :
    Monotone policy.nextInterval := by
  intro shorter longer hle
  have hgrown : ((ofNat shorter).product policy.factor).units ≤
      ((ofNat longer).product policy.factor).units :=
    units_product_mono (units_ofNat_mono hle) (Nat.le_refl _)
  rcases policy.nextInterval_cases longer with hcap | ⟨hless, hnext⟩
  · rw [hcap]
    exact policy.nextInterval_le_cap shorter
  -- Where the longer sleep stays below the cap, the shorter one does.
  · rw [hnext, nextInterval, if_neg (Nat.not_le.mpr (Nat.lt_of_le_of_lt hgrown hless))]
    exact min_le_min_right _ (roundUnits_mono hgrown)

/-- Once the cap is reached, all further sleeps are the cap. -/
theorem nextIntervals_of_cap_le
    (h : policy.cap ≤ current) (n : Nat) :
    policy.nextIntervals current n = List.replicate n policy.cap := by
  induction n generalizing current with
  | zero => rfl
  | succ n ih =>
      have hnext := nextInterval_of_cap_le h
      rw [nextIntervals, ih (Nat.le_of_eq hnext.symm), hnext, List.replicate_succ]

theorem le_cap_of_mem_nextIntervals
    {n : Nat} {sleep : Duration} (h : sleep ∈ policy.nextIntervals current n) :
    sleep ≤ policy.cap := by
  induction n generalizing current with
  | zero => cases h
  | succ n ih =>
      rcases List.mem_cons.mp h with rfl | hrest
      · exact policy.nextInterval_le_cap current
      · exact ih hrest

/-- A factor that does not count makes no difference to one. -/
theorem factor_of_not_isGrowth
    (h : policy.backoff.isGrowth = false) :
    policy.factor = ({ policy with backoff := .one } : PollPolicy).factor := by
  have hone : one.isGrowth = true := by decide
  rw [factor, factor, h, if_neg Bool.false_ne_true, if_pos hone]

theorem nextInterval_congr
    {other : PollPolicy} (hfactor : policy.factor = other.factor) (hcap : policy.cap = other.cap) :
    policy.nextInterval current = other.nextInterval current := by
  rw [nextInterval, nextInterval, hfactor, hcap]

/-- What the cap does to sleeps, and to a whole run of them. -/
structure Capped (policy : PollPolicy) : Prop where
  le_cap : ∀ current, policy.nextInterval current ≤ max policy.maxInterval policy.interval
  eq_cap : ∀ current, max policy.maxInterval policy.interval ≤ current →
    policy.nextInterval current = max policy.maxInterval policy.interval
  monotone : Monotone policy.nextInterval
  like_one : policy.backoff.isFinite = false ∨ policy.backoff.value < 1 →
    ∀ current, policy.nextInterval current =
      ({ policy with backoff := .one } : PollPolicy).nextInterval current
  bounded : ∀ n, ∀ sleep ∈ policy.sleeps n, sleep ≤ max policy.maxInterval policy.interval
  kept : ∀ current n, max policy.maxInterval policy.interval ≤ current →
    policy.nextIntervals current n = List.replicate n (max policy.maxInterval policy.interval)

/-- Growth never exceeds the cap, ends at exactly the cap and stays there, whatever the factor; and
a factor that is no finite number of at least one is as good as one. -/
theorem growth_is_capped (policy : PollPolicy) : policy.Capped where
  le_cap := policy.nextInterval_le_cap
  eq_cap _ := nextInterval_of_cap_le
  monotone := policy.nextInterval_mono
  like_one hfactor current := by
    refine nextInterval_congr (factor_of_not_isGrowth ?_) rfl
    rw [Bool.eq_false_iff, Ne, isGrowth_iff, not_and_or, Bool.not_eq_true, not_le]
    exact hfactor
  bounded n sleep hsleep := by
    rcases List.mem_cons.mp hsleep with rfl | hrest
    · exact policy.interval_le_cap
    · exact le_cap_of_mem_nextIntervals hrest
  kept _ n h := nextIntervals_of_cap_le h n

/-- The cap is no number of the format, and sleeps grow to the cap all the same. -/
example :
    (⟨9007199254740991, 9007199254740993, ⟨0x3FF0000000000001⟩, none⟩ : PollPolicy).nextInterval
      9007199254740992 = 9007199254740993 := by
  decide +kernel

end PollPolicy

end Postbox
