import Postbox.Config.Settings
import Postbox.Proofs.Exactness

/-!
# Growing sleeps

A sleep is shorter than the one before it in two cases only, and in neither is the cap reached: no
grown sleep has more than 64 bits of nanoseconds, and a factor of one leaves a sleep as its
conversion rounds it.  What comes out is a length that the next growth keeps, so a run of sleeps can
fall at its first step and never again.
-/

namespace Postbox

namespace PollPolicy

open Binary64

variable {policy : PollPolicy} {least current : Duration}

/-! ## One step -/

theorem factor_eq_one_or (policy : PollPolicy) :
    policy.factor = .one ∨ one.magnitudeBits < policy.factor.magnitudeBits := by
  unfold factor
  split
  case isFalse => exact .inl rfl
  case isTrue hgrowth =>
    simp only [isGrowth, isNegative, Bool.and_eq_true, Bool.not_eq_true', decide_eq_false_iff_not,
      decide_eq_true_eq, Nat.not_le] at hgrowth
    obtain ⟨⟨-, hpositive⟩, hle⟩ := hgrowth
    refine (Nat.lt_or_eq_of_le hle).symm.imp_left fun heq => ?_
    have hbits : policy.backoff.bits.toNat = one.bits.toNat := by
      rw [magnitudeBits, magnitudeBits, Nat.mod_eq_of_lt (by decide),
        Nat.mod_eq_of_lt hpositive] at heq
      exact heq.symm
    exact congrArg Binary64.mk (UInt64.toNat_inj.mp hbits)

/-- The next sleep is the cap, or a grown length that is rounded and bounded. -/
theorem nextInterval_cases (policy : PollPolicy) (current : Duration) :
    policy.nextInterval current = policy.cap ∨
      ((ofNat current).product policy.factor).units < (ofNat policy.cap).units ∧
        policy.nextInterval current =
          min ((ofNat current).product policy.factor).roundUnits longest := by
  rw [nextInterval]
  split
  case isTrue => exact .inl rfl
  case isFalse hless => exact .inr ⟨Nat.lt_of_not_le hless, rfl⟩

theorem nextInterval_le_cap (policy : PollPolicy) (current : Duration) :
    policy.nextInterval current ≤ policy.cap := by
  rcases policy.nextInterval_cases current with hcap | ⟨hless, hnext⟩
  · exact Nat.le_of_eq hcap
  · rw [hnext]
    exact Nat.le_trans (Nat.min_le_left _ _) (roundUnits_le (magnitudeBits_nearest_le _ _) hless)

/-- Sleeps stay at the cap. -/
theorem nextInterval_of_cap_le
    (h : policy.cap ≤ current) :
    policy.nextInterval current = policy.cap := by
  rw [nextInterval, if_pos]
  exact Nat.le_trans (units_ofNat_mono h)
    (units_le_units_product (magnitudeBits_ofNat_le current) policy.one_units_le_factor)

theorem units_ofNat_lt_of_le_longest
    (h : current ≤ longest) :
    (ofNat current).units < (infinity false).units :=
  Nat.lt_of_le_of_lt (units_ofNat_mono h) (by decide +kernel)

theorem units_lt_of_lt_ofNat
    {x : Binary64} {n : Nat} (h : x.units < (ofNat n).units) :
    x.units < (infinity false).units :=
  Nat.lt_of_lt_of_le h (units_mono (magnitudeBits_ofNat_le n))

/-! ## Lengths that growth keeps -/

theorem fits_le_nextInterval
    (hfits : Fits least) (hlongest : least ≤ longest) (hcap : least ≤ policy.cap)
    (hcurrent : least ≤ current) :
    least ≤ policy.nextInterval current := by
  refine le_nextInterval (Nat.le_of_eq (roundUnits_eq ?_).symm) hlongest hcap hcurrent
  rw [units_product_one (magnitudeBits_ofNat_le least)]
  exact hfits.units_ofNat (units_ofNat_lt_of_le_longest hlongest)

theorem longest_le_nextInterval
    (hcap : longest ≤ policy.cap) (hcurrent : longest ≤ current) :
    longest ≤ policy.nextInterval current :=
  le_nextInterval (by decide +kernel) (Nat.le_refl _) hcap hcurrent

/-- A sleep that growth has led to is not followed by a shorter one. -/
theorem nextInterval_le_nextInterval (policy : PollPolicy) (current : Duration) :
    policy.nextInterval current ≤ policy.nextInterval (policy.nextInterval current) := by
  have hcap := policy.nextInterval_le_cap current
  -- The cap, a rounded number and the greatest length of 64 bits are all kept, each for a reason of
  -- its own: the last two need not be near the cap, and neither the first nor the last need fit.
  rcases policy.nextInterval_cases current with heq | ⟨-, heq⟩
  · rw [nextInterval_of_cap_le (Nat.le_of_eq heq.symm)]
    exact hcap
  · rcases Nat.le_total ((ofNat current).product policy.factor).roundUnits longest with hle | hle
    · rw [Nat.min_eq_left hle] at heq
      exact fits_le_nextInterval (heq ▸ fits_roundUnits _) (heq ▸ hle) hcap (Nat.le_refl _)
    · rw [Nat.min_eq_right hle] at heq
      rw [heq] at hcap ⊢
      exact longest_le_nextInterval hcap (Nat.le_refl _)

/-! ## Lengths that growth does not keep -/

/-- What one growth takes away at most. -/
theorem min_le_nextInterval
    (hcap : current ≤ policy.cap) :
    min (current - current / 2 ^ 53) longest ≤ policy.nextInterval current := by
  rcases Nat.le_total current longest with hle | hle
  · rcases policy.nextInterval_cases current with heq | ⟨-, heq⟩
    · rw [heq]
      exact Nat.le_trans (Nat.min_le_left _ _) (Nat.le_trans (Nat.sub_le _ _) hcap)
    · have hlost := le_roundUnits_ofNat_add (units_ofNat_lt_of_le_longest hle)
      have hgrown := roundUnits_mono
        (units_le_units_product (magnitudeBits_ofNat_le current) policy.one_units_le_factor)
      rw [heq]
      refine Nat.le_min.mpr ⟨Nat.le_trans (Nat.min_le_left _ _) ?_, Nat.min_le_right _ _⟩
      exact Nat.le_trans (Nat.sub_le_iff_le_add.mpr hlost) hgrown
  · exact Nat.le_trans (Nat.min_le_right _ _) (longest_le_nextInterval (Nat.le_trans hle hcap) hle)

theorem nextInterval_lt_iff
    (hcap : current ≤ policy.cap) :
    policy.nextInterval current < current ↔
      policy.nextInterval current ≠ policy.cap ∧
        (longest < current ∨ policy.factor = .one ∧ (ofNat current).roundUnits < current) := by
  constructor
  · intro hless
    have hne : policy.nextInterval current ≠ policy.cap :=
      Nat.ne_of_lt (Nat.lt_of_lt_of_le hless hcap)
    refine ⟨hne, ?_⟩
    obtain ⟨hgrown, heq⟩ := (policy.nextInterval_cases current).resolve_left hne
    rcases Nat.lt_or_ge longest current with hlong | hshort
    · exact .inl hlong
    · have hround : ((ofNat current).product policy.factor).roundUnits < current := by
        rw [heq] at hless
        exact (min_lt_iff.mp hless).resolve_right (Nat.not_lt.mpr hshort)
      -- A greater factor adds at least a gap, which is more than the conversion has lost.
      have hone : policy.factor = .one := by
        refine policy.factor_eq_one_or.resolve_right fun hlarger => ?_
        exact absurd hround
          (Nat.not_lt.mpr (le_roundUnits_product (units_lt_of_lt_ofNat hgrown) hlarger))
      rw [hone, roundUnits_product_one] at hround
      exact .inr ⟨hone, hround⟩
  · rintro ⟨hne, hlong | ⟨hone, hround⟩⟩
    all_goals obtain ⟨-, heq⟩ := (policy.nextInterval_cases current).resolve_left hne
    · rw [heq]
      exact Nat.lt_of_le_of_lt (Nat.min_le_right _ _) hlong
    · rw [heq, hone, roundUnits_product_one]
      exact Nat.lt_of_le_of_lt (Nat.min_le_left _ _) hround

/-! ## Runs of sleeps -/

/-- The first sleep and the next ones. -/
def sleeps (policy : PollPolicy) (n : Nat) : List Duration :=
  policy.interval :: policy.nextIntervals policy.interval n

/-- What one growth does not lower, later ones do not lower either. -/
theorem le_of_mem_nextIntervals
    {n : Nat} {sleep : Duration} (h : least ≤ policy.nextInterval current)
    (hsleep : sleep ∈ policy.nextIntervals current n) :
    least ≤ sleep := by
  induction n generalizing current with
  | zero => cases hsleep
  | succ n ih =>
    rcases List.mem_cons.mp hsleep with rfl | hrest
    · exact h
    · exact ih (Nat.le_trans h (policy.nextInterval_le_nextInterval current)) hrest

theorem pairwise_nextIntervals (policy : PollPolicy) (current : Duration) (n : Nat) :
    (policy.nextIntervals current n).Pairwise (· ≤ ·) := by
  induction n generalizing current with
  | zero => exact .nil
  | succ n ih =>
    refine .cons (fun sleep hsleep => ?_) (ih _)
    exact le_of_mem_nextIntervals (policy.nextInterval_le_nextInterval current) hsleep

/-- A run of sleeps is in order once its first step is. -/
theorem pairwise_sleeps
    (h : policy.interval ≤ policy.nextInterval policy.interval) (n : Nat) :
    (policy.sleeps n).Pairwise (· ≤ ·) :=
  .cons (fun _ => le_of_mem_nextIntervals h) (policy.pairwise_nextIntervals _ _)

theorem interval_le_cap (policy : PollPolicy) :
    policy.interval ≤ policy.cap :=
  Nat.le_max_right _ _

theorem pairwise_sleeps_of_fits
    (hfits : Fits policy.interval) (hlongest : policy.interval ≤ longest) (n : Nat) :
    (policy.sleeps n).Pairwise (· ≤ ·) :=
  pairwise_sleeps (fits_le_nextInterval hfits hlongest policy.interval_le_cap (Nat.le_refl _)) n

/-- Eighteen years of whole milliseconds have a short significand in nanoseconds. -/
theorem fits_ofMillis
    {ms : Nat} (h : ms ≤ 576460752303) :
    Fits (Duration.ofMillis ms) := by
  have hfactor : Duration.ofMillis ms = ms * 15625 * Nat.pow 2 6 := by
    rw [Duration.ofMillis, Nat.mul_assoc]
  have hwidth : Nat.pow 2 (fractionWidth + 1) = 9007199254740992 := by decide
  rw [hfactor]
  exact fits_of_le (by omega)

/-- What growth does to sleeps, and to a whole run of them. -/
structure Growth (policy : PollPolicy) : Prop where
  shortened_iff : ∀ current ≤ policy.cap,
    policy.nextInterval current < current ↔
      policy.nextInterval current ≠ policy.cap ∧
        (longest < current ∨ policy.factor = .one ∧ (ofNat current).roundUnits < current)
  shortened_to : ∀ current ≤ policy.cap,
    min (current - current / 2 ^ 53) longest ≤ policy.nextInterval current
  kept : ∀ current ≤ policy.cap, Fits current → current ≤ longest →
    current ≤ policy.nextInterval current
  settled : ∀ current n, (policy.nextIntervals current n).Pairwise (· ≤ ·)
  increasing_iff : ∀ n, (policy.sleeps (n + 1)).Pairwise (· ≤ ·) ↔
    policy.interval ≤ policy.nextInterval policy.interval
  increasing_of_millis : ∀ ms ≤ 576460752303, policy.interval = .ofMillis ms →
    ∀ n, (policy.sleeps n).Pairwise (· ≤ ·)
  bounded : ∀ n, ∀ sleep ∈ policy.sleeps n,
    min (policy.interval - policy.interval / 2 ^ 53) longest ≤ sleep

/-- Growth shortens a sleep only where the cap is not reached and either the sleep has more than 64
bits of nanoseconds, or the factor is one and the sleep is rounded down. -/
theorem growth (policy : PollPolicy) : policy.Growth where
  shortened_iff _ := nextInterval_lt_iff
  shortened_to _ := min_le_nextInterval
  kept _ hcap hfits hlongest := fits_le_nextInterval hfits hlongest hcap (Nat.le_refl _)
  settled := policy.pairwise_nextIntervals
  increasing_iff n := by
    refine ⟨fun h => ?_, fun h => pairwise_sleeps h _⟩
    exact (List.pairwise_cons.mp h).1 _ List.mem_cons_self
  increasing_of_millis ms hms hinterval := by
    refine pairwise_sleeps_of_fits (hinterval ▸ fits_ofMillis hms) ?_
    have hlongest : longest = 18446744073709551615 := rfl
    rw [hinterval, Duration.ofMillis, hlongest]
    exact Nat.le_trans (Nat.mul_le_mul_right _ hms) (by decide)
  bounded n sleep hsleep := by
    rcases List.mem_cons.mp hsleep with rfl | hrest
    · exact Nat.le_trans (Nat.min_le_left _ _) (Nat.sub_le _ _)
    · exact le_of_mem_nextIntervals (min_le_nextInterval policy.interval_le_cap) hrest

/-- Sleeps that get shorter: one that rounding takes a nanosecond from, and one that 64 bits do not
hold, both in a policy and in one that settings ask for. -/
theorem sleeps_get_shorter :
    (⟨9007199254740993, 18014398509481984, .one, none⟩ : PollPolicy).sleeps 1 =
        [9007199254740993, 9007199254740992] ∧
      (⟨18446744073709551616, 73786976294838206464, ⟨0x4000000000000000⟩, none⟩ :
          PollPolicy).sleeps 1 =
        [18446744073709551616, 18446744073709551615] ∧
      ({ intervalMs := 18446744073710, maxIntervalMs? := some 36893488147420 } :
          Settings).policy.sleeps 1 =
        [18446744073710000000, 18446744073709551615] := by
  decide +kernel

end PollPolicy

end Postbox
