import Mathlib.Data.Nat.Find
import Mathlib.Order.Bounds.Basic
import Postbox.Proofs.Sleeping

/-!
# What a wait does, attempt by attempt

A wait is decided by two sequences: what its attempts yield, and what the clock reads after each of
them.  It ends with the first attempt that does not find the mailbox empty, or with the first one
after which the deadline is over, whichever comes first; one that is both still counts as received.
Attempts and sleeps take turns, and nobody sleeps past the deadline.
-/

namespace Postbox

/-- What the attempts of a wait yield and what the clock reads after them, numbered from zero. -/
structure Script (α : Type) where
  yields : Nat → Except MailError α
  /-- The time since the beginning. -/
  reads : Nat → Duration

/-- One thing that a wait does. -/
inductive Deed where
  | attempted
  | slept (duration : Duration)
deriving DecidableEq

/-- A record of a wait. -/
structure Diary where
  /-- How many sleeps there have been. -/
  sleeps : Nat := 0
  deeds : List Deed := []

namespace Script

variable {α : Type}

/-- The routine that goes by the script and keeps a diary. -/
def routine (script : Script α) : PollPolicy.Routine (StateM Diary) α where
  attempt := fun diary =>
    (script.yields diary.sleeps, { diary with deeds := diary.deeds ++ [.attempted] })
  elapsed := fun diary => (script.reads diary.sleeps, diary)
  sleep _ duration := fun diary => ((), ⟨diary.sleeps + 1, diary.deeds ++ [.slept duration]⟩)

/-- How a wait with at most `limit` attempts ends, and all that it has done. -/
def wait (script : Script α) (policy : PollPolicy) (mailbox : Path) (limit : Nat) :
    Option (Except MailError α) × List Deed :=
  let (result, diary) := policy.wait mailbox script.routine limit {}
  (result, diary.deeds)

/-- The attempt of that number does not find the mailbox empty. -/
def Settles (script : Script α) (n : Nat) : Prop :=
  ∀ mailbox, script.yields n ≠ .error (.noMessage mailbox)

/-- After the attempt of that number the deadline is over. -/
def Expires (script : Script α) (policy : PollPolicy) (n : Nat) : Prop :=
  ∃ timeout, policy.timeout? = some timeout ∧ timeout ≤ script.reads n

/-- The sleep after the attempt of that number: as long as growth makes it, or all the time that is
left if that is less. -/
def rest (script : Script α) (policy : PollPolicy) (n : Nat) : Duration :=
  match policy.timeout? with
  | none => policy.nextInterval^[n] policy.interval
  | some timeout => min (policy.nextInterval^[n] policy.interval) (timeout - script.reads n)

/-- All that is done before the attempt of that number. -/
def deedsBefore (script : Script α) (policy : PollPolicy) : Nat → List Deed
  | 0 => []
  | n + 1 => script.deedsBefore policy n ++ [.attempted, .slept (script.rest policy n)]

/-- The wait does what its policy says. -/
structure Obeys (script : Script α) (policy : PollPolicy) (mailbox : Path) : Prop where
  /-- Something other than an empty mailbox ends the wait, also when the deadline is over by then. -/
  settled : ∀ k, IsLeast {n | script.Settles n} k →
    (∀ j, IsLeast {n | script.Expires policy n} j → k ≤ j) → ∀ limit, k < limit →
      script.wait policy mailbox limit =
        (some (script.yields k), script.deedsBefore policy k ++ [.attempted])
  expired : ∀ j, IsLeast {n | script.Expires policy n} j →
    (∀ k, IsLeast {n | script.Settles n} k → j < k) → ∀ limit, j < limit →
      script.wait policy mailbox limit =
        (some (.error (.timeout mailbox (script.reads j))),
          script.deedsBefore policy j ++ [.attempted])
  unsettled : ∀ limit, (∀ n < limit, ¬script.Settles n ∧ ¬script.Expires policy n) →
    script.wait policy mailbox limit = (none, script.deedsBefore policy limit)
  ne_noMessage : ∀ limit place,
    (script.wait policy mailbox limit).1 ≠ some (.error (.noMessage place))
  count_attempted : ∀ n, (script.deedsBefore policy n).count .attempted = n
  reads_add_rest_le : ∀ n timeout, policy.timeout? = some timeout → ¬script.Expires policy n →
    script.reads n + script.rest policy n ≤ timeout

section Course

variable {script : Script α} {policy : PollPolicy} {mailbox : Path} {n k limit : Nat}

/-! ## One attempt -/

theorem exists_noMessage_of_not_settles
    (h : ¬script.Settles n) :
    ∃ place, script.yields n = .error (.noMessage place) := by
  by_contra hnone
  exact h fun place heq => hnone ⟨place, heq⟩

theorem pause_of_not_expires
    (h : ¬script.Expires policy n) :
    policy.pause mailbox (policy.nextInterval^[n] policy.interval) (script.reads n) =
      .ok (script.rest policy n) := by
  unfold PollPolicy.pause rest
  cases htimeout : policy.timeout? with
  | none => rfl
  | some timeout =>
      have hearly : ¬timeout ≤ script.reads n := fun hle => h ⟨timeout, htimeout, hle⟩
      exact if_neg hearly

theorem pause_of_expires
    (h : script.Expires policy n) (interval : Duration) :
    policy.pause mailbox interval (script.reads n) =
      .error (.timeout mailbox (script.reads n)) := by
  obtain ⟨timeout, htimeout, hle⟩ := h
  unfold PollPolicy.pause
  rw [htimeout]
  exact if_pos hle

/-! ## The whole wait -/

/-- The diary before the attempt of that number. -/
def diaryBefore (script : Script α) (policy : PollPolicy) (n : Nat) : Diary :=
  ⟨n, script.deedsBefore policy n⟩

/-- As long as no attempt settles the matter and the deadline is not over, the wait goes on. -/
theorem wait_eq_waitFrom
    (h : ∀ n < k, ¬script.Settles n ∧ ¬script.Expires policy n) (limit : Nat) :
    policy.wait mailbox script.routine (k + limit) {} =
      policy.waitFrom mailbox script.routine limit k (policy.nextInterval^[k] policy.interval)
        (script.diaryBefore policy k) := by
  induction k generalizing limit with
  | zero => rw [Nat.zero_add]; rfl
  | succ k ih =>
      obtain ⟨hsettles, hexpires⟩ := h k (Nat.lt_succ_self k)
      obtain ⟨place, hyields⟩ := exists_noMessage_of_not_settles hsettles
      have hattempt : (script.routine.attempt (script.diaryBefore policy k)).1 =
          .error (.noMessage place) := hyields
      have hpause : policy.pause mailbox (policy.nextInterval^[k] policy.interval)
          (script.routine.look (script.diaryBefore policy k)).1 =
            .ok (script.rest policy k) := pause_of_not_expires hexpires
      rw [Nat.add_right_comm, Nat.add_assoc, ih (fun n hn => h n (Nat.lt_succ_of_lt hn)),
        PollPolicy.waitFrom_succ, hattempt]
      simp only [hpause, Function.iterate_succ_apply']
      simp [routine, PollPolicy.Routine.look, diaryBefore, deedsBefore]

theorem wait_of_settles
    (h : ∀ n < k, ¬script.Settles n ∧ ¬script.Expires policy n) (hsettles : script.Settles k)
    (hlimit : k < limit) :
    script.wait policy mailbox limit =
      (some (script.yields k), script.deedsBefore policy k ++ [.attempted]) := by
  obtain ⟨more, rfl⟩ := Nat.exists_eq_add_of_lt hlimit
  rw [wait, Nat.add_assoc, wait_eq_waitFrom h, PollPolicy.waitFrom_succ]
  have hattempt : (script.routine.attempt (script.diaryBefore policy k)).1 = script.yields k := rfl
  cases hyields : script.yields k with
  | ok a => rw [hattempt, hyields]; rfl
  | error error =>
      cases error with
      | noMessage place => exact absurd hyields (hsettles place)
      | _ => rw [hattempt, hyields]; rfl

theorem wait_of_expires
    (h : ∀ n < k, ¬script.Settles n ∧ ¬script.Expires policy n) (hsettles : ¬script.Settles k)
    (hexpires : script.Expires policy k) (hlimit : k < limit) :
    script.wait policy mailbox limit =
      (some (.error (.timeout mailbox (script.reads k))),
        script.deedsBefore policy k ++ [.attempted]) := by
  obtain ⟨more, rfl⟩ := Nat.exists_eq_add_of_lt hlimit
  obtain ⟨place, hyields⟩ := exists_noMessage_of_not_settles hsettles
  have hattempt : (script.routine.attempt (script.diaryBefore policy k)).1 =
      .error (.noMessage place) := hyields
  have hpause : policy.pause mailbox (policy.nextInterval^[k] policy.interval)
      (script.routine.look (script.diaryBefore policy k)).1 =
        .error (.timeout mailbox (script.reads k)) := pause_of_expires hexpires _
  rw [wait, Nat.add_assoc, wait_eq_waitFrom h, PollPolicy.waitFrom_succ, hattempt]
  simp only [hpause]
  rfl

theorem wait_of_unsettled
    (h : ∀ n < limit, ¬script.Settles n ∧ ¬script.Expires policy n) :
    script.wait policy mailbox limit = (none, script.deedsBefore policy limit) := by
  have hwait : policy.wait mailbox script.routine (limit + 0) {} = _ := wait_eq_waitFrom h 0
  rw [Nat.add_zero] at hwait
  rw [wait, hwait]
  rfl

/-- A wait has come to nothing yet, or has been ended by an attempt or by the deadline. -/
theorem wait_cases (script : Script α) (policy : PollPolicy) (mailbox : Path) (limit : Nat) :
    (script.wait policy mailbox limit).1 = none ∨
      (∃ k, script.Settles k ∧
        (script.wait policy mailbox limit).1 = some (script.yields k)) ∨
      ∃ j, (script.wait policy mailbox limit).1 =
        some (.error (.timeout mailbox (script.reads j))) := by
  classical
  by_cases hover : ∃ n, n < limit ∧ (script.Settles n ∨ script.Expires policy n)
  · -- The first attempt that ends the wait decides how it ends.
    obtain ⟨hlimit, hends⟩ := Nat.find_spec hover
    have hbefore : ∀ n < Nat.find hover, ¬script.Settles n ∧ ¬script.Expires policy n := by
      intro n hn
      have hgoes := Nat.find_min hover hn
      rw [not_and, not_or] at hgoes
      exact hgoes (Nat.lt_trans hn hlimit)
    by_cases hsettles : script.Settles (Nat.find hover)
    · rw [wait_of_settles hbefore hsettles hlimit]
      exact .inr (.inl ⟨_, hsettles, rfl⟩)
    · rw [wait_of_expires hbefore hsettles (hends.resolve_left hsettles) hlimit]
      exact .inr (.inr ⟨_, rfl⟩)
  · left
    have hgoes : ∀ n < limit, ¬script.Settles n ∧ ¬script.Expires policy n := by
      intro n hn
      rw [← not_or]
      exact fun hends => hover ⟨n, hn, hends⟩
    rw [wait_of_unsettled hgoes]

theorem count_deedsBefore (script : Script α) (policy : PollPolicy) (n : Nat) :
    (script.deedsBefore policy n).count .attempted = n := by
  induction n with
  | zero => rfl
  | succ n ih => simp [deedsBefore, List.count_append, ih]

theorem reads_add_rest_le
    {timeout : Duration} (htimeout : policy.timeout? = some timeout)
    (h : ¬script.Expires policy n) :
    script.reads n + script.rest policy n ≤ timeout := by
  have hearly : script.reads n < timeout :=
    Nat.lt_of_not_le fun hle => h ⟨timeout, htimeout, hle⟩
  have hrest : script.rest policy n ≤ timeout - script.reads n := by
    rw [rest, htimeout]
    exact Nat.min_le_right _ _
  rw [Nat.add_comm]
  exact Nat.add_le_of_le_sub (Nat.le_of_lt hearly) hrest

/-- An index before the least one has not the property. -/
theorem not_of_lt_isLeast
    {p : Nat → Prop} (h : IsLeast {n | p n} k) (hn : n < k) :
    ¬p n :=
  fun hp => Nat.not_le.mpr hn (h.2 hp)

/-- What has a property at all has it at a least index, so what comes before all least indices comes
before all indices. -/
theorem not_of_lt_of_isLeast
    {p : Nat → Prop} (h : ∀ j, IsLeast {n | p n} j → k ≤ j) (hn : n < k) :
    ¬p n := by
  classical
  intro hp
  have hsome : ∃ n, p n := ⟨n, hp⟩
  have hleast : IsLeast {n | p n} (Nat.find hsome) :=
    ⟨Nat.find_spec hsome, fun _ hother => Nat.find_min' hsome hother⟩
  have hle := Nat.le_trans (h _ hleast) (Nat.find_min' hsome hp)
  omega

end Course

/-- A wait ends with the first attempt that does not find the mailbox empty, unless the deadline was
over after an earlier one; then it ends with the first attempt of that kind. -/
theorem wait_obeys_policy (script : Script α) (policy : PollPolicy) (mailbox : Path) :
    script.Obeys policy mailbox where
  settled k hleast hdeadline limit hlimit :=
    wait_of_settles
      (fun _ hn => ⟨not_of_lt_isLeast hleast hn, not_of_lt_of_isLeast hdeadline hn⟩)
      hleast.1 hlimit
  expired j hleast hsettled limit hlimit := by
    have hnot : ∀ n ≤ j, ¬script.Settles n := fun n hn =>
      not_of_lt_of_isLeast (fun k hk => Nat.succ_le_of_lt (hsettled k hk)) (Nat.lt_succ_of_le hn)
    exact wait_of_expires
      (fun n hn => ⟨hnot n (Nat.le_of_lt hn), not_of_lt_isLeast hleast hn⟩)
      (hnot j (Nat.le_refl j)) hleast.1 hlimit
  unsettled _ h := wait_of_unsettled h
  ne_noMessage limit place heq := by
    rcases script.wait_cases policy mailbox limit with hnone | ⟨k, hsettles, hyields⟩ | ⟨j, hover⟩
    · rw [hnone] at heq
      cases heq
    · rw [hyields] at heq
      exact hsettles place (Option.some.inj heq)
    · rw [hover] at heq
      cases heq
  count_attempted := script.count_deedsBefore policy
  reads_add_rest_le _ _ := reads_add_rest_le

/-- A message that is there when the deadline is reached is still received. -/
theorem wait_obeys_policy_at_deadline :
    let script : Script String :=
      { yields := fun n => if n = 0 then .error (.noMessage ⟨[]⟩) else .ok "hi", reads := (3 * ·) }
    let policy := (PollPolicy.fixed 2).withTimeout 3
    IsLeast {n | script.Settles n} 1 ∧ IsLeast {n | script.Expires policy n} 1 ∧
      script.wait policy ⟨[]⟩ 5 = (some (.ok "hi"), [.attempted, .slept 2, .attempted]) := by
  intro script policy
  have hsettles : IsLeast {n | script.Settles n} 1 := by
    refine ⟨fun place heq => (by cases heq), fun n hn => ?_⟩
    rw [Nat.one_le_iff_ne_zero]
    rintro rfl
    exact hn _ rfl
  have hexpires : IsLeast {n | script.Expires policy n} 1 := by
    refine ⟨⟨3, rfl, Nat.le_refl 3⟩, fun n hn => ?_⟩
    rw [Nat.one_le_iff_ne_zero]
    rintro rfl
    obtain ⟨timeout, htimeout, hle⟩ := hn
    cases htimeout
    exact absurd hle (by decide)
  have hwait := (wait_obeys_policy script policy ⟨[]⟩).settled 1 hsettles
    (fun j hj => (hexpires.unique hj).le) 5 (by decide)
  exact ⟨hsettles, hexpires, hwait⟩

end Script

end Postbox
