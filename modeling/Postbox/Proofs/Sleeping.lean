import Mathlib.Data.List.Basic
import Postbox.Proofs.Layers

/-!
# Waiting does not spin, and ends at its deadline

Between two looks at an empty mailbox at least a millisecond passes, unless the deadline is nearer
than that.  So a wait of so many seconds takes at most a thousand looks for each of them, and one
more.
-/

namespace Postbox

/-- What a wait may meet with: both depend on the sleeps made so far. -/
structure WaitHistory (α : Type) where
  /-- What the attempt after these sleeps yields. -/
  yields : List Duration → Except MailError α
  /-- The time since the beginning, as the clock reads it after that attempt. -/
  reads : List Duration → Duration

/-- What a wait has done. -/
structure Waited where
  attempts : Nat := 0
  sleeps : List Duration := []

namespace WaitHistory

variable {α : Type}

/-- The routine that meets with the history and keeps a record. -/
def routine (history : WaitHistory α) : PollPolicy.Routine (StateM Waited) α where
  attempt := fun waited =>
    (history.yields waited.sleeps, { waited with attempts := waited.attempts + 1 })
  elapsed := fun waited => (history.reads waited.sleeps, waited)
  sleep _ duration := fun waited => ((), { waited with sleeps := waited.sleeps ++ [duration] })

/-- How a wait ends, and what it has done. -/
def wait (history : WaitHistory α) (policy : PollPolicy) (mailbox : Path) (limit : Nat) :
    Option (Except MailError α) × Waited :=
  policy.wait mailbox history.routine limit {}

/-- A sleep takes the clock forward by at least its length. -/
def Advances (history : WaitHistory α) : Prop :=
  ∀ sleeps duration, history.reads sleeps + duration ≤ history.reads (sleeps ++ [duration])

end WaitHistory

namespace PollPolicy

variable {σ α : Type} {policy : PollPolicy} {mailbox : Path} {interval elapsed duration : Duration}

/-! ## One look at the mailbox -/

/-- A sleep is the interval, or all the time that is left if that is less. -/
theorem pause_eq_ok
    (h : policy.pause mailbox interval elapsed = .ok duration) :
    duration = interval ∨
      ∃ timeout, policy.timeout? = some timeout ∧ elapsed < timeout ∧
        duration = timeout - elapsed := by
  unfold pause at h
  split at h
  · exact .inl (Except.ok.inj h).symm
  · rename_i timeout htimeout
    split at h
    · cases h
    · rename_i hearly
      obtain rfl := Except.ok.inj h
      rcases Nat.le_total interval (timeout - elapsed) with hle | hle
      · exact .inl (Nat.min_eq_left hle)
      · exact .inr ⟨timeout, htimeout, Nat.lt_of_not_le hearly, Nat.min_eq_right hle⟩

/-- Only a deadline that is over ends a wait, and says so. -/
theorem pause_eq_error
    {error : MailError} (h : policy.pause mailbox interval elapsed = .error error) :
    ∃ timeout, policy.timeout? = some timeout ∧ timeout ≤ elapsed ∧
      error = .timeout mailbox elapsed := by
  unfold pause at h
  split at h
  · cases h
  · rename_i timeout htimeout
    split at h
    · rename_i hover
      exact ⟨timeout, htimeout, hover, (Except.error.inj h).symm⟩
    · cases h

/-- Nobody sleeps past the deadline. -/
theorem lt_of_pause_eq_ok
    {timeout : Duration} (htimeout : policy.timeout? = some timeout)
    (h : policy.pause mailbox interval elapsed = .ok duration) :
    elapsed < timeout := by
  simp only [pause, htimeout] at h
  split at h
  · cases h
  · rename_i hearly
    exact Nat.lt_of_not_le hearly

/-- An attempt has been made, and then the clock read. -/
def Routine.look (routine : Routine (StateM σ) α) (state : σ) : Duration × σ :=
  routine.elapsed (routine.attempt state).2

theorem waitFrom_succ (policy : PollPolicy) (mailbox : Path) (routine : Routine (StateM σ) α)
    (limit made : Nat) (interval : Duration) (state : σ) :
    policy.waitFrom mailbox routine (limit + 1) made interval state =
      match (routine.attempt state).1 with
      | .error (.noMessage _) =>
        match policy.pause mailbox interval (routine.look state).1 with
        | .error error => (some (.error error), (routine.look state).2)
        | .ok duration =>
          policy.waitFrom mailbox routine limit (made + 1) (policy.nextInterval interval)
            (routine.sleep (made + 1) duration (routine.look state).2).2
      | result => (some result, (routine.attempt state).2) := by
  rw [waitFrom]
  simp only [bind, StateT.bind, Routine.look]
  obtain ⟨result, after⟩ := routine.attempt state
  cases result with
  | ok a => rfl
  | error error =>
      cases error with
      | noMessage path =>
          simp only [StateT.bind, bind]
          obtain ⟨reading, after⟩ := routine.elapsed after
          simp only
          cases policy.pause mailbox interval reading <;> rfl
      | _ => rfl

/-- The wait is over with an attempt, or goes on after a sleep. -/
theorem waitFrom_cases (policy : PollPolicy) (mailbox : Path) (routine : Routine (StateM σ) α)
    (made : Nat) (interval : Duration) (state : σ) :
    (∃ result after, (after = (routine.attempt state).2 ∨ after = (routine.look state).2) ∧
      ∀ limit, policy.waitFrom mailbox routine (limit + 1) made interval state =
        (some result, after)) ∨
    ∃ duration, policy.pause mailbox interval (routine.look state).1 = .ok duration ∧
      ∀ limit, policy.waitFrom mailbox routine (limit + 1) made interval state =
        policy.waitFrom mailbox routine limit (made + 1) (policy.nextInterval interval)
          (routine.sleep (made + 1) duration (routine.look state).2).2 := by
  have hstep := fun limit => policy.waitFrom_succ mailbox routine limit made interval state
  generalize hresult : (routine.attempt state).1 = result at hstep
  cases result with
  | ok a => exact .inl ⟨_, _, .inl rfl, hstep⟩
  | error error =>
      cases error with
      | noMessage path =>
          cases hpause : policy.pause mailbox interval (routine.look state).1 with
          | error error =>
              simp only [hpause] at hstep
              exact .inl ⟨_, _, .inr rfl, hstep⟩
          | ok duration =>
              simp only [hpause] at hstep
              exact .inr ⟨duration, rfl, hstep⟩
      | _ => exact .inl ⟨_, _, .inl rfl, hstep⟩

/-! ## The whole wait -/

/-- At least a time has passed by the clock of the routine: that stays so, and sleep adds to it. -/
structure Routine.Clocked (routine : Routine (StateM σ) α) (passed : σ → Duration → Prop) :
    Prop where
  attempt : ∀ {state time}, passed state time → passed (routine.attempt state).2 time
  elapsed : ∀ {state time}, passed state time →
    time ≤ (routine.elapsed state).1 ∧ passed (routine.elapsed state).2 (routine.elapsed state).1
  sleep : ∀ {state time} (made : Nat) (duration : Duration), passed state time →
    passed (routine.sleep made duration state).2 (time + duration)

theorem Routine.Clocked.look
    {routine : Routine (StateM σ) α} {passed : σ → Duration → Prop}
    (h : routine.Clocked passed) {state : σ} {time : Duration} (hpassed : passed state time) :
    time ≤ (routine.look state).1 ∧ passed (routine.look state).2 (routine.look state).1 :=
  h.elapsed (h.attempt hpassed)

/-- Where all sleeps have a least length, one look for each of them in the time that is left, and
one more, settle the matter. -/
theorem exists_result_of_clocked
    {routine : Routine (StateM σ) α} {passed : σ → Duration → Prop} {timeout least time : Duration}
    (hclocked : routine.Clocked passed) (htimeout : policy.timeout? = some timeout)
    (hnext : ∀ current, least ≤ current → least ≤ policy.nextInterval current) {looks : Nat}
    (htime : timeout ≤ time + looks * least) {state : σ} (hpassed : passed state time)
    (hinterval : least ≤ interval) (made : Nat) :
    ∃ result after, ∀ limit,
      policy.waitFrom mailbox routine (looks + 1 + limit) made interval state =
        (some result, after) := by
  induction looks generalizing time state interval made with
  | zero =>
      rcases policy.waitFrom_cases mailbox routine made interval state with
        ⟨result, after, -, hwait⟩ | ⟨duration, hpause, -⟩
      · exact ⟨result, after, fun limit => Nat.add_comm limit 1 ▸ hwait limit⟩
      · have hread := (hclocked.look hpassed).1
        have hearly := lt_of_pause_eq_ok htimeout hpause
        rw [Nat.zero_mul, Nat.add_zero] at htime
        exact absurd htime (Nat.not_le.mpr (Nat.lt_of_le_of_lt hread hearly))
  | succ looks ih =>
      rcases policy.waitFrom_cases mailbox routine made interval state with
        ⟨result, after, -, hwait⟩ | ⟨duration, hpause, hwait⟩
      · refine ⟨result, after, fun limit => ?_⟩
        rw [Nat.add_right_comm]
        exact hwait _
      · obtain ⟨hread, hlooked⟩ := hclocked.look hpassed
        have hearly := lt_of_pause_eq_ok htimeout hpause
        -- A full sleep takes one look's share of the time that is left, a shorter one all of it.
        have hleft : timeout ≤ (routine.look state).1 + duration + looks * least := by
          rcases pause_eq_ok hpause with rfl | ⟨other, hother, -, rfl⟩
          · calc
              timeout ≤ time + (looks + 1) * least := htime
              _ = time + least + looks * least := by
                rw [Nat.succ_mul, Nat.add_comm (looks * least), Nat.add_assoc]
              _ ≤ (routine.look state).1 + duration + looks * least :=
                Nat.add_le_add_right (Nat.add_le_add hread hinterval) _
          · obtain rfl := Option.some.inj (htimeout.symm.trans hother)
            rw [Nat.add_sub_of_le (Nat.le_of_lt hearly)]
            exact Nat.le_add_right _ _
        obtain ⟨result, after, hrest⟩ := ih hleft (hclocked.sleep (made + 1) duration hlooked)
          (hnext interval hinterval) (made + 1)
        refine ⟨result, after, fun limit => ?_⟩
        rw [Nat.add_right_comm, hwait, hrest]

end PollPolicy

/-! ## Waiting by a history -/

namespace WaitHistory

variable {α : Type} {history : WaitHistory α} {policy : PollPolicy} {mailbox : Path}
  {interval : Duration} {made : Nat} {waited : Waited}

/-- A sleep of at least a millisecond, or of all the time that was left. -/
def Rests (history : WaitHistory α) (policy : PollPolicy) (before : List Duration)
    (duration : Duration) : Prop :=
  Duration.ofMillis 1 ≤ duration ∨
    ∃ timeout, policy.timeout? = some timeout ∧ history.reads before < timeout ∧
      duration = timeout - history.reads before

/-- All sleeps are rests. -/
def RestsThrough (history : WaitHistory α) (policy : PollPolicy) (sleeps : List Duration) : Prop :=
  ∀ before duration after, sleeps = before ++ duration :: after →
    history.Rests policy before duration

theorem restsThrough_nil (history : WaitHistory α) (policy : PollPolicy) :
    history.RestsThrough policy [] :=
  fun _ _ _ h => absurd h.symm (by simp)

theorem RestsThrough.concat
    {sleeps : List Duration} {duration : Duration} (h : history.RestsThrough policy sleeps)
    (hlast : history.Rests policy sleeps duration) :
    history.RestsThrough policy (sleeps ++ [duration]) := by
  intro before other after heq
  rcases after.eq_nil_or_concat' with rfl | ⟨rest, last, rfl⟩
  · obtain ⟨rfl, hother⟩ := List.append_inj' heq rfl
    obtain rfl := List.singleton_inj.mp hother
    exact hlast
  · rw [← List.cons_append, ← List.append_assoc] at heq
    exact h before other rest (List.append_inj' heq rfl).1

theorem restsThrough_waitFrom
    (hcap : Duration.ofMillis 1 ≤ policy.cap) (hinterval : Duration.ofMillis 1 ≤ interval)
    (h : history.RestsThrough policy waited.sleeps) (limit : Nat) :
    history.RestsThrough policy
      (policy.waitFrom mailbox history.routine limit made interval waited).2.sleeps := by
  induction limit generalizing made interval waited with
  | zero => exact h
  | succ limit ih =>
      rcases policy.waitFrom_cases mailbox history.routine made interval waited with
        ⟨result, after, hafter, hwait⟩ | ⟨duration, hpause, hwait⟩
      · have hsleeps : after.sleeps = waited.sleeps := by rcases hafter with rfl | rfl <;> rfl
        rw [hwait, hsleeps]
        exact h
      · have hrests : history.Rests policy waited.sleeps duration :=
          (PollPolicy.pause_eq_ok hpause).imp_left fun heq => by
            rw [heq]
            exact hinterval
        rw [hwait]
        exact ih (PollPolicy.millisecond_le_nextInterval hcap hinterval) (h.concat hrests)

theorem attempts_waitFrom_le (limit : Nat) :
    (policy.waitFrom mailbox history.routine limit made interval waited).2.attempts ≤
      waited.attempts + limit := by
  induction limit generalizing made interval waited with
  | zero => exact Nat.le_refl _
  | succ limit ih =>
      rcases policy.waitFrom_cases mailbox history.routine made interval waited with
        ⟨result, after, hafter, hwait⟩ | ⟨duration, -, hwait⟩
      · have hattempts : after.attempts = waited.attempts + 1 := by
          rcases hafter with rfl | rfl <;> rfl
        rw [hwait, hattempts]
        omega
      · rw [hwait]
        refine Nat.le_trans ih ?_
        change waited.attempts + 1 + limit ≤ _
        omega

theorem attempts_wait_le (limit : Nat) :
    (history.wait policy mailbox limit).2.attempts ≤ limit :=
  Nat.le_trans (attempts_waitFrom_le limit) (Nat.zero_add limit).le

theorem Advances.clocked
    (h : history.Advances) :
    history.routine.Clocked fun waited time => time ≤ history.reads waited.sleeps where
  attempt := id
  elapsed := fun hpassed => ⟨hpassed, Nat.le_refl _⟩
  sleep := fun _ duration hpassed =>
    Nat.le_trans (Nat.add_le_add_right hpassed duration) (h _ _)

end WaitHistory

/-! ## Waiting in a world -/

section Worlds

variable {α : Type}

/-- What a routine does in a world. -/
def PollPolicy.Routine.inWorlds (routine : PollPolicy.Routine Procedure α) :
    PollPolicy.Routine (StateM World) α where
  attempt := routine.attempt.run
  elapsed := routine.elapsed.run
  sleep made duration := (routine.sleep made duration).run

theorem PollPolicy.run_waitFrom (policy : PollPolicy) (mailbox : Path)
    (routine : PollPolicy.Routine Procedure α) (limit made : Nat) (interval : Duration)
    (world : World) :
    (policy.waitFrom mailbox routine limit made interval).run world =
      policy.waitFrom mailbox routine.inWorlds limit made interval world := by
  induction limit generalizing made interval world with
  | zero => rfl
  | succ limit ih =>
      rw [waitFrom, waitFrom, Procedure.run_bind]
      simp only [bind, StateT.bind, Routine.inWorlds]
      obtain ⟨result, after⟩ := routine.attempt.run world
      cases result with
      | ok a => rfl
      | error error =>
          cases error with
          | noMessage path =>
              simp only [StateT.bind, bind, Procedure.run_andThen]
              obtain ⟨reading, after⟩ := routine.elapsed.run after
              simp only
              cases policy.pause mailbox interval reading with
              | error error => rfl
              | ok duration =>
                  simp only [Procedure.run_andThen, StateT.bind, bind]
                  exact ih _ _ _
          | _ => rfl

theorem World.clock_le_answer (world : World) (request : Request α) :
    world.clock ≤ (world.answer request).2.clock := by
  have hchange : ∀ result, (world.change result).2.clock = world.clock := by
    intro result
    cases result <;> rfl
  cases request with
  | create path => exact (hchange _).ge
  | append path content => exact (hchange _).ge
  | rename source target => exact (hchange _).ge
  | remove path => exact (hchange _).ge
  | sleep duration => exact Nat.le_add_right _ _
  | _ => exact Nat.le_refl _

/-- While time passes, files are put in place, one after the other. -/
theorem World.wait_rel
    {relation : Tree → Tree → Prop} (hrefl : ∀ tree, relation tree tree)
    (htrans : ∀ {a b c}, relation a b → relation b c → relation a c) {world : World}
    (hplace : ∀ arrival ∈ world.arrivals, ∀ tree,
      relation tree (place tree arrival.location arrival.content)) (duration : Duration) :
    relation world.tree (world.wait duration).tree := by
  have hfold : ∀ due ⊆ world.arrivals, ∀ tree, relation tree
      (due.foldl (fun tree arrival => place tree arrival.location arrival.content) tree) := by
    intro due
    induction due with
    | nil => exact fun _ => hrefl
    | cons arrival rest ih =>
        intro hdue tree
        obtain ⟨hfirst, hrest⟩ := List.cons_subset.mp hdue
        exact htrans (hplace arrival hfirst tree) (ih hrest _)
  simp only [wait, List.partition_eq_filter_filter]
  exact hfold _ (List.filter_subset_self _) world.tree

theorem World.arrivals_wait_subset (world : World) (duration : Duration) :
    (world.wait duration).arrivals ⊆ world.arrivals := by
  simp only [wait, List.partition_eq_filter_filter]
  exact List.filter_subset_self _

/-- No procedure turns the clock back. -/
theorem Procedure.clock_le_run (procedure : Procedure α) (world : World) :
    world.clock ≤ (procedure.run world).2.clock := by
  induction procedure generalizing world with
  | done result => exact Nat.le_refl _
  | ask request next ih => exact Nat.le_trans (world.clock_le_answer request) (ih _ _)

theorem Endpoint.clocked_routine (endpoint : Endpoint) (start : Duration) :
    (endpoint.routine start).inWorlds.Clocked fun world time => start + time ≤ world.clock where
  attempt := fun hpassed => Nat.le_trans hpassed (Procedure.clock_le_run _ _)
  elapsed := fun hpassed =>
    have hread := Nat.le_sub_of_add_le' hpassed
    ⟨hread, (Nat.add_sub_of_le (Nat.le_trans (Nat.le_add_right _ _) hpassed)).le⟩
  sleep := fun made duration hpassed => by
    rw [← Nat.add_assoc]
    exact Nat.add_le_add hpassed (Nat.le_add_right _ _)

end Worlds

/-! ## Waiting by resolved settings -/

namespace Settings

variable {α : Type} {settings : Settings}

theorem Workable.millisecond_le_interval
    (h : settings.Workable) :
    Duration.ofMillis 1 ≤ settings.policy.interval :=
  Nat.mul_le_mul_right _ h.interval_pos

theorem Workable.millisecond_le_cap
    (h : settings.Workable) :
    Duration.ofMillis 1 ≤ settings.policy.cap :=
  Nat.le_trans h.millisecond_le_interval (Nat.le_max_right _ _)

/-- A thousand looks for each second, and one more, settle the matter. -/
theorem Workable.exists_result
    (h : settings.Workable) {secs : Nat} (hsecs : settings.timeoutSecs? = some secs) {σ : Type}
    {routine : PollPolicy.Routine (StateM σ) α} {passed : σ → Duration → Prop}
    (hclocked : routine.Clocked passed) {state : σ} (hpassed : passed state 0) (mailbox : Path) :
    ∃ result after, ∀ limit,
      settings.policy.wait mailbox routine (1000 * secs + 1 + limit) state =
        (some result, after) := by
  have htimeout : settings.policy.timeout? = some (Duration.ofSecs secs) := by
    rw [policy, hsecs]
    rfl
  have htime : (secs * 1000000000 : Nat) ≤ 0 + 1000 * secs * (1 * 1000000) := by omega
  exact PollPolicy.exists_result_of_clocked hclocked htimeout
    (fun _ => PollPolicy.millisecond_le_nextInterval h.millisecond_le_cap) htime hpassed
    h.millisecond_le_interval 0

/-- By settings that are in force, every sleep of a wait is of a millisecond at least, or of the time
left until the deadline.  With a deadline, and a clock that goes on at least by the sleeps, a wait is
over after a thousand attempts for each second and one more, in particular in every world. -/
theorem waiting_never_spins
    {overrides : Overrides} {directory : Path} {world : World}
    (h : ((resolve overrides directory).run world).1 = .ok settings) (mailbox : Path)
    (history : WaitHistory α) (limit : Nat) :
    (∀ before duration after,
        (history.wait settings.policy mailbox limit).2.sleeps = before ++ duration :: after →
          0 < duration ∧ (Duration.ofMillis 1 ≤ duration ∨
            ∃ timeout, settings.policy.timeout? = some timeout ∧ history.reads before < timeout ∧
              duration = timeout - history.reads before)) ∧
      ∀ secs, settings.timeoutSecs? = some secs →
        (history.Advances →
          (history.wait settings.policy mailbox limit).2.attempts ≤ 1000 * secs + 1 ∧
            (1000 * secs + 1 ≤ limit →
              ∃ result, (history.wait settings.policy mailbox limit).1 = some result)) ∧
        (1000 * secs + 1 ≤ limit → ∀ (home : Path) (current : World),
          ∃ result, (((settings.endpoint home).waitAndReceive limit).run current).1 =
            some result) := by
  have hworkable := workable_of_run_resolve h
  refine ⟨fun before duration after heq => ?_, fun secs hsecs => ⟨fun hadvances => ?_,
    fun hlimit home current => ?_⟩⟩
  · have hrests := WaitHistory.restsThrough_waitFrom hworkable.millisecond_le_cap
      hworkable.millisecond_le_interval (history.restsThrough_nil settings.policy) limit before
        duration after heq
    refine ⟨?_, hrests⟩
    rcases hrests with hlong | ⟨timeout, -, hearly, rfl⟩
    · exact Nat.lt_of_lt_of_le (by decide) hlong
    · exact Nat.sub_pos_of_lt hearly
  · have hstart : 0 ≤ history.reads ({} : Waited).sleeps := Nat.zero_le _
    obtain ⟨result, after, hwait⟩ :=
      hworkable.exists_result hsecs hadvances.clocked hstart mailbox
    rcases Nat.le_total limit (1000 * secs + 1) with hle | hle
    · refine ⟨Nat.le_trans (WaitHistory.attempts_wait_le limit) hle, fun hlimit => ?_⟩
      obtain rfl := Nat.le_antisymm hle hlimit
      exact ⟨result, congrArg Prod.fst (hwait 0)⟩
    · -- The wait is over before the limit, so it is the wait with the least limit.
      obtain ⟨rest, rfl⟩ := Nat.exists_eq_add_of_le hle
      have hsame : history.wait settings.policy mailbox (1000 * secs + 1 + rest) =
          history.wait settings.policy mailbox (1000 * secs + 1) :=
        (hwait rest).trans (hwait 0).symm
      rw [hsame]
      exact ⟨WaitHistory.attempts_wait_le _, fun _ => ⟨result, congrArg Prod.fst (hwait 0)⟩⟩
  · have hstart : current.clock + 0 ≤ current.clock := Nat.le_refl _
    obtain ⟨result, after, hwait⟩ := hworkable.exists_result hsecs
      ((settings.endpoint home).clocked_routine current.clock) hstart home
    obtain ⟨rest, rfl⟩ := Nat.exists_eq_add_of_le hlimit
    refine ⟨result, ?_⟩
    rw [Endpoint.waitAndReceive, Procedure.run_bind]
    exact congrArg Prod.fst ((PollPolicy.run_waitFrom ..).trans (hwait rest))

/-- A wait of one second, by a clock that only sleeping takes forward. -/
theorem waiting_never_spins_for_a_second :
    let settings : Settings := { timeoutSecs? := some 1 }
    let history : WaitHistory Unit :=
      { yields := fun _ => .error (.noMessage ⟨[]⟩), reads := List.foldl (· + ·) 0 }
    ((resolve { timeoutSecs? := some 1 } ⟨[Path.slash]⟩).run World.blank).1 = .ok settings ∧
      history.Advances ∧ (history.wait settings.policy ⟨[]⟩ 2000).2.attempts ≤ 1001 ∧
        ∃ result, (history.wait settings.policy ⟨[]⟩ 2000).1 = some result := by
  intro settings history
  have h : ((resolve { timeoutSecs? := some 1 } ⟨[Path.slash]⟩).run World.blank).1 =
      .ok settings := by decide +kernel
  have hadvances : history.Advances := fun sleeps duration => by
    change sleeps.foldl (· + ·) 0 + duration ≤ (sleeps ++ [duration]).foldl (· + ·) 0
    rw [List.foldl_append]
    exact Nat.le_refl _
  obtain ⟨hattempts, hresult⟩ :=
    ((waiting_never_spins h ⟨[]⟩ history 2000).2 1 rfl).1 hadvances
  exact ⟨h, hadvances, hattempts, hresult (by decide)⟩

end Settings

end Postbox
