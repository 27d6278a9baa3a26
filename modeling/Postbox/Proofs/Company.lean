import Postbox.Mailbox.Outcome
import Postbox.Mailbox.Receipt

/-!
# Procedures in company

While a procedure sleeps, others are at work.  `Procedure.RunsAmid` relates the beginning of a
procedure to all the ends that it can come to when each of its sleeps is filled with anything that
the others may do.  A procedure that never sleeps takes no notice of them; receiving a message is
one.
-/

namespace Postbox

/-- The request lets time pass. -/
def Request.IsSleep : {α : Type} → Request α → Prop
  | _, .sleep _ => True
  | _, _ => False

namespace Procedure

/-- The procedure, begun in the first world, ends with the result in the last one, if in each of its
sleeps the world changes as `others` allows.  The list holds the worlds before and after every
sleep. -/
inductive RunsAmid (others : World → World → Prop) {α : Type} :
    Procedure α → World → List (World × World) → α → World → Prop where
  | done (result : α) (world : World) : RunsAmid others (done result) world [] result world
  | ask {β : Type} {request : Request β} {next : β → Procedure α} {world after : World}
      {sleeps : List (World × World)} {result : α} (hrequest : ¬request.IsSleep)
      (h : RunsAmid others (next (world.answer request).1) (world.answer request).2 sleeps result
        after) :
      RunsAmid others (ask request next) world sleeps result after
  | sleep {duration : Duration} {next : Unit → Procedure α} {world later after : World}
      {sleeps : List (World × World)} {result : α} (hothers : others world later)
      (h : RunsAmid others (next ()) later sleeps result after) :
      RunsAmid others (ask (.sleep duration) next) world ((world, later) :: sleeps) result after

/-- None of the requests that the procedure can make is for sleep. -/
def NeverSleeps {α : Type} : Procedure α → Prop
  | done _ => True
  | ask request next => ¬request.IsSleep ∧ ∀ answer, (next answer).NeverSleeps

section Company

variable {others : World → World → Prop} {α β : Type} {world after : World}
  {sleeps : List (World × World)} {result : α}

theorem runsAmid_done_iff
    {value : α} :
    RunsAmid others (done value) world sleeps result after ↔
      sleeps = [] ∧ result = value ∧ after = world := by
  constructor
  · intro h
    cases h
    exact ⟨rfl, rfl, rfl⟩
  · rintro ⟨rfl, rfl, rfl⟩
    exact .done _ _

theorem runsAmid_sleep_iff
    {duration : Duration} {done : Unit} :
    RunsAmid others (request (.sleep duration)) world sleeps done after ↔
      sleeps = [(world, after)] ∧ others world after := by
  constructor
  · intro h
    cases h with
    | ask hrequest _ => exact absurd trivial hrequest
    | sleep hothers h =>
        obtain ⟨rfl, -, rfl⟩ := runsAmid_done_iff.mp h
        exact ⟨rfl, hothers⟩
  · rintro ⟨rfl, hothers⟩
    exact .sleep hothers (.done _ _)

/-- A run in a world where what happens during sleep is what others may do is a run among them. -/
theorem exists_runsAmid_run
    (holds : World → Prop)
    (hanswer : ∀ {β : Type} (request : Request β) {world : World},
      holds world → holds (world.answer request).2)
    (hsleep : ∀ duration {world : World},
      holds world → others world (world.answer (.sleep duration)).2)
    (procedure : Procedure α) (h : holds world) :
    ∃ sleeps, RunsAmid others procedure world sleeps (procedure.run world).1
      (procedure.run world).2 := by
  induction procedure generalizing world with
  | done value => exact ⟨[], .done _ _⟩
  | ask request next ih =>
      obtain ⟨sleeps, hrest⟩ := ih (world.answer request).1 (hanswer request h)
      cases request with
      | sleep duration => exact ⟨_, .sleep (hsleep duration h) hrest⟩
      | _ => exact ⟨_, .ask id hrest⟩

/-- Two procedures one after the other come to an end by way of an end of the first one. -/
theorem runsAmid_andThen_iff
    {procedure : Procedure β} {next : β → Procedure α} :
    RunsAmid others (procedure.andThen next) world sleeps result after ↔
      ∃ answer between early late, sleeps = early ++ late ∧
        RunsAmid others procedure world early answer between ∧
          RunsAmid others (next answer) between late result after := by
  constructor
  · intro h
    induction procedure generalizing world sleeps with
    | done value => exact ⟨value, world, [], sleeps, rfl, .done _ _, h⟩
    | ask request rest ih =>
        cases h with
        | ask hrequest h =>
            obtain ⟨answer, between, early, late, rfl, hfirst, hnext⟩ := ih _ h
            exact ⟨answer, between, early, late, rfl, .ask hrequest hfirst, hnext⟩
        | sleep hothers h =>
            obtain ⟨answer, between, early, late, rfl, hfirst, hnext⟩ := ih _ h
            exact ⟨answer, between, _ :: early, late, rfl, .sleep hothers hfirst, hnext⟩
  · rintro ⟨answer, between, early, late, rfl, hfirst, hnext⟩
    induction hfirst with
    | done value world => exact hnext
    | ask hrequest _ ih => exact .ask hrequest (ih hnext)
    | sleep hothers _ ih => exact .sleep hothers (ih hnext)

/-! ## Procedures that never sleep -/

/-- Without sleep nobody else comes in, and the procedure has the one end that it always has. -/
theorem NeverSleeps.runsAmid_iff
    {procedure : Procedure α} (h : procedure.NeverSleeps) :
    RunsAmid others procedure world sleeps result after ↔
      sleeps = [] ∧ procedure.run world = (result, after) := by
  induction procedure generalizing world with
  | done value =>
      rw [runsAmid_done_iff, run, Prod.mk.injEq, @eq_comm _ value, @eq_comm _ world]
  | ask request next ih =>
      rw [run, ← ih _ (h.2 _)]
      constructor
      · intro hruns
        cases hruns with
        | ask hrequest hruns => exact hruns
        | sleep hothers hruns => exact absurd trivial h.1
      · exact fun hruns => .ask h.1 hruns

/-- A first part without sleep is done before anybody else comes in. -/
theorem NeverSleeps.runsAmid_andThen_iff
    {procedure : Procedure β} (h : procedure.NeverSleeps) {next : β → Procedure α} :
    RunsAmid others (procedure.andThen next) world sleeps result after ↔
      RunsAmid others (next (procedure.run world).1) (procedure.run world).2 sleeps result
        after := by
  rw [Procedure.runsAmid_andThen_iff]
  simp only [h.runsAmid_iff]
  constructor
  · rintro ⟨answer, between, early, late, rfl, ⟨rfl, hrun⟩, hnext⟩
    rwa [hrun]
  · exact fun hnext => ⟨_, _, [], sleeps, rfl, ⟨rfl, rfl⟩, hnext⟩

theorem NeverSleeps.andThen
    {procedure : Procedure β} {next : β → Procedure α} (h : procedure.NeverSleeps)
    (hnext : ∀ answer, (next answer).NeverSleeps) :
    (procedure.andThen next).NeverSleeps := by
  induction procedure with
  | done value => exact hnext value
  | ask request rest ih => exact ⟨h.1, fun answer => ih answer (h.2 answer)⟩

theorem neverSleeps_request
    {request : Request α} (h : ¬request.IsSleep) :
    (Procedure.request request).NeverSleeps :=
  ⟨h, fun _ => trivial⟩

end Company

end Procedure

namespace Action

open Procedure

section Company

variable {α β : Type}

theorem neverSleeps_bind
    {first : Action α} {next : α → Action β} (h : NeverSleeps first.run)
    (hnext : ∀ a, NeverSleeps (next a).run) :
    NeverSleeps (first >>= next).run := by
  apply NeverSleeps.andThen h
  intro result
  cases result with
  | ok a => exact hnext a
  | error error => trivial

theorem neverSleeps_ask
    {request : Request α} (h : ¬request.IsSleep) :
    NeverSleeps (ask request).run :=
  (neverSleeps_request h).andThen fun _ => trivial

theorem neverSleeps_report (event : Event) :
    NeverSleeps (report event).run :=
  neverSleeps_ask id

theorem neverSleeps_onPath
    {path : Path} {request : Request (Except Fault α)} (h : ¬request.IsSleep) :
    NeverSleeps (onPath path request).run := by
  apply neverSleeps_bind (neverSleeps_ask h)
  intro answer
  cases answer <;> trivial

end Company

end Action

/-! ## Receivers -/

namespace Mailbox

open Procedure Postbox.Action

theorem neverSleeps_waiting (mailbox : Mailbox) (order : ReceiveOrder) :
    NeverSleeps (mailbox.waiting order).run := by
  have hregular : ∀ names, NeverSleeps (mailbox.regularFiles names).run := by
    intro names
    induction names with
    | nil => trivial
    | cons name rest ih =>
        apply neverSleeps_bind (neverSleeps_ask id)
        intro _
        exact neverSleeps_bind ih fun _ => trivial
  apply neverSleeps_bind (neverSleeps_onPath id)
  intro names
  exact neverSleeps_bind (hregular _) fun _ => trivial

theorem neverSleeps_restore (claim candidate : Path) :
    NeverSleeps (restore claim candidate).run := by
  apply neverSleeps_bind (neverSleeps_ask id)
  intro answer
  cases answer with
  | ok _ => trivial
  | error fault => exact neverSleeps_report _

theorem neverSleeps_consume (claim candidate : Path) :
    NeverSleeps (consume claim candidate).run := by
  have hread : NeverSleeps (readText claim).run := by
    apply neverSleeps_bind (neverSleeps_ask id)
    intro answer
    cases answer with
    | error fault => trivial
    | ok content =>
        simp only
        split <;> trivial
  apply neverSleeps_bind hread
  intro answer
  cases answer with
  | error fault => exact neverSleeps_bind (neverSleeps_restore claim candidate) fun _ => trivial
  | ok body =>
      apply neverSleeps_bind (neverSleeps_onPath id)
      intro _
      exact neverSleeps_bind (neverSleeps_report _) fun _ => trivial

theorem neverSleeps_takeNext (mailbox : Mailbox) (order : ReceiveOrder) :
    NeverSleeps (mailbox.takeNext order).run := by
  apply neverSleeps_bind (neverSleeps_waiting mailbox order)
  intro names
  induction names with
  | nil => trivial
  | cons name rest ih =>
      apply neverSleeps_bind (neverSleeps_ask id)
      intro answer
      cases answer with
      | ok _ => exact neverSleeps_consume _ _
      | error fault =>
          cases fault with
          | notFound => exact neverSleeps_bind (neverSleeps_report _) fun _ => ih
          | _ => trivial

end Mailbox

end Postbox
