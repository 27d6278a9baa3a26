import Mathlib.Logic.Basic
import Postbox.Interruption
import Postbox.Mailbox.Outcome

/-!
# Where an interrupted action can be found

The worlds in which an action can be found, one equation for each way in which actions are put
together.
-/

namespace Postbox

/-- Answering the request has begun and changed the world, but is not done. -/
def Request.Torn : {α : Type} → Request α → World → World → Prop
  | _, .append path content, world, reached =>
    ∃ written, written <+: content ∧ reached = (world.answer (.append path written)).2
  | _, _, _, _ => False

/-- A request that only looks at the world. -/
def Request.Looks {α : Type} (request : Request α) : Prop :=
  ∀ world, (world.answer request).2 = world ∧ ∀ reached, ¬request.Torn world reached

namespace Procedure

theorem reaches_done_iff
    {α : Type} {result : α} {world reached : World} :
    Reaches (done result) world reached ↔ reached = world := by
  constructor
  · intro h
    cases h
    rfl
  · rintro rfl
    exact .start _ _

theorem reaches_ask_iff
    {α β : Type} {request : Request β} {next : β → Procedure α} {world reached : World} :
    Reaches (ask request next) world reached ↔
      reached = world ∨ request.Torn world reached ∨
        Reaches (next (world.answer request).1) (world.answer request).2 reached := by
  constructor
  · intro h
    cases h with
    | start => exact .inl rfl
    | later _ _ _ _ h => exact .inr (.inr h)
    | torn path content rest => exact .inr (.inl ⟨content, List.prefix_append _ _, rfl⟩)
  · rintro (rfl | h | h)
    · exact .start _ _
    · cases request with
      | append path content =>
          obtain ⟨written, ⟨rest, rfl⟩, rfl⟩ := h
          exact .torn _ _ _ _ _
      | _ => exact absurd h id
    · exact .later _ _ _ _ h

/-- An interrupted sequence is found in its first part, or in its second once the first is done. -/
theorem reaches_andThen_iff
    {α β : Type} {procedure : Procedure α} {next : α → Procedure β} {world reached : World} :
    Reaches (procedure.andThen next) world reached ↔
      Reaches procedure world reached ∨
        Reaches (next (procedure.run world).1) (procedure.run world).2 reached := by
  induction procedure generalizing world with
  | done result =>
      rw [andThen, run, reaches_done_iff]
      constructor
      · exact .inr
      · rintro (rfl | h)
        · exact .start _ _
        · exact h
  | ask request rest ih =>
      rw [andThen, reaches_ask_iff, reaches_ask_iff, ih, run, or_assoc, or_assoc]

end Procedure

namespace Action

/-- The action, begun in the first world, can be found in the second one. -/
def Reaches {α : Type} (action : Action α) (world reached : World) : Prop :=
  Procedure.Reaches action.run world reached

section Equations

variable {α β : Type} {world reached : World}

theorem reaches_outcome (action : Action α) (world : World) :
    Reaches action world (outcome action world).2 :=
  Procedure.Reaches.run _ _

@[simp] theorem reaches_pure_iff
    {a : α} :
    Reaches (pure a) world reached ↔ reached = world :=
  Procedure.reaches_done_iff

@[simp] theorem reaches_throw_iff
    {error : MailError} :
    Reaches (throw error : Action α) world reached ↔ reached = world :=
  Procedure.reaches_done_iff

/-- An interrupted pair of steps is found in the first one, or in the second once the first is done
and has led there. -/
theorem reaches_of_run_eq
    {first : Action α} {whole : Action β} {second : Except MailError α → Action β}
    (hrun : whole.run = first.run.andThen fun result => (second result).run) :
    Reaches whole world reached ↔
      Reaches first world reached ∨
        Reaches (second (outcome first world).1) (outcome first world).2 reached := by
  unfold Reaches
  rw [hrun, Procedure.reaches_andThen_iff]
  rfl

theorem reaches_bind_iff
    {action : Action α} {next : α → Action β} :
    Reaches (action >>= next) world reached ↔
      Reaches action world reached ∨
        ∃ a, (outcome action world).1 = .ok a ∧
          Reaches (next a) (outcome action world).2 reached := by
  let second : Except MailError α → Action β
    | .ok a => next a
    | .error error => throw error
  have hrun : (action >>= next).run =
      Procedure.andThen action.run fun result => (second result).run := by
    refine congrArg (Procedure.andThen action.run) (funext fun result => ?_)
    cases result <;> rfl
  rw [reaches_of_run_eq hrun]
  apply or_congr_right'
  intro hnot
  cases hresult : (outcome action world).1 with
  | error error =>
      simp only [second, reaches_throw_iff, reduceCtorEq, false_and, exists_false, iff_false]
      rintro rfl
      exact hnot (reaches_outcome action world)
  | ok a => simp [second]

theorem reaches_tryCatch_iff
    {action : Action α} {handle : MailError → Action α} :
    Reaches (tryCatch action handle) world reached ↔
      Reaches action world reached ∨
        ∃ error, (outcome action world).1 = .error error ∧
          Reaches (handle error) (outcome action world).2 reached := by
  let second : Except MailError α → Action α
    | .ok a => pure a
    | .error error => handle error
  have hrun : (tryCatch action handle).run =
      Procedure.andThen action.run fun result => (second result).run := by
    refine congrArg (Procedure.andThen action.run) (funext fun result => ?_)
    cases result <;> rfl
  rw [reaches_of_run_eq hrun]
  apply or_congr_right'
  intro hnot
  cases hresult : (outcome action world).1 with
  | error error => simp [second]
  | ok a =>
      simp only [second, reaches_pure_iff, reduceCtorEq, false_and, exists_false, iff_false]
      rintro rfl
      exact hnot (reaches_outcome action world)

theorem reaches_ask_iff
    {request : Request α} :
    Reaches (ask request) world reached ↔
      reached = world ∨ request.Torn world reached ∨ reached = (world.answer request).2 := by
  have h : Reaches (ask request) world reached ↔
      Procedure.Reaches (Procedure.ask request fun answer =>
        Procedure.done (.ok answer : Except MailError α)) world reached := Iff.rfl
  rw [h, Procedure.reaches_ask_iff, Procedure.reaches_done_iff]

theorem reaches_onPath_iff
    {path : Path} {request : Request (Except Fault α)} :
    Reaches (onPath path request) world reached ↔
      reached = world ∨ request.Torn world reached ∨ reached = (world.answer request).2 := by
  rw [onPath, reaches_bind_iff, attempt, reaches_ask_iff]
  simp only [outcome_ask, Except.ok.injEq, exists_eq_left']
  cases (world.answer request).1 <;> simp [or_assoc]

end Equations

/-! ## Actions that change nothing -/

/-- The world never changes, wherever the action is interrupted. -/
def Observes {α : Type} (action : Action α) : Prop :=
  ∀ world reached, Reaches action world reached → reached = world

section Observing

variable {α β : Type}

theorem Observes.outcome_eq
    {action : Action α} (h : Observes action) (world : World) :
    (outcome action world).2 = world :=
  h _ _ (reaches_outcome action world)

theorem Observes.reaches_iff
    {action : Action α} (h : Observes action) {world reached : World} :
    Reaches action world reached ↔ reached = world := by
  constructor
  · exact h world reached
  · rintro rfl
    exact .start _ _

theorem observes_pure (a : α) :
    Observes (pure a : Action α) :=
  fun _ _ => reaches_pure_iff.mp

theorem observes_throw (error : MailError) :
    Observes (throw error : Action α) :=
  fun _ _ => reaches_throw_iff.mp

theorem Observes.bind
    {action : Action α} {next : α → Action β} (h : Observes action)
    (hnext : ∀ a, Observes (next a)) :
    Observes (action >>= next) := by
  intro world reached hreaches
  rcases reaches_bind_iff.mp hreaches with hfirst | ⟨a, -, hsecond⟩
  · exact h world reached hfirst
  · rw [h.outcome_eq] at hsecond
    exact hnext a world reached hsecond

theorem observes_ask
    {request : Request α} (h : request.Looks) :
    Observes (ask request) := by
  intro world reached hreaches
  obtain ⟨hanswer, htorn⟩ := h world
  rcases reaches_ask_iff.mp hreaches with rfl | hreached | rfl
  · rfl
  · exact absurd hreached (htorn reached)
  · exact hanswer

theorem observes_onPath
    {path : Path} {request : Request (Except Fault α)} (h : request.Looks) :
    Observes (onPath path request) := by
  apply (observes_ask h).bind
  intro answer
  cases answer with
  | ok answer => exact observes_pure answer
  | error fault => exact observes_throw _

end Observing

end Action

end Postbox
