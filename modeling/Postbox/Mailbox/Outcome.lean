import Postbox.Mailbox.Action
import Postbox.World

/-!
# Outcomes of actions

What an action comes to in a world, one equation for each way in which actions are put together.
-/

namespace Postbox.Action

/-- The result of an action in a world, and the world afterwards. -/
def outcome {α : Type} (action : Action α) (world : World) : Except MailError α × World :=
  Procedure.run action.run world

@[simp] theorem outcome_pure {α : Type} (a : α) (world : World) :
    outcome (pure a) world = (.ok a, world) :=
  rfl

@[simp] theorem outcome_throw {α : Type} (error : MailError) (world : World) :
    outcome (throw error : Action α) world = (.error error, world) :=
  rfl

theorem outcome_bind {α β : Type} (action : Action α) (next : α → Action β) (world : World) :
    outcome (action >>= next) world =
      match outcome action world with
      | (.ok a, after) => outcome (next a) after
      | (.error error, after) => (.error error, after) := by
  let rest : Except MailError α → Procedure (Except MailError β)
    | .ok a => (next a).run
    | .error error => pure (.error error)
  have h : (action >>= next).run = Procedure.andThen action.run rest := by
    refine congrArg (Procedure.andThen action.run) (funext fun result => ?_)
    cases result <;> rfl
  unfold outcome
  rw [h, Procedure.run_andThen]
  generalize Procedure.run action.run world = result
  obtain ⟨_ | _, _⟩ := result <;> rfl

theorem outcome_tryCatch {α : Type} (action : Action α) (handle : MailError → Action α)
    (world : World) :
    outcome (tryCatch action handle) world =
      match outcome action world with
      | (.ok a, after) => (.ok a, after)
      | (.error error, after) => outcome (handle error) after := by
  let rest : Except MailError α → Procedure (Except MailError α)
    | .ok a => pure (.ok a)
    | .error error => (handle error).run
  have h : (tryCatch action handle).run = Procedure.andThen action.run rest := by
    refine congrArg (Procedure.andThen action.run) (funext fun result => ?_)
    cases result <;> rfl
  unfold outcome
  rw [h, Procedure.run_andThen]
  generalize Procedure.run action.run world = result
  obtain ⟨_ | _, _⟩ := result <;> rfl

@[simp] theorem outcome_ask {α : Type} (request : Request α) (world : World) :
    outcome (ask request) world = (.ok (world.answer request).1, (world.answer request).2) :=
  rfl

@[simp] theorem outcome_attempt {α : Type} (request : Request (Except Fault α)) (world : World) :
    outcome (attempt request) world = (.ok (world.answer request).1, (world.answer request).2) :=
  rfl

@[simp] theorem outcome_report (event : Event) (world : World) :
    outcome (report event) world = (.ok (), { world with log := world.log ++ [event] }) :=
  rfl

theorem outcome_onPath {α : Type} (path : Path) (request : Request (Except Fault α))
    (world : World) :
    outcome (onPath path request) world =
      ((world.answer request).1.mapError (.io path), (world.answer request).2) := by
  unfold onPath
  rw [outcome_bind, outcome_attempt]
  simp only
  cases (world.answer request).1 <;> rfl

end Postbox.Action
