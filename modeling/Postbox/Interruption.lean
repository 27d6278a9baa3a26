import Postbox.World

/-!
# Interrupted procedures

A procedure can be interrupted between any two of its requests, and a write can be interrupted
halfway.  `Procedure.Reaches` relates the world at the beginning to every world in which the
procedure can be found then.
-/

namespace Postbox.Procedure

/-- The procedure, begun in the first world, can be found in the second one. -/
inductive Reaches {α : Type} : Procedure α → World → World → Prop where
  | start (procedure : Procedure α) (world : World) : Reaches procedure world world
  /-- A request has been answered. -/
  | later {β : Type} (request : Request β) (next : β → Procedure α) (world reached : World)
      (h : Reaches (next (world.answer request).1) (world.answer request).2 reached) :
      Reaches (ask request next) world reached
  /-- Only part of the content has been written. -/
  | torn (path : Path) (content rest : Bytes) (next : Except Fault Unit → Procedure α)
      (world : World) :
      Reaches (ask (.append path (content ++ rest)) next) world
        (world.answer (.append path content)).2

/-- A procedure reaches its end. -/
theorem Reaches.run {α : Type} (procedure : Procedure α) (world : World) :
    Reaches procedure world (procedure.run world).2 := by
  induction procedure generalizing world with
  | done result => exact .start _ _
  | ask request next ih => exact .later _ _ _ _ (ih _ _)

end Postbox.Procedure
