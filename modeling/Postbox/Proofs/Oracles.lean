import Postbox.Proofs.Layers

/-!
# Answers that do not change

A procedure that only asks questions is told nothing new by what it has done itself.  What it comes
to is a matter of the answers alone, and it does not matter who gives them: a file tree, or a system
with links and access rights, of which nothing is known but that it gives the same answer again.
-/

namespace Postbox

/-- Something that answers every request, and the same request always alike. -/
structure Oracle where
  answer : {α : Type} → Request α → α

/-- The answers that a world gives as long as it is what it is. -/
def World.oracle (world : World) : Oracle :=
  ⟨fun request => (world.answer request).1⟩

namespace Procedure

section Consulting

variable {α β : Type}

/-- What a procedure comes to when an oracle answers its requests. -/
def consult (oracle : Oracle) : Procedure α → α
  | done result => result
  | ask request next => (next (oracle.answer request)).consult oracle

/-- How many requests the procedure makes of an oracle. -/
def effort (oracle : Oracle) : Procedure α → Nat
  | done _ => 0
  | ask request next => (next (oracle.answer request)).effort oracle + 1

theorem consult_bind (oracle : Oracle) (procedure : Procedure α) (next : α → Procedure β) :
    (procedure >>= next).consult oracle = (next (procedure.consult oracle)).consult oracle := by
  induction procedure with
  | done _ => rfl
  | ask request rest ih => exact ih (oracle.answer request)

theorem effort_pure (oracle : Oracle) (result : α) :
    (pure result : Procedure α).effort oracle = 0 :=
  rfl

theorem effort_request (oracle : Oracle) (request : Request α) :
    (Procedure.request request).effort oracle = 1 :=
  rfl

theorem effort_bind (oracle : Oracle) (procedure : Procedure α) (next : α → Procedure β) :
    (procedure >>= next).effort oracle =
      procedure.effort oracle + (next (procedure.consult oracle)).effort oracle := by
  induction procedure with
  | done _ => exact (Nat.zero_add _).symm
  | ask request rest ih =>
      exact (congrArg (· + 1) (ih (oracle.answer request))).trans (Nat.add_right_comm _ _ _)

/-- A procedure that only asks questions comes to what the answers at the beginning lead to.  The
induction is over worlds that differ in their logs, since reports are made on the way. -/
theorem Inquires.run_eq
    {procedure : Procedure α} (h : procedure.Inquires) (world : World) :
    (procedure.run world).1 = procedure.consult world.oracle := by
  have hlogged : ∀ log, (procedure.run { world with log }).1 = procedure.consult world.oracle := by
    induction procedure with
    | done result => exact fun _ => rfl
    | ask request rest ih =>
        intro log
        obtain ⟨hanswer, after, hafter⟩ := h.1 world log
        have hstep : (ask request rest).run { world with log } =
            (rest (World.answer { world with log } request).1).run
              (World.answer { world with log } request).2 := rfl
        rw [hstep, hanswer, hafter]
        exact ih _ (h.2 _) after
  exact hlogged world.log

end Consulting

end Procedure

namespace Settings

open Procedure

section Consulting

variable {overrides : Overrides} {directory : Path} {oracle other : Oracle}

theorem consult_readVariables (names : List String) (oracle : Oracle) :
    ∀ name ∈ names,
      (readVariables names).consult oracle name = oracle.answer (.variable name) := by
  induction names with
  | nil => exact fun _ h => by cases h
  | cons first rest ih =>
      intro name hname
      rw [readVariables, consult_bind, consult_bind]
      change (if name = first then _ else (readVariables rest).consult oracle name) = _
      by_cases heq : name = first
      · rw [if_pos heq, heq]
        rfl
      · rw [if_neg heq, ih name ((List.mem_cons.mp hname).resolve_left heq)]

/-- The settings in force are those of the lowest layers under the environment and the overrides,
whoever answers. -/
theorem consult_resolve (overrides : Overrides) (directory : Path) (oracle : Oracle) :
    (resolve overrides directory).consult oracle =
      ((base overrides.file? directory).consult oracle).map fun settings =>
        (settings.under
            (Environment.layer fun name => oracle.answer (.variable name)).1).overridden
          overrides.layer.1 := by
  rw [resolve, consult_bind]
  cases (base overrides.file? directory).consult oracle with
  | error error => rfl
  | ok settings =>
      have hlayer := Environment.layer_congr (consult_readVariables Environment.names oracle)
      simp only [consult_bind, hlayer]
      rfl

/-- The lowest layers depend on the file that is found, and on what it says. -/
theorem consult_base_congr
    (hfind : (find directory).consult oracle = (find directory).consult other)
    (hread : ∀ file, (find directory).consult oracle = some file →
      oracle.answer (.read file) = other.answer (.read file)) :
    (base none directory).consult oracle = (base none directory).consult other := by
  simp only [base, consult_bind, ← hfind]
  cases hfound : (find directory).consult oracle with
  | none => rfl
  | some file =>
      have hload : (load file).consult oracle = (load file).consult other :=
        congrArg (ofContent file) (hread file hfound)
      simp only [consult_bind, ← hload]
      cases (load file).consult oracle <;> simp only [consult_bind] <;> rfl

/-- The settings in force depend on the lowest layers and on the variables that are read. -/
theorem consult_resolve_congr
    (hbase : (base overrides.file? directory).consult oracle =
      (base overrides.file? directory).consult other)
    (hvariables : ∀ name ∈ Environment.names,
      oracle.answer (.variable name) = other.answer (.variable name)) :
    (resolve overrides directory).consult oracle =
      (resolve overrides directory).consult other := by
  rw [consult_resolve, consult_resolve, hbase, Environment.layer_congr hvariables]

end Consulting

end Settings

end Postbox
