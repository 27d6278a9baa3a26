import Postbox.Command.Execution
import Postbox.Mailbox.Outcome
import Postbox.Proofs.Mailboxes

/-!
# What a run of the program does before it acts

Before a command acts on the mailbox it finds out its directory and its settings.  That changes no
file, so the command acts on the mailbox as the caller left it.
-/

namespace Postbox

/-- The request is a question: all that it can change is the log, which makes no difference to the
answer. -/
def Request.IsQuestion {α : Type} (request : Request α) : Prop :=
  ∀ (world : World) (log : List Event),
    (World.answer { world with log } request).1 = (world.answer request).1 ∧
      ∃ after, (World.answer { world with log } request).2 = { world with log := after }

namespace Procedure

/-- The procedure makes no request that is not a question. -/
def Inquires {α : Type} : Procedure α → Prop
  | done _ => True
  | ask request next => request.IsQuestion ∧ ∀ answer, (next answer).Inquires

/-- All that the procedure changes is the log. -/
def OnlyReports {α : Type} (procedure : Procedure α) : Prop :=
  ∀ world, ∃ log, (procedure.run world).2 = { world with log }

section Inquiring

variable {α β : Type}

theorem run_bind (procedure : Procedure α) (next : α → Procedure β) (world : World) :
    (procedure >>= next).run world = (next (procedure.run world).1).run (procedure.run world).2 :=
  run_andThen procedure next world

theorem inquires_done (result : α) :
    (done result).Inquires :=
  trivial

theorem inquires_request
    {request : Request α} (h : request.IsQuestion) :
    (Procedure.request request).Inquires :=
  ⟨h, inquires_done⟩

theorem inquires_report (event : Event) :
    (Procedure.request (.report event)).Inquires :=
  inquires_request fun _ _ => ⟨rfl, _, rfl⟩

theorem Inquires.andThen
    {procedure : Procedure α} {next : α → Procedure β} (h : procedure.Inquires)
    (hnext : ∀ a, (next a).Inquires) :
    (procedure.andThen next).Inquires := by
  induction procedure with
  | done result => exact hnext result
  | ask request rest ih => exact ⟨h.1, fun answer => ih answer (h.2 answer)⟩

theorem Inquires.onlyReports
    {procedure : Procedure α} (h : procedure.Inquires) :
    procedure.OnlyReports := by
  induction procedure with
  | done result => exact fun world => ⟨world.log, rfl⟩
  | ask request rest ih =>
      intro world
      obtain ⟨-, after, hafter⟩ := h.1 world world.log
      obtain ⟨log, hlog⟩ := ih (world.answer request).1 (h.2 _) { world with log := after }
      refine ⟨log, Eq.trans ?_ hlog⟩
      exact congrArg (fun next => ((rest (world.answer request).1).run next).2) hafter

end Inquiring

end Procedure

namespace Settings

open Procedure

theorem inquires_findIn (directories : List Path) :
    (findIn directories).Inquires := by
  induction directories with
  | nil => exact inquires_done none
  | cons directory rest ih =>
      apply (inquires_request fun _ _ => ⟨rfl, _, rfl⟩).andThen
      intro isFile
      cases isFile with
      | true => exact inquires_done _
      | false =>
          apply (inquires_request fun _ _ => ⟨rfl, _, rfl⟩).andThen
          intro marked
          cases marked with
          | true => exact inquires_done _
          | false => exact ih

theorem inquires_find (directory : Path) :
    (find directory).Inquires :=
  inquires_findIn directory.ancestors

theorem inquires_load (path : Path) :
    (load path).Inquires :=
  (inquires_request fun _ _ => ⟨rfl, _, rfl⟩).andThen fun _ => inquires_done _

theorem inquires_warn (warnings : List SettingsWarning) :
    (warn warnings).Inquires := by
  induction warnings with
  | nil => exact inquires_done ()
  | cons warning rest ih => exact (inquires_report _).andThen fun _ => ih

theorem inquires_readVariables (names : List String) :
    (readVariables names).Inquires := by
  induction names with
  | nil => exact inquires_done _
  | cons name rest ih =>
      apply (inquires_request fun _ _ => ⟨rfl, _, rfl⟩).andThen
      intro _
      exact ih.andThen fun _ => inquires_done _

theorem inquires_base (file? : Option Path) (directory : Path) :
    (base file? directory).Inquires := by
  cases file? with
  | some file => exact inquires_load file
  | none =>
      apply (inquires_find directory).andThen
      intro found
      cases found with
      | none => exact inquires_done _
      | some file =>
          apply (inquires_load file).andThen
          intro loaded
          cases loaded with
          | ok settings => exact inquires_done _
          | error error => exact (inquires_warn _).andThen fun _ => inquires_done _

/-- Whoever finds out the settings only asks questions. -/
theorem inquires_resolve (overrides : Overrides) (directory : Path) :
    (resolve overrides directory).Inquires := by
  apply (inquires_base _ _).andThen
  intro found
  cases found with
  | error error => exact inquires_done _
  | ok settings =>
      apply (inquires_readVariables _).andThen
      intro _
      exact (inquires_warn _).andThen fun _ => (inquires_warn _).andThen fun _ => inquires_done _

theorem onlyReports_findIn (directories : List Path) :
    (findIn directories).OnlyReports :=
  (inquires_findIn directories).onlyReports

theorem onlyReports_base (file? : Option Path) (directory : Path) :
    (base file? directory).OnlyReports :=
  (inquires_base file? directory).onlyReports

/-- Finding out the settings changes nothing but the log. -/
theorem onlyReports_resolve (overrides : Overrides) (directory : Path) :
    (resolve overrides directory).OnlyReports :=
  (inquires_resolve overrides directory).onlyReports

/-- Only a file that was asked for can make it fail to find out the settings. -/
theorem exists_run_base (directory : Path) (world : World) :
    ∃ settings, ((base none directory).run world).1 = .ok settings := by
  simp only [base, run_bind]
  cases ((find directory).run world).1 with
  | none => exact ⟨_, rfl⟩
  | some file =>
      simp only [run_bind]
      cases ((load file).run ((find directory).run world).2).1 with
      | ok settings => exact ⟨settings, rfl⟩
      | error error => exact ⟨_, rfl⟩

/-- An order that is asked for is the one in force. -/
theorem exists_run_resolve
    {overrides : Overrides} {order : ReceiveOrder} (hfile : overrides.file? = none)
    (horder : overrides.order? = some order) (directory : Path) (world : World) :
    ∃ settings, ((resolve overrides directory).run world).1 = .ok settings ∧
      settings.order = order := by
  obtain ⟨found, hfound⟩ := exists_run_base directory world
  rw [resolve, run_bind, hfile, hfound]
  simp only [run_bind]
  refine ⟨_, rfl, ?_⟩
  simp only [overridden, Overrides.layer, horder]
  split <;> rfl

end Settings

/-! ## Commands under way -/

namespace Course

/-- The result of a command in a world, and the world afterwards. -/
def outcome {α : Type} (course : Course α) (world : World) : Except Failure α × World :=
  Procedure.run course.run world

section Outcomes

variable {α β : Type}

@[simp] theorem outcome_pure (a : α) (world : World) :
    outcome (pure a) world = (.ok a, world) :=
  rfl

theorem outcome_bind (course : Course α) (next : α → Course β) (world : World) :
    outcome (course >>= next) world =
      match outcome course world with
      | (.ok a, after) => outcome (next a) after
      | (.error failure, after) => (.error failure, after) := by
  let rest : Except Failure α → Procedure (Except Failure β)
    | .ok a => (next a).run
    | .error failure => pure (.error failure)
  have h : (course >>= next).run = Procedure.andThen course.run rest := by
    refine congrArg (Procedure.andThen course.run) (funext fun result => ?_)
    cases result <;> rfl
  unfold outcome
  rw [h, Procedure.run_andThen]
  generalize Procedure.run course.run world = result
  obtain ⟨_ | _, _⟩ := result <;> rfl

@[simp] theorem outcome_ask (request : Request α) (world : World) :
    outcome (ask request) world = (.ok (world.answer request).1, (world.answer request).2) :=
  rfl

theorem outcome_map (f : α → β) (course : Course α) (world : World) :
    outcome (f <$> course) world =
      ((outcome course world).1.map f, (outcome course world).2) := by
  rw [map_eq_pure_bind, outcome_bind]
  generalize outcome course world = result
  obtain ⟨_ | _, _⟩ := result <;> rfl

theorem outcome_mail (action : Action α) (world : World) :
    outcome (mail action) world =
      ((Action.outcome action world).1.mapError .mail, (Action.outcome action world).2) :=
  Procedure.run_andThen _ _ _

theorem outcome_settings (overrides : Overrides) (directory : Path) (world : World) :
    outcome (settings overrides directory) world =
      (((Settings.resolve overrides directory).run world).1.mapError .settings,
        ((Settings.resolve overrides directory).run world).2) :=
  Procedure.run_andThen _ _ _

end Outcomes

end Course

namespace Invocation

section Commands

variable {world current : World} {dir? : Option Path} {path : Path}

theorem outcome_workingDirectory (world : World) :
    Course.outcome workingDirectory world =
      (world.workingDirectory.mapError .home, world) := by
  rw [workingDirectory, Course.outcome_bind, Course.outcome_ask, World.answer]
  cases world.workingDirectory <;> rfl

theorem workingDirectory_congr
    (hcwd : current.cwd = world.cwd) (hsame : world.tree.SameDirectories current.tree) :
    current.workingDirectory = world.workingDirectory := by
  have hdir := hsame world.cwd
  rw [World.workingDirectory, World.workingDirectory, hcwd]
  by_cases hworld : world.tree.get? world.cwd = some .directory
  · rw [hworld, hdir.mp hworld]
  · have hcurrent := fun h => hworld (hdir.mpr h)
    split
    · rename_i h
      exact absurd h hcurrent
    · rfl

theorem outcome_home (dir? : Option Path) (world : World) :
    Course.outcome (home dir?) world =
      (match dir? with
        | none => world.workingDirectory.mapError .home
        | some dir =>
          if dir.isAbsolute then .ok (Path.absolute dir dir)
          else (world.workingDirectory.map (Path.absolute · dir)).mapError .home, world) := by
  cases dir? with
  | none => exact outcome_workingDirectory world
  | some dir =>
      rw [home]
      simp only
      split
      · rfl
      · rw [Course.outcome_bind, outcome_workingDirectory]
        cases world.workingDirectory <;> rfl

/-- A program acts at the same directory as long as no directory has changed. -/
theorem outcome_home_congr
    (hhome : Course.outcome (home dir?) world = (.ok path, world))
    (hcwd : current.cwd = world.cwd) (hsame : world.tree.SameDirectories current.tree) :
    Course.outcome (home dir?) current = (.ok path, current) := by
  rw [outcome_home] at hhome ⊢
  rw [workingDirectory_congr hcwd hsame]
  exact Prod.ext (Prod.ext_iff.mp hhome).1 rfl

theorem outcome_receive
    (endpoint : Endpoint) (json : Bool) (limit : Nat) (world : World) :
    Course.outcome (receive endpoint false json limit) world =
      (((Action.outcome endpoint.receive world).1.mapError Failure.mail).map
          fun body => some (receiveText json body),
        (Action.outcome endpoint.receive world).2) := by
  rw [receive, if_neg Bool.false_ne_true, Course.outcome_bind, Course.outcome_map,
    Course.outcome_mail]
  generalize Action.outcome endpoint.receive world = result
  obtain ⟨_ | _, _⟩ := result <;> rfl

/-- A program is asked for oldest first, and for nothing else. -/
def oldestFirst : Overrides :=
  { order? := some .oldest }

theorem exists_outcome_settings (directory : Path) (world : World) :
    ∃ settings : Settings, ∃ start : World, settings.order = .oldest ∧
      start.tree = world.tree ∧ start.cwd = world.cwd ∧
        Course.outcome (Course.settings oldestFirst directory) world = (.ok settings, start) := by
  obtain ⟨settings, hsettings, horder⟩ :=
    Settings.exists_run_resolve (rfl : oldestFirst.file? = none) rfl directory world
  obtain ⟨log, hlog⟩ := Settings.onlyReports_resolve oldestFirst directory world
  refine ⟨settings, { world with log }, horder, rfl, rfl, ?_⟩
  rw [Course.outcome_settings, hsettings, hlog]
  rfl

/-- Receiving, oldest first, is taking the next message after some preparation. -/
theorem exists_outcome_course_receive
    (hhome : Course.outcome (home dir?) world = (.ok path, world)) (json : Bool) (limit : Nat) :
    ∃ start : World, start.tree = world.tree ∧ start.cwd = world.cwd ∧
      Course.outcome (course ⟨dir?, none, .receive false none none (some .oldest) json⟩ limit)
          world =
        (((Action.outcome (Mailbox.takeNext ⟨path⟩ .oldest) start).1.mapError Failure.mail).map
            fun body => some (receiveText json body),
          (Action.outcome (Mailbox.takeNext ⟨path⟩ .oldest) start).2) := by
  obtain ⟨settings, start, horder, htree, hcwd, hsettings⟩ := exists_outcome_settings path world
  rw [oldestFirst] at hsettings
  refine ⟨start, htree, hcwd, ?_⟩
  rw [course, Course.outcome_bind, hhome]
  simp only
  rw [Course.outcome_bind, hsettings]
  simp only [Bool.false_or, Option.isSome_none]
  rw [outcome_receive, Endpoint.receive, Settings.endpoint, horder]
  rfl

/-- What is printed of the waiting messages, oldest first. -/
theorem exists_outcome_course_pending
    (hhome : Course.outcome (home dir?) world = (.ok path, world)) (json : Bool) (limit : Nat) :
    ∃ start : World, start.tree = world.tree ∧ start.cwd = world.cwd ∧
      Course.outcome (course ⟨dir?, none, .pending (some .oldest) json⟩ limit) world =
        (((Action.outcome (Mailbox.pending ⟨path⟩ .oldest) start).1.mapError Failure.mail).map
            fun paths =>
              some (pendingText json ((paths.filterMap Path.fileName?).map Bytes.display)),
          (Action.outcome (Mailbox.pending ⟨path⟩ .oldest) start).2) := by
  obtain ⟨settings, start, horder, htree, hcwd, hsettings⟩ := exists_outcome_settings path world
  rw [oldestFirst] at hsettings
  refine ⟨start, htree, hcwd, ?_⟩
  rw [course, Course.outcome_bind, hhome]
  simp only
  rw [Course.outcome_bind, hsettings]
  simp only
  rw [Course.outcome_bind, Course.outcome_mail, Endpoint.pending, Settings.endpoint, horder]
  simp only [Endpoint.mailbox]
  generalize Action.outcome (Mailbox.pending ⟨path⟩ .oldest) start = result
  obtain ⟨_ | _, _⟩ := result <;> rfl

end Commands

end Invocation

namespace CommandLine

/-- How a run that receives one message ends. -/
def receiptEnding (json : Bool) : Except MailError String → Option Ending
  | .ok body => some (.done (Invocation.receiveText json body))
  | .error error => some (.failed (.mail error))

/-- The program is asked to receive, oldest first. -/
def receiving (dir? : Option Path) (json : Bool) : CommandLine :=
  .invoke ⟨dir?, none, .receive false none none (some .oldest) json⟩

/-- The program is asked what waits, oldest first. -/
def listing (dir? : Option Path) (json : Bool) : CommandLine :=
  .invoke ⟨dir?, none, .pending (some .oldest) json⟩

section Runs

variable {world : World} {dir? : Option Path} {path : Path}

theorem run_perform_invoke (invocation : Invocation) (limit : Nat) (world : World) :
    ((invoke invocation).perform limit).run world =
      (match (Course.outcome (invocation.course limit) world).1 with
        | .ok output? => output?.map .done
        | .error failure => some (.failed failure),
        (Course.outcome (invocation.course limit) world).2) := by
  rw [perform, Procedure.run_bind, Course.outcome]
  cases (Procedure.run (invocation.course limit).run world).1 <;> rfl

theorem exists_run_receiving
    (hhome : Course.outcome (Invocation.home dir?) world = (.ok path, world)) (json : Bool)
    (limit : Nat) :
    ∃ start : World, start.tree = world.tree ∧ start.cwd = world.cwd ∧
      (((receiving dir? json).perform limit).run world).1 =
        receiptEnding json (Action.outcome (Mailbox.takeNext ⟨path⟩ .oldest) start).1 ∧
      (((receiving dir? json).perform limit).run world).2.tree =
        (Action.outcome (Mailbox.takeNext ⟨path⟩ .oldest) start).2.tree := by
  obtain ⟨start, htree, hcwd, hcourse⟩ :=
    Invocation.exists_outcome_course_receive hhome json limit
  refine ⟨start, htree, hcwd, ?_⟩
  rw [receiving, run_perform_invoke, hcourse]
  generalize Action.outcome (Mailbox.takeNext ⟨path⟩ .oldest) start = result
  obtain ⟨_ | _, _⟩ := result <;> exact ⟨rfl, rfl⟩

theorem exists_run_listing
    (hhome : Course.outcome (Invocation.home dir?) world = (.ok path, world)) (json : Bool)
    (limit : Nat) :
    ∃ start : World, start.tree = world.tree ∧ start.cwd = world.cwd ∧
      ∀ paths, (Action.outcome (Mailbox.pending ⟨path⟩ .oldest) start).1 = .ok paths →
        (((listing dir? json).perform limit).run world).1 =
          some (.done (Invocation.pendingText json
            ((paths.filterMap Path.fileName?).map Bytes.display))) := by
  obtain ⟨start, htree, hcwd, hcourse⟩ :=
    Invocation.exists_outcome_course_pending hhome json limit
  refine ⟨start, htree, hcwd, fun paths hpaths => ?_⟩
  rw [listing, run_perform_invoke, hcourse, hpaths]
  rfl

end Runs

end CommandLine

end Postbox
