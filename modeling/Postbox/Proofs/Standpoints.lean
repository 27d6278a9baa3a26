import Postbox.Proofs.Discovery
import Postbox.Proofs.Draining
import Postbox.Proofs.Neighbours
import Postbox.Proofs.Whereabouts

/-!
# Acting from elsewhere

A program that is told to act in a directory does what it would do if it stood there.  It makes the
path of the directory absolute by its text, `..` and all, and so it depends on the directories that
the path passes through: the search for settings looks at them, and recovery can move them away.
-/

namespace Postbox

/-- The failure without the path that it names. -/
def Failure.placeless : Failure → Failure
  | mail error => .mail error.placeless
  | failure => failure

/-- How a run of a command ends. -/
def CommandLine.ending : Except Failure (Option String) × World → Option Ending × World
  | (.ok output?, world) => (output?.map .done, world)
  | (.error failure, world) => (some (.failed failure), world)

theorem CommandLine.run_perform_eq_ending (invocation : Invocation) (limit : Nat) (world : World) :
    ((CommandLine.invoke invocation).perform limit).run world =
      ending (Course.outcome (invocation.course limit) world) := by
  rw [run_perform_invoke]
  generalize Course.outcome (invocation.course limit) world = result
  obtain ⟨_ | _, _⟩ := result <;> rfl

/-- Two runs end alike, and leave worlds that are alike: they print the same, but for paths of one
file that was sent, or fail for the same cause, but for the path that is named. -/
inductive EndsAlike : Option Ending × World → Option Ending × World → Prop where
  | unsettled {a b : World} (halike : a.Alike b) : EndsAlike (none, a) (none, b)
  | done {a b : World} (halike : a.Alike b) (output : String) :
      EndsAlike (some (.done output), a) (some (.done output), b)
  | sent {a b : World} (halike : a.Alike b) (recipient body : String) (report : SendReport)
      {p q : Path} (hplace : Mailbox.SamePlace a b p q) :
      EndsAlike (some (.done (Invocation.sendText recipient body p report)), a)
        (some (.done (Invocation.sendText recipient body q report)), b)
  | failed {a b : World} (halike : a.Alike b) {failure other : Failure}
      (hsame : failure.placeless = other.placeless) :
      EndsAlike (some (.failed failure), a) (some (.failed other), b)

namespace EndsAlike

variable {x y : Option Ending × World} {a b : World}

theorem status_eq
    (h : EndsAlike x y) :
    x.1.map Ending.status = y.1.map Ending.status := by
  cases h <;> rfl

theorem of_eq
    (result : Except Failure (Option String)) (halike : a.Alike b) :
    EndsAlike (CommandLine.ending (result, a)) (CommandLine.ending (result, b)) := by
  cases result with
  | error failure => exact .failed halike rfl
  | ok output? =>
      cases output? with
      | none => exact .unsettled halike
      | some output => exact .done halike output

/-- The same result of an action is told in the same way. -/
theorem of_sameResult
    {α : Type} {result other : Except MailError α} (h : SameResult result other)
    (halike : a.Alike b) (text : α → Option String) :
    EndsAlike (CommandLine.ending ((result.mapError .mail).map text, a))
      (CommandLine.ending ((other.mapError .mail).map text, b)) := by
  rcases h.cases with ⟨value, rfl, rfl⟩ | ⟨error, failure, rfl, rfl, hsame⟩
  · exact of_eq _ halike
  · exact .failed halike (congrArg Failure.mail hsame)

end EndsAlike

namespace Invocation

theorem outcome_receive_waiting (endpoint : Endpoint) (json : Bool) (limit : Nat) (world : World) :
    Course.outcome (receive endpoint true json limit) world =
      (match ((endpoint.waitAndReceive limit).run world).1 with
        | some result =>
          (result.mapError Failure.mail).map fun body => some (receiveText json body)
        | none => .ok none,
        ((endpoint.waitAndReceive limit).run world).2) := by
  have hlift : Course.outcome (ExceptT.lift (endpoint.waitAndReceive limit)) world =
      (.ok ((endpoint.waitAndReceive limit).run world).1,
        ((endpoint.waitAndReceive limit).run world).2) :=
    Procedure.run_andThen _ _ _
  rw [receive, if_pos rfl, Course.outcome_bind, hlift]
  generalize (endpoint.waitAndReceive limit).run world = result
  obtain ⟨_ | _ | _, _⟩ := result <;> rfl

end Invocation

namespace Mailbox

open Invocation CommandLine

section Commands

variable {base other : Path} {home : Location} {a b : World} {settings : Settings}

/-- What has been reported does not matter. -/
theorem Mirrors.relogged
    {mailbox mailbox' : Mailbox} (h : Mirrors mailbox mailbox' home a b)
    (first second : List Event) :
    Mirrors mailbox mailbox' home { a with log := first } { b with log := second } := by
  refine h.advance ?_ rfl rfl (.refl _) h.sound (List.Subset.refl _)
  obtain ⟨cwd, log, rfl⟩ := h.alike
  exact ⟨cwd, second, rfl⟩

/-- The body of a message does not depend on where one stands. -/
theorem Mirrors.body
    {mailbox mailbox' : Mailbox} (h : Mirrors mailbox mailbox' home a b) (source : BodySource) :
    (Course.outcome (Invocation.body source) a).1 = (Course.outcome (Invocation.body source) b).1 ∧
      Mirrors mailbox mailbox' home (Course.outcome (Invocation.body source) a).2
        (Course.outcome (Invocation.body source) b).2 := by
  cases source with
  | text body => exact ⟨rfl, h⟩
  | unstated => exact ⟨rfl, h⟩
  | input =>
      have hread : Mirrors mailbox mailbox' home { a with input := [] } { b with input := [] } := by
        refine h.advance ?_ rfl rfl (.refl _) h.sound (List.Subset.refl _)
        obtain ⟨cwd, log, rfl⟩ := h.alike
        exact ⟨cwd, log, rfl⟩
      have hinput : b.input = a.input := by
        obtain ⟨cwd, log, rfl⟩ := h.alike
        rfl
      rw [Invocation.body, Course.outcome_bind, Course.outcome_bind, Course.outcome_ask,
        Course.outcome_ask, World.answer, World.answer, hinput]
      simp only
      cases a.input.text? <;> exact ⟨rfl, hread⟩

theorem Mirrors.ending_send
    (h : Mirrors ⟨base⟩ ⟨other⟩ home a b) (hroom : BothRoomy ⟨base⟩ ⟨other⟩) (recipient : String)
    (source : BodySource) (report : SendReport) :
    EndsAlike
      (ending (Course.outcome
        (some <$> Invocation.send (settings.endpoint base) recipient source report) a))
      (ending (Course.outcome
        (some <$> Invocation.send (settings.endpoint other) recipient source report) b)) := by
  obtain ⟨hbody, hread⟩ := h.body source
  rcases hleft : Course.outcome (Invocation.body source) a with ⟨result, afterA⟩
  rcases hright : Course.outcome (Invocation.body source) b with ⟨result', afterB⟩
  rw [hleft, hright] at hbody hread
  obtain rfl : result = result' := hbody
  rw [Course.outcome_map, Course.outcome_map]
  cases result with
  | error failure =>
      rw [Invocation.send, Invocation.send, Course.outcome_bind, Course.outcome_bind, hleft, hright]
      exact .failed hread.alike rfl
  | ok text =>
      have hsent : SentAlike
          (Action.outcome ((settings.endpoint base).send recipient text) afterA)
          (Action.outcome ((settings.endpoint other).send recipient text) afterB) :=
        hread.send hroom (settings.endpoint base) recipient text
      generalize hsend : Action.outcome ((settings.endpoint base).send recipient text) afterA =
        reply at hsent
      generalize hsend' : Action.outcome ((settings.endpoint other).send recipient text) afterB =
        reply' at hsent
      cases hsent with
      | sent halike hplace =>
          obtain ⟨log, houtcome⟩ := outcome_send_of_body _ recipient report hleft hsend
          obtain ⟨log', houtcome'⟩ := outcome_send_of_body _ recipient report hright hsend'
          rw [houtcome, houtcome']
          exact .sent (halike.relogged log log') recipient text report hplace
      | failed halike hsame =>
          obtain ⟨log, houtcome⟩ := outcome_send_of_body _ recipient report hleft hsend
          obtain ⟨log', houtcome'⟩ := outcome_send_of_body _ recipient report hright hsend'
          rw [houtcome, houtcome']
          exact .failed (halike.relogged log log') (congrArg Failure.mail hsame)

theorem Mirrors.ending_receive
    (h : Mirrors ⟨base⟩ ⟨other⟩ home a b) (hroom : BothRoomy ⟨base⟩ ⟨other⟩) (wait json : Bool)
    (limit : Nat) :
    EndsAlike
      (ending (Course.outcome (Invocation.receive (settings.endpoint base) wait json limit) a))
      (ending
        (Course.outcome (Invocation.receive (settings.endpoint other) wait json limit) b)) := by
  cases wait with
  | false =>
      rw [outcome_receive, outcome_receive]
      obtain ⟨hresult, hafter⟩ := h.takeNext hroom settings.order
      exact .of_sameResult hresult hafter.alike _
  | true =>
      rw [outcome_receive_waiting, outcome_receive_waiting]
      obtain ⟨hresult, hafter⟩ := h.waitAndReceive hroom (settings.endpoint base) limit
      replace hresult : (((settings.endpoint base).waitAndReceive limit).run a).1.map unplaced =
          (((settings.endpoint other).waitAndReceive limit).run b).1.map unplaced := hresult
      have halike : (((settings.endpoint base).waitAndReceive limit).run a).2.Alike
          (((settings.endpoint other).waitAndReceive limit).run b).2 := hafter.alike
      generalize ((settings.endpoint base).waitAndReceive limit).run a = reply at hresult halike ⊢
      generalize ((settings.endpoint other).waitAndReceive limit).run b = reply' at hresult halike ⊢
      obtain ⟨_ | result, afterA⟩ := reply <;> obtain ⟨_ | result', afterB⟩ := reply'
      · exact .unsettled halike
      · cases hresult
      · cases hresult
      · exact .of_sameResult (Option.some.inj hresult) halike _

theorem Mirrors.ending_pending
    (h : Mirrors ⟨base⟩ ⟨other⟩ home a b) (hroom : BothRoomy ⟨base⟩ ⟨other⟩) (json : Bool) :
    let listing (path : Path) : Course (Option String) := do
      let paths ← Course.mail (settings.endpoint path).pending
      return some (pendingText json ((paths.filterMap Path.fileName?).map Bytes.display))
    EndsAlike (ending (Course.outcome (listing base) a))
      (ending (Course.outcome (listing other) b)) := by
  intro listing
  have hnames : ∀ name ∈ Mailbox.candidates ⟨base⟩ a home settings.order,
      Name.IsPlain (Bytes.ofText name) :=
    fun name hname => (h.left.exists_of_mem_candidates h.sound hname).1.plain
  have hprints : ∀ {path : Path} {world : World} {names : List String},
      (∀ name ∈ names, Name.IsPlain (Bytes.ofText name)) →
      Action.outcome (settings.endpoint path).pending world =
        (.ok (names.map (Mailbox.entry ⟨path⟩)), world) →
      ending (Course.outcome (listing path) world) =
        (some (.done (pendingText json names)), world) := by
    intro path world names hnames hpending
    simp only [listing]
    rw [Course.outcome_bind, Course.outcome_mail, hpending]
    simp only [Except.mapError, Course.outcome_pure, ending, Option.map_some]
    rw [displayed_names hnames]
  have hpending := h.right.outcome_pending settings.order
  rw [← h.candidates_eq hroom] at hpending
  rw [hprints hnames (h.left.outcome_pending settings.order), hprints hnames hpending]
  exact .done h.alike _

theorem Mirrors.ending_recover
    (h : Mirrors ⟨base⟩ ⟨other⟩ home a b) (hroom : BothRoomy ⟨base⟩ ⟨other⟩)
    (hclear : Mailbox.StaysClear ⟨base⟩ a home) (hclear' : Mailbox.StaysClear ⟨other⟩ b home)
    (json : Bool) :
    let recovering (path : Path) : Course (Option String) := do
      let revived ← Course.mail (Mailbox.recoverClaims ⟨path⟩)
      return some (recoverText json revived)
    EndsAlike (ending (Course.outcome (recovering base) a))
      (ending (Course.outcome (recovering other) b)) := by
  intro recovering
  obtain ⟨hresult, halike⟩ := h.recoverClaims hroom hclear hclear'
  have houtcome : ∀ (path : Path) (world : World), Course.outcome (recovering path) world =
      (((Action.outcome (Mailbox.recoverClaims ⟨path⟩) world).1.mapError Failure.mail).map
        fun revived => some (recoverText json revived),
        (Action.outcome (Mailbox.recoverClaims ⟨path⟩) world).2) := by
    intro path world
    simp only [recovering]
    rw [Course.outcome_bind, Course.outcome_mail]
    generalize Action.outcome (Mailbox.recoverClaims ⟨path⟩) world = reply
    obtain ⟨_ | _, _⟩ := reply <;> rfl
  rw [houtcome, houtcome]
  exact .of_sameResult hresult halike _

end Commands

end Mailbox

/-! ## From where one acts -/

/-- The path at which a program acts that is told to act in a directory. -/
def World.homeFor (world : World) (dir : Path) : Path :=
  Path.absolute (World.pathOf world.cwd) dir

/-- The path has no `..`, and it neither begins with exactly two slashes nor ends in one. -/
structure Path.IsDirect (path : Path) : Prop where
  dotdot_notMem : dotdot ∉ path.components
  lead : [slash, slash].isPrefixOf path.bytes = true →
    [slash, slash, slash].isPrefixOf path.bytes = true
  last : path.bytes.getLast? ≠ some slash

/-- The search for settings along the path ends at no directory but those around the place. -/
def Settings.StopsAround (world : World) (path : Path) (place : Location) : Prop :=
  ∀ above ∈ path.ancestors, ∀ passed, world.tree.enter world.cwd above = .ok passed →
    world.tree.isLandmark passed = true → passed <+: place

/-- Two programs find the same file and are under the same settings, whatever they are asked for. -/
structure Settings.Agree (base other : Path) (a b : World) : Prop where
  found?_eq : found? a base = found? b other
  exists_run : ∀ overrides : Overrides, overrides.file? = none →
    ∃ settings : Settings, ((resolve overrides base).run a).1 = .ok settings ∧
      ((resolve overrides other).run b).1 = .ok settings

section Standpoints

variable {world a b : World} {dir base other : Path} {place : Location}

/-- The path that a program acts at leads to the directory it was given, from everywhere. -/
theorem Mailbox.Opens.homeFor_spec
    (h : Mailbox.Opens ⟨dir⟩ world place) (hsound : world.tree.Sound) :
    Course.outcome (Invocation.home (some dir)) world = (.ok (world.homeFor dir), world) ∧
      (world.homeFor dir).Rooted ∧
        ∀ cwd, world.tree.enter cwd (world.homeFor dir) = .ok place := by
  refine ⟨?_, (hsound.absolute_spec h.zero_notMem h.enter_eq).1,
    hsound.enter_absolute h.zero_notMem h.enter_eq⟩
  rw [Invocation.outcome_home]
  simp only
  cases habs : dir.isAbsolute with
  | true =>
      rw [if_pos rfl, World.homeFor, Path.absolute, Path.absolute, habs]
      rfl
  | false =>
      rw [if_neg Bool.false_ne_true, World.workingDirectory, Tree.get?_of_enter habs h.enter_eq]
      rfl

theorem outcome_home_inside
    (hplace : world.tree.get? place = some .directory) :
    Course.outcome (Invocation.home none) { world with cwd := place } =
      (.ok (World.pathOf place), { world with cwd := place }) := by
  rw [Invocation.outcome_home]
  simp only [World.workingDirectory, hplace]
  rfl

/-- A program that acts from elsewhere and one inside have one directory, if there is room behind the
path of the first. -/
theorem Mailbox.Opens.mirrors_homeFor
    (h : Mailbox.Opens ⟨dir⟩ world place) (hsound : world.tree.Sound)
    (harrivals : world.ArrivalsFit) (hroom : (world.homeFor dir).Roomy) :
    Mailbox.BothRoomy ⟨world.homeFor dir⟩ ⟨World.pathOf place⟩ ∧
      Mailbox.Mirrors ⟨world.homeFor dir⟩ ⟨World.pathOf place⟩ place world
        { world with cwd := place } := by
  obtain ⟨-, hrooted, henter⟩ := h.homeFor_spec hsound
  obtain ⟨hrooted', henter', hlen⟩ :=
    @Tree.Sound.enter_pathOf world.tree place place hsound h.get?_eq
  have hroom' : (World.pathOf place).Roomy :=
    Nat.le_trans (Nat.add_le_add_right (hlen hrooted (henter place)) _) hroom
  have hfault : ∀ {path : Path}, path.Rooted → path.Roomy → path.fault? = none :=
    fun hrooted hroom => hrooted.fault?_eq (Nat.le_trans (Nat.le_add_right _ _) hroom)
  exact ⟨⟨hroom, hroom'⟩, {
    alike := ⟨place, world.log, rfl⟩
    left := Mailbox.opens_of_enter (hfault hrooted hroom) (henter world.cwd)
    right := Mailbox.opens_of_enter (hfault hrooted' hroom') henter'
    sound := hsound
    arrivals := harrivals }⟩

/-- The search along a path that stops around its end is a search through the directories there. -/
theorem Settings.StopsAround.exists_places
    (h : Settings.StopsAround world base place) (hrooted : base.Rooted) (hroom : base.Roomy)
    (henter : world.tree.enter world.cwd base = .ok place) :
    ∃ places,
      List.Forall₂ (fun above passed => Mailbox.Opens ⟨above⟩ world passed ∧ above.Roomy)
        base.ancestors places ∧
        world.tree.nearest? places = world.tree.nearest? (Tree.around place) := by
  obtain ⟨walk, hall, hwalk⟩ := Mailbox.exists_homeward_opens hrooted hroom henter
  refine ⟨place :: walk, hall, hwalk.nearest?_eq fun passed hmem hlandmark => ?_⟩
  obtain ⟨i, hi, rfl⟩ := List.mem_iff_getElem.mp hmem
  obtain ⟨hlen, hget⟩ := List.forall₂_iff_get.mp hall
  have hopens := hget i (hlen ▸ hi) hi
  exact h _ (List.get_mem _ _) _ hopens.1.enter_eq hlandmark

/-- Who looks through the same directories finds the same. -/
theorem Settings.agree
    (halike : a.Alike b) {places places' : List Location}
    (hall : List.Forall₂ (fun above passed => Mailbox.Opens ⟨above⟩ a passed ∧ above.Roomy)
      base.ancestors places)
    (hall' : List.Forall₂ (fun above passed => Mailbox.Opens ⟨above⟩ b passed ∧ above.Roomy)
      other.ancestors places')
    (hnearest : a.tree.nearest? places = a.tree.nearest? places') :
    Settings.Agree base other a b where
  found?_eq := by
    rw [found?_eq hall, found?_eq hall', halike.tree_eq, hnearest]
  exists_run := by
    intro overrides hfile
    have henvironment : b.environment = a.environment := by
      obtain ⟨cwd, log, rfl⟩ := halike
      rfl
    have hbase := run_base hall
    have hbase' := run_base hall'
    rw [nearestIn, hnearest] at hbase
    rw [nearestIn, halike.tree_eq] at hbase'
    rw [run_resolve, run_resolve, hfile, hbase, hbase', henvironment]
    exact ⟨_, rfl, rfl⟩

theorem Settings.Agree.exists_outcome
    (h : Settings.Agree base other a b) (overrides : Overrides) (hfile : overrides.file? = none) :
    ∃ settings first second,
      Course.outcome (Course.settings overrides base) a = (.ok settings, { a with log := first }) ∧
        Course.outcome (Course.settings overrides other) b =
          (.ok settings, { b with log := second }) := by
  obtain ⟨settings, hrun, hrun'⟩ := h.exists_run overrides hfile
  obtain ⟨first, hfirst⟩ := onlyReports_resolve overrides base a
  obtain ⟨second, hsecond⟩ := onlyReports_resolve overrides other b
  refine ⟨settings, first, second, ?_, ?_⟩
  · rw [Course.outcome_settings, hrun, hfirst]
    rfl
  · rw [Course.outcome_settings, hrun', hsecond]
    rfl

/-- Two programs at one directory and under the same settings do the same. -/
theorem Mailbox.Mirrors.perform
    (h : Mailbox.Mirrors ⟨base⟩ ⟨other⟩ place a b) (hroom : Mailbox.BothRoomy ⟨base⟩ ⟨other⟩)
    {dir? dir'? : Option Path}
    (hhome : Course.outcome (Invocation.home dir?) a = (.ok base, a))
    (hhome' : Course.outcome (Invocation.home dir'?) b = (.ok other, b))
    (hagree : Settings.Agree base other a b) {command : Command}
    (hcommand : ∀ json, command ≠ .recover json) (limit : Nat) :
    EndsAlike (((CommandLine.invoke ⟨dir?, none, command⟩).perform limit).run a)
      (((CommandLine.invoke ⟨dir'?, none, command⟩).perform limit).run b) := by
  rw [CommandLine.run_perform_eq_ending, CommandLine.run_perform_eq_ending, Invocation.course,
    Invocation.course, Course.outcome_bind, Course.outcome_bind, hhome, hhome']
  cases command with
  | send recipient source sync report =>
      obtain ⟨settings, first, second, hfirst, hsecond⟩ :=
        hagree.exists_outcome { sync? := if sync then some true else none } rfl
      simp only
      rw [Course.outcome_bind, Course.outcome_bind, hfirst, hsecond]
      exact (h.relogged first second).ending_send hroom recipient source report
  | receive wait timeoutSecs? intervalMs? order? json =>
      obtain ⟨settings, first, second, hfirst, hsecond⟩ :=
        hagree.exists_outcome { intervalMs?, timeoutSecs?, order? } rfl
      simp only
      rw [Course.outcome_bind, Course.outcome_bind, hfirst, hsecond]
      exact (h.relogged first second).ending_receive hroom _ json limit
  | pending order? json =>
      obtain ⟨settings, first, second, hfirst, hsecond⟩ :=
        hagree.exists_outcome { order? } rfl
      simp only
      rw [Course.outcome_bind, Course.outcome_bind, hfirst, hsecond]
      exact (h.relogged first second).ending_pending hroom json
  | recover json => exact absurd rfl (hcommand json)

theorem Mailbox.Mirrors.perform_recover
    (h : Mailbox.Mirrors ⟨base⟩ ⟨other⟩ place a b) (hroom : Mailbox.BothRoomy ⟨base⟩ ⟨other⟩)
    {dir? dir'? : Option Path}
    (hhome : Course.outcome (Invocation.home dir?) a = (.ok base, a))
    (hhome' : Course.outcome (Invocation.home dir'?) b = (.ok other, b))
    (hclear : Mailbox.StaysClear ⟨base⟩ a place) (hclear' : Mailbox.StaysClear ⟨other⟩ b place)
    (json : Bool) (limit : Nat) :
    EndsAlike (((CommandLine.invoke ⟨dir?, none, .recover json⟩).perform limit).run a)
      (((CommandLine.invoke ⟨dir'?, none, .recover json⟩).perform limit).run b) := by
  rw [CommandLine.run_perform_eq_ending, CommandLine.run_perform_eq_ending, Invocation.course,
    Invocation.course, Course.outcome_bind, Course.outcome_bind, hhome, hhome']
  exact h.ending_recover hroom hclear hclear' json

/-- Two programs that act at one path and stand in different places do the same. -/
theorem perform_elsewhere
    (habs : base.isAbsolute = true) {dir? dir'? : Option Path} {cwd : Location}
    (hhome : Course.outcome (Invocation.home dir?) world = (.ok base, world))
    (hhome' : Course.outcome (Invocation.home dir'?) { world with cwd } =
      (.ok base, { world with cwd })) (command : Command) (limit : Nat) :
    EndsAlike (((CommandLine.invoke ⟨dir?, none, command⟩).perform limit).run world)
      (((CommandLine.invoke ⟨dir'?, none, command⟩).perform limit).run { world with cwd }) := by
  obtain ⟨act, hact, hanywhere⟩ := Invocation.exists_act command limit
  have hsame : Course.outcome (act base) { world with cwd } =
      ((Course.outcome (act base) world).1, { (Course.outcome (act base) world).2 with cwd }) :=
    hanywhere habs world cwd
  rw [CommandLine.run_perform_eq_ending, CommandLine.run_perform_eq_ending, hact, hact,
    Course.outcome_bind, Course.outcome_bind, hhome, hhome']
  simp only [hsame]
  exact .of_eq _ ⟨cwd, _, rfl⟩

theorem Settings.agree_elsewhere
    (habs : base.isAbsolute = true) (world : World) (cwd : Location) :
    Settings.Agree base base world { world with cwd } where
  found?_eq := by
    obtain ⟨hfind, hfound⟩ := anywhere_find habs
    rw [found?, found?, hfind world cwd]
    exact Option.map_congr fun file hfile => Tree.locate_congr (hfound world file hfile) _ _ _
  exists_run := by
    intro overrides hfile
    obtain ⟨settings, hbase⟩ := exists_run_base base world
    rw [anywhere_resolve hfile habs world cwd, run_resolve, hfile, hbase]
    exact ⟨_, rfl, rfl⟩

/-- A path without `..` passes through nothing but the directories around the one it leads to. -/
theorem stopsAround_and_staysClear
    (henter : world.tree.enter world.cwd base = .ok place)
    (hup : Path.dotdot ∉ Path.significant base.bytes) :
    Settings.StopsAround world base place ∧ Mailbox.StaysClear ⟨base⟩ world place := by
  refine ⟨fun above hmem passed habove _ => ?_, Mailbox.staysClear_of_enter henter hup⟩
  exact Tree.isPrefix_of_mem_ancestors hup henter hmem habove

theorem stopsAround_and_staysClear_pathOf
    (hsound : world.tree.Sound) (hplace : world.tree.get? place = some .directory) :
    Settings.StopsAround { world with cwd := place } (World.pathOf place) place ∧
      Mailbox.StaysClear ⟨World.pathOf place⟩ { world with cwd := place } place := by
  have hsome : world.tree.get? place ≠ none := by simp [hplace]
  obtain ⟨-, hsignificant⟩ := World.pathOf_spec fun _ => hsound.plain hsome
  obtain ⟨-, henter, -⟩ := @Tree.Sound.enter_pathOf world.tree place place hsound hplace
  refine stopsAround_and_staysClear henter fun hup => ?_
  rw [hsignificant] at hup
  exact (hsound.plain hsome hup).ne_dotdot rfl

theorem Mailbox.Opens.stopsAround_and_staysClear_homeFor
    (h : Mailbox.Opens ⟨dir⟩ world place) (hsound : world.tree.Sound)
    (hdown : Path.dotdot ∉ dir.components) :
    Settings.StopsAround world (world.homeFor dir) place ∧
      Mailbox.StaysClear ⟨world.homeFor dir⟩ world place := by
  obtain ⟨-, -, henter⟩ := h.homeFor_spec hsound
  obtain ⟨-, hsignificant, hstart⟩ := hsound.absolute_spec h.zero_notMem h.enter_eq
  have hsome : world.tree.get? (Tree.start world.cwd dir) ≠ none := by simp [hstart]
  refine stopsAround_and_staysClear (henter world.cwd) fun hup => ?_
  rcases List.mem_append.mp (hsignificant ▸ hup) with hup | hup
  · exact (hsound.plain hsome hup).ne_dotdot rfl
  · rw [Path.significant_body] at hup
    exact hdown hup

/-- One's own directory has the path that everyone gives it, if it is named directly. -/
theorem Mailbox.Opens.homeFor_eq_pathOf
    (h : Mailbox.Opens ⟨dir⟩ world place) (hdirect : dir.IsDirect) :
    world.homeFor dir = World.pathOf place := by
  have henter := h.enter_eq
  rw [Tree.enter_eq_reach, Path.significant_body] at henter
  have hplace : place = Tree.start world.cwd dir ++ dir.components :=
    Tree.eq_append_of_reach (fun _ => Path.isComponent_of_mem_significant)
      hdirect.dotdot_notMem henter
  have hlead : ¬([Path.slash, Path.slash].isPrefixOf dir.bytes &&
      ! [Path.slash, Path.slash, Path.slash].isPrefixOf dir.bytes) = true := by
    simpa using hdirect.lead
  have hpathOf : World.pathOf (Tree.start world.cwd dir ++ dir.components) =
      dir.components.foldl Path.child (World.pathOf (Tree.start world.cwd dir)) :=
    List.foldl_append
  rw [World.homeFor, Path.absolute, if_neg hdirect.last, if_neg hlead, hplace, hpathOf, Tree.start]
  cases dir.isAbsolute <;> rfl

/-- A program that is told to act in a directory does what it would do if it had been started there.
It does so in any case if it comes to the same path.  Otherwise, with room behind its path, it finds
the same settings and sends, receives and lists in the same way as long as the search for settings
ends at no directory that the path leaves again by `..`, and recovers the same claims as long as the
path does not lead through one of them. -/
theorem acts_as_if_started_there
    (hsound : world.tree.Sound) (harrivals : world.ArrivalsFit)
    (hopens : Mailbox.Opens ⟨dir⟩ world place) :
    let home := world.homeFor dir
    let inside := { world with cwd := place }
    let told (command : Command) (limit : Nat) :=
      ((CommandLine.invoke ⟨some dir, none, command⟩).perform limit).run world
    let started (command : Command) (limit : Nat) :=
      ((CommandLine.invoke ⟨none, none, command⟩).perform limit).run inside
    Course.outcome (Invocation.home (some dir)) world = (.ok home, world) ∧
      Course.outcome (Invocation.home none) inside = (.ok (World.pathOf place), inside) ∧
      (home = World.pathOf place ∨ home.Roomy ∧ Settings.StopsAround world home place →
        Settings.Agree home (World.pathOf place) world inside ∧
          ∀ command, (∀ json, command ≠ .recover json) → ∀ limit,
            EndsAlike (told command limit) (started command limit)) ∧
      (home = World.pathOf place ∨ home.Roomy ∧ Mailbox.StaysClear ⟨home⟩ world place →
        ∀ json limit, EndsAlike (told (.recover json) limit) (started (.recover json) limit)) ∧
      (Path.dotdot ∉ dir.components →
        Settings.StopsAround world home place ∧ Mailbox.StaysClear ⟨home⟩ world place) ∧
      (dir.IsDirect → home = World.pathOf place) := by
  intro home inside told started
  obtain ⟨hhome, hrooted, henter⟩ := hopens.homeFor_spec hsound
  have hrooted' := (@Tree.Sound.enter_pathOf world.tree place place hsound hopens.get?_eq).1
  have hhome' := outcome_home_inside hopens.get?_eq
  have hsame : home = World.pathOf place → ∀ command limit,
      EndsAlike (told command limit) (started command limit) := by
    intro heq
    rw [← heq] at hhome'
    exact perform_elsewhere hrooted.isAbsolute_eq hhome hhome'
  obtain ⟨hstops', hclear'⟩ := stopsAround_and_staysClear_pathOf hsound hopens.get?_eq
  refine ⟨hhome, hhome', ?_, ?_, hopens.stopsAround_and_staysClear_homeFor hsound,
    hopens.homeFor_eq_pathOf⟩
  · rintro (heq | ⟨hroom, hstops⟩)
    · exact ⟨heq ▸ Settings.agree_elsewhere hrooted.isAbsolute_eq world place,
        fun command _ => hsame heq command⟩
    · obtain ⟨hboth, hmirrors⟩ := hopens.mirrors_homeFor hsound harrivals hroom
      obtain ⟨places, hall, hnearest⟩ := hstops.exists_places hrooted hboth.left (henter world.cwd)
      obtain ⟨places', hall', hnearest'⟩ :=
        hstops'.exists_places hrooted' hboth.right hmirrors.right.enter_eq
      have hagree := Settings.agree hmirrors.alike hall hall' (hnearest.trans hnearest'.symm)
      exact ⟨hagree, fun command hcommand limit =>
        hmirrors.perform hboth hhome hhome' hagree hcommand limit⟩
  · rintro (heq | ⟨hroom, hclear⟩) json limit
    · exact hsame heq _ limit
    · obtain ⟨hboth, hmirrors⟩ := hopens.mirrors_homeFor hsound harrivals hroom
      exact hmirrors.perform_recover hboth hhome hhome' hclear hclear' json limit

end Standpoints

/-! ## From one directory to the one beside it -/

/-- The tree that has two directories with names of one byte, `a` and `b`, and nothing in them. -/
def Tree.siblings : Tree :=
  (lone 0x61).put [[0x62]] .directory

namespace Tree

theorem get?_siblings (location : Location) :
    siblings.get? location =
      if location = [] ∨ location = [[0x61]] ∨ location = [[0x62]] then some .directory
      else none := by
  rw [siblings, lone, get?_put _ _ _ (by simp), get?_put _ _ _ (by simp)]
  by_cases hroot : location = [] <;> by_cases ha : location = [[0x61]] <;>
    by_cases hb : location = [[0x62]] <;> simp_all [get?, empty]

theorem sound_siblings :
    siblings.Sound := by
  have hfree : (lone 0x61).get? ([] ++ [[0x62]]) ≠ some .directory := by
    rw [List.nil_append, lone, get?_put _ _ _ (by simp)]
    simp [get?, empty]
  exact (sound_lone (by decide)).put .directory rfl (by decide) (by decide) hfree

theorem child?_siblings
    {name : String} (hname : (Bytes.ofText name).length ≠ 1) (location : Location) :
    siblings.child? location name = none := by
  have hne : ∀ b : UInt8, location ++ [Bytes.ofText name] ≠ [[b]] := by
    intro b heq
    have hlast := congrArg List.getLast? heq
    rw [List.getLast?_concat] at hlast
    rw [Option.some.inj hlast] at hname
    exact hname rfl
  rw [child?, get?_siblings, if_neg (by simp [hne])]

end Tree

/-- A program in `a` acts in `b` beside it as if it had been started there.  In `b` are a message
and a claim, and the settings file is above both directories. -/
theorem acts_as_if_started_beside :
    let settings := Bytes.ofText "[polling]\ntimeout_secs = 0\n"
    let world : World :=
      { World.blank with
        tree := ((Tree.siblings.write [[0x62]] "a.eml" (Bytes.ofText "hi")).write [[0x62]]
          (MessageName.claim "b.eml") (Bytes.ofText "ho")).write [] Settings.fileName settings
        cwd := [[0x61]] }
    let inside : World := { world with cwd := [[0x62]] }
    let dir : Path := .ofText "../b"
    let home : Path := .ofText "/a/../b"
    let told (command : Command) (limit : Nat) :=
      ((CommandLine.invoke ⟨some dir, none, command⟩).perform limit).run world
    world.tree.Sound ∧ world.ArrivalsFit ∧ Mailbox.Opens ⟨dir⟩ world [[0x62]] ∧
      Course.outcome (Invocation.home (some dir)) world = (.ok home, world) ∧
      Settings.found? world home = some (.ok [Bytes.ofText Settings.fileName]) ∧
      (told (.pending none false) 1).1 = some (.done "a.eml\n") ∧
      (told (.recover false) 1).1 = some (.done "Recovered 1 message(s)\n") ∧
      Settings.Agree home (World.pathOf [[0x62]]) world inside ∧
      ∀ command limit,
        EndsAlike (told command limit)
          (((CommandLine.invoke ⟨none, none, command⟩).perform limit).run inside) := by
  intro settings world inside dir home told
  have hmessage : (Tree.siblings.write [[0x62]] "a.eml" (Bytes.ofText "hi")).Sound :=
    Tree.sound_siblings.write (by decide +kernel) (by decide) (by decide) (by decide +kernel)
  have hclaim : ((Tree.siblings.write [[0x62]] "a.eml" (Bytes.ofText "hi")).write [[0x62]]
      (MessageName.claim "b.eml") (Bytes.ofText "ho")).Sound :=
    hmessage.write (by decide +kernel) (by decide) (by decide) (by decide +kernel)
  have hsound : world.tree.Sound :=
    hclaim.write (Tree.get?_root _) (by decide) (by decide) (by decide +kernel)
  have harrivals : world.ArrivalsFit := fun _ hmem => absurd hmem List.not_mem_nil
  have henter : world.tree.enter world.cwd dir = .ok [[0x62]] := by decide +kernel
  have hopens : Mailbox.Opens ⟨dir⟩ world [[0x62]] :=
    Mailbox.opens_of_enter (by decide +kernel) henter
  have hhomeFor : world.homeFor dir = home := by decide +kernel
  have hdirectories : ∀ {place : Location}, world.tree.get? place = some .directory →
      place = [] ∨ place = [[0x61]] ∨ place = [[0x62]] := by
    intro place hplace
    have hbefore := Tree.get?_of_write (Tree.get?_of_write (Tree.get?_of_write hplace))
    rw [Tree.get?_siblings] at hbefore
    by_contra hother
    rw [if_neg hother] at hbefore
    cases hbefore
  have hstops : Settings.StopsAround world (world.homeFor dir) [[0x62]] := by
    intro above hmem passed habove hlandmark
    rcases hdirectories (Tree.enter_eq_ok_iff.mp habove).2 with rfl | rfl | rfl
    · exact List.nil_prefix
    · have hnone : world.tree.isLandmark [[0x61]] = false := by decide +kernel
      rw [hnone] at hlandmark
      cases hlandmark
    · exact List.prefix_refl _
  have hclear : Mailbox.StaysClear ⟨world.homeFor dir⟩ world [[0x62]] := by
    refine Mailbox.staysClear_of_not_directory hsound fun name hvisible hclaim => ?_
    rcases hdirectories hclaim with hplace | hplace | hplace <;> simp at hplace
  have hroom : (world.homeFor dir).Roomy := by
    rw [hhomeFor, Path.Roomy]
    decide
  obtain ⟨hhome, -, hcommands, hrecover, -⟩ := acts_as_if_started_there hsound harrivals hopens
  obtain ⟨hagree, hends⟩ := hcommands (.inr ⟨hroom, hstops⟩)
  refine ⟨hsound, harrivals, hopens, hhomeFor ▸ hhome, by decide +kernel, by decide +kernel,
    by decide +kernel, hhomeFor ▸ hagree, fun command limit => ?_⟩
  cases command with
  | recover json => exact hrecover (.inr ⟨hroom, hclear⟩) json limit
  | _ => exact hends _ (by simp) limit

/-- A file in `a`, through which the path only passes, is found for a program that is told to act in
`b`, and not for one that is there: the one gives up at once, the other waits on. -/
theorem settings_found_in_passing :
    let settings := Bytes.ofText "[polling]\ntimeout_secs = 0\n"
    let world : World :=
      { World.blank with
        tree := Tree.siblings.write [[0x61]] Settings.fileName settings
        cwd := [[0x61]] }
    let inside : World := { world with cwd := [[0x62]] }
    let dir : Path := .ofText "../b"
    let home : Path := .ofText "/a/../b"
    let command : Command := .receive true none none none false
    world.tree.Sound ∧ Mailbox.Opens ⟨dir⟩ world [[0x62]] ∧
      Course.outcome (Invocation.home (some dir)) world = (.ok home, world) ∧
      Settings.found? world home = some (.ok [[0x61], Bytes.ofText Settings.fileName]) ∧
      Settings.found? inside (World.pathOf [[0x62]]) = none ∧
      ¬EndsAlike (((CommandLine.invoke ⟨some dir, none, command⟩).perform 1).run world)
        (((CommandLine.invoke ⟨none, none, command⟩).perform 1).run inside) := by
  intro settings world inside dir home command
  have hfree : Tree.siblings.child? [[0x61]] Settings.fileName ≠ some .directory := by
    simp [Tree.child?_siblings (by decide : (Bytes.ofText Settings.fileName).length ≠ 1)]
  have hsound : (Tree.siblings.write [[0x61]] Settings.fileName settings).Sound :=
    Tree.sound_siblings.write (by decide +kernel) (by decide) (by decide) hfree
  have henter : world.tree.enter world.cwd dir = .ok [[0x62]] := by decide +kernel
  have hopens : Mailbox.Opens ⟨dir⟩ world [[0x62]] :=
    Mailbox.opens_of_enter (by decide +kernel) henter
  have hhomeFor : world.homeFor dir = home := by decide +kernel
  refine ⟨hsound, hopens, hhomeFor ▸ (hopens.homeFor_spec hsound).1, by decide +kernel,
    by decide +kernel, fun hends => ?_⟩
  have hstatus := hends.status_eq
  have htold : (((CommandLine.invoke ⟨some dir, none, command⟩).perform 1).run world).1 =
      some (.failed (.mail (.timeout home 0))) := by decide +kernel
  have hstarted : (((CommandLine.invoke ⟨none, none, command⟩).perform 1).run inside).1 =
      none := by decide +kernel
  rw [htold, hstarted] at hstatus
  cases hstatus

/-- Recovery that has moved a claim away cannot come through it again: the other claim stays. -/
example :
    let claim (name : String) : Location := [[0x62], Bytes.ofText (MessageName.claim name)]
    let tree := ((Tree.lone 0x62).put (claim "x.eml") .directory).put (claim "y.eml") .directory
    let world : World := { World.blank with tree }
    let dir : Path := .ofText "b/.x.eml.claimed/../.y.eml.claimed/.."
    (((CommandLine.invoke ⟨some dir, none, .recover false⟩).perform 1).run world).1 =
        some (.done "Recovered 1 message(s)\n") ∧
      (((CommandLine.invoke ⟨none, none, .recover false⟩).perform 1).run
          { world with cwd := [[0x62]] }).1 = some (.done "Recovered 2 message(s)\n") := by
  decide +kernel

end Postbox
