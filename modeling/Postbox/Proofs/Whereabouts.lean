import Postbox.Proofs.Ascents
import Postbox.Proofs.Programs
import Postbox.Proofs.Sending

/-!
# Whereabouts

It matters for relative paths only where one stands.  Whoever makes all requests by paths from the
root gets the same answers everywhere, and so does the same: all that is done at a directory with
such a path.
-/

namespace Postbox

/-! ## Requests -/

namespace Tree

variable {path : Path}

theorem locate_congr
    (h : path.isAbsolute = true) (tree : Tree) (cwd elsewhere : Location) :
    tree.locate cwd path = tree.locate elsewhere path := by
  rw [locate, locate, start, start, h]
  rfl

theorem target_congr
    (h : path.isAbsolute = true) (tree : Tree) (cwd elsewhere : Location) :
    tree.target cwd path = tree.target elsewhere path := by
  rw [target, target, start, start, h]
  rfl

end Tree

/-- The request does not depend on the working directory: its paths start at the root. -/
def Request.IsRooted : {α : Type} → Request α → Prop
  | _, .workingDirectory => False
  | _, .list path | _, .isFile path | _, .holds path | _, .read path | _, .create path
  | _, .append path _ | _, .flush path | _, .remove path => path.isAbsolute = true
  | _, .rename source target => source.isAbsolute = true ∧ target.isAbsolute = true
  | _, .issueId | _, .variable _ | _, .input | _, .clock | _, .sleep _ | _, .report _ => True

namespace World

theorem change_elsewhere (world : World) (cwd : Location) (result : Except Fault Tree) :
    World.change { world with cwd } result =
      ((world.change result).1, { (world.change result).2 with cwd }) := by
  cases result <;> rfl

/-- A request that starts at the root is answered in the same way everywhere. -/
theorem answer_elsewhere
    {α : Type} {request : Request α} (h : request.IsRooted) (world : World) (cwd : Location) :
    World.answer { world with cwd } request =
      ((world.answer request).1, { (world.answer request).2 with cwd }) := by
  cases request with
  | workingDirectory => exact absurd h id
  | list path => simp only [answer, Tree.list, Tree.locate_congr h _ cwd world.cwd]
  | isFile path => simp only [answer, Tree.isFile, Tree.locate_congr h _ cwd world.cwd]
  | holds path => simp only [answer, Tree.holds, Tree.locate_congr h _ cwd world.cwd]
  | read path => simp only [answer, Tree.read, Tree.locate_congr h _ cwd world.cwd]
  | flush path => simp only [answer, Tree.flush, Tree.locate_congr h _ cwd world.cwd]
  | create path =>
      simp only [answer, Tree.create, Tree.target_congr h _ cwd world.cwd]
      exact world.change_elsewhere cwd _
  | append path content =>
      simp only [answer, Tree.append, Tree.locate_congr h _ cwd world.cwd]
      exact world.change_elsewhere cwd _
  | remove path =>
      simp only [answer, Tree.remove, Tree.target_congr h _ cwd world.cwd]
      exact world.change_elsewhere cwd _
  | rename source target =>
      simp only [answer, Tree.rename, Tree.target_congr h.1 _ cwd world.cwd,
        Tree.target_congr h.2 _ cwd world.cwd]
      exact world.change_elsewhere cwd _
  | _ => rfl

end World

/-! ## Procedures -/

namespace Procedure

/-- The procedure does the same everywhere. -/
def Anywhere {α : Type} (procedure : Procedure α) : Prop :=
  ∀ (world : World) (cwd : Location),
    procedure.run { world with cwd } =
      ((procedure.run world).1, { (procedure.run world).2 with cwd })

section Composition

variable {ε α β : Type}

theorem anywhere_done (result : α) :
    (done result).Anywhere :=
  fun _ _ => rfl

theorem anywhere_request (request : Request α)
    (h : request.IsRooted) :
    (Procedure.request request).Anywhere :=
  World.answer_elsewhere h

protected theorem anywhere_report (event : Event) :
    (Procedure.request (.report event)).Anywhere :=
  anywhere_request (.report event) trivial

/-- Only what the first procedure can come to matters for the second one. -/
theorem Anywhere.andThen_run
    {procedure : Procedure α} {next : α → Procedure β} (h : procedure.Anywhere)
    (hnext : ∀ world, (next (procedure.run world).1).Anywhere) :
    (procedure.andThen next).Anywhere := by
  intro world cwd
  rw [run_andThen, run_andThen, h world cwd]
  exact hnext world _ cwd

theorem Anywhere.andThen
    {procedure : Procedure α} {next : α → Procedure β} (h : procedure.Anywhere)
    (hnext : ∀ a, (next a).Anywhere) :
    (procedure.andThen next).Anywhere :=
  h.andThen_run fun _ => hnext _

/-- What can fail does the same everywhere if each of its steps does. -/
theorem Anywhere.bind
    {first : ExceptT ε Procedure α} {next : α → ExceptT ε Procedure β}
    (h : Anywhere first.run) (hnext : ∀ a, Anywhere (next a).run) :
    Anywhere (first >>= next).run := by
  apply Anywhere.andThen h
  intro result
  cases result with
  | ok a => exact hnext a
  | error error => exact anywhere_done _

theorem Anywhere.tryCatch
    {first : ExceptT ε Procedure α} {handle : ε → ExceptT ε Procedure α}
    (h : Anywhere first.run) (hhandle : ∀ error, Anywhere (handle error).run) :
    Anywhere (tryCatch first handle).run := by
  apply Anywhere.andThen h
  intro result
  cases result with
  | ok a => exact anywhere_done _
  | error error => exact hhandle error

theorem Anywhere.map
    {first : ExceptT ε Procedure α} (h : Anywhere first.run) (f : α → β) :
    Anywhere (f <$> first).run := by
  rw [map_eq_pure_bind]
  exact h.bind fun _ => anywhere_done _

theorem Anywhere.adapt
    {δ : Type} {first : ExceptT ε Procedure α} (h : Anywhere first.run) (f : ε → δ) :
    Anywhere (ExceptT.adapt f first).run :=
  h.andThen fun _ => anywhere_done _

theorem Anywhere.lift
    {procedure : Procedure α} (h : procedure.Anywhere) :
    Anywhere (ExceptT.lift procedure : ExceptT ε Procedure α).run :=
  h.andThen fun _ => anywhere_done _

end Composition

end Procedure

namespace Action

open Procedure

theorem anywhere_ask
    {α : Type} (request : Request α) (h : request.IsRooted) :
    Anywhere (ask request).run :=
  (anywhere_request request h).lift

theorem anywhere_report (event : Event) :
    Anywhere (report event).run :=
  (Procedure.anywhere_report event).lift

theorem anywhere_onPath
    {α : Type} (path : Path) (request : Request (Except Fault α)) (h : request.IsRooted) :
    Anywhere (onPath path request).run :=
  (anywhere_ask request h).bind fun answer => by cases answer <;> exact anywhere_done _

end Action

/-! ## Paths made of a path -/

namespace Path

variable {path : Path}

theorem isAbsolute_join_of_isAbsolute
    (h : path.isAbsolute = true) (next : Path) :
    (path.join next).isAbsolute = true := by
  rw [join]
  split
  · assumption
  · obtain ⟨rest, hrest⟩ := List.head?_eq_some_iff.mp (beq_iff_eq.mp h)
    split <;> simp [isAbsolute, hrest]

theorem isAbsolute_parent?
    {parent : Path} (h : path.isAbsolute = true) (hparent : path.parent? = some parent) :
    parent.isAbsolute = true := by
  obtain ⟨last, hextends⟩ := exists_extends_of_isAbsolute h hparent
  exact hextends.isAbsolute_eq.trans h

theorem isAbsolute_withFileName
    (h : path.isAbsolute = true) (name : Name) :
    (path.withFileName name).isAbsolute = true := by
  rw [withFileName]
  split
  · rename_i hparent
    exact isAbsolute_join_of_isAbsolute (isAbsolute_parent? h hparent) _
  · exact isAbsolute_join_of_isAbsolute h _

theorem isAbsolute_directoryAround
    (h : path.isAbsolute = true) :
    (Mailbox.directoryAround path).isAbsolute = true := by
  rw [Mailbox.directoryAround]
  split
  · rename_i hparent _
    split
    · exact isAbsolute_join_of_isAbsolute h _
    · exact isAbsolute_parent? h hparent
  · exact isAbsolute_join_of_isAbsolute h _

end Path

/-! ## What is done with a mailbox -/

namespace Mailbox

open Procedure Postbox.Action

section Acting

variable {mailbox : Mailbox} (habs : mailbox.dir.isAbsolute = true)

include habs

theorem isAbsolute_entry (name : String) :
    (mailbox.entry name).isAbsolute = true :=
  Path.isAbsolute_join_of_isAbsolute habs _

theorem anywhere_waiting (order : ReceiveOrder) :
    Anywhere (mailbox.waiting order).run := by
  have hregular : ∀ names, Anywhere (mailbox.regularFiles names).run := by
    intro names
    induction names with
    | nil => exact anywhere_done _
    | cons name rest ih =>
        exact (anywhere_ask (.isFile (mailbox.entry name)) (isAbsolute_entry habs name)).bind
          fun _ => ih.bind fun _ => anywhere_done _
  exact (anywhere_onPath _ (.list mailbox.dir) habs).bind fun _ =>
    (hregular _).bind fun _ => anywhere_done _

theorem anywhere_pending (order : ReceiveOrder) :
    Anywhere (mailbox.pending order).run :=
  (anywhere_waiting habs order).bind fun _ => anywhere_done _

omit habs in
theorem anywhere_consume
    {claim candidate : Path} (hclaim : claim.isAbsolute = true)
    (hcandidate : candidate.isAbsolute = true) :
    Anywhere (consume claim candidate).run := by
  have hread : Anywhere (readText claim).run := by
    refine (anywhere_ask (.read claim) hclaim).bind fun answer => ?_
    cases answer with
    | error fault => exact anywhere_done _
    | ok content =>
        simp only
        split <;> exact anywhere_done _
  have hrestore : Anywhere (restore claim candidate).run := by
    refine (anywhere_ask (.rename claim candidate) ⟨hclaim, hcandidate⟩).bind fun answer => ?_
    cases answer with
    | ok _ => exact anywhere_done _
    | error fault => exact anywhere_report _
  refine hread.bind fun text => ?_
  cases text with
  | error fault => exact hrestore.bind fun _ => anywhere_done _
  | ok body =>
      exact (anywhere_onPath _ (.remove claim) hclaim).bind fun _ =>
        (anywhere_report _).bind fun _ => anywhere_done _

theorem anywhere_takeNext (order : ReceiveOrder) :
    Anywhere (mailbox.takeNext order).run := by
  have hfirst : ∀ names, Anywhere (mailbox.takeFirst names).run := by
    intro names
    induction names with
    | nil => exact anywhere_done _
    | cons name rest ih =>
        have hcandidate := isAbsolute_entry habs name
        have hclaim : (claimPath (mailbox.entry name) name).isAbsolute = true :=
          Path.isAbsolute_withFileName hcandidate _
        refine (anywhere_ask (.rename (mailbox.entry name) (claimPath (mailbox.entry name) name))
          ⟨hcandidate, hclaim⟩).bind fun answer => ?_
        cases answer with
        | ok _ => exact anywhere_consume hclaim hcandidate
        | error fault =>
            cases fault with
            | notFound => exact (anywhere_report _).bind fun _ => ih
            | _ => exact anywhere_done _
  exact (anywhere_waiting habs order).bind fun _ => hfirst _

theorem anywhere_recoverClaims :
    Anywhere mailbox.recoverClaims.run := by
  have hrevive : ∀ names revived, Anywhere (mailbox.reviveAll revived names).run := by
    intro names
    induction names with
    | nil => exact fun _ => anywhere_done _
    | cons name rest ih =>
        intro revived
        rw [reviveAll]
        split
        · exact ih revived
        · rename_i visible _
          refine (anywhere_ask (.rename (mailbox.dir.child name) (mailbox.entry visible))
            ⟨Path.isAbsolute_join_of_isAbsolute habs _, isAbsolute_entry habs visible⟩).bind
              fun answer => ?_
          cases answer with
          | ok _ => exact (anywhere_report _).bind fun _ => ih _
          | error fault =>
              cases fault with
              | notFound => exact ih revived
              | _ => exact anywhere_done _
  exact (anywhere_onPath _ (.list mailbox.dir) habs).bind fun _ => hrevive _ 0

theorem anywhere_deliver (id : MessageId) (body : String) (sync : Bool) :
    Anywhere (mailbox.deliver id body sync).run := by
  have hstaging := isAbsolute_entry habs id.stagingName
  have hfinal := isAbsolute_entry habs id.fileName
  have hremove : Anywhere (removeStaging (mailbox.entry id.stagingName)).run := by
    refine (anywhere_ask (.remove (mailbox.entry id.stagingName)) hstaging).bind fun answer => ?_
    cases answer with
    | ok _ => exact anywhere_done _
    | error fault =>
        cases fault with
        | notFound => exact anywhere_done _
        | _ => exact anywhere_report _
  have hcleanup : ∀ error : MailError, Anywhere (do
      removeStaging (mailbox.entry id.stagingName)
      throw error : Action Unit).run :=
    fun error => hremove.bind fun _ => anywhere_done _
  have hwrite : Anywhere (writeStaged (mailbox.entry id.stagingName) body sync).run := by
    refine (anywhere_onPath _ (.append (mailbox.entry id.stagingName) (Bytes.ofText body))
      hstaging).bind fun _ => ?_
    cases sync with
    | false => exact anywhere_done _
    | true => exact anywhere_onPath _ (.flush (mailbox.entry id.stagingName)) hstaging
  have hrename := anywhere_onPath (mailbox.entry id.fileName)
    (.rename (mailbox.entry id.stagingName) (mailbox.entry id.fileName)) ⟨hstaging, hfinal⟩
  refine (anywhere_onPath _ (.create (mailbox.entry id.stagingName)) hstaging).bind fun _ =>
    (hwrite.tryCatch hcleanup).bind fun _ => (hrename.tryCatch hcleanup).bind fun _ => ?_
  have hreport : ∀ event, Anywhere (do
      Action.report event
      return mailbox.entry id.fileName : Action Path).run :=
    fun event => (anywhere_report event).bind fun _ => anywhere_done _
  cases sync with
  | false => exact hreport _
  | true => exact (anywhere_onPath _ (.flush mailbox.dir) habs).bind fun _ => hreport _

end Acting

end Mailbox

/-! ## What a program does at a directory -/

section Programs

open Procedure Postbox.Action

variable {endpoint : Endpoint} {path : Path}

theorem Endpoint.anywhere_send
    (habs : endpoint.home.isAbsolute = true) (recipient body : String) :
    Anywhere (endpoint.send recipient body).run := by
  have hmailbox : ∀ mailbox, Mailbox.ofRecipient endpoint.home recipient = .ok mailbox →
      mailbox.dir.isAbsolute = true := by
    intro mailbox hok
    obtain ⟨-, rfl⟩ := Mailbox.ofRecipient_eq_ok_iff.mp hok
    exact Path.isAbsolute_join_of_isAbsolute (Path.isAbsolute_directoryAround habs) _
  rw [send]
  cases hresult : Mailbox.ofRecipient endpoint.home recipient with
  | error error => exact anywhere_done _
  | ok mailbox =>
      exact (anywhere_ask .issueId trivial).bind fun id => (anywhere_report _).bind fun _ =>
        Mailbox.anywhere_deliver (hmailbox mailbox hresult) id body endpoint.sync

/-- Waiting does the same everywhere if each attempt does, by induction on the attempts left. -/
theorem PollPolicy.anywhere_waitFrom
    {α : Type} (policy : PollPolicy) (mailbox : Path) {routine : Routine Procedure α}
    (hattempt : routine.attempt.Anywhere) (helapsed : routine.elapsed.Anywhere)
    (hsleep : ∀ made duration, (routine.sleep made duration).Anywhere) (limit made : Nat)
    (interval : Duration) :
    (policy.waitFrom mailbox routine limit made interval).Anywhere := by
  induction limit generalizing made interval with
  | zero => exact anywhere_done _
  | succ limit ih =>
      refine hattempt.andThen fun result => ?_
      cases result with
      | ok value => exact anywhere_done _
      | error error =>
          cases error with
          | noMessage _ =>
              refine helapsed.andThen fun elapsed => ?_
              cases policy.pause mailbox interval elapsed with
              | error error => exact anywhere_done _
              | ok duration => exact (hsleep _ _).andThen fun _ => ih _ _
          | _ => exact anywhere_done _

theorem Endpoint.anywhere_waitAndReceive
    (habs : endpoint.home.isAbsolute = true) (limit : Nat) :
    (endpoint.waitAndReceive limit).Anywhere := by
  have hclock : (Procedure.request .clock).Anywhere := anywhere_request .clock trivial
  refine hclock.andThen fun start => ?_
  apply endpoint.policy.anywhere_waitFrom
  · exact Mailbox.anywhere_takeNext habs endpoint.order
  · exact hclock.andThen fun _ => anywhere_done _
  · exact fun made duration => (Procedure.anywhere_report _).andThen fun _ =>
      anywhere_request (.sleep duration) trivial

namespace Settings

theorem anywhere_warn (warnings : List SettingsWarning) :
    (warn warnings).Anywhere := by
  induction warnings with
  | nil => exact anywhere_done ()
  | cons warning rest ih => exact (Procedure.anywhere_report _).andThen fun _ => ih

theorem anywhere_findIn
    {dirs : List Path} (habs : ∀ dir ∈ dirs, dir.isAbsolute = true) :
    (findIn dirs).Anywhere ∧
      ∀ world, ∀ file ∈ ((findIn dirs).run world).1, file.isAbsolute = true := by
  induction dirs with
  | nil => exact ⟨anywhere_done _, fun _ _ hfile => by cases hfile⟩
  | cons dir rest ih =>
      obtain ⟨hrest, hfound⟩ := ih fun other hmem => habs other (List.mem_cons_of_mem _ hmem)
      have hchild : ∀ name, (dir.child name).isAbsolute = true :=
        fun name => Path.isAbsolute_join_of_isAbsolute (habs dir List.mem_cons_self) ⟨name⟩
      constructor
      · refine (anywhere_request (.isFile (dir.child (Bytes.ofText fileName)))
          (hchild _)).andThen fun isFile => ?_
        cases isFile with
        | true => exact anywhere_done _
        | false =>
            refine (anywhere_request (.holds (dir.child (Bytes.ofText repositoryMark)))
              (hchild _)).andThen fun marked => ?_
            cases marked with
            | true => exact anywhere_done _
            | false => exact hrest
      · intro world file hfile
        rw [findIn, Procedure.run_bind] at hfile
        split at hfile
        · cases hfile
          exact hchild _
        · rw [Procedure.run_bind] at hfile
          split at hfile
          · cases hfile
          · exact hfound world file hfile

theorem anywhere_find
    (habs : path.isAbsolute = true) :
    (find path).Anywhere ∧
      ∀ world, ∀ file ∈ ((find path).run world).1, file.isAbsolute = true :=
  anywhere_findIn fun _ hmem => (Path.isPrefix_of_mem_ancestors hmem).1.trans habs

theorem anywhere_base
    (habs : path.isAbsolute = true) :
    (base none path).Anywhere := by
  obtain ⟨hfind, hfound⟩ := anywhere_find habs
  refine hfind.andThen_run fun world => ?_
  cases hfile : ((find path).run world).1 with
  | none => exact anywhere_done _
  | some file =>
      have hload : (load file).Anywhere :=
        (anywhere_request (.read file) (hfound world file hfile)).andThen fun _ => anywhere_done _
      refine hload.andThen fun loaded => ?_
      cases loaded with
      | ok settings => exact anywhere_done _
      | error error => exact (anywhere_warn _).andThen fun _ => anywhere_done _

theorem anywhere_resolve
    {overrides : Overrides} (hfile : overrides.file? = none) (habs : path.isAbsolute = true) :
    (resolve overrides path).Anywhere := by
  have hvariables : ∀ names, (readVariables names).Anywhere := by
    intro names
    induction names with
    | nil => exact anywhere_done _
    | cons name rest ih =>
        exact (anywhere_request (.variable name) trivial).andThen fun _ =>
          ih.andThen fun _ => anywhere_done _
  rw [resolve, hfile]
  refine (anywhere_base habs).andThen fun found => ?_
  cases found with
  | error error => exact anywhere_done _
  | ok settings =>
      exact (hvariables _).andThen fun _ => (anywhere_warn _).andThen fun _ =>
        (anywhere_warn _).andThen fun _ => anywhere_done _

end Settings

namespace Invocation

theorem anywhere_send
    (habs : endpoint.home.isAbsolute = true) (recipient : String) (source : BodySource)
    (report : SendReport) :
    Anywhere (send endpoint recipient source report).run := by
  have hbody : Anywhere (body source).run := by
    cases source with
    | text text => exact anywhere_done _
    | unstated => exact anywhere_done _
    | input =>
        refine (anywhere_request .input trivial).lift.bind fun content => ?_
        cases content with
        | error fault => exact anywhere_done _
        | ok content =>
            simp only
            split <;> exact anywhere_done _
  exact hbody.bind fun text => ((Endpoint.anywhere_send habs recipient text).adapt _).bind fun _ =>
    (Procedure.anywhere_report _).lift.bind fun _ => anywhere_done _

theorem anywhere_receive
    (habs : endpoint.home.isAbsolute = true) (wait json : Bool) (limit : Nat) :
    Anywhere (receive endpoint wait json limit).run := by
  rw [receive]
  cases wait with
  | false =>
      exact (((Mailbox.anywhere_takeNext habs endpoint.order).adapt _).map _).bind fun _ =>
        anywhere_done _
  | true =>
      refine (Endpoint.anywhere_waitAndReceive habs limit).lift.bind fun result => ?_
      cases result with
      | none => exact anywhere_done _
      | some result => cases result <;> exact anywhere_done _

/-- A command does the same everywhere once its directory is known. -/
theorem exists_act (command : Command) (limit : Nat) :
    ∃ act : Path → Course (Option String),
      (∀ dir?, course ⟨dir?, none, command⟩ limit = home dir? >>= act) ∧
        ∀ {path : Path}, path.isAbsolute = true → Anywhere (act path).run := by
  have hsettings : ∀ {overrides : Overrides} {path : Path}, overrides.file? = none →
      path.isAbsolute = true → Anywhere (Course.settings overrides path).run :=
    fun hfile habs => (Settings.anywhere_resolve hfile habs).adapt _
  cases command with
  | send recipient source sync report =>
      refine ⟨fun path => do
        let settings ← Course.settings { sync? := if sync then some true else none } path
        some <$> send (settings.endpoint path) recipient source report,
        fun _ => rfl, fun habs => ?_⟩
      exact (hsettings rfl habs).bind fun _ => (anywhere_send habs recipient source report).map _
  | receive wait timeoutSecs? intervalMs? order? json =>
      refine ⟨fun path => do
        let settings ← Course.settings { intervalMs?, timeoutSecs?, order? } path
        receive (settings.endpoint path) (wait || timeoutSecs?.isSome) json limit,
        fun _ => rfl, fun habs => ?_⟩
      exact (hsettings rfl habs).bind fun _ => anywhere_receive habs _ json limit
  | pending order? json =>
      refine ⟨fun path => do
        let settings ← Course.settings { order? } path
        let paths ← Course.mail (settings.endpoint path).pending
        return some (pendingText json ((paths.filterMap Path.fileName?).map Bytes.display)),
        fun _ => rfl, fun habs => ?_⟩
      exact (hsettings rfl habs).bind fun _ =>
        ((Mailbox.anywhere_pending habs _).adapt _).bind fun _ => anywhere_done _
  | recover json =>
      refine ⟨_, fun _ => rfl, fun habs => ?_⟩
      exact ((Mailbox.anywhere_recoverClaims habs).adapt _).bind fun _ => anywhere_done _

end Invocation

end Programs

end Postbox
