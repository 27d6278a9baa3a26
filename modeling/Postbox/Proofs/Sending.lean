import Postbox.Proofs.Deliveries
import Postbox.Proofs.LongPaths
import Postbox.Proofs.Programs
import Postbox.Proofs.Queue

/-!
# Sending is all or nothing

A body is sent when the path of the mailbox leads to a directory in which nothing stands in the way;
then one file has been written and nothing else has changed.  In every other case nothing has changed
at all, whatever it was that failed.
-/

namespace Postbox

namespace Path

/-- What is part of a path that can be followed can be followed too. -/
theorem fault?_of_child
    {dir : Path} {name : Name} (hne : dir.bytes ≠ []) (hname : Name.IsPlain name)
    (h : (dir.child name).fault? = none) :
    dir.fault? = none := by
  have hlen := Nat.le_trans (Nat.le_add_right _ _) (dir.le_length_child hname)
  have hzero := zero_notMem_of_child hname (zero_notMem_of_fault? h)
  unfold fault? at h ⊢
  split at h
  · cases h
  · split at h
    · cases h
    · split at h
      · cases h
      · rename_i hshort
        rw [if_neg (by simpa using hzero), if_neg hne, if_neg (by omega)]

end Path

namespace Tree

/-- Where the path of an entry names a place, the path of its directory leads to a directory. -/
theorem exists_enter_of_target_child
    {tree : Tree} {cwd location : Location} {dir : Path} {name : Name}
    (hname : Name.IsPlain name) (h : tree.target cwd (dir.child name) = .ok location) :
    (dir.child name).fault? = none ∧ ∃ home, tree.enter cwd dir = .ok home := by
  obtain ⟨hfault, moves, home, last, hmoves, hfollow, hhome, -⟩ := exists_of_target_eq_ok h
  obtain ⟨front, hchild, hdir⟩ := dir.moves_child hname
  obtain ⟨rfl, -⟩ := List.append_inj' (hmoves.symm.trans hchild) rfl
  have hstart : start cwd (dir.child name) = start cwd dir := by
    rw [start, start, dir.isAbsolute_child hname]
  rw [hstart] at hfollow
  refine ⟨hfault, home, enter_eq_ok_iff.mpr ⟨?_, hhome⟩⟩
  rcases hdir with hdir | hdir
  · rw [hdir]
    exact hfollow
  · rw [hdir]
    simp only [follow_append, hfollow, bind, Except.bind, follow, move_stay hhome]

end Tree

namespace Mailbox

/-! ## Delivering -/

/-- Nothing stands in the way of a message: the mailbox is a directory in which the staging file can
be made, and no directory bears the name of the message. -/
structure Accessible (mailbox : Mailbox) (world : World) (home : Location) (id : MessageId) :
    Prop where
  opens : mailbox.Opens world home
  fits : Fits (mailbox.entry id.stagingName)
  free : world.tree.child? home id.stagingName = none
  not_directory : world.tree.child? home id.fileName ≠ some .directory

/-- The file of the message holds the body, and every other entry is what it was. -/
structure Posted (before after : Tree) (home : Location) (id : MessageId) (body : String) :
    Prop where
  file : after.child? home id.fileName = some (.file (Bytes.ofText body))
  other : ∀ location, location ≠ home ++ [Bytes.ofText id.fileName] →
    after.get? location = before.get? location

section Delivering

variable {mailbox : Mailbox} {world : World} {home : Location} {id : MessageId} {body : String}
  {sync : Bool}

theorem posted_published (world : World) (home : Location) (id : MessageId) (body : String) :
    Posted world.tree (published world home id body).tree home id body where
  file := by simp [published]
  other := fun location hne => by
    rw [published, World.tree_withTree, Tree.write, Tree.get?_put _ _ _ Tree.place_ne_nil,
      if_neg hne]

theorem Accessible.outcome_deliver
    (h : mailbox.Accessible world home id) (body : String) (sync : Bool) :
    Action.outcome (mailbox.deliver id body sync) world =
      (.ok (mailbox.entry id.fileName),
        (published world home id body).recorded (mailbox.deliveryEvent id body)) := by
  rw [h.opens.outcome_deliver,
    deliveryError?_eq_none_iff.mpr ⟨h.fits, h.free, h.not_directory⟩]

/-- Without a place for the staging file nothing is done. -/
theorem outcome_deliver_of_target_eq_error
    {fault : Fault}
    (h : world.tree.target world.cwd (mailbox.entry id.stagingName) = .error fault) (body : String)
    (sync : Bool) :
    Action.outcome (mailbox.deliver id body sync) world =
      (.error (.io (mailbox.entry id.stagingName) fault), world) := by
  have hcreate : world.answer (.create (mailbox.entry id.stagingName)) =
      (.error fault, world) := by
    rw [World.answer, Tree.create, h]
    rfl
  rw [deliver, Action.outcome_bind, Action.outcome_onPath, hcreate]
  rfl

/-- Where there is a place for a staging file, the mailbox has a directory. -/
theorem exists_enters_of_target_eq_ok
    {location : Location}
    (h : world.tree.target world.cwd (mailbox.entry id.stagingName) = .ok location) :
    (mailbox.entry id.stagingName).fault? = none ∧ ∃ home, mailbox.Enters world home := by
  have hplain := id.isPlain_stagingName
  obtain ⟨hfault, home, henter⟩ := Tree.exists_enter_of_target_child hplain h
  exact ⟨hfault, home, henter,
    Path.zero_notMem_of_child hplain (Path.zero_notMem_of_fault? hfault)⟩

/-- There is no place for a staging file where the mailbox is no directory. -/
theorem exists_target_eq_error_of_not_opens
    (hne : mailbox.dir.bytes ≠ []) (h : ∀ home, ¬mailbox.Opens world home) (id : MessageId) :
    ∃ fault, world.tree.target world.cwd (mailbox.entry id.stagingName) = .error fault := by
  cases htarget : world.tree.target world.cwd (mailbox.entry id.stagingName) with
  | error fault => exact ⟨fault, rfl⟩
  | ok location =>
      obtain ⟨hfault, home, henters⟩ := exists_enters_of_target_eq_ok htarget
      have hdir := Path.fault?_of_child hne id.isPlain_stagingName hfault
      exact absurd (opens_of_enter hdir henters.enter_eq) (h home)

/-- A delivery that something stands in the way of fails with the whole world as it was. -/
theorem exists_outcome_deliver_eq_error
    (hne : mailbox.dir.bytes ≠ []) (h : ∀ home, ¬mailbox.Accessible world home id)
    (body : String) :
    ∃ path fault, ∀ sync, Action.outcome (mailbox.deliver id body sync) world =
      (.error (.io path fault), world) := by
  by_cases hopens : ∃ home, mailbox.Opens world home
  · obtain ⟨home, hopens⟩ := hopens
    cases herror : mailbox.deliveryError? world.tree home id with
    | none =>
        obtain ⟨hfits, hfree, hdir⟩ := deliveryError?_eq_none_iff.mp herror
        exact absurd ⟨hopens, hfits, hfree, hdir⟩ (h home)
    | some error =>
        obtain ⟨path, fault, rfl⟩ : ∃ path fault, error = .io path fault := by
          unfold deliveryError? at herror
          grind
        refine ⟨path, fault, fun sync => ?_⟩
        rw [hopens.outcome_deliver, herror]
  · obtain ⟨fault, htarget⟩ :=
      exists_target_eq_error_of_not_opens hne (not_exists.mp hopens) id
    exact ⟨mailbox.entry id.stagingName, fault, outcome_deliver_of_target_eq_error htarget body⟩

/-- What a delivery comes to. -/
structure AllOrNothing (mailbox : Mailbox) (world : World) (id : MessageId) (body : String) :
    Prop where
  ok_iff : ∀ sync, (∃ path, (Action.outcome (mailbox.deliver id body sync) world).1 = .ok path) ↔
    ∃ home, mailbox.Accessible world home id
  posted : ∀ sync home, mailbox.Accessible world home id →
    ∃ after, Action.outcome (mailbox.deliver id body sync) world =
        (.ok (mailbox.entry id.fileName), after) ∧
      Posted world.tree after.tree home id body ∧ after.tree.child? home id.stagingName = none
  failed : (¬∃ home, mailbox.Accessible world home id) →
    ∃ path fault, ∀ sync, Action.outcome (mailbox.deliver id body sync) world =
      (.error (.io path fault), world)
  sync_irrelevant : ∀ sync other, Action.outcome (mailbox.deliver id body sync) world =
    Action.outcome (mailbox.deliver id body other) world

theorem allOrNothing
    (hne : mailbox.dir.bytes ≠ []) (world : World) (id : MessageId) (body : String) :
    mailbox.AllOrNothing world id body := by
  by_cases h : ∃ home, mailbox.Accessible world home id
  · refine ⟨fun sync => ?_, fun sync home h => ?_, fun hnone => absurd h hnone, fun sync other => ?_⟩
    · obtain ⟨home, haccessible⟩ := h
      rw [haccessible.outcome_deliver]
      exact iff_of_true ⟨_, rfl⟩ ⟨home, haccessible⟩
    · have hstaging := (fileName_ne_stagingName id id).symm
      refine ⟨_, h.outcome_deliver body sync, posted_published world home id body, ?_⟩
      simp [published, hstaging, h.free]
    · obtain ⟨home, haccessible⟩ := h
      rw [haccessible.outcome_deliver, haccessible.outcome_deliver]
  · have hnone : ∀ home, ¬mailbox.Accessible world home id := not_exists.mp h
    obtain ⟨path, fault, herror⟩ := exists_outcome_deliver_eq_error hne hnone body
    refine ⟨fun sync => ?_, fun sync home haccessible => absurd ⟨home, haccessible⟩ h,
      fun _ => ⟨path, fault, herror⟩, fun sync other => by rw [herror, herror]⟩
    rw [herror]
    exact iff_of_false (by simp) h

end Delivering

/-! ## Sending to a recipient -/

section Recipients

variable {mailbox : Mailbox} {recipient : String}

/-- A name that is good for a recipient is good for a directory. -/
theorem isPlain_of_isValidRecipient
    (h : isValidRecipient recipient = true) :
    Name.IsPlain (Bytes.ofText recipient) := by
  simp only [isValidRecipient, Bool.and_eq_true, bne_iff_ne, ne_eq, Bool.not_eq_true',
    List.contains_eq_mem, decide_eq_false_iff_not] at h
  obtain ⟨⟨⟨⟨hempty, hdot⟩, hdotdot⟩, hslash⟩, hzero⟩ := h
  have hchar : ∀ {b : UInt8} {c : Char}, b.toNat < 0x80 → c.toNat = b.toNat →
      c ∉ recipient.toList → b ∉ Bytes.ofText recipient := by
    intro b c hascii hc hnotMem hmem
    obtain ⟨other, hother, hvalue⟩ := Bytes.exists_mem_of_mem_ofText hascii hmem
    exact hnotMem (Char.toNat_inj.mp (hvalue.trans hc.symm) ▸ hother)
  have hne : ∀ {text : String}, recipient ≠ text → Bytes.ofText recipient ≠ Bytes.ofText text :=
    fun hne heq => hne (Bytes.ofText_injective heq)
  exact {
    ne_nil := hne hempty
    ne_dot := hne hdot
    ne_dotdot := hne hdotdot
    slash_notMem := hchar (by decide) (by decide) hslash
    zero_notMem := hchar (by decide) (by decide) hzero }

theorem ofRecipient_eq_ok_iff
    {base : Path} :
    ofRecipient base recipient = .ok mailbox ↔
      isValidRecipient recipient = true ∧
        mailbox = ⟨(directoryAround base).child (Bytes.ofText recipient)⟩ := by
  unfold ofRecipient
  split
  · rename_i hvalid
    simp [hvalid, eq_comm]
  · rename_i hvalid
    simp [hvalid]

/-- The path of a recipient's mailbox is never empty. -/
theorem dir_ne_nil_of_ofRecipient
    {base : Path} (h : ofRecipient base recipient = .ok mailbox) :
    mailbox.dir.bytes ≠ [] := by
  obtain ⟨hvalid, rfl⟩ := ofRecipient_eq_ok_iff.mp h
  have hplain := isPlain_of_isValidRecipient hvalid
  have hlen := (directoryAround base).le_length_child hplain
  have hpos := List.length_pos_iff.mpr hplain.ne_nil
  exact List.ne_nil_of_length_pos
    (Nat.lt_of_lt_of_le hpos (Nat.le_trans (Nat.le_add_left _ _) hlen))

end Recipients

end Mailbox

/-- A message with the body has come into the mailbox of the recipient beside `base`, under the next
identifier, and nothing else has changed. -/
def World.Sent (world : World) (base : Path) (recipient body : String) (path : Path) (after : Tree) :
    Prop :=
  ∃ mailbox home, Mailbox.ofRecipient base recipient = .ok mailbox ∧
    mailbox.Accessible world home world.issue.1 ∧ path = mailbox.entry world.issue.1.fileName ∧
    Mailbox.Posted world.tree after home world.issue.1 body

section Endpoints

variable {mailbox : Mailbox} {world : World} {home : Location} {recipient : String}

theorem Mailbox.Accessible.of_tree_eq
    {other : World} {id : MessageId} (h : mailbox.Accessible world home id)
    (htree : other.tree = world.tree) (hcwd : other.cwd = world.cwd) :
    mailbox.Accessible other home id where
  opens := h.opens.of_sameDirectories hcwd (htree ▸ .refl _)
  fits := h.fits
  free := htree ▸ h.free
  not_directory := htree ▸ h.not_directory

theorem Endpoint.outcome_send_invalid
    {sender : Endpoint} {error : MailError}
    (h : Mailbox.ofRecipient sender.home recipient = .error error) (body : String) (world : World) :
    Action.outcome (sender.send recipient body) world = (.error error, world) := by
  rw [Endpoint.send, h]
  rfl

/-- Sending succeeds and has sent the body, or fails and has changed no file. -/
theorem Endpoint.send_cases (sender : Endpoint) (recipient body : String) (world : World) :
    (∃ path after, Action.outcome (sender.send recipient body) world = (.ok path, after) ∧
        world.Sent sender.home recipient body path after.tree) ∨
      ((∀ path tree, ¬world.Sent sender.home recipient body path tree) ∧ ∃ error after,
        Action.outcome (sender.send recipient body) world = (.error error, after) ∧
          after.tree = world.tree) := by
  cases hmailbox : Mailbox.ofRecipient sender.home recipient with
  | error error =>
      refine .inr ⟨?_, error, world, Endpoint.outcome_send_invalid hmailbox body world, rfl⟩
      rintro path tree ⟨mailbox, -, hok, -⟩
      rw [hmailbox] at hok
      cases hok
  | ok mailbox =>
      rw [Endpoint.outcome_send hmailbox]
      generalize Event.debugging "sending message" _ = event
      by_cases h : ∃ home, mailbox.Accessible world home world.issue.1
      · obtain ⟨home, h⟩ := h
        have hissued : mailbox.Accessible (world.issue.2.recorded event) home world.issue.1 :=
          h.of_tree_eq rfl rfl
        refine .inl
          ⟨_, _, hissued.outcome_deliver body sender.sync, mailbox, home, hmailbox, h, rfl, ?_⟩
        exact Mailbox.posted_published (world.issue.2.recorded event) home world.issue.1 body
      · have hnone : ∀ home, ¬mailbox.Accessible (world.issue.2.recorded event) home world.issue.1 :=
          fun home hissued => h ⟨home, hissued.of_tree_eq rfl rfl⟩
        obtain ⟨path, fault, herror⟩ := Mailbox.exists_outcome_deliver_eq_error
          (Mailbox.dir_ne_nil_of_ofRecipient hmailbox) hnone body
        refine .inr ⟨?_, _, _, herror sender.sync, rfl⟩
        rintro path tree ⟨other, home, hok, haccessible, -⟩
        obtain rfl := Except.ok.inj (hmailbox.symm.trans hok)
        exact h ⟨home, haccessible⟩

end Endpoints

/-! ## The program that sends -/

/-- The body that a program is told to send. -/
def BodySource.Gives (source : BodySource) (world : World) (body : String) : Prop :=
  match source with
  | .text given => body = given
  | .input => world.input = Bytes.ofText body
  | .unstated => False

namespace Invocation

section Sending

variable {world : World} {recipient : String} {source : BodySource}

/-- Finding out the body takes at most the standard input. -/
theorem outcome_body_cases (source : BodySource) (world : World) :
    (∃ body input, Course.outcome (Invocation.body source) world = (.ok body, { world with input }) ∧
        source.Gives world body) ∨
      ∃ failure input,
        Course.outcome (Invocation.body source) world = (.error failure, { world with input }) := by
  cases source with
  | text text => exact .inl ⟨text, world.input, rfl, rfl⟩
  | unstated => exact .inr ⟨_, world.input, rfl⟩
  | input =>
      rw [Invocation.body, Course.outcome_bind, Course.outcome_ask, World.answer]
      simp only
      cases htext : world.input.text? with
      | none => exact .inr ⟨_, [], rfl⟩
      | some body => exact .inl ⟨body, [], rfl, Bytes.text?_eq_some_iff.mp htext⟩

/-- The program has the body of the message in hand and comes to send it. -/
theorem outcome_send_of_body
    {start after : World} {body : String} (endpoint : Endpoint) (recipient : String)
    (report : SendReport) {result : Except MailError Path}
    (hbody : Course.outcome (Invocation.body source) world = (.ok body, start))
    (hsend : Action.outcome (endpoint.send recipient body) start = (result, after)) :
    ∃ log, Course.outcome (send endpoint recipient source report) world =
      ((result.map fun path => sendText recipient body path report).mapError .mail,
        { after with log }) := by
  rw [send, Course.outcome_bind, hbody]
  simp only
  rw [Course.outcome_bind, Course.outcome_mail, hsend]
  cases result with
  | error error => exact ⟨after.log, rfl⟩
  | ok path =>
      simp only [Except.mapError]
      rw [Course.outcome_bind, Course.outcome_ask, World.answer_report]
      exact ⟨_, rfl⟩

theorem sent_of_unread
    {log : List Event} {input : Bytes} {base path : Path} {body : String} {tree : Tree}
    (h : World.Sent { world with log, input } base recipient body path tree) :
    world.Sent base recipient body path tree := by
  obtain ⟨mailbox, home, hmailbox, haccessible, hpath, hposted⟩ := h
  exact ⟨mailbox, home, hmailbox, haccessible.of_tree_eq rfl rfl, hpath, hposted⟩

/-- A program that is told to send has sent the body, or has changed no file. -/
theorem course_send_cases (dir? config? : Option Path) (recipient : String) (source : BodySource)
    (sync : Bool) (report : SendReport) (limit : Nat) (world : World) :
    (∃ base body path after,
        (Course.outcome (home dir?) world).1 = .ok base ∧ source.Gives world body ∧
        Course.outcome (course ⟨dir?, config?, .send recipient source sync report⟩ limit) world =
          (.ok (some (sendText recipient body path report)), after) ∧
        world.Sent base recipient body path after.tree) ∨
      ∃ failure after,
        Course.outcome (course ⟨dir?, config?, .send recipient source sync report⟩ limit) world =
          (.error failure, after) ∧ after.tree = world.tree := by
  have hhome : ∃ result, Course.outcome (home dir?) world = (result, world) :=
    ⟨_, outcome_home dir? world⟩
  obtain ⟨base | base, hhome⟩ := hhome
  · refine .inr ⟨base, world, ?_, rfl⟩
    rw [course, Course.outcome_bind, hhome]
  · have hcourse : Course.outcome
        (course ⟨dir?, config?, .send recipient source sync report⟩ limit) world =
          Course.outcome (do
            let settings ← Course.settings
              { sync? := if sync then some true else none, file? := config? } base
            some <$> send (settings.endpoint base) recipient source report) world := by
      rw [course, Course.outcome_bind, hhome]
    generalize ({ sync? := _, file? := config? } : Overrides) = overrides at hcourse
    obtain ⟨log, hlog⟩ := Settings.onlyReports_resolve overrides base world
    rw [hcourse, Course.outcome_bind, Course.outcome_settings, hlog]
    cases ((Settings.resolve overrides base).run world).1 with
    | error error => exact .inr ⟨.settings error, { world with log }, rfl, rfl⟩
    | ok settings =>
        simp only [Except.mapError, Course.outcome_map]
        rcases outcome_body_cases source { world with log } with
          ⟨body, input, hbody, hgives⟩ | ⟨failure, input, hbody⟩
        · rcases (settings.endpoint base).send_cases recipient body { world with log, input } with
            ⟨path, after, hsend, hsent⟩ | ⟨-, error, after, hsend, htree⟩
          · obtain ⟨log', houtcome⟩ :=
              outcome_send_of_body (settings.endpoint base) recipient report hbody hsend
            rw [houtcome]
            refine .inl
              ⟨base, body, path, _, congrArg Prod.fst hhome, ?_, rfl, sent_of_unread hsent⟩
            cases source <;> exact hgives
          · obtain ⟨log', houtcome⟩ :=
              outcome_send_of_body (settings.endpoint base) recipient report hbody hsend
            rw [houtcome]
            exact .inr ⟨.mail error, _, rfl, htree⟩
        · rw [send, Course.outcome_bind, hbody]
          exact .inr ⟨failure, _, rfl, rfl⟩

end Sending

end Invocation

section AllOrNothing

variable {mailbox : Mailbox}

/-- A delivery puts the body under its name in the mailbox, or fails with everything as it was; and
so it is with sending to a recipient, and with a program that is told to send. -/
theorem sending_all_or_nothing
    (hne : mailbox.dir.bytes ≠ []) (world : World) (id : MessageId) (body : String) :
    mailbox.AllOrNothing world id body ∧
      (∀ (sender : Endpoint) (recipient : String),
        (∃ path after, Action.outcome (sender.send recipient body) world = (.ok path, after) ∧
            world.Sent sender.home recipient body path after.tree) ∨
          ∃ error after, Action.outcome (sender.send recipient body) world = (.error error, after) ∧
            after.tree = world.tree) ∧
      ∀ (dir? config? : Option Path) (recipient : String) (source : BodySource) (sync : Bool)
        (report : SendReport) (limit : Nat),
        (∃ base body path after,
            (Course.outcome (Invocation.home dir?) world).1 = .ok base ∧ source.Gives world body ∧
            ((CommandLine.invoke ⟨dir?, config?, .send recipient source sync report⟩).perform
                limit).run world =
              (some (.done (Invocation.sendText recipient body path report)), after) ∧
            world.Sent base recipient body path after.tree) ∨
          ∃ failure after,
            ((CommandLine.invoke ⟨dir?, config?, .send recipient source sync report⟩).perform
                limit).run world = (some (.failed failure), after) ∧
              after.tree = world.tree := by
  refine ⟨Mailbox.allOrNothing hne world id body, fun sender recipient => ?_,
    fun dir? config? recipient source sync report limit => ?_⟩
  · exact (sender.send_cases recipient body world).imp_right And.right
  · rw [CommandLine.run_perform_invoke]
    rcases Invocation.course_send_cases dir? config? recipient source sync report limit world with
      ⟨base, body, path, after, hhome, hgives, hcourse, hsent⟩ | ⟨failure, after, hcourse, htree⟩
    · rw [hcourse]
      exact .inl ⟨base, body, path, after, hhome, hgives, rfl, hsent⟩
    · rw [hcourse]
      exact .inr ⟨failure, after, rfl, htree⟩

/-- One body goes into a mailbox in which a message waits and another writer is at work; their files
stay as they are.  A delivery by the identifier of the other writer fails and changes nothing. -/
theorem sending_all_or_nothing_once :
    let mailbox : Mailbox := ⟨Path.stretched 0 0x62⟩
    let id : MessageId := ⟨0, 0⟩
    let other : MessageId := ⟨0, 1⟩
    let world := World.blank.withTree (((Tree.lone 0x62).write [[0x62]] "a.eml"
      (Bytes.ofText "there")).write [[0x62]] other.stagingName (Bytes.ofText "half"))
    mailbox.dir.bytes ≠ [] ∧ mailbox.Accessible world [[0x62]] id ∧
      (∃ after, Action.outcome (mailbox.deliver id "hi" false) world =
          (.ok (mailbox.entry id.fileName), after) ∧
        Mailbox.Posted world.tree after.tree [[0x62]] id "hi" ∧
        after.tree.child? [[0x62]] id.stagingName = none ∧
        after.tree.child? [[0x62]] "a.eml" = some (.file (Bytes.ofText "there")) ∧
        after.tree.child? [[0x62]] other.stagingName = some (.file (Bytes.ofText "half"))) ∧
      ∃ path fault, Action.outcome (mailbox.deliver other "ho" false) world =
        (.error (.io path fault), world) := by
  intro mailbox id other world
  have hb : Name.IsPlain [0x62] := by decide
  have hne : mailbox.dir.bytes ≠ [] := by decide
  have hentries : ∀ name, world.tree.child? [[0x62]] name =
      if name = other.stagingName then some (.file (Bytes.ofText "half"))
      else if name = "a.eml" then some (.file (Bytes.ofText "there")) else none := by
    intro name
    rw [World.tree_withTree, Tree.child?_write, Tree.child?_write, Tree.child?_lone]
  have hhome : world.tree.get? [[0x62]] = some .directory :=
    (Tree.sameDirectories_write (by simp) _).mp <|
      (Tree.sameDirectories_write (by simp) _).mp (Tree.get?_lone 0x62)
  have hopens : mailbox.Opens world [[0x62]] := Mailbox.opens_stretched hb (by decide) rfl hhome
  have haccessible : mailbox.Accessible world [[0x62]] id := {
    opens := hopens
    fits := by
      refine Mailbox.fits_of_length id.isPlain_stagingName ?_
      rw [id.length_ofText_stagingName]
      decide
    free := by rw [hentries, if_neg (by decide), if_neg (by decide)]
    not_directory := by rw [hentries, if_neg (by decide), if_neg (by decide)]; simp }
  have hblocked : ¬∃ home, mailbox.Accessible world home other := by
    rintro ⟨home, h⟩
    obtain rfl : [[0x62]] = home :=
      Except.ok.inj (hopens.enter_eq.symm.trans h.opens.enter_eq)
    have hfree := h.free
    rw [hentries, if_pos rfl] at hfree
    cases hfree
  obtain ⟨after, houtcome, hposted, hstaging⟩ :=
    (sending_all_or_nothing hne world id "hi").1.posted false [[0x62]] haccessible
  obtain ⟨path, fault, hfailed⟩ := (sending_all_or_nothing hne world other "ho").1.failed hblocked
  have hkept : ∀ name, name ≠ id.fileName →
      after.tree.child? [[0x62]] name = world.tree.child? [[0x62]] name :=
    fun name hname => hposted.other _ (mt Tree.place_inj.mp hname)
  refine ⟨hne, haccessible, ⟨after, houtcome, hposted, hstaging, ?_, ?_⟩, path, fault,
    hfailed false⟩
  · rw [hkept _ (by decide), hentries, if_neg (by decide), if_pos rfl]
  · rw [hkept _ (by decide), hentries, if_pos rfl]

/-- Nothing stands in the way but the length of the path of the staging file. -/
theorem long_staging_path_not_delivered :
    let mailbox : Mailbox := ⟨Path.stretched 4079 0x62⟩
    let world := World.blank.withTree (Tree.lone 0x62)
    let id : MessageId := ⟨0, 0⟩
    mailbox.dir.bytes ≠ [] ∧ mailbox.Opens world [[0x62]] ∧
      world.tree.child? [[0x62]] id.stagingName = none ∧
      world.tree.child? [[0x62]] id.fileName ≠ some .directory ∧
      Action.outcome (mailbox.deliver id "hi" false) world =
        (.error (.io (mailbox.entry id.stagingName) .nameTooLong), world) := by
  intro mailbox world id
  have hb : Name.IsPlain [0x62] := by decide
  have hlength : mailbox.dir.bytes.length = 4082 := Path.length_stretched 4079 0x62
  have hopens : mailbox.Opens world [[0x62]] :=
    Mailbox.opens_stretched hb (by decide) rfl (Tree.get?_lone 0x62)
  have hlong : ¬Mailbox.Fits (mailbox.entry id.stagingName) := by
    refine Mailbox.not_fits_of_length id.isPlain_stagingName ?_
    rw [id.length_ofText_stagingName, hlength]
    decide
  refine ⟨List.ne_nil_of_length_pos (by omega), hopens, Tree.child?_lone 0x62 _,
    by simp [world], ?_⟩
  rw [hopens.outcome_deliver, Mailbox.deliveryError?, if_pos hlong]

end AllOrNothing

end Postbox
