import Postbox.Mailbox.Delivery
import Postbox.Proofs.Interruptions
import Postbox.Proofs.Mailboxes

/-!
# What a delivery does

A delivery fails before it has changed anything, or it undoes what it has changed, or it brings its
file into view.  An interrupted delivery leaves at most a staging file behind.
-/

namespace Postbox.Mailbox

/-- Why a message cannot be delivered. -/
def deliveryError? (mailbox : Mailbox) (tree : Tree) (home : Location) (id : MessageId) :
    Option MailError :=
  let staging := mailbox.entry id.stagingName
  if ¬Fits staging then some (.io staging .nameTooLong)
  else if tree.child? home id.stagingName ≠ none then some (.io staging .alreadyExists)
  else if tree.child? home id.fileName = some .directory then
    some (.io (mailbox.entry id.fileName) .isDirectory)
  else none

/-- What is reported of a delivered message. -/
def deliveryEvent (mailbox : Mailbox) (id : MessageId) (body : String) : Event :=
  .debugging "delivered message"
    [("path", (mailbox.entry id.fileName).display), ("bytes", toString body.utf8ByteSize)]

section Staging

variable {mailbox : Mailbox} {world reached : World} {home : Location} {id : MessageId}

theorem admits_stagingName
    (hfits : Fits (mailbox.entry id.stagingName)) :
    mailbox.Admits id.stagingName where
  plain := id.isPlain_stagingName
  short := by simp [id.length_ofText_stagingName, Path.maxName]
  fits := hfits

theorem admits_of_fits_fileName
    (hfits : Fits (mailbox.entry id.fileName)) :
    mailbox.Admits id.fileName where
  plain := id.isPlain_fileName
  short := by simp [id.length_ofText_fileName, Path.maxName]
  fits := hfits

/-- A message has a shorter name than its staging file. -/
theorem admits_fileName
    (hfits : Fits (mailbox.entry id.stagingName)) :
    mailbox.Admits id.fileName := by
  refine admits_of_fits_fileName (Nat.le_trans ?_ hfits)
  apply Path.length_child_mono _ id.isPlain_fileName id.isPlain_stagingName
  rw [id.length_ofText_fileName, id.length_ofText_stagingName]
  decide

/-! ## Filling the staging file -/

/-- The world while a file is being written. -/
theorem Enters.withTree_write
    (h : mailbox.Enters world home) {name : String}
    (hold : world.tree.child? home name ≠ some .directory) (content : Bytes) :
    mailbox.Enters (world.withTree (world.tree.write home name content)) home :=
  h.withTree (Tree.sameDirectories_write hold)

theorem Opens.withTree_write
    (h : mailbox.Opens world home) {name : String}
    (hold : world.tree.child? home name ≠ some .directory) (content : Bytes) :
    mailbox.Opens (world.withTree (world.tree.write home name content)) home :=
  h.withTree (Tree.sameDirectories_write hold)

theorem Enters.outcome_writeStaged
    (h : mailbox.Enters world home) {name : String} (hname : mailbox.Admits name)
    (hfile : world.tree.child? home name = some (.file [])) (body : String) (sync : Bool) :
    Action.outcome (writeStaged (mailbox.entry name) body sync) world =
      (.ok (), world.withTree (world.tree.write home name (Bytes.ofText body))) := by
  have hold : world.tree.child? home name ≠ some .directory := by simp [hfile]
  have hwritten := (h.withTree_write hold (Bytes.ofText body)).designates hname
  rw [writeStaged, Action.outcome_bind, Action.outcome_onPath,
    (h.designates hname).answer_append hfile]
  simp only [Except.mapError, List.nil_append]
  cases sync with
  | false => rfl
  | true =>
      have hfull : (world.withTree (world.tree.write home name (Bytes.ofText body))).tree.child?
          home name = some (.file (Bytes.ofText body)) := by simp
      rw [if_pos rfl, Action.outcome_onPath, hwritten.answer_flush hfull]
      rfl

theorem Enters.reaches_writeStaged
    (h : mailbox.Enters world home) {name : String} (hname : mailbox.Admits name)
    (hfile : world.tree.child? home name = some (.file [])) {body : String} {sync : Bool}
    (hreach : Action.Reaches (writeStaged (mailbox.entry name) body sync) world reached) :
    reached = world ∨ ∃ written, written <+: Bytes.ofText body ∧
      reached = world.withTree (world.tree.write home name written) := by
  have happend := (h.designates hname).answer_append hfile
  rw [writeStaged, Action.reaches_bind_iff, Action.reaches_onPath_iff] at hreach
  rcases hreach with (rfl | htorn | rfl) | ⟨_, -, hrest⟩
  · exact .inl rfl
  · obtain ⟨written, hpre, rfl⟩ := htorn
    exact .inr ⟨written, hpre, by rw [happend]; rfl⟩
  · exact .inr ⟨_, List.prefix_refl _, by rw [happend]; rfl⟩
  · rw [Action.outcome_onPath, happend] at hrest
    refine .inr ⟨_, List.prefix_refl _, ?_⟩
    split at hrest
    · rcases Action.reaches_onPath_iff.mp hrest with rfl | htorn | rfl
      · rfl
      · exact absurd htorn id
      · rfl
    · exact Action.reaches_pure_iff.mp hrest

/-! ## Removing the staging file -/

theorem Enters.outcome_removeStaging
    (h : mailbox.Enters world home) {name : String} (hname : mailbox.Admits name) {content : Bytes}
    (hfile : world.tree.child? home name = some (.file content)) :
    Action.outcome (removeStaging (mailbox.entry name)) world =
      (.ok (), world.withTree (world.tree.unlink home name)) := by
  rw [removeStaging, Action.outcome_bind, Action.outcome_attempt,
    (h.designates hname).answer_remove hfile]
  rfl

theorem Enters.reaches_removeStaging
    (h : mailbox.Enters world home) {name : String} (hname : mailbox.Admits name) {content : Bytes}
    (hfile : world.tree.child? home name = some (.file content))
    (hreach : Action.Reaches (removeStaging (mailbox.entry name)) world reached) :
    reached = world ∨ reached = world.withTree (world.tree.unlink home name) := by
  have hremove := (h.designates hname).answer_remove hfile
  rw [removeStaging, Action.reaches_bind_iff, Action.attempt, Action.reaches_ask_iff,
    Action.outcome_ask, hremove] at hreach
  rcases hreach with (rfl | htorn | rfl) | ⟨_, hok, hrest⟩
  · exact .inl rfl
  · exact absurd htorn id
  · exact .inr rfl
  · cases hok
    exact .inr (Action.reaches_pure_iff.mp hrest)

end Staging

/-! ## The whole delivery -/

section Delivery

variable {mailbox : Mailbox} {world reached : World} {home : Location} {id : MessageId}
  {body : String} {sync : Bool}

theorem deliveryError?_eq_none_iff
    {tree : Tree} :
    mailbox.deliveryError? tree home id = none ↔
      Fits (mailbox.entry id.stagingName) ∧ tree.child? home id.stagingName = none ∧
        tree.child? home id.fileName ≠ some .directory := by
  unfold deliveryError?
  by_cases hfits : Fits (mailbox.entry id.stagingName)
  · by_cases hfree : tree.child? home id.stagingName = none
    · simp [hfits, hfree]
    · simp [hfits, hfree]
  · simp [hfits]

theorem fileName_ne_stagingName (id other : MessageId) :
    id.fileName ≠ other.stagingName := by
  intro heq
  have hvisible := MessageName.isVisible_fileName id
  rw [heq, MessageName.isVisible_stagingName] at hvisible
  cases hvisible

/-- The world after the body has been written to the staging file. -/
def staged (world : World) (home : Location) (id : MessageId) (written : Bytes) : World :=
  world.withTree (world.tree.write home id.stagingName written)

/-- The world after the message has come into view. -/
def published (world : World) (home : Location) (id : MessageId) (body : String) : World :=
  world.withTree (world.tree.write home id.fileName (Bytes.ofText body))

section Staged

variable {written : Bytes}

theorem child?_staged (world : World) (home : Location) (id : MessageId) (written : Bytes) :
    (staged world home id written).tree.child? home id.stagingName = some (.file written) := by
  simp [staged]

theorem Enters.enters_staged
    (h : mailbox.Enters world home) (hfree : world.tree.child? home id.stagingName = none)
    (written : Bytes) :
    mailbox.Enters (staged world home id written) home :=
  h.withTree_write (by simp [hfree]) written

theorem Enters.outcome_writeStaged_staged
    (h : mailbox.Enters world home) (hfits : Fits (mailbox.entry id.stagingName))
    (hfree : world.tree.child? home id.stagingName = none) :
    Action.outcome (writeStaged (mailbox.entry id.stagingName) body sync)
        (staged world home id []) =
      (.ok (), staged world home id (Bytes.ofText body)) := by
  rw [(h.enters_staged hfree _).outcome_writeStaged (admits_stagingName hfits) (child?_staged ..)]
  simp only [staged, World.tree_withTree, World.withTree_withTree, Tree.write_write]

/-- A renamed staging file leaves nothing of itself behind. -/
theorem Enters.answer_rename_staged
    (h : mailbox.Enters world home) (hfits : Fits (mailbox.entry id.stagingName))
    (hfree : world.tree.child? home id.stagingName = none) :
    (staged world home id (Bytes.ofText body)).answer
        (.rename (mailbox.entry id.stagingName) (mailbox.entry id.fileName)) =
      if world.tree.child? home id.fileName = some .directory then
        (.error .isDirectory, staged world home id (Bytes.ofText body))
      else (.ok (), published world home id body) := by
  have hstaged := h.enters_staged hfree (Bytes.ofText body)
  have htarget := (hstaged.designates (admits_fileName hfits)).target_eq
  have hshort := Nat.not_lt.mpr (admits_fileName hfits).short
  rw [(hstaged.designates (admits_stagingName hfits)).answer_rename (child?_staged ..) htarget,
    if_neg hshort]
  simp only [staged, published, World.tree_withTree, World.withTree_withTree,
    Tree.child?_write, if_neg (fileName_ne_stagingName id id), Tree.unlink_write,
    Tree.unlink_eq_self hfree]

/-- Removing the staging file of a failed delivery undoes all that was done. -/
theorem Enters.outcome_removeStaging_staged
    (h : mailbox.Enters world home) (hfits : Fits (mailbox.entry id.stagingName))
    (hfree : world.tree.child? home id.stagingName = none) :
    Action.outcome (removeStaging (mailbox.entry id.stagingName))
        (staged world home id written) = (.ok (), world) := by
  rw [(h.enters_staged hfree _).outcome_removeStaging (admits_stagingName hfits) (child?_staged ..)]
  simp only [staged, World.tree_withTree, World.withTree_withTree,
    Tree.unlink_write,
    Tree.unlink_eq_self hfree, World.withTree_tree]

end Staged

theorem Enters.answer_create_staging
    (h : mailbox.Enters world home) :
    world.answer (.create (mailbox.entry id.stagingName)) =
      if ¬Fits (mailbox.entry id.stagingName) then (.error .nameTooLong, world)
      else if world.tree.child? home id.stagingName ≠ none then (.error .alreadyExists, world)
      else (.ok (), staged world home id []) := by
  by_cases hfits : Fits (mailbox.entry id.stagingName)
  · rw [if_neg (not_not.mpr hfits), (h.designates (admits_stagingName hfits)).answer_create]
    cases world.tree.child? home id.stagingName with
    | none => rfl
    | some entry => rfl
  · rw [if_pos hfits, World.answer, Tree.create, Tree.target,
      h.fault?_entry id.isPlain_stagingName hfits]
    rfl

/-- A delivery fails and leaves the tree as it was, or brings the whole message into view.  Only
then is the path of the directory itself put to use. -/
theorem Enters.outcome_deliver
    (h : mailbox.Enters world home) (id : MessageId) (body : String) (sync : Bool) :
    Action.outcome (mailbox.deliver id body sync) world =
      match mailbox.deliveryError? world.tree home id with
      | some error => (.error error, world)
      | none =>
        match if sync then mailbox.dir.fault? else none with
        | some fault => (.error (.io mailbox.dir fault), published world home id body)
        | none => (.ok (mailbox.entry id.fileName),
            (published world home id body).recorded (mailbox.deliveryEvent id body)) := by
  rw [deliver, Action.outcome_bind, Action.outcome_onPath, h.answer_create_staging, deliveryError?]
  by_cases hfits : Fits (mailbox.entry id.stagingName)
  swap
  · simp only [if_pos hfits, Except.mapError]
  by_cases hfree : world.tree.child? home id.stagingName = none
  swap
  · simp only [hfits, not_true_eq_false, if_false, if_pos hfree, Except.mapError]
  simp only [hfits, hfree, not_true_eq_false, if_false, ne_eq, Except.mapError]
  rw [Action.outcome_bind, Action.outcome_tryCatch, h.outcome_writeStaged_staged hfits hfree]
  simp only
  rw [Action.outcome_bind, Action.outcome_tryCatch, Action.outcome_onPath,
    h.answer_rename_staged hfits hfree]
  by_cases hdir : world.tree.child? home id.fileName = some .directory
  · simp only [if_pos hdir, Except.mapError]
    rw [Action.outcome_bind, h.outcome_removeStaging_staged hfits hfree]
    rfl
  · simp only [if_neg hdir, Except.mapError]
    have hpublished : mailbox.Enters (published world home id body) home := h.withTree_write hdir _
    cases sync with
    | false => rfl
    | true =>
        rw [if_pos rfl, if_pos rfl, Action.outcome_bind, Action.outcome_onPath, World.answer,
          hpublished.flush_eq]
        cases mailbox.dir.fault? <;> rfl

/-- A delivery into a directory that can be opened either fails and leaves the tree as it was, or
brings the whole message into view. -/
theorem Opens.outcome_deliver
    (h : mailbox.Opens world home) (id : MessageId) (body : String) (sync : Bool) :
    Action.outcome (mailbox.deliver id body sync) world =
      match mailbox.deliveryError? world.tree home id with
      | some error => (.error error, world)
      | none => (.ok (mailbox.entry id.fileName),
          (published world home id body).recorded (mailbox.deliveryEvent id body)) := by
  rw [h.enters.outcome_deliver, h.fault?_eq, ite_self]

theorem Opens.of_deliver_eq_ok
    (h : mailbox.Opens world home) {path : Path} {after : World}
    (hok : Action.outcome (mailbox.deliver id body sync) world = (.ok path, after)) :
    mailbox.deliveryError? world.tree home id = none ∧ path = mailbox.entry id.fileName ∧
      after = (published world home id body).recorded (mailbox.deliveryEvent id body) := by
  rw [h.outcome_deliver] at hok
  cases herror : mailbox.deliveryError? world.tree home id with
  | some error =>
      rw [herror] at hok
      cases (Prod.mk.inj hok).1
  | none =>
      rw [herror] at hok
      obtain ⟨hpath, hafter⟩ := Prod.mk.inj hok
      exact ⟨rfl, (Except.ok.inj hpath).symm, hafter.symm⟩

theorem Opens.eq_of_deliver_eq_error
    (h : mailbox.Opens world home) {error : MailError} {after : World}
    (herror : Action.outcome (mailbox.deliver id body sync) world = (.error error, after)) :
    after = world := by
  rw [h.outcome_deliver] at herror
  split at herror
  · exact (Prod.mk.inj herror).2.symm
  · cases (Prod.mk.inj herror).1

/-- The staging file has been made and holds some of the body. -/
structure Staged (mailbox : Mailbox) (world : World) (home : Location) (id : MessageId)
    (body : String) (reached : World) : Prop where
  fits : Fits (mailbox.entry id.stagingName)
  free : world.tree.child? home id.stagingName = none
  eq_staged : ∃ written, written <+: Bytes.ofText body ∧
    reached = staged world home id written

theorem Staged.sound
    (hstaged : Staged mailbox world home id body reached) (h : mailbox.Opens world home)
    (hsound : world.tree.Sound) :
    reached.tree.Sound := by
  obtain ⟨written, -, rfl⟩ := hstaged.eq_staged
  have hname := admits_stagingName hstaged.fits
  exact hsound.write h.get?_eq hname.plain hname.short (by simp [hstaged.free])

theorem Opens.sound_published
    (h : mailbox.Opens world home) (hsound : world.tree.Sound)
    (hnone : mailbox.deliveryError? world.tree home id = none) :
    (published world home id body).tree.Sound := by
  obtain ⟨hfits, -, hold⟩ := deliveryError?_eq_none_iff.mp hnone
  have hname := admits_fileName hfits
  exact hsound.write h.get?_eq hname.plain hname.short hold

/-- A delivery that is undone is found with its staging file or as if it had not begun. -/
theorem Opens.reaches_undo
    (h : mailbox.Opens world home) (hfits : Fits (mailbox.entry id.stagingName))
    (hfree : world.tree.child? home id.stagingName = none) {written : Bytes} {α : Type}
    {error : MailError}
    (hreach : Action.Reaches
      (removeStaging (mailbox.entry id.stagingName) >>= fun _ => (throw error : Action α))
      (staged world home id written) reached) :
    reached = staged world home id written ∨ reached = world := by
  have hremoved : (staged world home id written).withTree
      ((staged world home id written).tree.unlink home id.stagingName) = world := by
    simp only [staged, World.tree_withTree, World.withTree_withTree, Tree.unlink_write,
      Tree.unlink_eq_self hfree, World.withTree_tree]
  rcases Action.reaches_bind_iff.mp hreach with hfirst | ⟨_, -, hsecond⟩
  · have hcases := (h.enters.enters_staged hfree _).reaches_removeStaging (admits_stagingName hfits)
      (child?_staged ..) hfirst
    rwa [hremoved] at hcases
  · rw [h.enters.outcome_removeStaging_staged hfits hfree] at hsecond
    exact .inr (Action.reaches_throw_iff.mp hsecond)

/-- After the message has come into view nothing happens to the tree. -/
theorem reaches_announce
    (h : mailbox.Opens world home) {event : Event} {path : Path}
    (hreach : Action.Reaches (do
      if sync then Action.onPath mailbox.dir (.flush mailbox.dir)
      Action.report event
      return path) world reached) :
    reached = world ∨ reached = world.recorded event := by
  have hreport : ∀ {after : World}, Action.Reaches (do
      Action.report event
      return path) after reached → reached = after ∨ reached = after.recorded event := by
    intro after hreport
    simpa [Action.report, Action.reaches_bind_iff, Action.reaches_ask_iff, Request.Torn,
      -bind_pure_comp] using hreport
  cases sync with
  | false => exact hreport hreach
  | true =>
      rw [if_pos rfl, Action.reaches_bind_iff, Action.reaches_onPath_iff, Action.outcome_onPath,
        World.answer, h.flush_eq] at hreach
      rcases hreach with (rfl | htorn | rfl) | ⟨_, -, hreach⟩
      · exact .inl rfl
      · exact False.elim htorn
      · exact .inl rfl
      · exact hreport hreach

theorem Opens.reaches_fill
    (h : mailbox.Opens world home) (hfits : Fits (mailbox.entry id.stagingName))
    (hfree : world.tree.child? home id.stagingName = none)
    (hreach : Action.Reaches (writeStaged (mailbox.entry id.stagingName) body sync)
      (staged world home id []) reached) :
    Staged mailbox world home id body reached := by
  have hstaged := h.enters.enters_staged hfree []
  rcases hstaged.reaches_writeStaged (admits_stagingName hfits) (child?_staged ..) hreach with
    rfl | ⟨written, hpre, rfl⟩
  · exact ⟨hfits, hfree, [], List.nil_prefix, rfl⟩
  · refine ⟨hfits, hfree, written, hpre, ?_⟩
    simp only [staged, World.tree_withTree, World.withTree_withTree, Tree.write_write]

/-- An interrupted delivery is found before its beginning, with some of the body in its staging
file, or with the whole message in view. -/
theorem Opens.reaches_deliver
    (h : mailbox.Opens world home)
    (hreach : Action.Reaches (mailbox.deliver id body sync) world reached) :
    reached = world ∨ Staged mailbox world home id body reached ∨
      mailbox.deliveryError? world.tree home id = none ∧
        (reached = published world home id body ∨
          reached = (published world home id body).recorded (mailbox.deliveryEvent id body)) := by
  rw [deliver, Action.reaches_bind_iff, Action.reaches_onPath_iff, Action.outcome_onPath,
    h.enters.answer_create_staging] at hreach
  by_cases hfits : Fits (mailbox.entry id.stagingName)
  swap
  · simp only [if_pos hfits, Except.mapError, reduceCtorEq, false_and, exists_false, or_false,
      Request.Torn, false_or, or_self] at hreach
    exact .inl hreach
  by_cases hfree : world.tree.child? home id.stagingName = none
  swap
  · simp only [hfits, not_true_eq_false, if_false, if_pos hfree, Except.mapError, reduceCtorEq,
      false_and, exists_false, or_false, Request.Torn, false_or, or_self] at hreach
    exact .inl hreach
  simp only [hfits, hfree, not_true_eq_false, if_false, ne_eq, Except.mapError, Request.Torn,
    false_or] at hreach
  rcases hreach with (rfl | rfl) | ⟨_, -, hreach⟩
  · exact .inl rfl
  · exact .inr (.inl ⟨hfits, hfree, [], List.nil_prefix, rfl⟩)
  -- The staging file is there; what follows is writing, renaming and reporting.
  rw [Action.reaches_bind_iff, Action.reaches_tryCatch_iff, Action.outcome_tryCatch,
    h.enters.outcome_writeStaged_staged hfits hfree] at hreach
  simp only [reduceCtorEq, false_and, exists_false, or_false] at hreach
  rcases hreach with hfill | ⟨_, -, hreach⟩
  · exact .inr (.inl (h.reaches_fill hfits hfree hfill))
  have hfull : Staged mailbox world home id body
      (staged world home id (Bytes.ofText body)) :=
    ⟨hfits, hfree, _, List.prefix_refl _, rfl⟩
  rw [Action.reaches_bind_iff, Action.reaches_tryCatch_iff, Action.outcome_tryCatch,
    Action.reaches_onPath_iff, Action.outcome_onPath,
    h.enters.answer_rename_staged hfits hfree] at hreach
  by_cases hdir : world.tree.child? home id.fileName = some .directory
  · simp only [if_pos hdir, Except.mapError, Request.Torn, false_or, or_self, Except.error.injEq,
      exists_eq_left'] at hreach
    rcases hreach with (rfl | hundo) | ⟨_, hok, -⟩
    · exact .inr (.inl hfull)
    · rcases h.reaches_undo hfits hfree hundo with rfl | rfl
      · exact .inr (.inl hfull)
      · exact .inl rfl
    · rw [Action.outcome_bind, h.enters.outcome_removeStaging_staged hfits hfree] at hok
      cases hok
  · have hnone := deliveryError?_eq_none_iff.mpr ⟨hfits, hfree, hdir⟩
    simp only [if_neg hdir, Except.mapError, Request.Torn, false_or, reduceCtorEq, false_and,
      exists_false, or_false] at hreach
    rcases hreach with (rfl | rfl) | ⟨_, -, hreach⟩
    · exact .inr (.inl hfull)
    · exact .inr (.inr ⟨hnone, .inl rfl⟩)
    exact .inr (.inr ⟨hnone, reaches_announce (h.withTree_write hdir _) hreach⟩)

/-- A delivery that can begin can be found with any beginning of the body in its staging file. -/
theorem Opens.reaches_staged
    (h : mailbox.Opens world home) (hfits : Fits (mailbox.entry id.stagingName))
    (hfree : world.tree.child? home id.stagingName = none) {written : Bytes}
    (hpre : written <+: Bytes.ofText body) :
    Action.Reaches (mailbox.deliver id body sync) world (staged world home id written) := by
  have hcreate := @Enters.answer_create_staging mailbox world home id h.enters
  rw [if_neg (not_not.mpr hfits), if_neg (not_not.mpr hfree)] at hcreate
  have happend := ((h.enters.enters_staged hfree []).designates
    (admits_stagingName hfits)).answer_append (child?_staged ..) written
  rw [deliver, Action.reaches_bind_iff, Action.outcome_onPath, hcreate]
  refine .inr ⟨(), rfl, ?_⟩
  rw [Action.reaches_bind_iff, Action.reaches_tryCatch_iff, writeStaged, Action.reaches_bind_iff,
    Action.reaches_onPath_iff]
  refine .inl (.inl (.inl (.inr (.inl ⟨written, hpre, ?_⟩))))
  change _ = ((staged world home id []).answer _).2
  rw [happend]
  simp [staged]

end Delivery

end Postbox.Mailbox
