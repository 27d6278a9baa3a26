import Postbox.Proofs.Sending

/-!
# What is delivered is listed

Whoever delivers joins names to the path of the mailbox; whoever lists opens that path.  Both get to
the same directory, however the path is spelled, with one exception: the empty path leads nowhere,
while names joined to it are those of the working directory.
-/

namespace Postbox.Mailbox

/-- A delivery and the readers of the same mailbox agree: what has been delivered is listed once,
under the path that was returned, and holds the body; what could not be delivered has changed
nothing. -/
structure Agrees (mailbox : Mailbox) (world : World) (id : MessageId) (body : String)
    (sync : Bool) : Prop where
  listed : ∀ {path : Path} {after : World},
    Action.outcome (mailbox.deliver id body sync) world = (.ok path, after) →
      after.tree.read after.cwd path = .ok (Bytes.ofText body) ∧
        ∀ order, ∃ paths, Action.outcome (mailbox.pending order) after = (.ok paths, after) ∧
          paths.count path = 1
  undone : ∀ {error : MailError} {after : World},
    Action.outcome (mailbox.deliver id body sync) world = (.error error, after) → after = world

/-- Deliveries by the empty path come into the working directory, where no reader of the mailbox
finds them.  Asked to bring the directory onto the disk, they fail when the message is in view
already. -/
structure GoesAstray (mailbox : Mailbox) (world : World) (id : MessageId) (body : String) :
    Prop where
  pending_eq : ∀ order,
    Action.outcome (mailbox.pending order) world = (.error (.io mailbox.dir .notFound), world)
  deliver_cases :
    (∃ path after, Action.outcome (mailbox.deliver id body false) world = (.ok path, after) ∧
        after.tree.read after.cwd path = .ok (Bytes.ofText body) ∧
        ∃ failed, Action.outcome (mailbox.deliver id body true) world =
            (.error (.io mailbox.dir .notFound), failed) ∧
          failed.tree = after.tree) ∨
      ∃ error, ∀ sync, Action.outcome (mailbox.deliver id body sync) world = (.error error, world)

section Agreement

variable {mailbox : Mailbox} {world : World} {home : Location} {id : MessageId} {body : String}
  {sync : Bool}

/-! ## Listing one message -/

/-- Two entries have two paths. -/
theorem eq_of_entry_eq
    {a b : String} (ha : Name.IsPlain (Bytes.ofText a)) (hb : Name.IsPlain (Bytes.ofText b))
    (h : mailbox.entry a = mailbox.entry b) :
    a = b := by
  have hname := congrArg Path.fileName? h
  rw [entry, entry, Path.fileName?_child _ ha, Path.fileName?_child _ hb] at hname
  exact Bytes.ofText_injective (Option.some.inj hname)

theorem Opens.nodup_paths
    (h : mailbox.Opens world home) (hsound : world.tree.Sound) (order : ReceiveOrder) :
    ((mailbox.candidates world home order).map mailbox.entry).Nodup := by
  refine List.Nodup.map_on ?_ (nodup_candidates mailbox world home order)
  intro a ha b hb
  exact eq_of_entry_eq (h.exists_of_mem_candidates hsound ha).1.plain
    (h.exists_of_mem_candidates hsound hb).1.plain

/-- A message whose path is not too long is listed once. -/
theorem Opens.exists_pending_count
    (h : mailbox.Opens world home) (hsound : world.tree.Sound) {name : String} {content : Bytes}
    (hmessage : world.tree.message? home name = some content) (hfits : Fits (mailbox.entry name))
    (order : ReceiveOrder) :
    ∃ paths, Action.outcome (mailbox.pending order) world = (.ok paths, world) ∧
      paths.count (mailbox.entry name) = 1 := by
  refine ⟨_, h.outcome_pending order, ?_⟩
  apply List.count_eq_one_of_mem (h.nodup_paths hsound order)
  exact List.mem_map_of_mem ((h.mem_candidates_iff hsound).mpr ⟨⟨content, hmessage⟩, hfits⟩)

/-! ## Where a delivery goes -/

/-- A mailbox that can hold a staging file can be opened, unless its path is empty. -/
theorem Enters.opens
    (h : mailbox.Enters world home) (hne : mailbox.dir.bytes ≠ [])
    (hfits : Fits (mailbox.entry id.stagingName)) :
    mailbox.Opens world home := by
  have hplain := id.isPlain_stagingName
  have hfault : (mailbox.entry id.stagingName).fault? = none := by
    rw [entry, Path.fault?_child h.zero_notMem hplain]
    exact if_neg (Nat.not_lt.mpr hfits)
  exact opens_of_enter (Path.fault?_of_child hne hplain hfault) h.enter_eq

/-- A message that has come into view can be read under its path. -/
theorem Enters.read_published
    (h : mailbox.Enters world home) (hnone : mailbox.deliveryError? world.tree home id = none)
    (body : String) :
    (published world home id body).tree.read world.cwd (mailbox.entry id.fileName) =
      .ok (Bytes.ofText body) := by
  obtain ⟨hfits, -, hfree⟩ := deliveryError?_eq_none_iff.mp hnone
  have hpublished : mailbox.Enters (published world home id body) home := h.withTree_write hfree _
  exact (hpublished.designates (admits_fileName hfits)).read_eq
    (posted_published world home id body).file

/-- Nothing stands in the way of a delivery, or it fails with everything as it was. -/
theorem exists_enters_or_error (mailbox : Mailbox) (world : World) (id : MessageId)
    (body : String) :
    (∃ home, mailbox.Enters world home ∧ mailbox.deliveryError? world.tree home id = none) ∨
      ∃ error, ∀ sync,
        Action.outcome (mailbox.deliver id body sync) world = (.error error, world) := by
  cases htarget : world.tree.target world.cwd (mailbox.entry id.stagingName) with
  | error fault => exact .inr ⟨_, outcome_deliver_of_target_eq_error htarget body⟩
  | ok location =>
      obtain ⟨-, home, henters⟩ := exists_enters_of_target_eq_ok htarget
      cases herror : mailbox.deliveryError? world.tree home id with
      | none => exact .inl ⟨home, henters, herror⟩
      | some error =>
          refine .inr ⟨error, fun sync => ?_⟩
          rw [henters.outcome_deliver, herror]

/-! ## The two kinds of paths -/

theorem agrees_of_error
    {error : MailError}
    (h : Action.outcome (mailbox.deliver id body sync) world = (.error error, world)) :
    mailbox.Agrees world id body sync where
  listed hok := by
    rw [h] at hok
    cases hok
  undone herror := by
    rw [h] at herror
    exact (Prod.mk.inj herror).2.symm

theorem Opens.agrees
    (h : mailbox.Opens world home) (hsound : world.tree.Sound)
    (hnone : mailbox.deliveryError? world.tree home id = none) (body : String) (sync : Bool) :
    mailbox.Agrees world id body sync := by
  obtain ⟨hfits, -, hfree⟩ := deliveryError?_eq_none_iff.mp hnone
  refine ⟨fun {path after} hok => ?_, h.eq_of_deliver_eq_error⟩
  obtain ⟨-, hpath, hrecorded⟩ := h.of_deliver_eq_ok hok
  have htree : after.tree = (published world home id body).tree := by
    rw [hrecorded, World.tree_recorded]
  have hcwd : after.cwd = world.cwd := by
    rw [hrecorded, World.cwd_recorded]
    rfl
  have hopens : mailbox.Opens (published world home id body) home :=
    h.withTree_write hfree (Bytes.ofText body)
  have hmessage : after.tree.message? home id.fileName = some (Bytes.ofText body) := by
    rw [htree]
    exact Tree.message?_eq_some_iff.mpr
      ⟨MessageName.isVisible_fileName id, (posted_published world home id body).file⟩
  constructor
  · rw [hpath, htree, hcwd]
    exact h.enters.read_published hnone body
  · rw [hpath]
    apply (hopens.of_sameDirectories hcwd (htree ▸ .refl _)).exists_pending_count
      (htree ▸ h.sound_published hsound hnone) hmessage
    exact (admits_fileName hfits).fits

theorem not_agrees_of_unlisted
    {path : Path} {after : World} {error : MailError} {order : ReceiveOrder}
    (hok : Action.outcome (mailbox.deliver id body sync) world = (.ok path, after))
    (hpending : Action.outcome (mailbox.pending order) after = (.error error, after)) :
    ¬mailbox.Agrees world id body sync := by
  intro hagrees
  obtain ⟨paths, hpaths, -⟩ := (hagrees.listed hok).2 order
  rw [hpending] at hpaths
  cases (Prod.mk.inj hpaths).1

theorem fault?_of_empty
    (h : mailbox.dir.bytes = []) :
    mailbox.dir.fault? = some .notFound := by
  rw [Path.fault?, h]
  rfl

/-- The empty path cannot be listed. -/
theorem outcome_pending_of_empty
    (h : mailbox.dir.bytes = []) (world : World) (order : ReceiveOrder) :
    Action.outcome (mailbox.pending order) world =
      (.error (.io mailbox.dir .notFound), world) := by
  have hlist : world.tree.list world.cwd mailbox.dir = .error .notFound := by
    rw [Tree.list, Tree.locate, fault?_of_empty h]
    rfl
  rw [pending, waiting, bind_assoc, Action.outcome_bind, Action.outcome_onPath, World.answer,
    hlist]
  rfl

theorem goesAstray
    (h : mailbox.dir.bytes = []) (world : World) (id : MessageId) (body : String) :
    mailbox.GoesAstray world id body where
  pending_eq := outcome_pending_of_empty h world
  deliver_cases := by
    rcases exists_enters_or_error mailbox world id body with ⟨home, henters, hnone⟩ | herror
    swap
    · exact .inr herror
    have houtcome := henters.outcome_deliver id body
    simp only [hnone, fault?_of_empty h] at houtcome
    exact .inl ⟨_, _, houtcome false, henters.read_published hnone body, _, houtcome true, rfl⟩

/-- By every path but the empty one, what is delivered is listed once under the path returned, and a
delivery that fails has changed nothing.  By the empty path, what is delivered is not listed, and a
delivery that fails has changed nothing unless it was to bring the directory onto the disk. -/
theorem delivered_is_listed
    (mailbox : Mailbox) (world : World) (hsound : world.tree.Sound) (id : MessageId)
    (body : String) (sync : Bool) :
    (mailbox.dir.bytes ≠ [] → mailbox.Agrees world id body sync) ∧
      (mailbox.dir.bytes = [] → mailbox.GoesAstray world id body) := by
  refine ⟨fun hne => ?_, fun hempty => goesAstray hempty world id body⟩
  rcases exists_enters_or_error mailbox world id body with ⟨home, henters, hnone⟩ | ⟨error, herror⟩
  · obtain ⟨hfits, -⟩ := deliveryError?_eq_none_iff.mp hnone
    exact (henters.opens hne hfits).agrees hsound hnone body sync
  · exact agrees_of_error (herror sync)

/-- A message is delivered beside another one and listed, in either order. -/
theorem delivered_is_listed_beside :
    let world := World.blank.withTree (Tree.empty.write [] "a.eml" (Bytes.ofText "old"))
    let delivery := Action.outcome (here.deliver ⟨1, 2⟩ "new" true) world
    world.tree.Sound ∧ here.dir.bytes ≠ [] ∧
      delivery.1 = .ok (here.entry (MessageId.fileName ⟨1, 2⟩)) ∧
      ∀ order, ∃ paths, Action.outcome (here.pending order) delivery.2 = (.ok paths, delivery.2) ∧
        paths.count (here.entry (MessageId.fileName ⟨1, 2⟩)) = 1 := by
  intro world delivery
  have hsound : (Tree.empty.write [] "a.eml" (Bytes.ofText "old")).Sound :=
    Tree.sound_empty.write rfl (by decide) (by decide) (by simp)
  have hne : here.dir.bytes ≠ [] := by decide
  have hpath : delivery.1 = .ok (here.entry (MessageId.fileName ⟨1, 2⟩)) := by decide +kernel
  have hagrees := (delivered_is_listed here world hsound ⟨1, 2⟩ "new" true).1 hne
  exact ⟨hsound, hne, hpath, (hagrees.listed (Prod.ext hpath rfl)).2⟩

/-- By the empty path a message is delivered that is not listed, and one comes into view though its
delivery fails. -/
theorem empty_path_disagrees :
    let mailbox : Mailbox := ⟨⟨[]⟩⟩
    let id : MessageId := ⟨0, 0⟩
    World.blank.tree.Sound ∧
      (∃ after, Action.outcome (mailbox.deliver id "hi" false) World.blank =
          (.ok (mailbox.entry id.fileName), after) ∧
        ¬mailbox.Agrees World.blank id "hi" false) ∧
      ∃ after, Action.outcome (mailbox.deliver id "hi" true) World.blank =
          (.error (.io mailbox.dir .notFound), after) ∧
        after.tree.child? [] id.fileName = some (.file (Bytes.ofText "hi")) ∧
        ¬mailbox.Agrees World.blank id "hi" true := by
  intro mailbox id
  have hok : (Action.outcome (mailbox.deliver id "hi" false) World.blank).1 =
      .ok (mailbox.entry id.fileName) := by decide +kernel
  have herror : (Action.outcome (mailbox.deliver id "hi" true) World.blank).1 =
      .error (.io mailbox.dir .notFound) := by decide +kernel
  have hfile : (Action.outcome (mailbox.deliver id "hi" true) World.blank).2.tree.child? []
      id.fileName = some (.file (Bytes.ofText "hi")) := by decide +kernel
  have hfree : World.blank.tree.child? [] id.fileName = none := by decide +kernel
  refine ⟨Tree.sound_empty, ?_, ?_⟩
  · generalize hdone : Action.outcome (mailbox.deliver id "hi" false) World.blank = done at hok
    obtain ⟨_, after⟩ := done
    subst hok
    exact ⟨after, rfl, not_agrees_of_unlisted hdone (outcome_pending_of_empty rfl after .oldest)⟩
  · generalize hdone : Action.outcome (mailbox.deliver id "hi" true) World.blank = done at *
    obtain ⟨_, after⟩ := done
    subst herror
    refine ⟨after, rfl, hfile, fun hagrees => ?_⟩
    rw [hagrees.undone hdone, hfree] at hfile
    cases hfile

end Agreement

end Postbox.Mailbox
