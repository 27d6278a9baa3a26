import Postbox.Endpoint
import Postbox.Proofs.Deliveries
import Postbox.Proofs.Issuing
import Postbox.Proofs.LongPaths

/-!
# A mailbox is a queue

When one program sends to a mailbox and receives from it, oldest first, the bodies come out in the
order in which they went in.  Identifiers grow, file names sort as identifiers do, and a receiver
takes the first file.
-/

namespace Postbox

/-- A call that a program makes to use a mailbox. -/
inductive Call where
  | send (sender : Endpoint) (recipient body : String)
  | receive (receiver : Endpoint)
  | take (mailbox : Mailbox)

/-- What a call tells the program. -/
inductive Reply where
  | sent
  | received (body : String)
  | noMessage
  | failed (error : MailError)
deriving DecidableEq

namespace Call

def isSend : Call → Bool
  | send _ _ _ => true
  | _ => false

/-- The reply that comes of an attempt to receive. -/
def receiveReply : Except MailError String × World → Reply × World
  | (.ok body, after) => (.received body, after)
  | (.error (.noMessage _), after) => (.noMessage, after)
  | (.error error, after) => (.failed error, after)

/-- Make a call. -/
def perform (world : World) : Call → Reply × World
  | send sender recipient body =>
    match Action.outcome (sender.send recipient body) world with
    | (.ok _, after) => (.sent, after)
    | (.error error, after) => (.failed error, after)
  | receive receiver => receiveReply (Action.outcome receiver.receive world)
  | take mailbox => receiveReply (Action.outcome (mailbox.takeNext .oldest) world)

/-- Make a call to a queue of bodies. -/
def queue (bodies : List String) : Call → Reply × List String
  | send _ _ body => (.sent, bodies ++ [body])
  | _ =>
    match bodies with
    | [] => (.noMessage, [])
    | body :: rest => (.received body, rest)

/-- The replies to calls made one after the other, and the state in the end. -/
def replies {σ : Type} (step : σ → Call → Reply × σ) (state : σ) : List Call → List Reply × σ
  | [] => ([], state)
  | call :: rest =>
    let (reply, next) := step state call
    let (others, last) := replies step next rest
    (reply :: others, last)

end Call

namespace Mailbox

/-- A program can put messages into the mailbox in the directory `home`. -/
structure Accepts (mailbox : Mailbox) (world : World) (home : Location) : Prop where
  opens : mailbox.Opens world home
  fits : ∀ id : MessageId, Fits (mailbox.entry id.stagingName)

/-- A program can take messages from the mailbox in the directory `home`. -/
structure Yields (mailbox : Mailbox) (world : World) (home : Location) : Prop where
  opens : mailbox.Opens world home
  fits : ∀ id : MessageId, Fits (mailbox.entry id.fileName)
  fits_claim : ∀ id : MessageId, Fits (claimPath (mailbox.entry id.fileName) id.fileName)

end Mailbox

/-- The call is to the mailbox in the directory `home`, through paths that are not too long. -/
def Call.Uses (world : World) (home : Location) : Call → Prop
  | send sender recipient _ => ∃ mailbox,
    Mailbox.ofRecipient sender.home recipient = .ok mailbox ∧ mailbox.Accepts world home
  | receive receiver => receiver.order = .oldest ∧ receiver.mailbox.Yields world home
  | take mailbox => mailbox.Yields world home

/-- The directory holds one file for each of the bodies, and nothing else. -/
def Holds (home : Location) (bodies : List String) (tree : Tree) : Prop :=
  ∃ files : List (MessageId × String), files.map Prod.snd = bodies ∧
    (tree.names home).Perm (files.map fun file => Bytes.ofText file.1.fileName) ∧
    ∀ file ∈ files, tree.child? home file.1.fileName = some (.file (Bytes.ofText file.2))

/-- The directory holds exactly the files, which were issued one after the other. -/
structure Queued (home : Location) (files : List (MessageId × String)) (world : World) : Prop where
  sound : world.tree.Sound
  mem_iff : ∀ name : Name, world.tree.get? (home ++ [name]) ≠ none ↔
    ∃ file ∈ files, name = Bytes.ofText file.1.fileName
  content : ∀ file ∈ files,
    world.tree.child? home file.1.fileName = some (.file (Bytes.ofText file.2))
  sorted : files.Pairwise fun a b => a.1.value < b.1.value
  issued : ∀ file ∈ files, file.1.ticks.toNat ≤ world.issuer.last.toNat

section Queues

variable {home : Location} {files rest : List (MessageId × String)} {world : World}
  {mailbox : Mailbox} {name : String}

theorem Queued.nodup
    (h : Queued home files world) :
    (files.map fun file => file.1.fileName).Nodup := by
  exact List.pairwise_map.mpr (h.sorted.imp MessageId.fileName_ne_of_value_lt)

theorem Queued.holds
    (h : Queued home files world) :
    Holds home (files.map Prod.snd) world.tree := by
  refine ⟨files, rfl, ?_, h.content⟩
  have hnodup : (files.map fun file => Bytes.ofText file.1.fileName).Nodup := by
    have hmap := h.nodup.map fun _ _ heq => Bytes.ofText_injective heq
    rwa [List.map_map] at hmap
  apply (List.perm_ext_iff_of_nodup (Tree.nodup_names ..) hnodup).mpr
  intro name
  rw [Tree.mem_names, h.mem_iff, List.mem_map]
  simp only [eq_comm]

theorem queued_nil
    (hsound : world.tree.Sound) (hempty : world.tree.names home = []) :
    Queued home [] world where
  sound := hsound
  mem_iff := fun name => by
    rw [← Tree.mem_names, hempty]
    simp
  content := by simp
  sorted := List.Pairwise.nil
  issued := by simp

theorem Queued.child?_eq_none
    (h : Queued home files world) (hname : ∀ file ∈ files, name ≠ file.1.fileName) :
    world.tree.child? home name = none := by
  by_contra hentry
  obtain ⟨file, hmem, heq⟩ := (h.mem_iff _).mp hentry
  exact hname file hmem (Bytes.ofText_injective heq)

theorem Queued.message?_iff
    (h : Queued home files world) :
    (∃ content, world.tree.message? home name = some content) ↔
      name ∈ files.map fun file => file.1.fileName := by
  simp only [Tree.message?_eq_some_iff, List.mem_map]
  constructor
  · rintro ⟨content, -, hentry⟩
    have hsome : world.tree.child? home name ≠ none := by simp [hentry]
    obtain ⟨file, hmem, heq⟩ := (h.mem_iff _).mp hsome
    exact ⟨file, hmem, (Bytes.ofText_injective heq).symm⟩
  · rintro ⟨file, hmem, rfl⟩
    exact ⟨_, MessageName.isVisible_fileName _, h.content file hmem⟩

/-- The waiting messages are the files, in the order in which they were issued. -/
theorem Queued.candidates_eq
    (h : Queued home files world) (hyields : mailbox.Yields world home) :
    mailbox.candidates world home .oldest = files.map fun file => file.1.fileName := by
  refine hyields.opens.candidates_oldest_eq h.sound ?_ h.nodup fun name => ?_
  · refine List.pairwise_map.mpr (h.sorted.imp fun {a b} hlt => ?_)
    rw [MessageName.isUpTo_fileName, decide_eq_true_eq]
    exact Nat.le_of_lt hlt
  · rw [h.message?_iff, List.mem_map]
    constructor
    · rintro ⟨file, hmem, rfl⟩
      exact ⟨⟨file, hmem, rfl⟩, hyields.fits file.1⟩
    · exact And.left

/-! ## One call -/

theorem Queued.of_tree_eq
    {after : World} (h : Queued home files world) (htree : after.tree = world.tree)
    (hlast : world.issuer.last.toNat ≤ after.issuer.last.toNat) :
    Queued home files after where
  sound := htree ▸ h.sound
  mem_iff := fun name => htree ▸ h.mem_iff name
  content := fun file hmem => htree ▸ h.content file hmem
  sorted := h.sorted
  issued := fun file hmem => Nat.le_trans (h.issued file hmem) hlast

theorem Queued.child?_eq_none_of_hidden
    (h : Queued home files world) (hhidden : MessageName.isVisible name = false) :
    world.tree.child? home name = none := by
  refine h.child?_eq_none fun file _ heq => ?_
  rw [heq, MessageName.isVisible_fileName] at hhidden
  cases hhidden

/-- A message with a larger identifier goes to the end of the queue. -/
theorem Queued.publish
    (h : Queued home files world) (hopens : mailbox.Opens world home) {id : MessageId}
    (hfits : Mailbox.Fits (mailbox.entry id.stagingName))
    (hlarger : ∀ file ∈ files, file.1.value < id.value)
    (hissued : id.ticks.toNat ≤ world.issuer.last.toNat) (body : String) :
    mailbox.deliveryError? world.tree home id = none ∧
      Queued home (files ++ [(id, body)]) (Mailbox.published world home id body) := by
  have hfree : world.tree.child? home id.fileName = none := by
    apply h.child?_eq_none
    intro file hmem
    exact (MessageId.fileName_ne_of_value_lt (hlarger file hmem)).symm
  have hstaging := h.child?_eq_none_of_hidden (MessageName.isVisible_stagingName id)
  have hnone : mailbox.deliveryError? world.tree home id = none :=
    Mailbox.deliveryError?_eq_none_iff.mpr ⟨hfits, hstaging, by simp [hfree]⟩
  refine ⟨hnone, hopens.sound_published h.sound hnone, ?_, ?_,
    List.pairwise_append.mpr ⟨h.sorted, List.pairwise_singleton _ _, ?_⟩, ?_⟩
  · intro name
    rw [Mailbox.published, World.tree_withTree, Tree.write, Tree.get?_put _ _ _ Tree.place_ne_nil]
    by_cases heq : name = Bytes.ofText id.fileName
    · simp [heq]
    · rw [if_neg (by simpa using heq), h.mem_iff]
      simp [heq]
  · intro file hmem
    rw [Mailbox.published, World.tree_withTree, Tree.child?_write]
    rcases List.mem_append.mp hmem with hold | hnew
    · rw [if_neg (MessageId.fileName_ne_of_value_lt (hlarger file hold)), h.content file hold]
    · rw [List.mem_singleton.mp hnew, if_pos rfl]
  · intro file hmem other hother
    rw [List.mem_singleton.mp hother]
    exact hlarger file hmem
  · intro file hmem
    rcases List.mem_append.mp hmem with hold | hnew
    · exact h.issued file hold
    · rw [List.mem_singleton.mp hnew]
      exact hissued

/-- Sending is delivering under the next identifier. -/
theorem Endpoint.outcome_send
    {sender : Endpoint} {recipient : String}
    (hmailbox : Mailbox.ofRecipient sender.home recipient = .ok mailbox) (body : String)
    (world : World) :
    Action.outcome (sender.send recipient body) world =
      Action.outcome (mailbox.deliver world.issue.1 body sender.sync)
        (world.issue.2.recorded (.debugging "sending message"
          [("recipient", Text.quote recipient), ("id", world.issue.1.text)])) := by
  rw [Endpoint.send, hmailbox]
  rfl

/-- A call to send puts the body at the end of the queue. -/
theorem Queued.send
    (h : Queued home files world) {sender : Endpoint} {recipient : String}
    (hmailbox : Mailbox.ofRecipient sender.home recipient = .ok mailbox)
    (haccepts : mailbox.Accepts world home) {n : Nat} (hroom : world.HasRoom (n + 1))
    (body : String) :
    ∃ id path after, Action.outcome (sender.send recipient body) world = (.ok path, after) ∧
      Queued home (files ++ [(id, body)]) after ∧ after.HasRoom n ∧
        world.tree.SameDirectories after.tree := by
  have hsend := Endpoint.outcome_send hmailbox body world
  generalize Event.debugging "sending message" _ = event at hsend
  have hlast := World.last_lt_ticks_issue hroom.1
  have hqueued : Queued home files (world.issue.2.recorded event) :=
    h.of_tree_eq rfl (Nat.le_of_lt hlast)
  have hopens : mailbox.Opens (world.issue.2.recorded event) home :=
    haccepts.opens.of_sameDirectories rfl (.refl _)
  have hlarger : ∀ file ∈ files, file.1.value < world.issue.1.value := fun file hmem =>
    MessageId.value_lt_of_ticks_lt (Nat.lt_of_le_of_lt (h.issued file hmem) hlast)
  obtain ⟨hnone, hpublished⟩ :=
    hqueued.publish hopens (haccepts.fits world.issue.1) hlarger Nat.le.refl body
  rw [hopens.outcome_deliver, hnone] at hsend
  refine ⟨_, _, _, hsend, hpublished.of_tree_eq rfl Nat.le.refl, ?_, ?_⟩
  · rw [World.hasRoom_recorded, Mailbox.published, World.hasRoom_withTree, World.hasRoom_recorded]
    exact hroom.2
  · exact Tree.sameDirectories_write (Mailbox.deliveryError?_eq_none_iff.mp hnone).2.2

theorem Queued.fileName_ne
    {id : MessageId} {body : String} (h : Queued home ((id, body) :: rest) world)
    {file : MessageId × String} (hmem : file ∈ rest) :
    file.1.fileName ≠ id.fileName := by
  have hlt := (List.pairwise_cons.mp h.sorted).1 file hmem
  exact (MessageId.fileName_ne_of_value_lt hlt).symm

/-- Without the file of the smallest identifier, the rest of the queue remains. -/
theorem Queued.unlink
    {id : MessageId} {body : String} (h : Queued home ((id, body) :: rest) world) :
    Queued home rest (world.withTree (world.tree.unlink home id.fileName)) := by
  have hfile := h.content (id, body) List.mem_cons_self
  refine ⟨h.sound.unlink (by simp [hfile]), ?_, ?_, (List.pairwise_cons.mp h.sorted).2, ?_⟩
  · intro name
    rw [World.tree_withTree, Tree.unlink, Tree.get?_erase _ _ Tree.place_ne_nil]
    by_cases heq : name = Bytes.ofText id.fileName
    · rw [if_pos (by rw [heq]), heq]
      apply iff_of_false (not_not.mpr rfl)
      rintro ⟨file, hmem, hname⟩
      exact h.fileName_ne hmem (Bytes.ofText_injective hname).symm
    · rw [if_neg (by simpa using heq), h.mem_iff]
      simp [heq]
  · intro file hmem
    rw [World.tree_withTree, Tree.child?_unlink, if_neg (h.fileName_ne hmem),
      h.content file (List.mem_cons_of_mem _ hmem)]
  · intro file hmem
    exact h.issued file (List.mem_cons_of_mem _ hmem)

theorem Queued.claimable
    {id : MessageId} {body : String} (h : Queued home ((id, body) :: rest) world)
    (hyields : mailbox.Yields world home) :
    mailbox.Claimable world home id.fileName (Bytes.ofText body) where
  opens := hyields.opens
  admits := Mailbox.admits_of_fits_fileName (hyields.fits id)
  visible := MessageName.isVisible_fileName id
  file := h.content (id, body) List.mem_cons_self
  fault := by
    have hclaim := h.child?_eq_none_of_hidden (MessageName.isVisible_claim id.fileName)
    have hshort : (Bytes.ofText (MessageName.claim id.fileName)).length ≤ Path.maxName := by
      rw [MessageName.length_ofText_claim, MessageId.length_ofText_fileName]
      decide
    exact Mailbox.claimFault?_eq_none_iff.mpr ⟨hyields.fits_claim id, hshort, by simp [hclaim]⟩

/-- A receiver takes the body at the front of the queue. -/
theorem Queued.take_cons
    {id : MessageId} {body : String} (h : Queued home ((id, body) :: rest) world)
    (hyields : mailbox.Yields world home) {n : Nat} (hroom : world.HasRoom n) :
    ∃ after, Action.outcome (mailbox.takeNext .oldest) world = (.ok body, after) ∧
      Queued home rest after ∧ after.HasRoom n ∧ world.tree.SameDirectories after.tree := by
  have hclaimable := h.claimable hyields
  have houtcome :=
    hyields.opens.outcome_takeNext_cons h.sound (h.candidates_eq hyields) hclaimable.file
  rw [Mailbox.receipt, hclaimable.fault] at houtcome
  simp only [Bytes.text?_ofText] at houtcome
  have htaken : (Mailbox.taken world home id.fileName).tree =
      world.tree.unlink home id.fileName := by
    have hclaim := h.child?_eq_none_of_hidden (MessageName.isVisible_claim id.fileName)
    rw [Mailbox.taken, World.tree_withTree, Tree.unlink_eq_self (by simp [hclaim])]
  refine ⟨_, houtcome, h.unlink.of_tree_eq htaken Nat.le.refl, ?_,
    hclaimable.sameDirectories_taken⟩
  rw [World.hasRoom_recorded, Mailbox.taken, World.hasRoom_withTree]
  exact hroom

theorem Queued.take_nil
    (h : Queued home [] world) (hyields : mailbox.Yields world home) :
    Action.outcome (mailbox.takeNext .oldest) world = (.error (.noMessage mailbox.dir), world) :=
  hyields.opens.outcome_takeNext_nil (h.candidates_eq hyields)

/-! ## All calls -/

theorem Call.Uses.of_sameDirectories
    {call : Call} {after : World} (h : call.Uses world home) (hcwd : after.cwd = world.cwd)
    (hsame : world.tree.SameDirectories after.tree) :
    call.Uses after home := by
  have hyields : ∀ {mailbox : Mailbox}, mailbox.Yields world home → mailbox.Yields after home :=
    fun hbefore => { hbefore with opens := hbefore.opens.of_sameDirectories hcwd hsame }
  cases call with
  | send sender recipient body =>
      obtain ⟨mailbox, hmailbox, haccepts⟩ := h
      exact ⟨mailbox, hmailbox, haccepts.opens.of_sameDirectories hcwd hsame, haccepts.fits⟩
  | receive receiver => exact ⟨h.1, hyields h.2⟩
  | take mailbox => exact hyields h

/-- The directory is in order for the calls that are to come. -/
structure Ready (home : Location) (files : List (MessageId × String)) (calls : List Call)
    (world : World) : Prop where
  queued : Queued home files world
  uses : ∀ call ∈ calls, call.Uses world home
  room : world.HasRoom (calls.countP Call.isSend)

theorem Ready.next
    {call : Call} {calls : List Call} {after : World} {α : Type} {action : Action α}
    {result : Except MailError α} (h : Ready home files (call :: calls) world)
    (houtcome : Action.outcome action world = (result, after)) (hqueued : Queued home rest after)
    (hroom : after.HasRoom (calls.countP Call.isSend))
    (hsame : world.tree.SameDirectories after.tree) :
    Ready home rest calls after where
  queued := hqueued
  uses := by
    have hcwd := Procedure.cwd_run action.run world
    rw [show action.run.run world = _ from houtcome] at hcwd
    exact fun call hmem => (h.uses call (List.mem_cons_of_mem _ hmem)).of_sameDirectories hcwd hsame
  room := hroom

/-- A call to receive gets what a queue gives. -/
theorem Ready.receive
    {call : Call} {calls : List Call} (h : Ready home files (call :: calls) world)
    (hyields : mailbox.Yields world home)
    (hperform : call.perform world =
      Call.receiveReply (Action.outcome (mailbox.takeNext .oldest) world))
    (hqueue : ∀ bodies, call.queue bodies = Call.queue bodies (.take mailbox))
    (hsend : call.isSend = false) :
    ∃ left, (call.perform world).1 = (call.queue (files.map Prod.snd)).1 ∧
      left.map Prod.snd = (call.queue (files.map Prod.snd)).2 ∧
        Ready home left calls (call.perform world).2 := by
  have hroom := h.room
  rw [List.countP_cons_of_neg (by simp [hsend])] at hroom
  rw [hperform, hqueue]
  cases files with
  | nil =>
      have houtcome := h.queued.take_nil hyields
      rw [houtcome]
      exact ⟨[], rfl, rfl, h.next houtcome h.queued hroom (.refl _)⟩
  | cons file rest =>
      obtain ⟨after, houtcome, hqueued, hafter, hsame⟩ := h.queued.take_cons hyields hroom
      rw [houtcome]
      exact ⟨rest, rfl, rfl, h.next houtcome hqueued hafter hsame⟩

/-- Every call gets what a queue gives, and leaves what a queue keeps. -/
theorem Ready.perform
    {call : Call} {calls : List Call} (h : Ready home files (call :: calls) world) :
    ∃ left, (call.perform world).1 = (call.queue (files.map Prod.snd)).1 ∧
      left.map Prod.snd = (call.queue (files.map Prod.snd)).2 ∧
        Ready home left calls (call.perform world).2 := by
  have huses := h.uses call List.mem_cons_self
  cases call with
  | send sender recipient body =>
      obtain ⟨mailbox, hmailbox, haccepts⟩ := huses
      have hroom := h.room
      rw [List.countP_cons_of_pos rfl] at hroom
      obtain ⟨id, path, after, houtcome, hqueued, hafter, hsame⟩ :=
        h.queued.send hmailbox haccepts hroom body
      rw [Call.perform, houtcome]
      refine ⟨files ++ [(id, body)], rfl, ?_, h.next houtcome hqueued hafter hsame⟩
      rw [List.map_append]
      rfl
  | receive receiver =>
      refine h.receive huses.2 ?_ (fun _ => rfl) rfl
      rw [Call.perform, Endpoint.receive, huses.1]
  | take mailbox => exact h.receive huses rfl (fun _ => rfl) rfl

/-- The run keeps step with the queue. -/
theorem Ready.replies_eq
    {calls : List Call} (h : Ready home files calls world) :
    (Call.replies Call.perform world calls).1 =
        (Call.replies Call.queue (files.map Prod.snd) calls).1 ∧
      Holds home (Call.replies Call.queue (files.map Prod.snd) calls).2
        (Call.replies Call.perform world calls).2.tree := by
  induction calls generalizing files world with
  | nil => exact ⟨rfl, h.queued.holds⟩
  | cons call rest ih =>
      obtain ⟨left, hreply, hleft, hready⟩ := h.perform
      obtain ⟨hreplies, hholds⟩ := ih hready
      rw [hleft] at hreplies hholds
      simp only [Call.replies]
      exact ⟨by rw [hreply, hreplies], hholds⟩

/-- Calls to send and to receive, in any order, get the replies of a queue, and after each of them
the directory holds one file for each body in the queue, and nothing else. -/
theorem replies_eq_queue
    {calls : List Call} (hsound : world.tree.Sound) (hempty : world.tree.names home = [])
    (huses : ∀ call ∈ calls, call.Uses world home)
    (hroom : world.HasRoom (calls.countP Call.isSend)) {made : List Call}
    (hmade : made <+: calls) :
    (Call.replies Call.perform world made).1 = (Call.replies Call.queue [] made).1 ∧
      Holds home (Call.replies Call.queue [] made).2
        (Call.replies Call.perform world made).2.tree := by
  have hready : Ready home [] made world :=
    ⟨queued_nil hsound hempty, fun call hmem => huses call (hmade.subset hmem),
      hroom.mono (hmade.sublist.countP_le)⟩
  exact hready.replies_eq

/-- Two bodies are sent while the clock stands still at zero, and come out in order. -/
theorem replies_eq_queue_of_two :
    let mailbox : Mailbox := ⟨(Path.stretched 0 0x62).child (Bytes.ofText "c")⟩
    let world := World.blank.withTree (Tree.nested 0x62 "c")
    let sender : Endpoint := { home := mailbox.dir }
    let calls : List Call := [.send sender "c" "x", .send sender "c" "y", .receive sender,
      .take mailbox, .take mailbox]
    world.tree.Sound ∧ world.tree.names ([[0x62]] ++ [Bytes.ofText "c"]) = [] ∧
      (∀ call ∈ calls, call.Uses world ([[0x62]] ++ [Bytes.ofText "c"])) ∧
      world.HasRoom (calls.countP Call.isSend) ∧ calls <+: calls ∧
      (Call.replies Call.perform world calls).1 =
        [.sent, .sent, .received "x", .received "y", .noMessage] := by
  intro mailbox world sender calls
  have hb : Name.IsPlain [0x62] := by decide
  have hc : Name.IsPlain (Bytes.ofText "c") := by decide
  have hsound : world.tree.Sound := Tree.sound_nested hb hc (by decide)
  have hempty := Tree.names_nested 0x62 "c"
  have houter : Mailbox.Opens ⟨Path.stretched 0 0x62⟩ world [[0x62]] :=
    Mailbox.opens_stretched hb (by decide) rfl (Tree.get?_nested 0x62 "c")
  have hopens : mailbox.Opens world ([[0x62]] ++ [Bytes.ofText "c"]) :=
    houter.opens_entry ⟨hc, by decide, Mailbox.fits_of_length hc (by decide)⟩
      (Tree.child?_nested 0x62 "c")
  have hlength : mailbox.dir.bytes.length ≤ 5 := Path.length_child_le _ hc
  have haccepts : mailbox.Accepts world ([[0x62]] ++ [Bytes.ofText "c"]) := by
    refine ⟨hopens, fun id => Mailbox.fits_of_length id.isPlain_stagingName ?_⟩
    rw [id.length_ofText_stagingName, Path.maxLength]
    omega
  have hyields : mailbox.Yields world ([[0x62]] ++ [Bytes.ofText "c"]) := by
    refine ⟨hopens, fun id => Mailbox.fits_of_length id.isPlain_fileName ?_,
      fun id => Mailbox.fits_claimPath_of_length id.isPlain_fileName ?_⟩
    · rw [id.length_ofText_fileName, Path.maxLength]
      omega
    · rw [MessageName.length_ofText_claim, id.length_ofText_fileName, Path.maxLength]
      omega
  have hmailbox : Mailbox.ofRecipient sender.home "c" = .ok mailbox :=
    Mailbox.ofRecipient_entry_stretched hb hc (by decide)
  have huses : ∀ call ∈ calls, call.Uses world ([[0x62]] ++ [Bytes.ofText "c"]) := by
    intro call hmem
    simp only [calls, List.mem_cons, List.not_mem_nil, or_false] at hmem
    rcases hmem with rfl | rfl | rfl | rfl | rfl
    · exact ⟨mailbox, hmailbox, haccepts⟩
    · exact ⟨mailbox, hmailbox, haccepts⟩
    · exact ⟨rfl, hyields⟩
    · exact hyields
    · exact hyields
  have hroom : world.HasRoom (calls.countP Call.isSend) :=
    ⟨.inr (by decide), .inr (by decide), trivial⟩
  exact ⟨hsound, hempty, huses, hroom, List.prefix_refl _,
    (replies_eq_queue hsound hempty huses hroom (List.prefix_refl calls)).1⟩

/-- Nothing can be sent to a neighbour when the path of the sender's directory, and so that of the
neighbour's, is almost too long. -/
theorem exists_send_eq_error
    {n : Nat} (hlong : 4063 ≤ n) (hn : n + 5 ≤ Path.maxLength) :
    let mailbox : Mailbox := ⟨(Path.stretched n 0x62).child (Bytes.ofText "a")⟩
    let world := World.blank.withTree (Tree.nested 0x62 "a")
    let sender : Endpoint := { home := mailbox.dir }
    world.tree.Sound ∧ world.tree.names ([[0x62]] ++ [Bytes.ofText "a"]) = [] ∧
      Mailbox.ofRecipient sender.home "a" = .ok mailbox ∧
      mailbox.Opens world ([[0x62]] ++ [Bytes.ofText "a"]) ∧ world.HasRoom 1 ∧
      ∃ error after, Action.outcome (sender.send "a" "hi") world = (.error error, after) := by
  intro mailbox world sender
  have hb : Name.IsPlain [0x62] := by decide
  have ha : Name.IsPlain (Bytes.ofText "a") := by decide
  have hone : (Bytes.ofText "a").length = 1 := by decide
  have houter : Mailbox.Opens ⟨Path.stretched n 0x62⟩ world [[0x62]] :=
    Mailbox.opens_stretched hb (by omega) rfl (Tree.get?_nested 0x62 "a")
  have hfits : Mailbox.Fits (Mailbox.entry ⟨Path.stretched n 0x62⟩ "a") := by
    apply Mailbox.fits_of_length ha
    rw [Path.length_stretched, hone]
    exact hn
  have hopens : mailbox.Opens world ([[0x62]] ++ [Bytes.ofText "a"]) :=
    houter.opens_entry ⟨ha, by decide, hfits⟩ (Tree.child?_nested 0x62 "a")
  have hmailbox : Mailbox.ofRecipient sender.home "a" = .ok mailbox :=
    Mailbox.ofRecipient_entry_stretched hb ha (by decide)
  have hnotFits : ¬Mailbox.Fits (mailbox.entry world.issue.1.stagingName) := by
    have hlength := Path.le_length_child (Path.stretched n 0x62) ha
    rw [Path.length_stretched, hone] at hlength
    apply Mailbox.not_fits_of_length (MessageId.isPlain_stagingName _)
    rw [MessageId.length_ofText_stagingName, Path.maxLength]
    refine Nat.lt_of_lt_of_le ?_ (Nat.add_le_add_right hlength 29)
    omega
  refine ⟨Tree.sound_nested hb ha (by decide), Tree.names_nested 0x62 "a", hmailbox, hopens,
    ⟨.inr (by decide), trivial⟩, ?_⟩
  have hissued := @Mailbox.Opens.of_sameDirectories _ _ _
    (world.issue.2.recorded (.debugging "sending message"
      [("recipient", Text.quote "a"), ("id", world.issue.1.text)])) hopens rfl (.refl _)
  have hsend := Endpoint.outcome_send hmailbox "hi" world
  rw [hissued.outcome_deliver, Mailbox.deliveryError?, if_pos hnotFits] at hsend
  exact ⟨_, _, hsend⟩

/-- With 4080 slashes in the path, nothing can be sent. -/
theorem long_path_not_sent :
    let mailbox : Mailbox := ⟨(Path.stretched 4079 0x62).child (Bytes.ofText "a")⟩
    let world := World.blank.withTree (Tree.nested 0x62 "a")
    let sender : Endpoint := { home := mailbox.dir }
    world.tree.Sound ∧ world.tree.names ([[0x62]] ++ [Bytes.ofText "a"]) = [] ∧
      Mailbox.ofRecipient sender.home "a" = .ok mailbox ∧
      mailbox.Opens world ([[0x62]] ++ [Bytes.ofText "a"]) ∧ world.HasRoom 1 ∧
      ∃ error after, Action.outcome (sender.send "a" "hi") world = (.error error, after) :=
  exists_send_eq_error (by decide) (by decide)

end Queues

end Postbox
