import Postbox.Proofs.Deliveries
import Postbox.Proofs.Receipts
import Postbox.Proofs.Recoveries

/-!
# What can happen to a mailbox

Deliveries, receipts and recoveries, each complete or cut off anywhere, by any number of programs
with their own paths to the directory.  None of them harms the file tree, and none touches a file
that is neither a message nor a claim.
-/

namespace Postbox

open Mailbox

/-- Something has been done to the mailbox in the directory `home`, to its end or not. -/
inductive Activity (home : Location) : Tree → Tree → Prop where
  | deliver {mailbox : Mailbox} {world reached : World} (id : MessageId) (body : String)
      (sync : Bool) (hopens : mailbox.Opens world home)
      (hreach : Action.Reaches (mailbox.deliver id body sync) world reached) :
      Activity home world.tree reached.tree
  | look {mailbox : Mailbox} {world reached : World} (order : ReceiveOrder)
      (hopens : mailbox.Opens world home)
      (hreach : Action.Reaches (mailbox.pending order) world reached) :
      Activity home world.tree reached.tree
  | receive {mailbox : Mailbox} {world reached : World} (order : ReceiveOrder)
      (hopens : mailbox.Opens world home)
      (hreach : Action.Reaches (mailbox.takeNext order) world reached) :
      Activity home world.tree reached.tree
  | recover {mailbox : Mailbox} {world reached : World} (hopens : mailbox.Opens world home)
      (hreach : Action.Reaches mailbox.recoverClaims world reached) :
      Activity home world.tree reached.tree

section Preservation

variable {home : Location} {before after : Tree}

theorem Tree.sound_of_revivals
    (h : Relation.ReflTransGen (Tree.Revival home) before after) (hsound : before.Sound)
    (hhome : before.get? home = some .directory) :
    after.Sound ∧ after.get? home = some .directory := by
  induction h with
  | refl => exact ⟨hsound, hhome⟩
  | tail _ hstep ih => exact ⟨hstep.sound ih.1 ih.2, (hstep.get?_home_eq ih.1).trans ih.2⟩

theorem Tree.child?_of_revivals
    (h : Relation.ReflTransGen (Tree.Revival home) before after) (hsound : before.Sound)
    (hhome : before.get? home = some .directory) {name : String}
    (hvisible : MessageName.isVisible name = false)
    (hclaim : ∀ other, name ≠ MessageName.claim other) :
    after.child? home name = before.child? home name := by
  induction h with
  | refl => rfl
  | tail hsteps hstep ih =>
      have hmid := Tree.sound_of_revivals hsteps hsound hhome
      rw [hstep.child?_eq hmid.1 hvisible hclaim, ih]

theorem Activity.sound
    (h : Activity home before after) (hsound : before.Sound) :
    after.Sound := by
  cases h with
  | deliver id body sync hopens hreach =>
      rcases hopens.reaches_deliver hreach with rfl | hstaged | ⟨hnone, rfl | rfl⟩
      · exact hsound
      · exact hstaged.sound hopens hsound
      · exact hopens.sound_published hsound hnone
      · exact hopens.sound_published hsound hnone
  | look order hopens hreach =>
      rw [observes_pending _ order _ _ hreach]
      exact hsound
  | receive order hopens hreach => exact (hopens.takeNext_preserves hsound hreach).2
  | recover hopens hreach =>
      exact (Tree.sound_of_revivals (hopens.reaches_recoverClaims hsound hreach) hsound
        hopens.get?_eq).1

/-- A file that bears neither a visible name nor that of a claim is safe from all activities. -/
theorem Activity.child?_eq
    (h : Activity home before after) (hsound : before.Sound) {name : String} {content : Bytes}
    (hvisible : MessageName.isVisible name = false)
    (hclaim : ∀ other, name ≠ MessageName.claim other)
    (hfile : before.child? home name = some (.file content)) :
    after.child? home name = some (.file content) := by
  have hne : ∀ other, MessageName.isVisible other = true → name ≠ other := by
    rintro other hother rfl
    rw [hvisible] at hother
    cases hother
  cases h with
  | deliver id body sync hopens hreach =>
      have hfileName := hne _ (MessageName.isVisible_fileName id)
      rcases hopens.reaches_deliver hreach with rfl | hstaged | ⟨-, rfl | rfl⟩
      · exact hfile
      · obtain ⟨written, -, rfl⟩ := hstaged.eq_staged
        have hstaging : name ≠ id.stagingName := by
          rintro rfl
          rw [hstaged.free] at hfile
          cases hfile
        simpa [staged, hstaging] using hfile
      · simpa [published, hfileName] using hfile
      · simpa [published, hfileName] using hfile
  | look order hopens hreach =>
      rwa [observes_pending _ order _ _ hreach]
  | receive order hopens hreach =>
      rcases hopens.reaches_takeNext hsound hreach with
        rfl | ⟨taken, content, -, hclaimable, hcases⟩
      · exact hfile
      have htaken := hne taken hclaimable.visible
      rcases hcases with rfl | ⟨-, rfl⟩ | ⟨-, htree⟩
      · simpa [claimed, htaken, hclaim taken] using hfile
      · simpa [restored, hclaim taken] using hfile
      · rw [htree]
        simpa [Mailbox.taken, htaken, hclaim taken] using hfile
  | recover hopens hreach =>
      rw [Tree.child?_of_revivals (hopens.reaches_recoverClaims hsound hreach) hsound
        hopens.get?_eq hvisible hclaim]
      exact hfile

theorem sound_of_activities
    (h : Relation.ReflTransGen (Activity home) before after) (hsound : before.Sound) :
    after.Sound := by
  induction h with
  | refl => exact hsound
  | tail _ hstep ih => exact hstep.sound ih

theorem child?_of_activities
    (h : Relation.ReflTransGen (Activity home) before after) (hsound : before.Sound)
    {name : String} {content : Bytes} (hvisible : MessageName.isVisible name = false)
    (hclaim : ∀ other, name ≠ MessageName.claim other)
    (hfile : before.child? home name = some (.file content)) :
    after.child? home name = some (.file content) := by
  induction h with
  | refl => exact hfile
  | tail hsteps hstep ih =>
      exact hstep.child?_eq (sound_of_activities hsteps hsound) hvisible hclaim ih

end Preservation

end Postbox
