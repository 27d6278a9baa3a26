import Postbox.Proofs.Receipts

/-!
# What a receiver overwrites

A receiver that dies leaves a message under its claim name.  When a message of the same name comes
in, the next receiver takes it by way of the very claim name, and what had been left there is lost,
whether or not the new message can be read.  Nothing else is touched.
-/

namespace Postbox.Mailbox

/-- The message is the first one that waits. -/
structure Leads (mailbox : Mailbox) (world : World) (home : Location) (order : ReceiveOrder)
    (name : String) (content : Bytes) : Prop where
  opens : mailbox.Opens world home
  pending_eq : ∃ rest,
    (Action.outcome (mailbox.pending order) world).1 = .ok (mailbox.entry name :: rest)
  file : world.tree.child? home name = some (.file content)

section Leftovers

variable {mailbox : Mailbox} {world after : World} {home : Location} {order : ReceiveOrder}
  {name : String} {rest : List String} {content : Bytes}

theorem Claimable.leads
    (h : mailbox.Claimable world home name content)
    (hcons : mailbox.candidates world home order = name :: rest) :
    mailbox.Leads world home order name content where
  opens := h.opens
  pending_eq := by
    refine ⟨rest.map mailbox.entry, ?_⟩
    rw [h.opens.outcome_pending, hcons]
    rfl
  file := h.file

/-- What is under the claim name of a message that can be claimed is a file, if anything. -/
theorem Claimable.claim_cases
    (h : mailbox.Claimable world home name content) :
    world.tree.child? home (MessageName.claim name) = none ∨
      ∃ left, world.tree.child? home (MessageName.claim name) = some (.file left) := by
  obtain ⟨-, -, hnotDirectory⟩ := claimFault?_eq_none_iff.mp h.fault
  cases hclaim : world.tree.child? home (MessageName.claim name) with
  | none => exact .inl rfl
  | some entry =>
      cases entry with
      | file left => exact .inr ⟨left, rfl⟩
      | directory => exact absurd hclaim hnotDirectory

/-- Nothing but the message goes if and only if nothing had been left under its claim name. -/
theorem Claimable.unlink_unlink_eq_iff
    (h : mailbox.Claimable world home name content) :
    (world.tree.unlink home name).unlink home (MessageName.claim name) =
        world.tree.unlink home name ↔
      world.tree.child? home (MessageName.claim name) = none := by
  have hne : MessageName.claim name ≠ name := (MessageName.ne_claim h.visible name).symm
  have hkept : (world.tree.unlink home name).child? home (MessageName.claim name) =
      world.tree.child? home (MessageName.claim name) := by
    rw [Tree.child?_unlink, if_neg hne]
  constructor
  · intro heq
    rw [← hkept, ← heq, Tree.child?_unlink, if_pos rfl]
  · intro hfree
    exact Tree.unlink_eq_self (hkept.trans hfree)

/-- Without a directory there is nothing to receive. -/
theorem exists_takeNext_eq_error_of_not_opens
    (h : ¬∃ home, mailbox.Opens world home) (order : ReceiveOrder) :
    ∃ fault, Action.outcome (mailbox.takeNext order) world =
      (.error (.io mailbox.dir fault), world) := by
  rw [takeNext, waiting, bind_assoc]
  exact outcome_list_bind_of_not_opens h _

/-- A receiver that succeeds removes the first waiting message, whose content it returns, and what
was under the claim name of that message; one that fails changes nothing, or removes what was under
the claim name of a message that is no text. -/
theorem takeNext_removes_leftover
    (hsound : world.tree.Sound) (order : ReceiveOrder) :
    (∀ body after, Action.outcome (mailbox.takeNext order) world = (.ok body, after) →
      ∃ home name, mailbox.Leads world home order name (Bytes.ofText body) ∧
        after.tree = (world.tree.unlink home name).unlink home (MessageName.claim name) ∧
        (after.tree = world.tree.unlink home name ↔
          world.tree.child? home (MessageName.claim name) = none)) ∧
      ∀ error after, Action.outcome (mailbox.takeNext order) world = (.error error, after) →
        after.tree = world.tree ∨
          ∃ home name content left, mailbox.Leads world home order name content ∧
            content.text? = none ∧
            world.tree.child? home (MessageName.claim name) = some (.file left) ∧
            after.tree = world.tree.unlink home (MessageName.claim name) := by
  by_cases hopens : ∃ home, mailbox.Opens world home
  swap
  · obtain ⟨fault, herror⟩ := exists_takeNext_eq_error_of_not_opens hopens order
    rw [herror]
    constructor
    · intro body after heq
      cases heq
    · intro failure after heq
      cases heq
      exact .inl rfl
  obtain ⟨home, hopens⟩ := hopens
  have hresult := hopens.takeResult hsound order
  constructor
  · intro body after hok
    rw [hok] at hresult
    cases hresult with
    | taken hcons hclaimable =>
        exact ⟨home, _, hclaimable.leads hcons, rfl, hclaimable.unlink_unlink_eq_iff⟩
  · intro error after herror
    rw [herror] at hresult
    cases hresult with
    | nothing hnil => exact .inl rfl
    | refused hcons hfault => exact .inl rfl
    | @restored name rest content hcons hclaimable htext =>
        rcases hclaimable.claim_cases with hfree | ⟨left, hleft⟩
        · exact .inl (Tree.unlink_eq_self hfree)
        · exact .inr ⟨home, name, content, left, hclaimable.leads hcons, htext, hleft, rfl⟩

/-- A message is received and something else is in the mailbox, which stays. -/
theorem takeNext_removes_leftover_beside :
    let before := World.blank.withTree ((Tree.empty.write [] "a.eml" (Bytes.ofText "hi")).write []
      (MessageName.claim "b.eml") (Bytes.ofText "old"))
    before.tree.Sound ∧ ∃ after,
      Action.outcome (here.takeNext .oldest) before = (.ok "hi", after) ∧
      ∃ home name, here.Leads before home .oldest name (Bytes.ofText "hi") ∧
        after.tree = (before.tree.unlink home name).unlink home (MessageName.claim name) ∧
        (after.tree = before.tree.unlink home name ↔
          before.tree.child? home (MessageName.claim name) = none) := by
  intro before
  have hsound : before.tree.Sound :=
    Tree.sound_write_write (by decide) (by decide) (by decide) (by decide) _ _
  have hbody : (Action.outcome (here.takeNext .oldest) before).1 = .ok "hi" := by
    decide +kernel
  have hok : Action.outcome (here.takeNext .oldest) before =
      (.ok "hi", (Action.outcome (here.takeNext .oldest) before).2) :=
    Prod.ext hbody rfl
  exact ⟨hsound, _, hok, (takeNext_removes_leftover hsound .oldest).1 "hi" _ hok⟩

/-- What a receiver has left under the claim name is lost when a new message of that name is
received. -/
theorem leftover_claim_lost :
    let before := World.blank.withTree ((Tree.empty.write [] "a.eml" (Bytes.ofText "new")).write []
      (MessageName.claim "a.eml") (Bytes.ofText "old"))
    let result := Action.outcome (here.takeNext .oldest) before
    before.tree.Sound ∧ here.Opens before [] ∧ result.1 = .ok "new" ∧
      before.tree.child? [] (MessageName.claim "a.eml") = some (.file (Bytes.ofText "old")) ∧
      result.2.tree.child? [] (MessageName.claim "a.eml") = none := by
  intro before result
  have hsound : before.tree.Sound :=
    Tree.sound_write_write (by decide) (by decide) (by decide) (by decide) _ _
  refine ⟨hsound, opens_here rfl, ?_, ?_, ?_⟩ <;> decide +kernel

/-- It is lost as well when the new message cannot be read. -/
example :
    let before := World.blank.withTree ((Tree.empty.write [] "a.eml" [0xff]).write []
      (MessageName.claim "a.eml") (Bytes.ofText "old"))
    let result := Action.outcome (here.takeNext .oldest) before
    result.1 = .error (.io (here.entry "a.eml") .notText) ∧
      result.2.tree.child? [] "a.eml" = some (.file [0xff]) ∧
      result.2.tree.child? [] (MessageName.claim "a.eml") = none := by
  decide +kernel

end Leftovers

end Postbox.Mailbox
