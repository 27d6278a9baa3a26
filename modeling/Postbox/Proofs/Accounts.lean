import Mathlib.Data.List.Nodup
import Mathlib.Logic.Function.Basic
import Postbox.Proofs.Receipts
import Postbox.Proofs.Recoveries

/-!
# Where every message is

An account of a mailbox says which messages have been added and returned.  It is settled when every
message that was added is in one place: returned, waiting, or held under a claim.  Adding, claiming,
reviving and returning a message each move it from one place to the next.
-/

namespace Postbox

/-- Every added message is returned, visible or claimed, in exactly one of the ways, and whole. -/
structure Accounted (messages claims : String → Option Bytes)
    (added returned : List (String × Bytes)) : Prop where
  mem_iff : ∀ name content, (name, content) ∈ added ↔
    (name, content) ∈ returned ∨ messages name = some content ∨ claims name = some content
  apart : ∀ {name}, claims name ≠ none → messages name = none
  gone : ∀ {name}, name ∈ returned.map Prod.fst → messages name = none ∧ claims name = none
  addedOnce : (added.map Prod.fst).Nodup
  returnedOnce : (returned.map Prod.fst).Nodup

section Accounts

variable {messages claims : String → Option Bytes} {added returned : List (String × Bytes)}
  {name : String} {content : Bytes}

theorem accounted_nothing :
    Accounted (fun _ => none) (fun _ => none) [] [] where
  mem_iff := by simp
  apart := fun _ => rfl
  gone := fun _ => ⟨rfl, rfl⟩
  addedOnce := List.nodup_nil
  returnedOnce := List.nodup_nil

theorem mem_map_fst
    {messages : List (String × Bytes)} {name : String} :
    name ∈ messages.map Prod.fst ↔ ∃ content, (name, content) ∈ messages := by
  simp

theorem nodup_map_fst_concat
    {messages : List (String × Bytes)} (h : (messages.map Prod.fst).Nodup)
    (hfresh : name ∉ messages.map Prod.fst) :
    ((messages ++ [(name, content)]).map Prod.fst).Nodup := by
  rw [List.map_append, List.map_singleton, ← List.concat_eq_append]
  exact h.concat hfresh

/-- Nothing is anywhere under a name that has not been used. -/
theorem Accounted.eq_none_of_fresh
    (h : Accounted messages claims added returned) (hfresh : name ∉ added.map Prod.fst) :
    name ∉ returned.map Prod.fst ∧ messages name = none ∧ claims name = none := by
  have hnotMem : ∀ content, (name, content) ∉ added := fun content hmem =>
    hfresh (mem_map_fst.mpr ⟨content, hmem⟩)
  refine ⟨fun hmem => ?_, ?_, ?_⟩
  · obtain ⟨content, hreturned⟩ := mem_map_fst.mp hmem
    exact hnotMem content ((h.mem_iff name content).mpr (.inl hreturned))
  · apply Option.eq_none_iff_forall_ne_some.mpr
    intro content hsome
    exact hnotMem content ((h.mem_iff name content).mpr (.inr (.inl hsome)))
  · apply Option.eq_none_iff_forall_ne_some.mpr
    intro content hsome
    exact hnotMem content ((h.mem_iff name content).mpr (.inr (.inr hsome)))

theorem Accounted.claims_eq_none
    (h : Accounted messages claims added returned) (hmessage : messages name = some content) :
    claims name = none := by
  by_contra hclaim
  rw [h.apart hclaim] at hmessage
  cases hmessage

theorem Accounted.not_returned
    (h : Accounted messages claims added returned) (hmessage : messages name = some content) :
    name ∉ returned.map Prod.fst := by
  intro hmem
  rw [(h.gone hmem).1] at hmessage
  cases hmessage

/-- A new message is visible. -/
theorem Accounted.add
    (h : Accounted messages claims added returned) (hfresh : name ∉ added.map Prod.fst) :
    Accounted (Function.update messages name (some content)) claims (added ++ [(name, content)])
      returned := by
  obtain ⟨hreturned, hmessage, hclaim⟩ := h.eq_none_of_fresh hfresh
  refine ⟨?_, ?_, ?_, nodup_map_fst_concat h.addedOnce hfresh, h.returnedOnce⟩
  · intro other bytes
    rw [List.mem_append, List.mem_singleton, h.mem_iff]
    by_cases heq : other = name
    · subst heq
      have hnot : (other, bytes) ∉ returned := fun hmem =>
        hreturned (mem_map_fst.mpr ⟨bytes, hmem⟩)
      simp [hmessage, hclaim, hnot, eq_comm]
    · simp [heq]
  · intro other hother
    have hne : other ≠ name := fun heq => hother (heq ▸ hclaim)
    rw [Function.update_of_ne hne]
    exact h.apart hother
  · intro other hother
    have hne : other ≠ name := fun heq => hreturned (heq ▸ hother)
    rw [Function.update_of_ne hne]
    exact h.gone hother

/-- A claimed message is not visible any more. -/
theorem Accounted.claim
    (h : Accounted messages claims added returned) (hmessage : messages name = some content) :
    Accounted (Function.update messages name none) (Function.update claims name (some content))
      added returned := by
  have hclaim := h.claims_eq_none hmessage
  refine ⟨?_, ?_, ?_, h.addedOnce, h.returnedOnce⟩
  · intro other bytes
    rw [h.mem_iff]
    by_cases heq : other = name
    · subst heq
      simp [hmessage, hclaim]
    · simp [Function.update_of_ne heq]
  · intro other hother
    by_cases heq : other = name
    · rw [heq, Function.update_self]
    · rw [Function.update_of_ne heq] at hother ⊢
      exact h.apart hother
  · intro other hother
    have hne : other ≠ name := fun heq => h.not_returned hmessage (heq ▸ hother)
    rw [Function.update_of_ne hne, Function.update_of_ne hne]
    exact h.gone hother

/-- A revived message is visible again. -/
theorem Accounted.revive
    (h : Accounted messages claims added returned) (hclaim : claims name = some content) :
    Accounted (Function.update messages name (some content)) (Function.update claims name none)
      added returned := by
  have hmessage : messages name = none := h.apart (by simp [hclaim])
  refine ⟨?_, ?_, ?_, h.addedOnce, h.returnedOnce⟩
  · intro other bytes
    rw [h.mem_iff]
    by_cases heq : other = name
    · subst heq
      simp [hmessage, hclaim]
    · simp [Function.update_of_ne heq]
  · intro other hother
    have hne : other ≠ name := by
      rintro rfl
      exact hother (Function.update_self ..)
    rw [Function.update_of_ne hne] at hother ⊢
    exact h.apart hother
  · intro other hother
    have hne : other ≠ name := by
      rintro rfl
      rw [(h.gone hother).2] at hclaim
      cases hclaim
    rw [Function.update_of_ne hne, Function.update_of_ne hne]
    exact h.gone hother

/-- A returned message is not visible any more. -/
theorem Accounted.take
    (h : Accounted messages claims added returned) (hmessage : messages name = some content) :
    Accounted (Function.update messages name none) claims added
      (returned ++ [(name, content)]) := by
  have hclaim := h.claims_eq_none hmessage
  have hreturned := h.not_returned hmessage
  refine ⟨?_, ?_, ?_, h.addedOnce, nodup_map_fst_concat h.returnedOnce hreturned⟩
  · intro other bytes
    rw [List.mem_append, List.mem_singleton, h.mem_iff]
    by_cases heq : other = name
    · subst heq
      simp [hmessage, hclaim, eq_comm]
    · simp [heq]
  · intro other hother
    by_cases heq : other = name
    · rw [heq, Function.update_self]
    · rw [Function.update_of_ne heq]
      exact h.apart hother
  · intro other hother
    by_cases heq : other = name
    · rw [heq, Function.update_self]
      exact ⟨rfl, hclaim⟩
    · rw [Function.update_of_ne heq]
      simp only [List.map_append, List.map_singleton, List.mem_append, List.mem_singleton, heq,
        or_false] at hother
      exact h.gone hother

end Accounts

/-! ## The places of messages in a tree -/

namespace Tree

variable {tree : Tree} {home : Location} {name : String} {content : Bytes}

theorem message?_write_eq_update
    (hvisible : MessageName.isVisible name = true) :
    (tree.write home name content).message? home =
      Function.update (tree.message? home) name (some content) := by
  funext other
  rw [message?_write hvisible, Function.update_apply]

theorem claimed?_write_eq
    (hvisible : MessageName.isVisible name = true) :
    (tree.write home name content).claimed? home = tree.claimed? home :=
  funext (claimed?_write_of_visible hvisible)

theorem message?_revived_eq_update
    (hvisible : MessageName.isVisible name = true) :
    (tree.revived home name content).message? home =
      Function.update (tree.message? home) name (some content) := by
  funext other
  rw [message?_revived hvisible, Function.update_apply]

theorem claimed?_revived_eq_update
    (hvisible : MessageName.isVisible name = true) :
    (tree.revived home name content).claimed? home =
      Function.update (tree.claimed? home) name none := by
  funext other
  rw [claimed?_revived hvisible, Function.update_apply]

end Tree

namespace Mailbox

variable {world : World} {home : Location} {name : String} {content : Bytes}

theorem message?_claimed_eq_update :
    (claimed world home name content).tree.message? home =
      Function.update (world.tree.message? home) name none := by
  funext other
  rw [message?_claimed, Function.update_apply]

theorem claimed?_claimed_eq_update
    (hvisible : MessageName.isVisible name = true) :
    (claimed world home name content).tree.claimed? home =
      Function.update (world.tree.claimed? home) name (some content) := by
  funext other
  rw [claimed, World.tree_withTree, Tree.claimed?_write_claim hvisible,
    Tree.claimed?_unlink_of_visible hvisible, Function.update_apply]

theorem message?_taken_eq_update :
    (taken world home name).tree.message? home =
      Function.update (world.tree.message? home) name none := by
  funext other
  rw [message?_taken, Function.update_apply]

/-- Nothing else is lost when a message is taken. -/
theorem claimed?_taken_eq
    (hvisible : MessageName.isVisible name = true) (hclaim : world.tree.claimed? home name = none) :
    (taken world home name).tree.claimed? home = world.tree.claimed? home := by
  funext other
  rw [taken, World.tree_withTree, Tree.claimed?_unlink_claim,
    Tree.claimed?_unlink_of_visible hvisible]
  split
  · rename_i heq
    rw [heq, hclaim]
  · rfl

theorem claimed?_restored_eq
    (hclaim : world.tree.claimed? home name = none) :
    (restored world home name).tree.claimed? home = world.tree.claimed? home := by
  funext other
  rw [restored, World.tree_withTree, Tree.claimed?_unlink_claim]
  split
  · rename_i heq
    rw [heq, hclaim]
  · rfl

end Mailbox

end Postbox
