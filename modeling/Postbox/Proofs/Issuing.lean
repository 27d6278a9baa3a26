import Postbox.Proofs.Mailboxes

/-!
# Identifiers grow

Every identifier is larger than those issued before it, whatever the clock reads, until the counter
runs over.
-/

namespace Postbox

namespace MessageId

theorem value_lt_of_ticks_lt
    {a b : MessageId} (h : a.ticks.toNat < b.ticks.toNat) :
    a.value < b.value := by
  have hsuffix := a.suffix.toNat_lt
  unfold value UInt32.size
  omega

theorem fileName_ne_of_value_lt
    {a b : MessageId} (h : a.value < b.value) :
    a.fileName ≠ b.fileName := by
  intro heq
  rw [fileName_injective heq] at h
  exact Nat.lt_irrefl _ h

end MessageId

namespace Issuer

/-- The counter does not run over at a reading of the clock. -/
def HasRoom (issuer : Issuer) (now : UInt64) : Prop :=
  issuer.last < now ∨ issuer.last.toNat + 1 < UInt64.size

instance (issuer : Issuer) (now : UInt64) : Decidable (issuer.HasRoom now) :=
  inferInstanceAs (Decidable (_ ∨ _))

theorem last_lt_nextTicks
    {issuer : Issuer} {now : UInt64} (h : issuer.HasRoom now) :
    issuer.last.toNat < (issuer.nextTicks now).toNat := by
  rw [nextTicks]
  split
  · rename_i hlater
    exact UInt64.lt_iff_toNat_lt.mp hlater
  · rename_i hstill
    have hroom := h.resolve_left hstill
    rw [UInt64.toNat_add]
    exact Nat.lt_of_lt_of_eq (Nat.lt_succ_self _) (Nat.mod_eq_of_lt hroom).symm

end Issuer

namespace World

/-- The counter does not run over while the next identifiers are issued. -/
def HasRoom (world : World) : Nat → Prop
  | 0 => True
  | n + 1 => world.issuer.HasRoom (world.readings world.issued.length).1 ∧ world.issue.2.HasRoom n

section Issues

variable {world : World}

theorem last_lt_ticks_issue
    (h : world.issuer.HasRoom (world.readings world.issued.length).1) :
    world.issuer.last.toNat < world.issue.1.ticks.toNat :=
  Issuer.last_lt_nextTicks h

/-! Files and reports do not matter to the counter. -/

@[simp] theorem hasRoom_withTree
    {tree : Tree} {n : Nat} :
    (world.withTree tree).HasRoom n ↔ world.HasRoom n := by
  induction n generalizing world with
  | zero => exact Iff.rfl
  | succ n ih => exact and_congr_right' (@ih world.issue.2)

@[simp] theorem hasRoom_recorded
    {event : Event} {n : Nat} :
    (world.recorded event).HasRoom n ↔ world.HasRoom n := by
  induction n generalizing world with
  | zero => exact Iff.rfl
  | succ n ih => exact and_congr_right' (@ih world.issue.2)

theorem HasRoom.mono
    {m n : Nat} (h : world.HasRoom n) (hmn : m ≤ n) :
    world.HasRoom m := by
  induction m generalizing world n with
  | zero => trivial
  | succ m ih =>
      cases n with
      | zero => exact absurd hmn (Nat.not_succ_le_zero m)
      | succ n => exact ⟨h.1, ih h.2 (Nat.le_of_succ_le_succ hmn)⟩

end Issues

end World

end Postbox
