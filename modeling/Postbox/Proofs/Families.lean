import Mathlib.Logic.Equiv.Defs
import Postbox.Proofs.Names

/-!
# The families of mailbox names

The names that mean something in a mailbox fall into three families: visible names, claim names and
staging names.  No name is in two of them.  Visible names and claim names correspond one to one, so
a claim can always be taken back, and no other name is taken for a claim.
-/

namespace Postbox.MessageName

/-- A name of a message that can be received. -/
abbrev Visible := {name : String // isVisible name = true}

/-- A name under which a receiver holds a message. -/
abbrev Claim := {name : String // (claimed? name).isSome = true}

/-- Claiming a message and taking the claim back. -/
def claiming : Visible ≃ Claim where
  toFun name := ⟨claim name, by rw [claimed?_claim name.property]; rfl⟩
  invFun name := ⟨(claimed? name).get name.property,
    (claimed?_eq_some_iff.mp (Option.eq_some_of_isSome name.property)).1⟩
  left_inv name := Subtype.ext (by simp [claimed?_claim name.property])
  right_inv name :=
    Subtype.ext (claimed?_eq_some_iff.mp (Option.eq_some_of_isSome name.property)).2.symm

theorem claimed?_eq_claiming_symm (name : Claim) :
    claimed? name = some (claiming.symm name).val :=
  Option.eq_some_of_isSome name.property

theorem head?_eq_dot_iff
    {name : String} :
    name.toList.head? = some '.' ↔ ∃ rest, name = "." ++ rest := by
  constructor
  · intro h
    obtain ⟨rest, hrest⟩ := List.head?_eq_some_iff.mp h
    refine ⟨String.ofList rest, ?_⟩
    rw [← String.toList_inj, hrest]
    simp
  · rintro ⟨rest, rfl⟩
    simp

/-- No claim name is visible, whatever was claimed. -/
theorem isVisible_of_isSome
    {name : String} (h : (claimed? name).isSome = true) :
    isVisible name = false := by
  obtain ⟨original, horiginal⟩ := Option.isSome_iff_exists.mp h
  rw [(claimed?_eq_some_iff.mp horiginal).2]
  exact isVisible_claim original

theorem isVisible_of_ofFileName?
    {name : String} {id : MessageId} (h : MessageId.ofFileName? name = some id) :
    isVisible name = true := by
  rw [MessageId.ofFileName?_eq_some_iff.mp h]
  exact isVisible_fileName id

/-- The families of names as texts, and that they are kept apart. -/
structure FamiliesApart : Prop where
  isVisible_iff : ∀ name, isVisible name = true ↔
    (∃ stem, name = stem ++ ".eml") ∧ ¬∃ rest, name = "." ++ rest
  fileName_isVisible : ∀ id : MessageId, isVisible id.fileName = true
  ofFileName?_isVisible : ∀ name id, MessageId.ofFileName? name = some id → isVisible name = true
  claiming_eq : ∀ name : Visible, (claiming name).val = "." ++ name.val ++ ".claimed"
  claiming_symm_eq : ∀ name : Claim, claimed? name.val = some (claiming.symm name).val
  claimed?_iff : ∀ claimed name, claimed? claimed = some name ↔
    isVisible name = true ∧ claimed = "." ++ name ++ ".claimed"
  claim_not_visible : ∀ name, (claimed? name).isSome = true → isVisible name = false
  claim_not_staging : ∀ name, (claimed? name).isSome = true →
    ∀ id : MessageId, name ≠ id.stagingName
  staging_not_visible : ∀ id : MessageId, isVisible id.stagingName = false
  staging_not_claim : ∀ id : MessageId, claimed? id.stagingName = none
  dotted_not_visible : ∀ name, isVisible ("." ++ name ++ ".claimed") = false
  dotted_not_staging : ∀ name, ∀ id : MessageId, "." ++ name ++ ".claimed" ≠ id.stagingName

/-- Visible names, claim names and staging names never mix, and claiming is one to one. -/
theorem families_apart : FamiliesApart where
  isVisible_iff name := by
    rw [isVisible_iff, Ne, head?_eq_dot_iff, and_comm]
    rfl
  fileName_isVisible := isVisible_fileName
  ofFileName?_isVisible _ _ := isVisible_of_ofFileName?
  claiming_eq _ := rfl
  claiming_symm_eq := claimed?_eq_claiming_symm
  claimed?_iff _ _ := claimed?_eq_some_iff
  claim_not_visible _ := isVisible_of_isSome
  claim_not_staging name h id := by
    rintro rfl
    rw [claimed?_stagingName] at h
    cases h
  staging_not_visible := isVisible_stagingName
  staging_not_claim := claimed?_stagingName
  dotted_not_visible := isVisible_claim
  dotted_not_staging := claim_ne_stagingName

/-- Claims can look like claims of claims, and endings alone are hidden. -/
example :
    claimed? "..eml.claimed" = none ∧ claimed? ".x.eml.claimed" = some "x.eml" ∧
      claimed? "..x.eml.claimed.claimed" = none ∧ isVisible "é.claimed.eml" = true := by
  decide

end Postbox.MessageName
