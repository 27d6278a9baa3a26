import Postbox.Proofs.Revivals

/-!
# What recovery adds to the messages that wait

Recovery does not look whether a name that it brings back is free, nor whether what it brings back
is a message.  So a claim takes the place of a message of its name, which is lost, and counts all
the same, as does a directory with the name of a claim.  Apart from these two cases every claim adds
one message and all others stay.
-/

namespace Postbox.Mailbox

/-- The names that wait only after recovery: those of claims that are files, unless a message of the
same name waits already. -/
def newcomers (world : World) (home : Location) : List String :=
  (claims world home).filter fun name =>
    (world.tree.claimed? home name).isSome && (world.tree.message? home name).isNone

/-- All that waited still waits, and each of the claims, as many as were counted, waits in addition
with the content it held. -/
structure AddsClaims (world after : World) (home : Location) (before listed : List String)
    (count : Nat) : Prop where
  count_eq : count = (claims world home).length
  perm : listed.Perm (before ++ claims world home)
  kept : ∀ name ∈ before, after.tree.message? home name = world.tree.message? home name
  added : ∀ name ∈ claims world home, ∃ content,
    world.tree.child? home (MessageName.claim name) = some (.file content) ∧
      after.tree.message? home name = some content

/-- What a recovery comes to that has gone through, where the messages in `before` waited and those in
`listed` wait now. -/
structure Completes (mailbox : Mailbox) (world after : World) (home : Location)
    (order : ReceiveOrder) (before listed : List String) (count : Nat) : Prop where
  opens : mailbox.Opens world home
  /-- All claims are counted. -/
  count_eq : count = (claims world home).length
  before_eq : (Action.outcome (mailbox.pending order) world).1 = .ok (before.map mailbox.entry)
  listed_eq : (Action.outcome (mailbox.pending order) after).1 = .ok (listed.map mailbox.entry)
  /-- Nothing that waited is gone, and the claims with free names have come in addition. -/
  perm : listed.Perm (before ++ newcomers world home)
  /-- A claim takes the place of the message of its name. -/
  message?_eq : ∀ name, after.tree.message? home name =
    (world.tree.claimed? home name).or (world.tree.message? home name)
  /-- Every claim adds a message if and only if all claims are files and none has the name of a
  message that is there. -/
  addsClaims_iff : AddsClaims world after home before listed count ↔
    (∀ name, world.tree.claimed? home name ≠ none → world.tree.message? home name = none) ∧
      ∀ name, MessageName.isVisible name = true →
        world.tree.child? home (MessageName.claim name) ≠ some .directory

section Counting

variable {mailbox : Mailbox} {world after : World} {home : Location} {order : ReceiveOrder}
  {name : String}

theorem mem_claims_of_claimed?
    {content : Bytes} (h : world.tree.claimed? home name = some content) :
    name ∈ claims world home := by
  obtain ⟨hvisible, hfile⟩ := Tree.claimed?_eq_some_iff.mp h
  exact mem_claims.mpr ⟨hvisible, by simp [hfile]⟩

theorem mem_newcomers :
    name ∈ newcomers world home ↔ (∃ content, world.tree.claimed? home name = some content) ∧
      world.tree.message? home name = none := by
  rw [newcomers, List.mem_filter, Bool.and_eq_true, Option.isSome_iff_exists,
    Option.isNone_iff_eq_none, and_iff_right_of_imp]
  rintro ⟨⟨content, hclaimed⟩, -⟩
  exact mem_claims_of_claimed? hclaimed

/-- Where a claim can come back there is room for its name. -/
theorem CanReturn.fits_entry
    (h : mailbox.CanReturn world.tree home name) (hsound : world.tree.Sound)
    (hmem : name ∈ claims world home) :
    Fits (mailbox.entry name) := by
  obtain ⟨hvisible, hthere⟩ := mem_claims.mp hmem
  obtain ⟨hplain, hshort⟩ := hsound.isPlain_of_child? hthere
  have hadmits : mailbox.Admits (MessageName.claim name) := ⟨hplain, hshort, h.fits⟩
  exact (admits_of_admits_claim hvisible hadmits).fits

/-- A directory does not take the place of a message. -/
theorem CanReturn.message?_eq_none
    (h : mailbox.CanReturn world.tree home name)
    (hdir : world.tree.child? home (MessageName.claim name) = some .directory) :
    world.tree.message? home name = none := by
  have hreplace := h.canReplace
  rw [Tree.CanReplace, show world.tree.get? (home ++ [Bytes.ofText (MessageName.claim name)]) =
    some .directory from hdir] at hreplace
  by_contra hmessage
  obtain ⟨content, hcontent⟩ := Option.ne_none_iff_exists'.mp hmessage
  have hfile : world.tree.get? (home ++ [Bytes.ofText name]) = some (.file content) :=
    (Tree.message?_eq_some_iff.mp hcontent).2
  simp [hfile] at hreplace

/-- A claim that is a file takes the place of the message of its name; all other messages stay. -/
theorem message?_of_recovered
    (hreturn : ∀ name ∈ claims world home, mailbox.CanReturn world.tree home name)
    (hrecovered : Tree.Recovered home (claims world home) world.tree after.tree) (name : String) :
    after.tree.message? home name =
      (world.tree.claimed? home name).or (world.tree.message? home name) := by
  cases hvisible : MessageName.isVisible name with
  | false =>
      rw [Tree.message?_of_hidden hvisible, Tree.message?_of_hidden hvisible, Tree.claimed?,
        hvisible]
      rfl
  | true =>
      by_cases hmem : name ∈ claims world home
      · obtain ⟨hback, -⟩ := hrecovered.child?_of_mem hmem
        cases hclaim : world.tree.child? home (MessageName.claim name) with
        | none => exact absurd hclaim (mem_claims.mp hmem).2
        | some entry =>
            cases entry with
            | file content => simp [Tree.message?, Tree.claimed?, hvisible, hback, hclaim]
            | directory =>
                rw [(hreturn name hmem).message?_eq_none hclaim]
                simp [Tree.message?, Tree.claimed?, hvisible, hback, hclaim]
      · have hkept := hrecovered.child?_of_notMem (fun other hother => (mem_claims.mp hother).1)
          hvisible hmem
        have hnone : world.tree.child? home (MessageName.claim name) = none := by
          by_contra hthere
          exact hmem (mem_claims.mpr ⟨hvisible, hthere⟩)
        simp [Tree.message?, Tree.claimed?, hvisible, hkept.1, hnone]

/-- What waits after a recovery that goes through. -/
theorem Opens.candidates_perm_of_recovered
    (hopens : mailbox.Opens world home) (hsound : world.tree.Sound)
    (hreturn : ∀ name ∈ claims world home, mailbox.CanReturn world.tree home name)
    (hopensAfter : mailbox.Opens after home) (hsoundAfter : after.tree.Sound)
    (hrecovered : Tree.Recovered home (claims world home) world.tree after.tree) :
    (mailbox.candidates after home order).Perm
      (mailbox.candidates world home order ++ newcomers world home) := by
  have hnodup : (mailbox.candidates world home order ++ newcomers world home).Nodup := by
    apply (nodup_candidates mailbox world home order).append ((nodup_claims world home).filter _)
    intro name hwaits hnew
    obtain ⟨⟨content, hmessage⟩, -⟩ := (hopens.mem_candidates_iff hsound).mp hwaits
    rw [(mem_newcomers.mp hnew).2] at hmessage
    cases hmessage
  apply (List.perm_ext_iff_of_nodup (nodup_candidates mailbox after home order) hnodup).mpr
  intro name
  rw [hopensAfter.mem_candidates_iff hsoundAfter, List.mem_append, hopens.mem_candidates_iff hsound,
    mem_newcomers, message?_of_recovered hreturn hrecovered]
  constructor
  · rintro ⟨⟨content, hcontent⟩, hfits⟩
    cases hmessage : world.tree.message? home name with
    | some old => exact .inl ⟨⟨old, rfl⟩, hfits⟩
    | none =>
        rw [hmessage, Option.or_none] at hcontent
        exact .inr ⟨⟨content, hcontent⟩, rfl⟩
  · rintro (⟨⟨content, hmessage⟩, hfits⟩ | ⟨⟨content, hclaimed⟩, -⟩)
    · refine ⟨?_, hfits⟩
      cases hclaimed : world.tree.claimed? home name with
      | some held => exact ⟨held, rfl⟩
      | none => exact ⟨content, hmessage⟩
    · have hmem := mem_claims_of_claimed? hclaimed
      exact ⟨⟨content, by rw [hclaimed]; rfl⟩, (hreturn name hmem).fits_entry hsound hmem⟩

/-- Every claim adds a message if and only if all claims are files and none has the name of a message
that is there. -/
theorem addsClaims_iff
    {before listed : List String}
    (hbefore : ∀ name, name ∈ before ↔
      (∃ content, world.tree.message? home name = some content) ∧ Fits (mailbox.entry name))
    (hsound : world.tree.Sound)
    (hreturn : ∀ name ∈ claims world home, mailbox.CanReturn world.tree home name)
    (hnodup : listed.Nodup) (hlisted : listed.Perm (before ++ newcomers world home))
    (hmessage : ∀ name, after.tree.message? home name =
      (world.tree.claimed? home name).or (world.tree.message? home name)) :
    AddsClaims world after home before listed (claims world home).length ↔
      (∀ name, world.tree.claimed? home name ≠ none → world.tree.message? home name = none) ∧
        ∀ name, MessageName.isVisible name = true →
          world.tree.child? home (MessageName.claim name) ≠ some .directory := by
  constructor
  · intro h
    constructor
    · intro name hclaimed
      obtain ⟨held, hheld⟩ := Option.ne_none_iff_exists'.mp hclaimed
      have hmem := mem_claims_of_claimed? hheld
      by_contra hthere
      -- The name would be listed twice: as a message of before, and as one that was added.
      have hwaits : name ∈ before := (hbefore name).mpr
        ⟨Option.ne_none_iff_exists'.mp hthere, (hreturn name hmem).fits_entry hsound hmem⟩
      exact List.disjoint_of_nodup_append (h.perm.nodup_iff.mp hnodup) hwaits hmem
    · intro name hvisible hdir
      obtain ⟨content, hfile, -⟩ := h.added name (mem_claims.mpr ⟨hvisible, by simp [hdir]⟩)
      rw [hdir] at hfile
      cases hfile
  · rintro ⟨hfree, hfiles⟩
    have hfile : ∀ name ∈ claims world home, ∃ content,
        world.tree.claimed? home name = some content ∧
          world.tree.child? home (MessageName.claim name) = some (.file content) := by
      intro name hmem
      obtain ⟨hvisible, hthere⟩ := mem_claims.mp hmem
      obtain ⟨entry, hentry⟩ := Option.ne_none_iff_exists'.mp hthere
      cases entry with
      | file content => exact ⟨content, Tree.claimed?_eq_some_iff.mpr ⟨hvisible, hentry⟩, hentry⟩
      | directory => exact absurd hentry (hfiles name hvisible)
    have hall : newcomers world home = claims world home := by
      rw [newcomers, List.filter_eq_self]
      intro name hmem
      obtain ⟨content, hclaimed, -⟩ := hfile name hmem
      rw [hclaimed, hfree name (by simp [hclaimed])]
      rfl
    rw [hall] at hlisted
    refine ⟨rfl, hlisted, ?_, ?_⟩
    · intro name hmem
      obtain ⟨⟨content, hold⟩, -⟩ := (hbefore name).mp hmem
      cases hclaimed : world.tree.claimed? home name with
      | none => rw [hmessage, hclaimed, Option.none_or]
      | some held =>
          rw [hfree name (by simp [hclaimed])] at hold
          cases hold
    · intro name hmem
      obtain ⟨content, hclaimed, hentry⟩ := hfile name hmem
      exact ⟨content, hentry, by rw [hmessage, hclaimed, Option.some_or]⟩

/-- A recovery that goes through counts all claims.  Those that are files come back as messages, in
place of the ones that had their names, and nothing else that waits changes. -/
theorem recovery_completes
    (hsound : world.tree.Sound)
    (hclear : ∀ home, mailbox.Opens world home → mailbox.StaysClear world home ∨
      ∀ name, MessageName.isVisible name = true →
        world.tree.child? home (MessageName.claim name) ≠ some .directory)
    {count : Nat} (hok : Action.outcome mailbox.recoverClaims world = (.ok count, after))
    (order : ReceiveOrder) :
    ∃ home before listed, Completes mailbox world after home order before listed count := by
  by_cases hopens : ∃ home, mailbox.Opens world home
  swap
  · obtain ⟨error, herror⟩ := exists_recoverClaims_eq_error_of_not_opens hopens
    rw [herror] at hok
    cases hok
  obtain ⟨home, hopens⟩ := hopens
  have hstays := (hclear home hopens).elim id (staysClear_of_not_directory hsound)
  have hresult := hopens.recoveryResult hsound hstays
  rw [hok] at hresult
  cases hresult with
  | complete hreturn hsteady hsoundAfter hrecovered =>
      have hopensAfter := hsteady.opens hopens
      have hmessage := message?_of_recovered hreturn hrecovered
      have hperm : (mailbox.candidates after home order).Perm
          (mailbox.candidates world home order ++ newcomers world home) :=
        hopens.candidates_perm_of_recovered hsound hreturn hopensAfter hsoundAfter hrecovered
      refine ⟨home, mailbox.candidates world home order, mailbox.candidates after home order, {
        opens := hopens
        count_eq := rfl
        before_eq := by rw [hopens.outcome_pending]
        listed_eq := by rw [hopensAfter.outcome_pending]
        perm := hperm
        message?_eq := hmessage
        addsClaims_iff := ?_ }⟩
      exact addsClaims_iff (fun name => hopens.mem_candidates_iff hsound) hsound hreturn
        (nodup_candidates mailbox after home order) hperm hmessage

/-- A message waits, and the claim on another one comes back. -/
theorem recovery_completes_beside :
    let world := World.blank.withTree ((Tree.empty.write [] "b.eml" (Bytes.ofText "here")).write []
      (MessageName.claim "a.eml") (Bytes.ofText "back"))
    world.tree.Sound ∧ (∀ home, here.Opens world home → here.StaysClear world home) ∧
      ∃ after, Action.outcome here.recoverClaims world = (.ok 1, after) ∧
        ∃ home before listed, Completes here world after home .oldest before listed 1 := by
  intro world
  have hsound : world.tree.Sound :=
    Tree.sound_write_write (by decide) (by decide) (by decide) (by decide) _ _
  have hclear : ∀ home, here.Opens world home → here.StaysClear world home :=
    fun home hopens => staysClear_of_enter hopens.enter_eq (by decide)
  have hcount : (Action.outcome here.recoverClaims world).1 = .ok 1 := by decide +kernel
  have hok : Action.outcome here.recoverClaims world =
      (.ok 1, (Action.outcome here.recoverClaims world).2) :=
    Prod.ext hcount rfl
  exact ⟨hsound, hclear, _, hok,
    recovery_completes hsound (fun home hopens => .inl (hclear home hopens)) hok .oldest⟩

/-- A message whose name is claimed is lost in recovery: one message is counted, and no more wait than
before. -/
theorem message_lost_in_recovery :
    let world := World.blank.withTree ((Tree.empty.write [] "a.eml" (Bytes.ofText "live")).write []
      (MessageName.claim "a.eml") (Bytes.ofText "old"))
    let result := Action.outcome here.recoverClaims world
    world.tree.Sound ∧ here.Opens world [] ∧ result.1 = .ok 1 ∧
      (Action.outcome (here.pending .oldest) world).1 = .ok [here.entry "a.eml"] ∧
      (Action.outcome (here.pending .oldest) result.2).1 = .ok [here.entry "a.eml"] ∧
      world.tree.message? [] "a.eml" = some (Bytes.ofText "live") ∧
      result.2.tree.message? [] "a.eml" = some (Bytes.ofText "old") := by
  intro world result
  have hsound : world.tree.Sound :=
    Tree.sound_write_write (by decide) (by decide) (by decide) (by decide) _ _
  refine ⟨hsound, opens_here rfl, ?_, ?_, ?_, ?_, ?_⟩ <;> decide +kernel

/-- A directory counts as well, and is no message. -/
example :
    let claim : Location := [Bytes.ofText (MessageName.claim "x.eml")]
    let world := World.blank.withTree (Tree.empty.put claim .directory)
    let result := Action.outcome here.recoverClaims world
    result.1 = .ok 1 ∧ (Action.outcome (here.pending .oldest) result.2).1 = .ok [] := by
  decide +kernel

end Counting

end Postbox.Mailbox
