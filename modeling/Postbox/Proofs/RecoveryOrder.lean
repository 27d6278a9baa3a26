import Postbox.Proofs.LongPaths
import Postbox.Proofs.Revivals

/-!
# Recovery in any order

A directory is listed in no particular order.  Recovery comes to the same in every order, and leaves
nothing for another recovery, as long as the path of the mailbox does not lead through one of its
claims.  A recovery that fails has brought some of the claims back and changed nothing else.
-/

namespace Postbox

/-- Names come in the order opposite to their own. -/
def Scan.reversed : Scan :=
  ⟨List.reverse, List.reverse_perm⟩

namespace Mailbox

section Orders

variable {mailbox : Mailbox} {world after : World} {home : Location}

theorem opens_rescan_iff
    {scan : Scan} :
    mailbox.Opens { world with scan } home ↔ mailbox.Opens world home :=
  ⟨fun h => ⟨h.locate_eq, h.get?_eq⟩, fun h => ⟨h.locate_eq, h.get?_eq⟩⟩

/-- Nobody looks at names that are not those of claims. -/
theorem reviveAll_of_no_claims
    {names : List Name} (h : claimedNames names = []) (revived : Nat) :
    mailbox.reviveAll revived names = pure revived := by
  induction names with
  | nil => rfl
  | cons entry rest ih =>
      rcases claim_or_passed entry with ⟨name, hvisible, rfl⟩ | hpassed
      · rw [claimedNames_cons_claim hvisible] at h
        cases h
      · rw [claimedNames_cons_passed hpassed] at h
        rw [reviveAll_cons_passed hpassed]
        exact ih h

theorem Opens.outcome_recoverClaims_of_no_claims
    (h : mailbox.Opens world home) (hnone : claims world home = []) :
    Action.outcome mailbox.recoverClaims world = (.ok 0, world) := by
  rw [recoverClaims, Action.outcome_bind, Action.outcome_onPath, World.answer, h.list_eq]
  simp only [Except.map, Except.mapError]
  rw [reviveAll_of_no_claims hnone, Action.outcome_pure]

/-- Once all claims have come back, none is left. -/
theorem claims_eq_nil_of_recovered
    (h : Tree.Recovered home (claims world home) world.tree after.tree) :
    claims after home = [] := by
  rw [List.eq_nil_iff_forall_not_mem]
  intro name hmem
  obtain ⟨hvisible, hthere⟩ := mem_claims.mp hmem
  by_cases hclaimed : name ∈ claims world home
  · exact hthere (h.child?_of_mem hclaimed).2
  · have hkept := h.child?_of_notMem (fun other hother => (mem_claims.mp hother).1) hvisible
      hclaimed
    rw [hkept.2] at hthere
    exact hclaimed (mem_claims.mpr ⟨hvisible, hthere⟩)

/-- The order of the listing does not matter to which claims there are. -/
theorem claims_perm (world : World) (home : Location) (first second : Scan) :
    (claims { world with scan := first } home).Perm (claims { world with scan := second } home) := by
  apply (List.perm_ext_iff_of_nodup (nodup_claims _ home) (nodup_claims _ home)).mpr
  intro name
  rw [mem_claims, mem_claims]

/-- Two recoveries that differ in the order of the listing both fail, or both bring back all claims
with the same result. -/
theorem RecoveryResult.agree
    {first second : List String} {one other : Except MailError Nat × World} {start : World}
    (h : RecoveryResult mailbox world home first one)
    (hother : RecoveryResult mailbox start home second other) (hperm : first.Perm second)
    (hstart : start.tree = world.tree) :
    (∀ count, one.1 = .ok count ↔ other.1 = .ok count) ∧
      ∀ count, one.1 = .ok count → other.2.tree = one.2.tree := by
  cases h with
  | complete hreturn hsteady hsound hrecovered =>
      cases hother with
      | complete hreturn' hsteady' hsound' hrecovered' =>
          rw [hperm.length_eq]
          rw [hstart] at hrecovered'
          refine ⟨fun count => Iff.rfl, fun count _ => ?_⟩
          exact hrecovered'.unique (hrecovered.congr fun _ => hperm.mem_iff.symm)
      | hindered hmem hcannot =>
          rw [hstart] at hcannot
          exact absurd (hreturn _ (hperm.mem_iff.mpr hmem)) hcannot
  | hindered hmem hcannot =>
      cases hother with
      | complete hreturn' hsteady' hsound' hrecovered' =>
          rw [hstart] at hreturn'
          exact absurd (hreturn' _ (hperm.mem_iff.mp hmem)) hcannot
      | hindered hmem' hcannot' =>
          constructor
          · intro count
            simp
          · intro count hcount
            cases hcount

/-- A recovery that has brought all claims back leaves nothing for the next one. -/
theorem RecoveryResult.recover_again
    {result : Except MailError Nat × World} {count : Nat}
    (h : RecoveryResult mailbox world home (claims world home) result)
    (hopens : mailbox.Opens world home) (hok : result.1 = .ok count) (scan : Scan) :
    Action.outcome mailbox.recoverClaims { result.2 with scan } =
      (.ok 0, { result.2 with scan }) := by
  cases h with
  | hindered hmem hcannot => cases hok
  | @complete after hreturn hsteady hsound hrecovered =>
      have hafter := hsteady.opens hopens
      apply (opens_rescan_iff.mpr hafter).outcome_recoverClaims_of_no_claims
      have hnone := claims_eq_nil_of_recovered hrecovered
      have hperm := claims_perm after home scan after.scan
      exact List.perm_nil.mp (hnone ▸ hperm)

/-- In whatever order the directory is listed, recovery succeeds or not, with the same count and the
same tree, and another recovery finds nothing to do.  One that fails has brought some claims back
and left the others, and all else, as they were. -/
theorem recovery_in_any_order
    (hsound : world.tree.Sound) :
    ((∀ home, mailbox.Opens world home → mailbox.StaysClear world home) →
      ∀ first second : Scan,
        let one := Action.outcome mailbox.recoverClaims { world with scan := first }
        let other := Action.outcome mailbox.recoverClaims { world with scan := second }
        (∀ count, one.1 = .ok count ↔ other.1 = .ok count) ∧
          ∀ count, one.1 = .ok count → other.2.tree = one.2.tree ∧
            ∀ scan : Scan, Action.outcome mailbox.recoverClaims { one.2 with scan } =
              (.ok 0, { one.2 with scan })) ∧
      ∀ error after, Action.outcome mailbox.recoverClaims world = (.error error, after) →
        after.tree = world.tree ∨
          ∃ home names, mailbox.Opens world home ∧
            (∀ name ∈ names, MessageName.isVisible name = true ∧
              world.tree.child? home (MessageName.claim name) ≠ none) ∧
            Tree.Recovered home names world.tree after.tree := by
  by_cases hopens : ∃ home, mailbox.Opens world home
  swap
  · have herror : ∀ scan : Scan, ∃ error,
        Action.outcome mailbox.recoverClaims { world with scan } =
          (.error error, { world with scan }) := by
      intro scan
      apply exists_recoverClaims_eq_error_of_not_opens
      simpa only [opens_rescan_iff] using hopens
    constructor
    · intro _ first second one other
      obtain ⟨error, hone⟩ := herror first
      obtain ⟨error', hother⟩ := herror second
      simp only [one, other, hone, hother]
      simp
    · intro error after hafter
      obtain ⟨error', hworld⟩ := herror world.scan
      rw [hworld] at hafter
      cases hafter
      exact .inl rfl
  obtain ⟨home, hopens⟩ := hopens
  constructor
  · intro hclear first second one other
    have hresult : ∀ scan : Scan, RecoveryResult mailbox { world with scan } home
        (claims { world with scan } home)
        (Action.outcome mailbox.recoverClaims { world with scan }) := by
      intro scan
      exact (opens_rescan_iff.mpr hopens).recoveryResult hsound (hclear home hopens)
    have hperm := claims_perm world home first second
    obtain ⟨hcount, htree⟩ := (hresult first).agree (hresult second) hperm rfl
    refine ⟨hcount, fun count hok => ⟨htree count hok, fun scan => ?_⟩⟩
    exact (hresult first).recover_again (opens_rescan_iff.mpr hopens) hok scan
  · intro error after hafter
    have hreach : Action.Reaches mailbox.recoverClaims world after := by
      have houtcome := Action.reaches_outcome mailbox.recoverClaims world
      rwa [hafter] at houtcome
    obtain ⟨names, hnames, hrecovered⟩ := Tree.exists_recovered_of_revivals hsound hopens.get?_eq
      (hopens.reaches_recoverClaims hsound hreach)
    exact .inr ⟨home, names, hopens, hnames, hrecovered⟩

/-- Two messages come back, in either order. -/
theorem recovery_in_any_order_of_two :
    let world := World.blank.withTree ((Tree.empty.write [] (MessageName.claim "a.eml")
      (Bytes.ofText "hi")).write [] (MessageName.claim "b.eml") (Bytes.ofText "ho"))
    let one := Action.outcome here.recoverClaims { world with scan := .sorted }
    let other := Action.outcome here.recoverClaims { world with scan := .reversed }
    world.tree.Sound ∧ (∀ home, here.Opens world home → here.StaysClear world home) ∧
      one.1 = .ok 2 ∧ other.1 = .ok 2 ∧ other.2.tree = one.2.tree := by
  intro world one other
  have hsound : world.tree.Sound :=
    Tree.sound_write_write (by decide) (by decide) (by decide) (by decide) _ _
  have hclear : ∀ home, here.Opens world home → here.StaysClear world home :=
    fun home hopens => staysClear_of_enter hopens.enter_eq (by decide)
  have hone : one.1 = .ok 2 := by decide +kernel
  obtain ⟨hcount, htree⟩ := (recovery_in_any_order hsound).1 hclear .sorted .reversed
  exact ⟨hsound, hclear, hone, (hcount 2).mp hone, (htree 2 hone).1⟩

/-- Through a path that leads over a claim, the order matters: when that claim comes back first, the
others cannot be found any more, nor can the mailbox afterwards. -/
theorem recovery_through_claim :
    let claim (name : String) : Location := [[0x62], Bytes.ofText (MessageName.claim name)]
    let tree := ((Tree.lone 0x62).put (claim "x.eml") .directory).put (claim "y.eml") .directory
    let world : World := { World.blank with tree }
    let mailbox : Mailbox := ⟨.ofText "b/.x.eml.claimed/.."⟩
    let one := Action.outcome mailbox.recoverClaims { world with scan := .sorted }
    let other := Action.outcome mailbox.recoverClaims { world with scan := .reversed }
    world.tree.Sound ∧ mailbox.Opens world [[0x62]] ∧ one.1 = .ok 1 ∧ other.1 = .ok 2 ∧
      (Action.outcome mailbox.recoverClaims one.2).1 = .error (.io mailbox.dir .notFound) := by
  intro claim tree world mailbox one other
  have hb : Name.IsPlain [0x62] := by decide
  have hfirst : ((Tree.lone 0x62).put (claim "x.eml") .directory).Sound :=
    (Tree.sound_lone hb).put .directory (Tree.get?_lone 0x62) (by decide) (by decide)
      (by decide +kernel)
  have hsound : world.tree.Sound :=
    @Tree.Sound.put _ hfirst [[0x62]] (Bytes.ofText (MessageName.claim "y.eml")) .directory
      (by decide +kernel) (by decide) (by decide) (by decide +kernel)
  have hopens : mailbox.Opens world [[0x62]] :=
    opens_of_enter (by decide +kernel) (by decide +kernel)
  refine ⟨hsound, hopens, ?_, ?_, ?_⟩ <;> decide +kernel

end Orders

end Mailbox

end Postbox
