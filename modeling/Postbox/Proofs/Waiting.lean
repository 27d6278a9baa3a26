import Mathlib.Data.List.Nodup
import Postbox.Mailbox.Pending
import Postbox.Proofs.Interruptions
import Postbox.Proofs.Mailboxes

/-!
# The messages that wait

Asking a mailbox for its waiting messages changes nothing.  The oldest-first order is a total order
of names, so the answer is determined by which messages there are, and not by how the directory is
listed.
-/

namespace Postbox

/-! ## The oldest-first order -/

namespace MessageName

theorem isUpTo_fileName (a b : MessageId) :
    isUpTo a.fileName b.fileName = decide (a.value ≤ b.value) := by
  rw [isUpTo, MessageId.ofFileName?_fileName, MessageId.ofFileName?_fileName]

theorem isUpTo_total (a b : String) :
    (isUpTo a b || isUpTo b a) = true := by
  unfold isUpTo
  cases MessageId.ofFileName? a <;> cases MessageId.ofFileName? b
  · simpa using String.le_total a b
  · rfl
  · rfl
  · simpa using Nat.le_total _ _

theorem isUpTo_trans
    {a b c : String} (hab : isUpTo a b = true) (hbc : isUpTo b c = true) :
    isUpTo a c = true := by
  unfold isUpTo at hab hbc ⊢
  cases ha : MessageId.ofFileName? a <;> cases hb : MessageId.ofFileName? b <;>
    cases hc : MessageId.ofFileName? c <;>
    simp only [ha, hb, hc, decide_eq_true_eq, reduceCtorEq] at hab hbc ⊢
  · exact String.le_trans hab hbc
  · exact Nat.le_trans hab hbc

theorem isUpTo_antisymm
    {a b : String} (hab : isUpTo a b = true) (hba : isUpTo b a = true) :
    a = b := by
  unfold isUpTo at hab hba
  cases ha : MessageId.ofFileName? a <;> cases hb : MessageId.ofFileName? b <;>
    simp only [ha, hb, decide_eq_true_eq, reduceCtorEq] at hab hba
  · exact String.le_antisymm hab hba
  · rename_i x y
    have hxy : x = y := MessageId.value_injective (Nat.le_antisymm hab hba)
    rw [MessageId.ofFileName?_eq_some_iff.mp ha, MessageId.ofFileName?_eq_some_iff.mp hb, hxy]

end MessageName

namespace ReceiveOrder

theorem arrange_perm (order : ReceiveOrder) (names : List String) :
    (order.arrange names).Perm names := by
  cases order with
  | oldest => exact List.mergeSort_perm _ _
  | listing => exact .refl _

theorem pairwise_arrange_oldest (names : List String) :
    (arrange .oldest names).Pairwise fun a b => MessageName.isUpTo a b = true := by
  have htrans : ∀ a b c : String, MessageName.isUpTo a b = true → MessageName.isUpTo b c = true →
      MessageName.isUpTo a c = true := fun _ _ _ => MessageName.isUpTo_trans
  exact List.pairwise_mergeSort htrans MessageName.isUpTo_total names

/-- There is only one way to arrange names oldest first. -/
theorem arrange_oldest_eq
    {names sorted : List String}
    (hsorted : sorted.Pairwise fun a b => MessageName.isUpTo a b = true)
    (hperm : sorted.Perm names) :
    arrange .oldest names = sorted :=
  List.Perm.eq_of_pairwise (fun _ _ _ _ => MessageName.isUpTo_antisymm)
    (pairwise_arrange_oldest names) hsorted ((arrange_perm _ names).trans hperm.symm)

end ReceiveOrder

namespace Mailbox

/-! ## Names seen in a listing -/

theorem mem_visibleNames
    {names : List Name} {name : String} :
    name ∈ visibleNames names ↔
      MessageName.isVisible name = true ∧ Bytes.ofText name ∈ names := by
  simp only [visibleNames, List.mem_filter, List.mem_filterMap, Bytes.text?_eq_some_iff]
  constructor
  · rintro ⟨⟨_, hmem, rfl⟩, hvisible⟩
    exact ⟨hvisible, hmem⟩
  · rintro ⟨hvisible, hmem⟩
    exact ⟨⟨_, hmem, rfl⟩, hvisible⟩

theorem nodup_visibleNames
    {names : List Name} (h : names.Nodup) :
    (visibleNames names).Nodup := by
  refine (List.Nodup.filterMap ?_ h).filter _
  intro a b text ha hb
  rw [Option.mem_def, Bytes.text?_eq_some_iff] at ha hb
  rw [ha, hb]

/-! ## The answer -/

/-- The names of the waiting messages, read off the tree. -/
def candidates (mailbox : Mailbox) (world : World) (home : Location) (order : ReceiveOrder) :
    List String :=
  order.arrange <| (visibleNames (world.scan.arrange (world.tree.names home))).filter fun name =>
    world.tree.isFile world.cwd (mailbox.entry name)

section Outcomes

variable {mailbox : Mailbox} {world reached : World} {home : Location} {order : ReceiveOrder}

theorem outcome_regularFiles (mailbox : Mailbox) (names : List String) (world : World) :
    Action.outcome (mailbox.regularFiles names) world =
      (.ok (names.filter fun name => world.tree.isFile world.cwd (mailbox.entry name)), world) := by
  induction names with
  | nil => rfl
  | cons name rest ih =>
      rw [regularFiles, Action.outcome_bind, Action.outcome_ask]
      simp only [World.answer]
      rw [Action.outcome_bind, ih]
      simp only [Action.outcome_pure, List.filter_cons]
      rfl

theorem observes_regularFiles (mailbox : Mailbox) (names : List String) :
    Action.Observes (mailbox.regularFiles names) := by
  induction names with
  | nil => exact Action.observes_pure []
  | cons name rest ih =>
      apply (Action.observes_ask fun _ => ⟨rfl, fun _ => id⟩).bind
      intro _
      exact ih.bind fun _ => Action.observes_pure _

/-- A directory that is not there cannot be listed, and nothing else is tried. -/
theorem outcome_list_bind_of_not_opens
    {α : Type} (h : ¬∃ home, mailbox.Opens world home) (next : List Name → Action α) :
    ∃ fault, Action.outcome (Action.onPath mailbox.dir (.list mailbox.dir) >>= next) world =
      (.error (.io mailbox.dir fault), world) := by
  cases hlist : world.tree.list world.cwd mailbox.dir with
  | ok names => exact absurd (exists_opens_of_list_eq_ok hlist) h
  | error fault =>
      refine ⟨fault, ?_⟩
      rw [Action.outcome_bind, Action.outcome_onPath, World.answer, hlist]
      rfl

theorem Opens.outcome_waiting
    (h : mailbox.Opens world home) (order : ReceiveOrder) :
    Action.outcome (mailbox.waiting order) world =
      (.ok (mailbox.candidates world home order), world) := by
  rw [waiting, Action.outcome_bind, Action.outcome_onPath]
  simp only [World.answer, h.list_eq, Except.map, Except.mapError]
  rw [Action.outcome_bind, outcome_regularFiles]
  rfl

theorem observes_waiting (mailbox : Mailbox) (order : ReceiveOrder) :
    Action.Observes (mailbox.waiting order) := by
  apply (Action.observes_onPath fun _ => ⟨rfl, fun _ => id⟩).bind
  intro names
  exact (observes_regularFiles mailbox _).bind fun _ => Action.observes_pure _

theorem Opens.outcome_pending
    (h : mailbox.Opens world home) (order : ReceiveOrder) :
    Action.outcome (mailbox.pending order) world =
      (.ok ((mailbox.candidates world home order).map mailbox.entry), world) := by
  rw [pending, Action.outcome_bind, h.outcome_waiting]
  rfl

theorem observes_pending (mailbox : Mailbox) (order : ReceiveOrder) :
    Action.Observes (mailbox.pending order) :=
  (observes_waiting mailbox order).bind fun _ => Action.observes_pure _

theorem pairwise_candidates_oldest (mailbox : Mailbox) (world : World) (home : Location) :
    (mailbox.candidates world home .oldest).Pairwise
      fun a b => MessageName.isUpTo a b = true :=
  ReceiveOrder.pairwise_arrange_oldest _

theorem nodup_candidates (mailbox : Mailbox) (world : World) (home : Location)
    (order : ReceiveOrder) :
    (mailbox.candidates world home order).Nodup := by
  refine (order.arrange_perm _).nodup_iff.mpr ((nodup_visibleNames ?_).filter _)
  exact (world.scan.perm _).nodup_iff.mpr (world.tree.nodup_names home)

/-- The waiting messages are those whose paths are not too long. -/
theorem Opens.mem_candidates_iff
    (h : mailbox.Opens world home) (hsound : world.tree.Sound) {name : String} :
    name ∈ mailbox.candidates world home order ↔
      (∃ content, world.tree.message? home name = some content) ∧ Fits (mailbox.entry name) := by
  rw [candidates, (order.arrange_perm _).mem_iff, List.mem_filter, mem_visibleNames,
    (world.scan.perm _).mem_iff, Tree.mem_names]
  simp only [Tree.message?_eq_some_iff, exists_and_left, and_assoc]
  apply and_congr_right
  intro _
  by_cases hentry : world.tree.child? home name = none
  · simp [hentry, show world.tree.get? (home ++ [Bytes.ofText name]) = none from hentry]
  · obtain ⟨hname, hlen⟩ := hsound.isPlain_of_child? hentry
    rw [and_iff_right (show world.tree.get? (home ++ [Bytes.ofText name]) ≠ none from hentry)]
    by_cases hfits : Fits (mailbox.entry name)
    · rw [(h.designates ⟨hname, hlen, hfits⟩).isFile_iff, and_iff_left hfits]
      rfl
    · have hlong : world.tree.isFile world.cwd (mailbox.entry name) = false := by
        rw [Tree.isFile, Tree.locate, h.fault?_entry hname hfits]
      simp [hlong, hfits]

theorem Opens.exists_of_mem_candidates
    (h : mailbox.Opens world home) (hsound : world.tree.Sound) {name : String}
    (hmem : name ∈ mailbox.candidates world home order) :
    mailbox.Admits name ∧ MessageName.isVisible name = true ∧
      ∃ content, world.tree.child? home name = some (.file content) := by
  obtain ⟨⟨content, hmessage⟩, hfits⟩ := (h.mem_candidates_iff hsound).mp hmem
  obtain ⟨hvisible, hentry⟩ := Tree.message?_eq_some_iff.mp hmessage
  have hsome : world.tree.child? home name ≠ none := by simp [hentry]
  obtain ⟨hname, hshort⟩ := hsound.isPlain_of_child? hsome
  exact ⟨⟨hname, hshort, hfits⟩, hvisible, content, hentry⟩

/-- Oldest first, the answer is determined by the messages. -/
theorem Opens.candidates_oldest_eq
    (h : mailbox.Opens world home) (hsound : world.tree.Sound) {names : List String}
    (hsorted : names.Pairwise fun a b => MessageName.isUpTo a b = true) (hnodup : names.Nodup)
    (hmem : ∀ name, name ∈ names ↔
      (∃ content, world.tree.message? home name = some content) ∧ Fits (mailbox.entry name)) :
    mailbox.candidates world home .oldest = names := by
  apply ReceiveOrder.arrange_oldest_eq hsorted
  refine List.Perm.trans ?_ (ReceiveOrder.arrange_perm .oldest _)
  apply (List.perm_ext_iff_of_nodup hnodup (nodup_candidates mailbox world home .oldest)).mpr
  intro name
  rw [hmem, h.mem_candidates_iff hsound]

/-- A message that waits alone is the whole answer. -/
theorem Opens.candidates_eq_singleton
    (h : mailbox.Opens world home) (hsound : world.tree.Sound) {name : String} {content : Bytes}
    (hmessages : ∀ other, world.tree.message? home other =
      if other = name then some content else none)
    (hfits : Fits (mailbox.entry name)) :
    mailbox.candidates world home order = [name] := by
  refine List.perm_singleton.mp ((List.perm_ext_iff_of_nodup (nodup_candidates ..)
    (List.nodup_singleton name)).mpr fun other => ?_)
  rw [h.mem_candidates_iff hsound, hmessages, List.mem_singleton]
  by_cases heq : other = name
  · simp [heq, hfits]
  · simp [heq]

/-- Two worlds with the same messages have the same answer, oldest first. -/
theorem Opens.candidates_oldest_congr
    {other : World} (h : mailbox.Opens world home) (hsound : world.tree.Sound)
    (hother : mailbox.Opens other home) (hsoundOther : other.tree.Sound)
    (hsame : ∀ name, world.tree.message? home name = other.tree.message? home name) :
    mailbox.candidates world home .oldest = mailbox.candidates other home .oldest := by
  refine h.candidates_oldest_eq hsound (pairwise_candidates_oldest mailbox other home)
    (nodup_candidates mailbox other home .oldest) fun name => ?_
  rw [hother.mem_candidates_iff hsoundOther, hsame]

end Outcomes

end Mailbox

end Postbox
