import Postbox.Proofs.Mirrors

/-!
# Sending to a neighbour

The mailbox of a recipient is the directory of that name beside the sender's own, however the path
of that one is written.  So two senders that have one directory under two paths deliver to the same
neighbour, and if it cannot be done they fail for the same cause.
-/

namespace Postbox

namespace Mailbox

/-- The mailbox of a recipient beside a directory, for a name that can be one. -/
def neighbour (base : Path) (recipient : String) : Mailbox :=
  ⟨(directoryAround base).child (Bytes.ofText recipient)⟩

section Neighbours

variable {base other : Path} {recipient : String} {world a b : World} {home : Location}
  {id : MessageId}

/-- The path of the directory around another one is hardly longer, and of the same bytes. -/
theorem directoryAround_spec
    (hzero : (0 : UInt8) ∉ base.bytes) :
    (0 : UInt8) ∉ (directoryAround base).bytes ∧
      (directoryAround base).bytes.length ≤ base.bytes.length + 3 := by
  have hup : (0 : UInt8) ∉ (base.join ⟨Path.dotdot⟩).bytes ∧
      (base.join ⟨Path.dotdot⟩).bytes.length ≤ base.bytes.length + 3 :=
    ⟨Path.zero_notMem_child hzero Path.isComponent_dotdot (by decide),
      base.length_child_le_of_isComponent Path.isComponent_dotdot⟩
  rw [directoryAround]
  split
  · rename_i parent name hparent hname
    split
    · exact hup
    · rcases Path.extends_of_parent?_eq_some hparent with ⟨last, hextends⟩ | ⟨-, hnone, -⟩
      · have hpre := hextends.isPrefix
        exact ⟨fun hmem => hzero (hpre.subset hmem),
          Nat.le_trans hpre.length_le (Nat.le_add_right _ _)⟩
      · rw [hnone] at hname
        cases hname
  · exact hup

/-- Either the neighbour is there, with room for a staging file, or no staging file can be made.
Which it is, and the fault, can be seen without the path of the sender. -/
theorem neighbour_cases
    (hsound : world.tree.Sound) (hbase : Opens ⟨base⟩ world home) (hroom : base.Roomy)
    (hvalid : isValidRecipient recipient = true) (id : MessageId) :
    (∃ place, world.tree.reach home.dropLast [Bytes.ofText recipient] = .ok place ∧
        (neighbour base recipient).Opens world place ∧
          Fits ((neighbour base recipient).entry id.stagingName)) ∨
      ∃ fault, world.tree.reach home.dropLast [Bytes.ofText recipient] = .error fault ∧
        world.tree.target world.cwd ((neighbour base recipient).entry id.stagingName) =
          .error fault := by
  have hplain := isPlain_of_isValidRecipient hvalid
  have hcomponent := Path.isComponent_of_isPlain hplain
  have hstaging := id.isPlain_stagingName
  have hbaseZero : (0 : UInt8) ∉ base.bytes := hbase.zero_notMem
  obtain ⟨hzero, hlen⟩ := directoryAround_spec hbaseZero
  have hdirZero : (0 : UInt8) ∉ (neighbour base recipient).dir.bytes :=
    Path.zero_notMem_child hzero hcomponent hplain.zero_notMem
  have henter : world.tree.enter world.cwd (neighbour base recipient).dir =
      world.tree.reach home.dropLast [Bytes.ofText recipient] := by
    rw [neighbour, Tree.enter_child_eq hcomponent, hsound.enter_directoryAround hbase.enter_eq]
    rfl
  have hfault := Path.fault?_child hdirZero hstaging
  by_cases hshort : (Bytes.ofText recipient).length ≤ Path.maxName
  · have hdirLen : (neighbour base recipient).dir.bytes.length ≤
        (directoryAround base).bytes.length + 1 + (Bytes.ofText recipient).length :=
      (directoryAround base).length_child_le hplain
    have hentryLen := (neighbour base recipient).dir.length_child_le hstaging
    rw [id.length_ofText_stagingName] at hentryLen
    simp only [Path.Roomy, Path.reserve, Path.maxName, Path.maxLength] at hroom hshort
    have hfits : ¬Path.maxLength < ((neighbour base recipient).dir.child
        (Bytes.ofText id.stagingName)).bytes.length := by
      simp only [Path.maxLength]
      omega
    have hdirFits : ¬Path.maxLength < (neighbour base recipient).dir.bytes.length := by
      simp only [Path.maxLength]
      omega
    have hdirFault : (neighbour base recipient).dir.fault? = none :=
      (Path.fault?_child hzero hplain).trans (if_neg hdirFits)
    rw [if_neg hfits] at hfault
    cases hreach : world.tree.reach home.dropLast [Bytes.ofText recipient] with
    | ok place =>
        exact .inl ⟨place, rfl, opens_of_enter hdirFault (henter.trans hreach), Nat.not_lt.mp hfits⟩
    | error fault =>
        refine .inr ⟨fault, rfl, ?_⟩
        rw [entry, Tree.target_child_eq hstaging hfault, henter, hreach]
        rfl
  · have hreach : world.tree.reach home.dropLast [Bytes.ofText recipient] =
        .error .nameTooLong := by
      have haround := Tree.inDirectory_eq_ok_iff.mpr (hsound.get?_dropLast hbase.get?_eq)
      rw [Tree.reach, hplain.ofSegment_eq, Tree.move.eq_def, haround]
      simp only [bind, Except.bind, if_pos (Nat.lt_of_not_le hshort)]
      rfl
    refine .inr ⟨.nameTooLong, hreach, ?_⟩
    split at hfault
    · rw [entry, Tree.target, hfault]
    · rw [entry, Tree.target_child_eq hstaging hfault, henter, hreach]
      rfl

/-- Two paths, each in its own of two worlds, name one place. -/
def SamePlace (a b : World) (p q : Path) : Prop :=
  ∃ place, a.tree.target a.cwd p = .ok place ∧ b.tree.target b.cwd q = .ok place

/-- Two senders have sent to one place, or failed for one cause, in worlds that are still alike. -/
inductive SentAlike : Except MailError Path × World → Except MailError Path × World → Prop where
  | sent {p q : Path} {a b : World} (halike : a.Alike b) (hplace : SamePlace a b p q) :
      SentAlike (.ok p, a) (.ok q, b)
  | failed {error failure : MailError} {a b : World} (halike : a.Alike b)
      (hsame : error.placeless = failure.placeless) :
      SentAlike (.error error, a) (.error failure, b)

/-- Two deliveries to one directory under two paths come to the same. -/
theorem Opens.deliver_alike
    {mailbox other : Mailbox} {place : Location} (hleft : mailbox.Opens a place)
    (hright : other.Opens b place) (halike : a.Alike b)
    (hfits : Fits (mailbox.entry id.stagingName))
    (hfits' : Fits (other.entry id.stagingName)) (body : String) (sync : Bool) :
    SentAlike (Action.outcome (mailbox.deliver id body sync) a)
      (Action.outcome (other.deliver id body sync) b) := by
  have herror : ∀ {mailbox : Mailbox}, Fits (mailbox.entry id.stagingName) →
      mailbox.deliveryError? a.tree place id =
        if a.tree.child? place id.stagingName ≠ none then
          some (.io (mailbox.entry id.stagingName) .alreadyExists)
        else if a.tree.child? place id.fileName = some .directory then
          some (.io (mailbox.entry id.fileName) .isDirectory)
        else none := by
    intro mailbox hfits
    unfold deliveryError?
    exact if_neg (not_not.mpr hfits)
  rw [hleft.outcome_deliver, hright.outcome_deliver, halike.tree_eq, herror hfits, herror hfits']
  by_cases hfree : a.tree.child? place id.stagingName ≠ none
  · simp only [if_pos hfree]
    exact .failed halike (by simp only [MailError.placeless])
  · simp only [if_neg hfree]
    by_cases hdir : a.tree.child? place id.fileName = some .directory
    · simp only [if_pos hdir]
      exact .failed halike (by simp only [MailError.placeless])
    · simp only [if_neg hdir]
      have hdir' : b.tree.child? place id.fileName ≠ some .directory := halike.tree_eq ▸ hdir
      refine .sent ?_ ⟨place ++ [Bytes.ofText id.fileName], ?_, ?_⟩
      · rw [published, published, halike.tree_eq]
        exact (halike.withTree _).recorded _ _
      · exact ((hleft.withTree_write hdir _).designates (admits_fileName hfits)).target_eq
      · exact ((hright.withTree_write hdir' _).designates (admits_fileName hfits')).target_eq

/-- Two senders beside one directory send alike. -/
theorem Mirrors.deliver
    (h : Mirrors ⟨base⟩ ⟨other⟩ home a b) (hroom : BothRoomy ⟨base⟩ ⟨other⟩)
    (hvalid : isValidRecipient recipient = true) (id : MessageId) (body : String) (sync : Bool) :
    SentAlike (Action.outcome ((neighbour base recipient).deliver id body sync) a)
      (Action.outcome ((neighbour other recipient).deliver id body sync) b) := by
  rcases neighbour_cases h.sound h.left hroom.left hvalid id with
    ⟨place, hreach, hopens, hfits⟩ | ⟨fault, hreach, htarget⟩
  · rcases neighbour_cases (h.alike.tree_eq ▸ h.sound) h.right hroom.right hvalid id with
      ⟨place', hreach', hopens', hfits'⟩ | ⟨fault', hreach', -⟩
    · rw [h.alike.tree_eq, hreach] at hreach'
      obtain rfl := Except.ok.inj hreach'
      exact hopens.deliver_alike hopens' h.alike hfits hfits' body sync
    · rw [h.alike.tree_eq, hreach] at hreach'
      cases hreach'
  · rcases neighbour_cases (h.alike.tree_eq ▸ h.sound) h.right hroom.right hvalid id with
      ⟨place', hreach', -, -⟩ | ⟨fault', hreach', htarget'⟩
    · rw [h.alike.tree_eq, hreach] at hreach'
      cases hreach'
    · rw [h.alike.tree_eq, hreach] at hreach'
      obtain rfl := Except.error.inj hreach'
      rw [outcome_deliver_of_target_eq_error htarget, outcome_deliver_of_target_eq_error htarget']
      exact .failed h.alike (by simp only [MailError.placeless])

theorem Mirrors.issue
    {mailbox other : Mailbox} (h : Mirrors mailbox other home a b) :
    a.issue.1 = b.issue.1 ∧ Mirrors mailbox other home a.issue.2 b.issue.2 := by
  refine ⟨?_, h.advance ?_ rfl rfl (.refl _) h.sound (List.Subset.refl _)⟩
  · obtain ⟨cwd, log, rfl⟩ := h.alike
    rfl
  · obtain ⟨cwd, log, rfl⟩ := h.alike
    exact ⟨cwd, log, rfl⟩

/-- Two endpoints that differ in the path of their directory send alike. -/
theorem Mirrors.send
    (h : Mirrors ⟨base⟩ ⟨other⟩ home a b) (hroom : BothRoomy ⟨base⟩ ⟨other⟩)
    (endpoint : Endpoint) (recipient body : String) :
    SentAlike (Action.outcome ({ endpoint with home := base }.send recipient body) a)
      (Action.outcome ({ endpoint with home := other }.send recipient body) b) := by
  cases hvalid : isValidRecipient recipient with
  | false =>
      have hinvalid : ∀ path,
          ofRecipient path recipient = .error (.invalidRecipient recipient) := by
        intro path
        rw [ofRecipient, hvalid, if_neg Bool.false_ne_true]
      rw [Endpoint.outcome_send_invalid (hinvalid _), Endpoint.outcome_send_invalid (hinvalid _)]
      exact .failed h.alike rfl
  | true =>
      have hmailbox : ∀ path, ofRecipient path recipient = .ok (neighbour path recipient) :=
        fun path => ofRecipient_eq_ok_iff.mpr ⟨hvalid, rfl⟩
      obtain ⟨hid, hissued⟩ := h.issue
      rw [Endpoint.outcome_send (hmailbox _), Endpoint.outcome_send (hmailbox _), hid]
      exact (hissued.recorded _ _).deliver hroom hvalid _ body endpoint.sync

end Neighbours

end Mailbox

end Postbox
