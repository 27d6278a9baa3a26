import Postbox.Proofs.Waiting
import Postbox.Mailbox.Receipt

/-!
# What taking a message does

A receiver looks at one message only, the first that waits: it fails to claim it, or claims it and
puts it back, or claims and removes it.
-/

namespace Postbox.Mailbox

/-- Why a message cannot be claimed. -/
def claimFault? (mailbox : Mailbox) (tree : Tree) (home : Location) (name : String) :
    Option Fault :=
  if ¬Fits (claimPath (mailbox.entry name) name) then some .nameTooLong
  else if Path.maxName < (Bytes.ofText (MessageName.claim name)).length then some .nameTooLong
  else if tree.child? home (MessageName.claim name) = some .directory then some .isDirectory
  else none

/-- What is reported of a received message. -/
def receiptEvent (mailbox : Mailbox) (name body : String) : Event :=
  .debugging "received message"
    [("path", (mailbox.entry name).display), ("bytes", toString body.utf8ByteSize)]

/-- The world while a receiver holds a message. -/
def claimed (world : World) (home : Location) (name : String) (content : Bytes) : World :=
  world.withTree ((world.tree.unlink home name).write home (MessageName.claim name) content)

/-- The world after a message has been put back.  What was under its claim name is lost. -/
def restored (world : World) (home : Location) (name : String) : World :=
  world.withTree (world.tree.unlink home (MessageName.claim name))

/-- The world after a message has been taken. -/
def taken (world : World) (home : Location) (name : String) : World :=
  world.withTree ((world.tree.unlink home name).unlink home (MessageName.claim name))

/-- What comes of taking the first of the waiting messages. -/
def receipt (mailbox : Mailbox) (world : World) (home : Location) (name : String)
    (content : Bytes) : Except MailError String × World :=
  match mailbox.claimFault? world.tree home name with
  | some fault => (.error (.io (mailbox.entry name) fault), world)
  | none =>
    match content.text? with
    | none => (.error (.io (mailbox.entry name) .notText), restored world home name)
    | some body =>
      (.ok body, (taken world home name).recorded (mailbox.receiptEvent name body))

/-! ## The messages while one is received -/

theorem message?_taken (world : World) (home : Location) (target name : String) :
    (taken world home target).tree.message? home name =
      if name = target then none else world.tree.message? home name := by
  rw [taken, World.tree_withTree,
    Tree.message?_unlink_of_hidden (MessageName.isVisible_claim target), Tree.message?_unlink]

theorem message?_restored (world : World) (home : Location) (target name : String) :
    (restored world home target).tree.message? home name = world.tree.message? home name := by
  rw [restored, World.tree_withTree,
    Tree.message?_unlink_of_hidden (MessageName.isVisible_claim target)]

theorem message?_claimed (world : World) (home : Location) (target : String) (content : Bytes)
    (name : String) :
    (claimed world home target content).tree.message? home name =
      if name = target then none else world.tree.message? home name := by
  rw [claimed, World.tree_withTree,
    Tree.message?_write_of_hidden (MessageName.isVisible_claim target), Tree.message?_unlink]

section Claiming

variable {mailbox : Mailbox} {world reached : World} {home : Location} {name : String}
  {content : Bytes}

theorem claimFault?_eq_none_iff
    {tree : Tree} :
    mailbox.claimFault? tree home name = none ↔
      Fits (claimPath (mailbox.entry name) name) ∧
        (Bytes.ofText (MessageName.claim name)).length ≤ Path.maxName ∧
          tree.child? home (MessageName.claim name) ≠ some .directory := by
  unfold claimFault?
  split
  · simp_all
  · split
    · rename_i hlong
      simp [Nat.not_le.mpr hlong]
    · rename_i hfits hshort
      rw [not_not] at hfits
      simp [hfits, Nat.not_lt.mp hshort]

theorem fits_claimPath_of_length
    (hname : Name.IsPlain (Bytes.ofText name))
    (hlen : mailbox.dir.bytes.length + 1 + (Bytes.ofText (MessageName.claim name)).length ≤
      Path.maxLength) :
    Fits (claimPath (mailbox.entry name) name) := by
  have hclaim := MessageName.isPlain_claim hname
  obtain ⟨parent, hpath, -, hpre⟩ :=
    mailbox.dir.withFileName_child (Bytes.ofText (MessageName.claim name)) hname
  have hparent := hpre.length_le
  have hchild := Path.length_child_le parent hclaim
  rw [claimPath, entry, hpath, Fits]
  omega

/-- Only directories stand in the way of a claim. -/
theorem claimFault?_congr
    {a b : Tree} (hsame : a.SameDirectories b) :
    mailbox.claimFault? a home name = mailbox.claimFault? b home name := by
  have hdir : a.child? home (MessageName.claim name) = some .directory ↔
      b.child? home (MessageName.claim name) = some .directory := hsame _
  simp only [claimFault?, hdir]

/-- A message that waits can always be found, so that it is never skipped. -/
theorem eq_or_eq_of_claimFault?
    {tree : Tree} {fault : Fault} (h : mailbox.claimFault? tree home name = some fault) :
    fault = .nameTooLong ∨ fault = .isDirectory := by
  unfold claimFault? at h
  split at h
  · cases h
    exact .inl rfl
  · split at h
    · cases h
      exact .inl rfl
    · split at h
      · cases h
        exact .inr rfl
      · cases h

theorem Opens.designates_claimPath
    (h : mailbox.Opens world home) (hname : mailbox.Admits name)
    (hclaim : mailbox.claimFault? world.tree home name = none) :
    world.tree.Designates world.cwd (claimPath (mailbox.entry name) name)
      (home ++ [Bytes.ofText (MessageName.claim name)]) := by
  obtain ⟨hfits, hshort, -⟩ := claimFault?_eq_none_iff.mp hclaim
  have htarget := h.target_claimPath hname.plain
  rw [if_pos hfits] at htarget
  exact ⟨htarget, Tree.checkName_concat.mpr hshort⟩

/-- Claiming a message renames its file. -/
theorem Opens.answer_rename_claim
    (h : mailbox.Opens world home) (hname : mailbox.Admits name)
    (hfile : world.tree.child? home name = some (.file content)) :
    world.answer (.rename (mailbox.entry name) (claimPath (mailbox.entry name) name)) =
      match mailbox.claimFault? world.tree home name with
      | some fault => (.error fault, world)
      | none => (.ok (), claimed world home name content) := by
  have htarget := h.target_claimPath hname.plain
  rw [claimFault?]
  by_cases hfits : Fits (claimPath (mailbox.entry name) name)
  · rw [if_pos hfits] at htarget
    rw [if_neg (not_not.mpr hfits), (h.designates hname).answer_rename hfile htarget]
    split
    · rfl
    · split <;> rfl
  · rw [if_neg hfits] at htarget
    rw [if_pos hfits, World.answer, Tree.rename, (h.designates hname).target_eq, htarget]
    rfl

/-- A message that can be claimed, in a mailbox. -/
structure Claimable (mailbox : Mailbox) (world : World) (home : Location) (name : String)
    (content : Bytes) : Prop where
  opens : mailbox.Opens world home
  admits : mailbox.Admits name
  visible : MessageName.isVisible name = true
  file : world.tree.child? home name = some (.file content)
  fault : mailbox.claimFault? world.tree home name = none

theorem Claimable.child?_claim
    (_ : mailbox.Claimable world home name content) :
    (claimed world home name content).tree.child? home (MessageName.claim name) =
      some (.file content) := by
  simp [claimed]

theorem Claimable.sameDirectories
    (h : mailbox.Claimable world home name content) :
    world.tree.SameDirectories (claimed world home name content).tree := by
  refine (Tree.sameDirectories_unlink (by simp [h.file])).trans (Tree.sameDirectories_write ?_)
  rw [Tree.child?_unlink]
  split
  · simp
  · exact (claimFault?_eq_none_iff.mp h.fault).2.2

theorem Claimable.sound_claimed
    (h : mailbox.Claimable world home name content) (hsound : world.tree.Sound) :
    (claimed world home name content).tree.Sound := by
  obtain ⟨-, hshort, hold⟩ := claimFault?_eq_none_iff.mp h.fault
  have hname : world.tree.child? home name ≠ some .directory := by simp [h.file]
  refine (hsound.unlink hname).write ?_ (MessageName.isPlain_claim h.admits.plain) hshort ?_
  · exact (Tree.sameDirectories_unlink hname home).mp h.opens.get?_eq
  · rw [Tree.child?_unlink]
    split
    · simp
    · exact hold

theorem Claimable.sound_restored
    (h : mailbox.Claimable world home name content) (hsound : world.tree.Sound) :
    (restored world home name).tree.Sound :=
  hsound.unlink (claimFault?_eq_none_iff.mp h.fault).2.2

theorem Claimable.sound_taken
    (h : mailbox.Claimable world home name content) (hsound : world.tree.Sound) :
    (taken world home name).tree.Sound := by
  apply (hsound.unlink (by simp [h.file])).unlink
  rw [Tree.child?_unlink]
  split
  · simp
  · exact (claimFault?_eq_none_iff.mp h.fault).2.2

theorem Claimable.sameDirectories_taken
    (h : mailbox.Claimable world home name content) :
    world.tree.SameDirectories (taken world home name).tree := by
  refine (Tree.sameDirectories_unlink (by simp [h.file])).trans (Tree.sameDirectories_unlink ?_)
  rw [Tree.child?_unlink]
  split
  · simp
  · exact (claimFault?_eq_none_iff.mp h.fault).2.2

theorem Claimable.opens_claimed
    (h : mailbox.Claimable world home name content) :
    mailbox.Opens (claimed world home name content) home :=
  h.opens.withTree h.sameDirectories

theorem Claimable.designates
    (h : mailbox.Claimable world home name content) :
    (claimed world home name content).tree.Designates world.cwd
      (claimPath (mailbox.entry name) name)
      (home ++ [Bytes.ofText (MessageName.claim name)]) := by
  obtain ⟨hfits, hshort, -⟩ := claimFault?_eq_none_iff.mp h.fault
  refine h.opens_claimed.designates_claimPath h.admits (claimFault?_eq_none_iff.mpr ?_)
  exact ⟨hfits, hshort, by simp [h.child?_claim]⟩

theorem Claimable.answer_restore
    (h : mailbox.Claimable world home name content) :
    (claimed world home name content).answer
        (.rename (claimPath (mailbox.entry name) name) (mailbox.entry name)) =
      (.ok (), restored world home name) := by
  have hne := MessageName.ne_claim h.visible name
  have htarget := (h.opens_claimed.designates h.admits).target_eq
  have hfree : (claimed world home name content).tree.child? home name = none := by
    simp [claimed, if_neg hne]
  have hback : (world.tree.unlink home (MessageName.claim name)).child? home name =
      some (.file content) := by
    rw [Tree.child?_unlink, if_neg hne, h.file]
  rw [h.designates.answer_rename h.child?_claim htarget,
    if_neg (Nat.not_lt.mpr h.admits.short), if_neg (by simp [hfree])]
  simp only [claimed, restored, World.tree_withTree, World.withTree_withTree, Tree.unlink_write]
  rw [Tree.unlink_comm, Tree.write_unlink, Tree.write_eq_self hback]

theorem Claimable.answer_remove
    (h : mailbox.Claimable world home name content) :
    (claimed world home name content).answer (.remove (claimPath (mailbox.entry name) name)) =
      (.ok (), taken world home name) := by
  rw [h.designates.answer_remove h.child?_claim]
  simp only [claimed, taken, World.tree_withTree, World.withTree_withTree, Tree.unlink_write]

theorem Claimable.outcome_readText
    (h : mailbox.Claimable world home name content) :
    Action.outcome (readText (claimPath (mailbox.entry name) name))
        (claimed world home name content) =
      (.ok (match content.text? with
        | some text => .ok text
        | none => .error .notText), claimed world home name content) := by
  rw [readText, Action.outcome_bind, Action.outcome_attempt,
    h.designates.answer_read h.child?_claim]
  simp only
  cases content.text? <;> rfl

theorem observes_readText (path : Path) :
    Action.Observes (readText path) := by
  apply (Action.observes_ask fun _ => ⟨rfl, fun _ => id⟩).bind
  intro answer
  cases answer with
  | error fault => exact Action.observes_pure _
  | ok content =>
      cases htext : content.text? <;> simp only [htext] <;> exact Action.observes_pure _

/-- A claimed message is removed if it can be read, and put back if not. -/
theorem Claimable.outcome_consume
    (h : mailbox.Claimable world home name content) :
    Action.outcome (consume (claimPath (mailbox.entry name) name) (mailbox.entry name))
        (claimed world home name content) =
      mailbox.receipt world home name content := by
  rw [consume, Action.outcome_bind, h.outcome_readText, receipt, h.fault]
  cases content.text? with
  | none =>
      simp only
      rw [Action.outcome_bind, restore, Action.outcome_bind, Action.outcome_attempt,
        h.answer_restore]
      rfl
  | some body =>
      simp only
      rw [Action.outcome_bind, Action.outcome_onPath, h.answer_remove]
      rfl

/-- A complete receipt leaves nothing under the claim name. -/
theorem Claimable.child?_receipt
    (h : mailbox.Claimable world home name content) :
    (mailbox.receipt world home name content).2.tree.child? home (MessageName.claim name) =
      none := by
  rw [receipt, h.fault]
  cases content.text? with
  | none => simp [restored]
  | some body => simp [taken]

/-- An interrupted receiver is found with the message under its claim, or with the message removed
or put back. -/
theorem Claimable.reaches_consume
    (h : mailbox.Claimable world home name content)
    (hreach : Action.Reaches (consume (claimPath (mailbox.entry name) name) (mailbox.entry name))
      (claimed world home name content) reached) :
    reached = claimed world home name content ∨
      content.text? = none ∧ reached = restored world home name ∨
      (∃ body, content.text? = some body) ∧ reached.tree = (taken world home name).tree := by
  rw [consume, Action.reaches_bind_iff, (observes_readText _).reaches_iff,
    h.outcome_readText] at hreach
  rcases hreach with rfl | ⟨_, hok, hreach⟩
  · exact .inl rfl
  cases hok
  cases htext : content.text? with
  | none =>
      simp only [htext, restore, Action.attempt, Action.reaches_bind_iff, Action.reaches_ask_iff,
        Action.outcome_bind, Action.outcome_ask, h.answer_restore, Request.Torn,
        Action.reaches_throw_iff, Action.outcome_pure, false_or, Except.ok.injEq,
        exists_eq_left', Action.reaches_pure_iff] at hreach
      rcases hreach with ((rfl | rfl) | rfl) | ⟨_, -, rfl⟩
      · exact .inl rfl
      all_goals exact .inr (.inl ⟨rfl, rfl⟩)
  | some body =>
      simp only [htext, Action.reaches_bind_iff, Action.reaches_onPath_iff,
        Action.outcome_onPath, h.answer_remove, Request.Torn, false_or, Except.mapError,
        Action.report, Action.reaches_ask_iff,
        Action.reaches_pure_iff, Action.outcome_ask, World.answer_report] at hreach
      rcases hreach with (rfl | rfl) | ⟨_, -, (rfl | rfl) | ⟨_, -, rfl⟩⟩
      · exact .inl rfl
      all_goals exact .inr (.inr ⟨⟨body, rfl⟩, rfl⟩)

end Claiming

/-! ## Taking the next message -/

section Taking

variable {mailbox : Mailbox} {world reached : World} {home : Location} {order : ReceiveOrder}
  {name : String} {rest : List String} {content : Bytes}

theorem Opens.outcome_takeFirst
    (h : mailbox.Opens world home) (hname : mailbox.Admits name)
    (hvisible : MessageName.isVisible name = true)
    (hfile : world.tree.child? home name = some (.file content)) (rest : List String) :
    Action.outcome (mailbox.takeFirst (name :: rest)) world =
      mailbox.receipt world home name content := by
  rw [takeFirst, Action.outcome_bind, Action.outcome_attempt, h.answer_rename_claim hname hfile]
  cases hfault : mailbox.claimFault? world.tree home name with
  | none =>
      have hclaimable : mailbox.Claimable world home name content :=
        ⟨h, hname, hvisible, hfile, hfault⟩
      exact hclaimable.outcome_consume
  | some fault =>
      rw [receipt, hfault]
      rcases eq_or_eq_of_claimFault? hfault with rfl | rfl <;> rfl

theorem Opens.reaches_takeFirst
    (h : mailbox.Opens world home) (hname : mailbox.Admits name)
    (hvisible : MessageName.isVisible name = true)
    (hfile : world.tree.child? home name = some (.file content))
    (hreach : Action.Reaches (mailbox.takeFirst (name :: rest)) world reached) :
    reached = world ∨ mailbox.Claimable world home name content ∧
      (reached = claimed world home name content ∨
        content.text? = none ∧ reached = restored world home name ∨
        (∃ body, content.text? = some body) ∧ reached.tree = (taken world home name).tree) := by
  rw [takeFirst, Action.reaches_bind_iff, Action.attempt, Action.reaches_ask_iff,
    Action.outcome_ask, h.answer_rename_claim hname hfile] at hreach
  cases hfault : mailbox.claimFault? world.tree home name with
  | none =>
      have hclaimable : mailbox.Claimable world home name content :=
        ⟨h, hname, hvisible, hfile, hfault⟩
      simp only [hfault, Request.Torn, false_or] at hreach
      rcases hreach with (rfl | rfl) | ⟨_, hok, hreach⟩
      · exact .inl rfl
      · exact .inr ⟨hclaimable, .inl rfl⟩
      · cases hok
        exact .inr ⟨hclaimable, hclaimable.reaches_consume hreach⟩
  | some fault =>
      simp only [hfault, Request.Torn, false_or, or_self] at hreach
      rcases hreach with rfl | ⟨_, hok, hreach⟩
      · exact .inl rfl
      · cases hok
        rcases eq_or_eq_of_claimFault? hfault with rfl | rfl <;>
          exact .inl (Action.reaches_throw_iff.mp hreach)

/-- Taking the next message finds nothing, or is about the first one that waits. -/
theorem Opens.outcome_takeNext_nil
    (h : mailbox.Opens world home) (hnil : mailbox.candidates world home order = []) :
    Action.outcome (mailbox.takeNext order) world = (.error (.noMessage mailbox.dir), world) := by
  rw [takeNext, Action.outcome_bind, h.outcome_waiting, hnil]
  rfl

theorem Opens.outcome_takeNext_cons
    (h : mailbox.Opens world home) (hsound : world.tree.Sound)
    (hcons : mailbox.candidates world home order = name :: rest)
    (hfile : world.tree.child? home name = some (.file content)) :
    Action.outcome (mailbox.takeNext order) world = mailbox.receipt world home name content := by
  obtain ⟨hname, hvisible, -⟩ := h.exists_of_mem_candidates hsound
    (hcons ▸ List.mem_cons_self : name ∈ mailbox.candidates world home order)
  rw [takeNext, Action.outcome_bind, h.outcome_waiting, hcons]
  exact h.outcome_takeFirst hname hvisible hfile rest

theorem Opens.reaches_takeNext
    (h : mailbox.Opens world home) (hsound : world.tree.Sound)
    (hreach : Action.Reaches (mailbox.takeNext order) world reached) :
    reached = world ∨ ∃ name content, (mailbox.candidates world home order).head? = some name ∧
      mailbox.Claimable world home name content ∧
      (reached = claimed world home name content ∨
        content.text? = none ∧ reached = restored world home name ∨
        (∃ body, content.text? = some body) ∧ reached.tree = (taken world home name).tree) := by
  rw [takeNext, Action.reaches_bind_iff, (observes_waiting mailbox order).reaches_iff,
    h.outcome_waiting] at hreach
  rcases hreach with rfl | ⟨_, hok, hreach⟩
  · exact .inl rfl
  cases hok
  cases hcons : mailbox.candidates world home order with
  | nil =>
      rw [hcons] at hreach
      exact .inl (Action.reaches_throw_iff.mp hreach)
  | cons name rest =>
      rw [hcons] at hreach
      obtain ⟨hname, hvisible, content, hfile⟩ := h.exists_of_mem_candidates hsound
        (hcons ▸ List.mem_cons_self : name ∈ mailbox.candidates world home order)
      rcases h.reaches_takeFirst hname hvisible hfile hreach with rfl | ⟨hclaimable, hcases⟩
      · exact .inl rfl
      · exact .inr ⟨name, content, rfl, hclaimable, hcases⟩

/-- A receiver, interrupted or not, leaves the directories alone and the tree in order. -/
theorem Opens.takeNext_preserves
    (h : mailbox.Opens world home) (hsound : world.tree.Sound)
    (hreach : Action.Reaches (mailbox.takeNext order) world reached) :
    world.tree.SameDirectories reached.tree ∧ reached.tree.Sound := by
  rcases h.reaches_takeNext hsound hreach with
    rfl | ⟨name, content, -, hclaimable, rfl | ⟨-, rfl⟩ | ⟨-, htree⟩⟩
  · exact ⟨.refl _, hsound⟩
  · exact ⟨hclaimable.sameDirectories, hclaimable.sound_claimed hsound⟩
  · have hfree := (claimFault?_eq_none_iff.mp hclaimable.fault).2.2
    exact ⟨Tree.sameDirectories_unlink hfree, hclaimable.sound_restored hsound⟩
  · rw [htree]
    exact ⟨hclaimable.sameDirectories_taken, hclaimable.sound_taken hsound⟩

/-- What taking the next message can come to. -/
inductive TakeResult (mailbox : Mailbox) (world : World) (home : Location)
    (order : ReceiveOrder) : Except MailError String × World → Prop where
  | nothing (hnil : mailbox.candidates world home order = []) :
      TakeResult mailbox world home order (.error (.noMessage mailbox.dir), world)
  | refused {name : String} {rest : List String} {fault : Fault}
      (hcons : mailbox.candidates world home order = name :: rest)
      (hfault : mailbox.claimFault? world.tree home name = some fault) :
      TakeResult mailbox world home order (.error (.io (mailbox.entry name) fault), world)
  | restored {name : String} {rest : List String} {content : Bytes}
      (hcons : mailbox.candidates world home order = name :: rest)
      (hclaimable : mailbox.Claimable world home name content) (htext : content.text? = none) :
      TakeResult mailbox world home order
        (.error (.io (mailbox.entry name) .notText), restored world home name)
  | taken {name : String} {rest : List String} {body : String}
      (hcons : mailbox.candidates world home order = name :: rest)
      (hclaimable : mailbox.Claimable world home name (Bytes.ofText body)) :
      TakeResult mailbox world home order
        (.ok body, (taken world home name).recorded (mailbox.receiptEvent name body))

theorem Opens.takeResult
    (h : mailbox.Opens world home) (hsound : world.tree.Sound) (order : ReceiveOrder) :
    TakeResult mailbox world home order (Action.outcome (mailbox.takeNext order) world) := by
  cases hlist : mailbox.candidates world home order with
  | nil =>
      rw [h.outcome_takeNext_nil hlist]
      exact .nothing hlist
  | cons name rest =>
      obtain ⟨hname, hvisible, content, hfile⟩ := h.exists_of_mem_candidates hsound
        (hlist ▸ List.mem_cons_self : name ∈ mailbox.candidates world home order)
      rw [h.outcome_takeNext_cons hsound hlist hfile, receipt]
      cases hfault : mailbox.claimFault? world.tree home name with
      | some fault => exact .refused hlist hfault
      | none =>
          have hclaimable : mailbox.Claimable world home name content :=
            ⟨h, hname, hvisible, hfile, hfault⟩
          cases htext : content.text? with
          | none => exact .restored hlist hclaimable htext
          | some body =>
              obtain rfl := Bytes.text?_eq_some_iff.mp htext
              exact .taken hlist hclaimable

/-- A body that is received is the whole content of the first waiting message, which is gone
afterwards. -/
theorem Opens.exists_of_takeNext_eq_ok
    (h : mailbox.Opens world home) (hsound : world.tree.Sound) {body : String} {after : World}
    (hok : Action.outcome (mailbox.takeNext order) world = (.ok body, after)) :
    ∃ name rest, mailbox.candidates world home order = name :: rest ∧
      mailbox.Claimable world home name (Bytes.ofText body) ∧
      after = (taken world home name).recorded (mailbox.receiptEvent name body) := by
  have hresult := h.takeResult hsound order
  rw [hok] at hresult
  cases hresult with
  | taken hcons hclaimable => exact ⟨_, _, hcons, hclaimable, rfl⟩

/-- A receipt that fails has changed nothing, or has put the message back. -/
theorem Opens.eq_or_restored_of_takeNext_eq_error
    (h : mailbox.Opens world home) (hsound : world.tree.Sound) {error : MailError} {after : World}
    (herror : Action.outcome (mailbox.takeNext order) world = (.error error, after)) :
    after = world ∨ ∃ name content, mailbox.Claimable world home name content ∧
      after = restored world home name := by
  have hresult := h.takeResult hsound order
  rw [herror] at hresult
  cases hresult with
  | nothing hnil => exact .inl rfl
  | refused hcons hfault => exact .inl rfl
  | restored hcons hclaimable htext => exact .inr ⟨_, _, hclaimable, rfl⟩

/-- A receiver can be found holding the first waiting message. -/
theorem Claimable.reaches_claimed
    (h : mailbox.Claimable world home name content)
    (hcons : mailbox.candidates world home order = name :: rest) :
    Action.Reaches (mailbox.takeNext order) world (claimed world home name content) := by
  have hrename := h.opens.answer_rename_claim h.admits h.file
  rw [h.fault] at hrename
  rw [takeNext, Action.reaches_bind_iff, h.opens.outcome_waiting, hcons]
  refine .inr ⟨_, rfl, ?_⟩
  rw [takeFirst, Action.reaches_bind_iff, Action.attempt, Action.reaches_ask_iff, hrename]
  exact .inl (.inr (.inr rfl))

/-- What is taken next, oldest first, is determined by the messages and by what stands in the way of
claiming them. -/
theorem Opens.outcome_takeNext_congr
    {other : World} (h : mailbox.Opens world home) (hsound : world.tree.Sound)
    (hother : mailbox.Opens other home) (hsoundOther : other.tree.Sound)
    (hsame : ∀ name, world.tree.message? home name = other.tree.message? home name)
    (hclaims : ∀ name, mailbox.claimFault? world.tree home name =
      mailbox.claimFault? other.tree home name) :
    (Action.outcome (mailbox.takeNext .oldest) world).1 =
      (Action.outcome (mailbox.takeNext .oldest) other).1 := by
  have hcandidates := h.candidates_oldest_congr hsound hother hsoundOther hsame
  cases hlist : mailbox.candidates other home .oldest with
  | nil => rw [h.outcome_takeNext_nil (hcandidates.trans hlist), hother.outcome_takeNext_nil hlist]
  | cons name rest =>
      obtain ⟨-, hvisible, content, hfile⟩ := hother.exists_of_mem_candidates hsoundOther
        (hlist ▸ List.mem_cons_self : name ∈ mailbox.candidates other home .oldest)
      have hmessage := Tree.message?_eq_some_iff.mpr ⟨hvisible, hfile⟩
      rw [← hsame] at hmessage
      rw [h.outcome_takeNext_cons hsound (hcandidates.trans hlist)
          (Tree.message?_eq_some_iff.mp hmessage).2,
        hother.outcome_takeNext_cons hsoundOther hlist hfile, receipt, receipt, hclaims]
      split
      · rfl
      · split <;> rfl

end Taking

end Postbox.Mailbox
