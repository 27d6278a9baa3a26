import Mathlib.Logic.Relation
import Postbox.Mailbox.Receipt
import Postbox.Proofs.Interruptions
import Postbox.Proofs.Mailboxes

/-!
# What recovering claims does

Recovery renames claims, one after the other, to the names they claim.  A claim can be anything that
bears such a name, also a directory, on which the path of the mailbox may depend; but a path that
still leads somewhere leads to the same place.
-/

namespace Postbox

namespace Tree

/-- The tree after a claimed message has been brought back into view. -/
def revived (tree : Tree) (home : Location) (name : String) (content : Bytes) : Tree :=
  (tree.unlink home (MessageName.claim name)).write home name content

section Revived

variable {tree : Tree} {home : Location} {name : String} {content : Bytes}

theorem claimed?_revived
    (hvisible : MessageName.isVisible name = true) (other : String) :
    (tree.revived home name content).claimed? home other =
      if other = name then none else tree.claimed? home other := by
  rw [revived, claimed?_write_of_visible hvisible, claimed?_unlink_claim]

theorem message?_revived
    (hvisible : MessageName.isVisible name = true) (other : String) :
    (tree.revived home name content).message? home other =
      if other = name then some content else tree.message? home other := by
  have hhidden := MessageName.isVisible_claim name
  rw [revived, message?_write hvisible, message?_unlink_of_hidden hhidden]

theorem sameDirectories_revived
    (hclaim : tree.child? home (MessageName.claim name) ≠ some .directory)
    (hfree : tree.child? home name ≠ some .directory) :
    tree.SameDirectories (tree.revived home name content) := by
  refine (sameDirectories_unlink hclaim).trans (sameDirectories_write ?_)
  rw [child?_unlink]
  split
  · simp
  · exact hfree

end Revived

/-- One claim has been brought back into view. -/
def Revival (home : Location) (before after : Tree) : Prop :=
  ∃ name, MessageName.isVisible name = true ∧ Name.IsPlain (Bytes.ofText name) ∧
    before.moveEntry (home ++ [Bytes.ofText (MessageName.claim name)])
      (home ++ [Bytes.ofText name]) = .ok after

section Revivals

variable {before after : Tree} {home : Location}

theorem not_place_prefix_home
    {name : Name} :
    ¬home ++ [name] <+: home := by
  intro hpre
  have hlen := hpre.length_le
  rw [List.length_append, List.length_singleton] at hlen
  omega

theorem not_place_prefix_place
    {a b : String} (hne : a ≠ b) :
    ¬home ++ [Bytes.ofText a] <+: home ++ [Bytes.ofText b] := by
  intro hpre
  exact hne (place_inj.mp (hpre.eq_of_length (by simp)))

/-- A revival leaves all other entries of the mailbox as they were. -/
theorem Revival.child?_eq
    (h : Revival home before after) (hsound : before.Sound) {name : String}
    (hvisible : MessageName.isVisible name = false)
    (hclaim : ∀ other, name ≠ MessageName.claim other) :
    after.child? home name = before.child? home name := by
  obtain ⟨revived, hrevived, -, hmove⟩ := h
  have hne : revived ≠ name := by
    rintro rfl
    rw [hrevived] at hvisible
    cases hvisible
  exact get?_moveEntry_of_not_prefix hsound place_ne_nil place_ne_nil hmove
    (not_place_prefix_place (hclaim revived).symm) (not_place_prefix_place hne)

theorem Revival.get?_home_eq
    (h : Revival home before after) (hsound : before.Sound) :
    after.get? home = before.get? home := by
  obtain ⟨revived, -, -, hmove⟩ := h
  exact get?_moveEntry_of_not_prefix hsound place_ne_nil place_ne_nil hmove
    not_place_prefix_home not_place_prefix_home

theorem Revival.sound
    (h : Revival home before after) (hsound : before.Sound)
    (hhome : before.get? home = some .directory) :
    after.Sound := by
  obtain ⟨revived, -, hplain, hmove⟩ := h
  exact hsound.moveEntry place_ne_nil hhome hplain hmove not_place_prefix_home

theorem exists_of_rename_eq_ok
    {cwd : Location} {source target : Path}
    (h : before.rename cwd source target = .ok after) :
    ∃ sourceAt targetAt, before.target cwd source = .ok sourceAt ∧
      before.target cwd target = .ok targetAt ∧ before.moveEntry sourceAt targetAt = .ok after := by
  rw [rename] at h
  cases hsource : before.target cwd source with
  | error fault => simp [hsource, bind, Except.bind] at h
  | ok sourceAt =>
      cases htarget : before.target cwd target with
      | error fault => simp [hsource, htarget, bind, Except.bind] at h
      | ok targetAt =>
          refine ⟨sourceAt, targetAt, rfl, rfl, ?_⟩
          cases hcheck : checkName sourceAt with
          | error fault => simp [hsource, htarget, hcheck, bind, Except.bind] at h
          | ok _ => simpa [hsource, htarget, hcheck, bind, Except.bind] using h

end Revivals

end Tree

namespace Mailbox

section Recovery

variable {mailbox : Mailbox} {world current reached : World} {home : Location}

theorem Opens.eq_of_target_eq_ok
    (h : mailbox.Opens world home) {name : String} (hname : Name.IsPlain (Bytes.ofText name))
    {tree : Tree} {location : Location}
    (htarget : tree.target world.cwd (mailbox.entry name) = .ok location) :
    location = home ++ [Bytes.ofText name] := by
  obtain ⟨hfault, -⟩ := Tree.exists_of_target_eq_ok htarget
  exact Tree.eq_of_target_eq_ok htarget (Tree.target_child h.enter_eq hname hfault)

/-- Whatever a rename of a claim does, even where the mailbox is not open any more, is a revival. -/
theorem Opens.revival_of_rename
    (h : mailbox.Opens world home) {name : String} (hvisible : MessageName.isVisible name = true)
    (hname : Name.IsPlain (Bytes.ofText (MessageName.claim name))) {before after : Tree}
    (hrename : before.rename world.cwd (mailbox.entry (MessageName.claim name))
      (mailbox.entry name) = .ok after) :
    Tree.Revival home before after := by
  have hplain := MessageName.isPlain_of_isPlain_claim hvisible hname
  obtain ⟨sourceAt, targetAt, hsource, htarget, hmove⟩ := Tree.exists_of_rename_eq_ok hrename
  rw [h.eq_of_target_eq_ok hname hsource, h.eq_of_target_eq_ok hplain htarget] at hmove
  exact ⟨name, hvisible, hplain, hmove⟩

/-- The name is one of a claim, or recovery passes it over. -/
theorem claim_or_passed (name : Name) :
    (∃ visible, MessageName.isVisible visible = true ∧
        name = Bytes.ofText (MessageName.claim visible)) ∨
      (Bytes.text? name).bind MessageName.claimed? = none := by
  cases hclaimed : (Bytes.text? name).bind MessageName.claimed? with
  | none => exact .inr rfl
  | some visible =>
      obtain ⟨claim, htext, hclaim⟩ := Option.bind_eq_some_iff.mp hclaimed
      obtain ⟨hvisible, rfl⟩ := MessageName.claimed?_eq_some_iff.mp hclaim
      exact .inl ⟨visible, hvisible, Bytes.text?_eq_some_iff.mp htext⟩

theorem reviveAll_cons_passed
    {name : Name} (h : (Bytes.text? name).bind MessageName.claimed? = none) (revived : Nat)
    (rest : List Name) :
    mailbox.reviveAll revived (name :: rest) = mailbox.reviveAll revived rest := by
  rw [reviveAll, h]

theorem reviveAll_cons_claim
    {name : String} (hvisible : MessageName.isVisible name = true) (revived : Nat)
    (rest : List Name) :
    mailbox.reviveAll revived (Bytes.ofText (MessageName.claim name) :: rest) = (do
      match ← Action.attempt
          (.rename (mailbox.entry (MessageName.claim name)) (mailbox.entry name)) with
      | .ok () =>
        Action.report (.debugging "revived claimed message"
          [("path", (mailbox.entry name).display)])
        mailbox.reviveAll (revived + 1) rest
      | .error .notFound => mailbox.reviveAll revived rest
      | .error fault => throw (.io (mailbox.entry (MessageName.claim name)) fault)) := by
  have hclaimed : (Bytes.text? (Bytes.ofText (MessageName.claim name))).bind
      MessageName.claimed? = some name := by
    rw [Bytes.text?_ofText, Option.bind_some, MessageName.claimed?_claim hvisible]
  rw [reviveAll, hclaimed]
  rfl

theorem Opens.reaches_reviveAll
    (h : mailbox.Opens world home) {names : List Name}
    (hnames : ∀ name ∈ names, Name.IsPlain name) {revived : Nat} (hcwd : current.cwd = world.cwd)
    (hreach : Action.Reaches (mailbox.reviveAll revived names) current reached) :
    Relation.ReflTransGen (Tree.Revival home) current.tree reached.tree := by
  induction names generalizing current revived with
  | nil =>
      rw [Action.reaches_pure_iff.mp hreach]
  | cons name rest ih =>
      have hrest := fun other hmem => hnames other (List.mem_cons_of_mem _ hmem)
      rcases claim_or_passed name with ⟨visible, hvisible, rfl⟩ | hpassed
      swap
      · rw [reviveAll_cons_passed hpassed] at hreach
        exact ih hrest hcwd hreach
      rw [reviveAll_cons_claim hvisible] at hreach
      simp only [Action.attempt, Action.reaches_bind_iff, Action.reaches_ask_iff,
        Action.outcome_ask, World.answer, Request.Torn, false_or, Except.ok.injEq,
        exists_eq_left'] at hreach
      cases hrename : current.tree.rename current.cwd (mailbox.entry (MessageName.claim visible))
          (mailbox.entry visible) with
      | error fault =>
          simp only [hrename, World.change, or_self] at hreach
          rcases hreach with rfl | hreach
          · rfl
          · split at hreach
            · rename_i hok
              cases hok
            · exact ih hrest hcwd hreach
            · rw [Action.reaches_throw_iff.mp hreach]
      | ok tree =>
          have hstep : Tree.Revival home current.tree tree := by
            refine h.revival_of_rename hvisible (hnames _ List.mem_cons_self) (hcwd ▸ hrename)
          simp only [hrename, World.change, Action.report, Action.reaches_bind_iff,
            Action.reaches_ask_iff, Action.outcome_ask, World.answer_report, Request.Torn,
            false_or] at hreach
          rcases hreach with (rfl | rfl) | (rfl | rfl) | ⟨_, -, hreach⟩
          · rfl
          · exact .single hstep
          · exact .single hstep
          · exact .single hstep
          · refine .head hstep (ih hrest ?_ hreach)
            exact hcwd

/-- Wherever recovery is interrupted, all that has happened is that claims came back into view. -/
theorem Opens.reaches_recoverClaims
    (h : mailbox.Opens world home) (hsound : world.tree.Sound)
    (hreach : Action.Reaches mailbox.recoverClaims world reached) :
    Relation.ReflTransGen (Tree.Revival home) world.tree reached.tree := by
  have hobserves : Action.Observes (Action.onPath mailbox.dir (.list mailbox.dir)) :=
    Action.observes_onPath fun _ => ⟨rfl, fun _ => id⟩
  rw [recoverClaims, Action.reaches_bind_iff, hobserves.reaches_iff, Action.outcome_onPath,
    World.answer, h.list_eq] at hreach
  rcases hreach with rfl | ⟨_, hok, hreach⟩
  · rfl
  cases hok
  refine h.reaches_reviveAll (fun name hmem => ?_) rfl hreach
  rw [(world.scan.perm _).mem_iff, Tree.mem_names] at hmem
  exact hsound.plain hmem (by simp)

/-! ## Recovery that goes through -/

/-- Nothing stands in the way of recovery: claims are files, no directory bears a claimed name, and
the paths of claims are not too long. -/
structure Revivable (mailbox : Mailbox) (tree : Tree) (home : Location) : Prop where
  file : ∀ {name : String}, MessageName.isVisible name = true →
    tree.child? home (MessageName.claim name) ≠ some .directory
  free : ∀ {name : String}, tree.claimed? home name ≠ none →
    tree.child? home name ≠ some .directory
  fits : ∀ {name : String}, tree.claimed? home name ≠ none →
    Fits (mailbox.entry (MessageName.claim name))

theorem Revivable.revived
    {tree : Tree} {name : String} {content : Bytes} (h : Revivable mailbox tree home)
    (hclaimed : tree.claimed? home name = some content) :
    Revivable mailbox (tree.revived home name content) home := by
  obtain ⟨hvisible, hentry⟩ := Tree.claimed?_eq_some_iff.mp hclaimed
  have hsame : tree.SameDirectories (tree.revived home name content) :=
    Tree.sameDirectories_revived (h.file hvisible) (h.free (by simp [hclaimed]))
  have hbefore : ∀ {other : String}, (tree.revived home name content).claimed? home other ≠ none →
      tree.claimed? home other ≠ none := by
    intro other hother
    rw [Tree.claimed?_revived hvisible] at hother
    split at hother
    · exact absurd rfl hother
    · exact hother
  exact {
    file := fun hother hdir => h.file hother ((hsame _).mpr hdir)
    free := fun hother hdir => h.free (hbefore hother) ((hsame _).mpr hdir)
    fits := fun hother => h.fits (hbefore hother) }

theorem Revivable.answer_rename
    (h : Revivable mailbox world.tree home) (hopens : mailbox.Opens world home)
    (hsound : world.tree.Sound) {name : String} {content : Bytes}
    (hclaimed : world.tree.claimed? home name = some content) :
    world.answer (.rename (mailbox.entry (MessageName.claim name)) (mailbox.entry name)) =
        (.ok (), world.withTree (world.tree.revived home name content)) ∧
      (world.tree.revived home name content).Sound := by
  obtain ⟨hvisible, hentry⟩ := Tree.claimed?_eq_some_iff.mp hclaimed
  have hsome : world.tree.child? home (MessageName.claim name) ≠ none := by simp [hentry]
  obtain ⟨hclaimPlain, hclaimShort⟩ := hsound.isPlain_of_child? hsome
  have hplain := MessageName.isPlain_of_isPlain_claim hvisible hclaimPlain
  have hlen := MessageName.length_ofText_claim name
  have hfits : Fits (mailbox.entry (MessageName.claim name)) := h.fits (by simp [hclaimed])
  have hclaimAdmits : mailbox.Admits (MessageName.claim name) := ⟨hclaimPlain, hclaimShort, hfits⟩
  have hadmits : mailbox.Admits name := by
    refine ⟨hplain, by omega, Nat.le_trans (Path.length_child_mono _ hplain hclaimPlain ?_) hfits⟩
    omega
  have hfree : world.tree.child? home name ≠ some .directory := h.free (by simp [hclaimed])
  constructor
  · rw [(hopens.designates hclaimAdmits).answer_rename hentry (hopens.designates hadmits).target_eq,
      if_neg (Nat.not_lt.mpr hadmits.short), if_neg hfree, Tree.revived]
  · have hclaimFile := h.file hvisible
    refine (hsound.unlink hclaimFile).write ?_ hplain hadmits.short ?_
    · exact (Tree.sameDirectories_unlink hclaimFile home).mp hopens.get?_eq
    · rw [Tree.child?_unlink]
      split
      · simp
      · exact hfree

/-- The world after recovery has brought one message back. -/
def unclaimed (mailbox : Mailbox) (world : World) (home : Location) (name : String)
    (content : Bytes) : World :=
  (world.withTree (world.tree.revived home name content)).recorded
    (.debugging "revived claimed message" [("path", (mailbox.entry name).display)])

/-- Recovery brings back the first claim and goes on. -/
theorem Revivable.outcome_reviveAll_cons
    {name : String} {content : Bytes} (h : Revivable mailbox world.tree home)
    (hopens : mailbox.Opens world home) (hsound : world.tree.Sound)
    (hclaimed : world.tree.claimed? home name = some content) (revived : Nat)
    (rest : List Name) :
    Action.outcome (mailbox.reviveAll revived (Bytes.ofText (MessageName.claim name) :: rest))
        world =
      Action.outcome (mailbox.reviveAll (revived + 1) rest)
        (mailbox.unclaimed world home name content) := by
  obtain ⟨hvisible, -⟩ := Tree.claimed?_eq_some_iff.mp hclaimed
  obtain ⟨hanswer, -⟩ := h.answer_rename hopens hsound hclaimed
  rw [reviveAll_cons_claim hvisible, Action.outcome_bind, Action.outcome_attempt, hanswer]
  simp only [Action.outcome_bind, Action.outcome_report]
  rfl

theorem Revivable.opens_unclaimed
    {name : String} {content : Bytes} (h : Revivable mailbox world.tree home)
    (hopens : mailbox.Opens world home)
    (hclaimed : world.tree.claimed? home name = some content) :
    mailbox.Opens (mailbox.unclaimed world home name content) home := by
  obtain ⟨hvisible, -⟩ := Tree.claimed?_eq_some_iff.mp hclaimed
  have hsame : world.tree.SameDirectories (world.tree.revived home name content) :=
    Tree.sameDirectories_revived (h.file hvisible) (h.free (by simp [hclaimed]))
  exact hopens.of_sameDirectories rfl hsame

/-- The induction over the listing.  The claims still to come are those that are still there. -/
theorem Revivable.outcome_reviveAll
    {names : List Name} (h : Revivable mailbox world.tree home)
    (hopens : mailbox.Opens world home) (hsound : world.tree.Sound) (hnodup : names.Nodup)
    (hnames : ∀ name, MessageName.isVisible name = true →
      (Bytes.ofText (MessageName.claim name) ∈ names ↔ world.tree.claimed? home name ≠ none))
    (revived : Nat) :
    ∃ count after, Action.outcome (mailbox.reviveAll revived names) world = (.ok count, after) ∧
      ∀ name, after.tree.claimed? home name = none ∧
        after.tree.message? home name =
          (world.tree.claimed? home name).or (world.tree.message? home name) := by
  induction names generalizing world revived with
  | nil =>
      refine ⟨revived, world, rfl, fun name => ?_⟩
      have hnone : world.tree.claimed? home name = none := by
        by_contra hclaimed
        cases hvisible : MessageName.isVisible name with
        | false => simp [Tree.claimed?, hvisible] at hclaimed
        | true => exact List.not_mem_nil ((hnames name hvisible).mpr hclaimed)
      simp [hnone]
  | cons entry rest ih =>
      obtain ⟨hnotMem, hrestNodup⟩ := List.nodup_cons.mp hnodup
      rcases claim_or_passed entry with ⟨name, hvisible, rfl⟩ | hpassed
      · obtain ⟨content, hclaimed⟩ :=
          Option.ne_none_iff_exists'.mp ((hnames name hvisible).mp List.mem_cons_self)
        have hrest : ∀ other, MessageName.isVisible other = true →
            (Bytes.ofText (MessageName.claim other) ∈ rest ↔
              (mailbox.unclaimed world home name content).tree.claimed? home other ≠ none) := by
          intro other hother
          have hbefore := hnames other hother
          rw [unclaimed, World.tree_recorded, World.tree_withTree, Tree.claimed?_revived hvisible]
          by_cases heq : other = name
          · simp [heq, hnotMem]
          · have hne : Bytes.ofText (MessageName.claim other) ≠
                Bytes.ofText (MessageName.claim name) :=
              fun hbytes => heq (MessageName.claim_injective (Bytes.ofText_injective hbytes))
            rw [List.mem_cons, or_iff_right hne] at hbefore
            rw [if_neg heq, hbefore]
        obtain ⟨count, after, houtcome, hafter⟩ := @ih (mailbox.unclaimed world home name content)
          (h.revived hclaimed) (h.opens_unclaimed hopens hclaimed)
          (h.answer_rename hopens hsound hclaimed).2 hrestNodup hrest (revived + 1)
        refine ⟨count, after, ?_, fun other => ⟨(hafter other).1, ?_⟩⟩
        · rw [h.outcome_reviveAll_cons hopens hsound hclaimed, houtcome]
        · rw [(hafter other).2, unclaimed, World.tree_recorded, World.tree_withTree,
            Tree.claimed?_revived hvisible, Tree.message?_revived hvisible]
          by_cases heq : other = name
          · simp [heq, hclaimed]
          · simp [heq]
      · rw [reviveAll_cons_passed hpassed]
        refine ih h hopens hsound hrestNodup (fun other hother => ?_) revived
        have hne : Bytes.ofText (MessageName.claim other) ≠ entry := by
          rintro rfl
          rw [Bytes.text?_ofText, Option.bind_some, MessageName.claimed?_claim hother] at hpassed
          cases hpassed
        rw [← hnames other hother, List.mem_cons, or_iff_right hne]

/-- Recovery that nothing stands in the way of brings all claims back into view, and a claim takes
the place of a message of its name. -/
theorem Revivable.outcome_recoverClaims
    (h : Revivable mailbox world.tree home) (hopens : mailbox.Opens world home)
    (hsound : world.tree.Sound) :
    ∃ count after, Action.outcome mailbox.recoverClaims world = (.ok count, after) ∧
      ∀ name, after.tree.claimed? home name = none ∧
        after.tree.message? home name =
          (world.tree.claimed? home name).or (world.tree.message? home name) := by
  have hnodup : (world.scan.arrange (world.tree.names home)).Nodup :=
    (world.scan.perm _).nodup_iff.mpr (world.tree.nodup_names home)
  rw [recoverClaims, Action.outcome_bind, Action.outcome_onPath, World.answer, hopens.list_eq]
  refine h.outcome_reviveAll hopens hsound hnodup (fun name hvisible => ?_) 0
  rw [(world.scan.perm _).mem_iff, Tree.mem_names]
  change world.tree.child? home (MessageName.claim name) ≠ none ↔ _
  cases hentry : world.tree.child? home (MessageName.claim name) with
  | none => simp [Tree.claimed?, hvisible, hentry]
  | some entry =>
      cases entry with
      | file content => simp [Tree.claimed?, hvisible, hentry]
      | directory => exact absurd hentry (h.file hvisible)

/-- Recovery fails at a claim whose path is too long, and leaves it and all after it as they are. -/
theorem Opens.outcome_recoverClaims_of_long
    (h : mailbox.Opens world home) {name : String} (hvisible : MessageName.isVisible name = true)
    (hplain : Name.IsPlain (Bytes.ofText (MessageName.claim name)))
    (hlong : ¬Fits (mailbox.entry (MessageName.claim name))) {rest : List Name}
    (hlist : world.scan.arrange (world.tree.names home) =
      Bytes.ofText (MessageName.claim name) :: rest) :
    Action.outcome mailbox.recoverClaims world =
      (.error (.io (mailbox.entry (MessageName.claim name)) .nameTooLong), world) := by
  have htarget : world.tree.target world.cwd (mailbox.entry (MessageName.claim name)) =
      .error .nameTooLong := by
    rw [Tree.target, h.fault?_entry hplain hlong]
  have hrename : world.answer
      (.rename (mailbox.entry (MessageName.claim name)) (mailbox.entry name)) =
        (.error .nameTooLong, world) := by
    rw [World.answer, Tree.rename, htarget]
    rfl
  rw [recoverClaims, Action.outcome_bind, Action.outcome_onPath, World.answer, h.list_eq]
  simp only [Except.map, Except.mapError, hlist]
  rw [reviveAll_cons_claim hvisible, Action.outcome_bind, Action.outcome_attempt, hrename]
  rfl

end Recovery

end Mailbox

end Postbox
