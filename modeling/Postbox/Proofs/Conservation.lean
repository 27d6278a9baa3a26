import Mathlib.Logic.Relation
import Postbox.Proofs.Accounts
import Postbox.Proofs.Deliveries
import Postbox.Proofs.LongPaths

/-!
# Every message is received once

A mailbox is used by any number of programs, one step at a time.  Messages are delivered, or appear
in the directory by other means; receivers take them, fail to, or die while they hold one; claims
are recovered.  Whatever the order, no message is lost and none is returned twice.
-/

namespace Postbox

/-- What has become of a mailbox: the files, and the messages added and returned so far. -/
structure History where
  tree : Tree
  added : List (String × Bytes)
  returned : List (String × Bytes)

/-- One step in the use of the mailbox in the directory `home`. -/
inductive Step (home : Location) : History → History → Prop where
  | deliver {mailbox : Mailbox} {world after : World} {added returned : List (String × Bytes)}
      {id : MessageId} {body : String} {sync : Bool} {path : Path}
      (hopens : mailbox.Opens world home) (hfresh : id.fileName ∉ added.map Prod.fst)
      (houtcome : Action.outcome (mailbox.deliver id body sync) world = (.ok path, after)) :
      Step home ⟨world.tree, added, returned⟩
        ⟨after.tree, added ++ [(id.fileName, Bytes.ofText body)], returned⟩
  | deliverFails {mailbox : Mailbox} {world after : World} {added returned : List (String × Bytes)}
      {id : MessageId} {body : String} {sync : Bool} {error : MailError}
      (hopens : mailbox.Opens world home)
      (houtcome : Action.outcome (mailbox.deliver id body sync) world = (.error error, after)) :
      Step home ⟨world.tree, added, returned⟩ ⟨after.tree, added, returned⟩
  /-- A complete file comes from elsewhere. -/
  | appear {tree : Tree} {added returned : List (String × Bytes)} {name : String} {content : Bytes}
      (hvisible : MessageName.isVisible name = true) (hplain : Name.IsPlain (Bytes.ofText name))
      (hshort : (Bytes.ofText name).length ≤ Path.maxName)
      (hfree : tree.child? home name ≠ some .directory) (hfresh : name ∉ added.map Prod.fst) :
      Step home ⟨tree, added, returned⟩
        ⟨tree.write home name content, added ++ [(name, content)], returned⟩
  /-- What a receiver returns is the body of the message that is gone. -/
  | take {mailbox : Mailbox} {world after : World} {added returned : List (String × Bytes)}
      {order : ReceiveOrder} {body name : String} (hopens : mailbox.Opens world home)
      (houtcome : Action.outcome (mailbox.takeNext order) world = (.ok body, after))
      (hvisible : world.tree.message? home name ≠ none)
      (hgone : after.tree.message? home name = none) :
      Step home ⟨world.tree, added, returned⟩
        ⟨after.tree, added, returned ++ [(name, Bytes.ofText body)]⟩
  | takeFails {mailbox : Mailbox} {world after : World} {added returned : List (String × Bytes)}
      {order : ReceiveOrder} {error : MailError} (hopens : mailbox.Opens world home)
      (houtcome : Action.outcome (mailbox.takeNext order) world = (.error error, after)) :
      Step home ⟨world.tree, added, returned⟩ ⟨after.tree, added, returned⟩
  /-- A receiver dies before it has removed its message or put it back. -/
  | crash {mailbox : Mailbox} {world reached : World} {added returned : List (String × Bytes)}
      {order : ReceiveOrder} (hopens : mailbox.Opens world home)
      (hreach : Action.Reaches (mailbox.takeNext order) world reached)
      (hbefore : reached.tree ≠ (Action.outcome (mailbox.takeNext order) world).2.tree) :
      Step home ⟨world.tree, added, returned⟩ ⟨reached.tree, added, returned⟩
  | look {mailbox : Mailbox} {world reached : World} {added returned : List (String × Bytes)}
      {order : ReceiveOrder} (hopens : mailbox.Opens world home)
      (hreach : Action.Reaches (mailbox.pending order) world reached) :
      Step home ⟨world.tree, added, returned⟩ ⟨reached.tree, added, returned⟩
  | recover {mailbox : Mailbox} {world reached : World} {added returned : List (String × Bytes)}
      (hopens : mailbox.Opens world home)
      (hreach : Action.Reaches mailbox.recoverClaims world reached) :
      Step home ⟨world.tree, added, returned⟩ ⟨reached.tree, added, returned⟩

/-- A directory without messages and claims. -/
structure Start (home : Location) (tree : Tree) : Prop where
  sound : tree.Sound
  home_eq : tree.get? home = some .directory
  message?_eq : ∀ name, tree.message? home name = none
  claim_eq : ∀ name, MessageName.isVisible name = true →
    tree.child? home (MessageName.claim name) = none

/-- All messages are accounted for, and no directory takes the place of a message or a claim. -/
structure Conserved (home : Location) (history : History) : Prop where
  sound : history.tree.Sound
  home_eq : history.tree.get? home = some .directory
  claim_ne : ∀ {name}, MessageName.isVisible name = true →
    history.tree.child? home (MessageName.claim name) ≠ some .directory
  place_ne : ∀ {name}, name ∈ history.added.map Prod.fst →
    history.tree.child? home name ≠ some .directory
  accounted : Accounted (history.tree.message? home) (history.tree.claimed? home)
    history.added history.returned

section Steps

variable {home : Location} {tree tree' : Tree} {before after history : History}
  {added added' returned returned' : List (String × Bytes)}

theorem Start.conserved
    (h : Start home tree) :
    Conserved home ⟨tree, [], []⟩ where
  sound := h.sound
  home_eq := h.home_eq
  claim_ne := fun hvisible => by simp [h.claim_eq _ hvisible]
  place_ne := fun hmem => absurd hmem List.not_mem_nil
  accounted := by
    have hclaims : tree.claimed? home = fun _ => none := by
      funext name
      apply Option.eq_none_iff_forall_ne_some.mpr
      intro content hclaimed
      obtain ⟨hvisible, hentry⟩ := Tree.claimed?_eq_some_iff.mp hclaimed
      rw [h.claim_eq name hvisible] at hentry
      cases hentry
    rw [show tree.message? home = fun _ => none from funext h.message?_eq, hclaims]
    exact accounted_nothing

/-- As long as the directories stay as they are, only the accounts matter. -/
theorem Conserved.advance
    (h : Conserved home ⟨tree, added, returned⟩) (hsame : tree.SameDirectories tree')
    (hsound : tree'.Sound)
    (hplaces : ∀ name ∈ added'.map Prod.fst,
      name ∈ added.map Prod.fst ∨ tree.child? home name ≠ some .directory)
    (haccounted : Accounted (tree'.message? home) (tree'.claimed? home) added' returned') :
    Conserved home ⟨tree', added', returned'⟩ where
  sound := hsound
  home_eq := (hsame home).mp h.home_eq
  claim_ne := fun hvisible hdir => h.claim_ne hvisible ((hsame _).mpr hdir)
  place_ne := fun hmem hdir => by
    rcases hplaces _ hmem with hold | hfree
    · exact h.place_ne hold ((hsame _).mpr hdir)
    · exact hfree ((hsame _).mpr hdir)
  accounted := haccounted

theorem Conserved.add
    (h : Conserved home ⟨tree, added, returned⟩) {name : String} {content : Bytes}
    (hvisible : MessageName.isVisible name = true) (hplain : Name.IsPlain (Bytes.ofText name))
    (hshort : (Bytes.ofText name).length ≤ Path.maxName)
    (hfree : tree.child? home name ≠ some .directory) (hfresh : name ∉ added.map Prod.fst) :
    Conserved home ⟨tree.write home name content, added ++ [(name, content)], returned⟩ := by
  refine h.advance (Tree.sameDirectories_write hfree)
    (h.sound.write h.home_eq hplain hshort hfree) (fun other hmem => ?_) ?_
  · simp only [List.map_append, List.map_singleton, List.mem_append, List.mem_singleton] at hmem
    rcases hmem with hold | rfl
    · exact .inl hold
    · exact .inr hfree
  · rw [Tree.message?_write_eq_update hvisible, Tree.claimed?_write_eq hvisible]
    exact h.accounted.add hfresh

theorem Conserved.revival
    (h : Conserved home ⟨tree, added, returned⟩) (hrevival : Tree.Revival home tree tree') :
    Conserved home ⟨tree', added, returned⟩ := by
  obtain ⟨name, hvisible, hplain, hmove⟩ := hrevival
  obtain ⟨hshort, ⟨content, hfile, hfree, rfl⟩ | ⟨hdir, -⟩⟩ := Tree.moveEntry_cases hmove
  swap
  · exact absurd hdir (h.claim_ne hvisible)
  have hclaimed : tree.claimed? home name = some content :=
    Tree.claimed?_eq_some_iff.mpr ⟨hvisible, hfile⟩
  have hclaim := h.claim_ne hvisible
  refine h.advance (Tree.sameDirectories_revived hclaim hfree) ?_ (fun _ => .inl) ?_
  · refine (h.sound.unlink hclaim).write ((Tree.sameDirectories_unlink hclaim home).mp h.home_eq)
      hplain (Tree.checkName_concat.mp hshort) ?_
    rw [Tree.child?_unlink]
    split
    · simp
    · exact hfree
  · have haccounted := h.accounted.revive hclaimed
    rwa [← Tree.message?_revived_eq_update hvisible, ← Tree.claimed?_revived_eq_update hvisible]
      at haccounted

theorem Conserved.of_revivals
    (h : Conserved home ⟨tree, added, returned⟩)
    (hrevivals : Relation.ReflTransGen (Tree.Revival home) tree tree') :
    Conserved home ⟨tree', added, returned⟩ := by
  induction hrevivals with
  | refl => exact h
  | tail _ hstep ih => exact ih.revival hstep

variable {mailbox : Mailbox} {world reached : World} {order : ReceiveOrder} {name : String}
  {content : Bytes}

theorem Conserved.claims_eq_none
    (h : Conserved home ⟨world.tree, added, returned⟩)
    (hclaimable : mailbox.Claimable world home name content) :
    world.tree.message? home name = some content ∧ world.tree.claimed? home name = none := by
  have hmessage := Tree.message?_eq_some_iff.mpr ⟨hclaimable.visible, hclaimable.file⟩
  exact ⟨hmessage, h.accounted.claims_eq_none hmessage⟩

/-- A receiver that fails leaves messages and claims as they were. -/
theorem Conserved.takeNext_error
    (h : Conserved home ⟨world.tree, added, returned⟩) (hopens : mailbox.Opens world home)
    {error : MailError} {reached : World}
    (herror : Action.outcome (mailbox.takeNext order) world = (.error error, reached)) :
    reached.tree.message? home = world.tree.message? home ∧
      reached.tree.claimed? home = world.tree.claimed? home ∧
        Conserved home ⟨reached.tree, added, returned⟩ := by
  rcases hopens.eq_or_restored_of_takeNext_eq_error h.sound herror with
    rfl | ⟨name, content, hclaimable, rfl⟩
  · exact ⟨rfl, rfl, h⟩
  · have hmessages := funext (Mailbox.message?_restored world home name)
    have hclaims := Mailbox.claimed?_restored_eq (h.claims_eq_none hclaimable).2
    have hreach := Action.reaches_outcome (mailbox.takeNext order) world
    rw [herror] at hreach
    have hpreserves := hopens.takeNext_preserves h.sound hreach
    refine ⟨hmessages, hclaims, h.advance hpreserves.1 hpreserves.2 (fun _ => .inl) ?_⟩
    rw [hmessages, hclaims]
    exact h.accounted

/-- A receiver that dies too early leaves the mailbox as it was, or a claim. -/
theorem Conserved.crash
    (h : Conserved home ⟨world.tree, added, returned⟩) (hopens : mailbox.Opens world home)
    (hreach : Action.Reaches (mailbox.takeNext order) world reached)
    (hbefore : reached.tree ≠ (Action.outcome (mailbox.takeNext order) world).2.tree) :
    Conserved home ⟨reached.tree, added, returned⟩ := by
  have hpreserves := hopens.takeNext_preserves h.sound hreach
  refine h.advance hpreserves.1 hpreserves.2 (fun _ => .inl) ?_
  rcases hopens.reaches_takeNext h.sound hreach with
    rfl | ⟨name, content, hhead, hclaimable, hcases⟩
  · exact h.accounted
  obtain ⟨rest, hlist⟩ := List.head?_eq_some_iff.mp hhead
  have houtcome := hopens.outcome_takeNext_cons h.sound hlist hclaimable.file
  rcases hcases with rfl | ⟨htext, rfl⟩ | ⟨⟨body, htext⟩, htree⟩
  · rw [Mailbox.message?_claimed_eq_update, Mailbox.claimed?_claimed_eq_update hclaimable.visible]
    exact h.accounted.claim (h.claims_eq_none hclaimable).1
  · refine absurd ?_ hbefore
    rw [houtcome, Mailbox.receipt, hclaimable.fault]
    simp only [htext]
  · refine absurd ?_ hbefore
    rw [houtcome, Mailbox.receipt, hclaimable.fault]
    simpa only [htext, World.tree_recorded] using htree

/-- What a receiver returns is the whole of a message that waited and is gone. -/
theorem Conserved.takeNext_ok
    (h : Conserved home ⟨world.tree, added, returned⟩) (hopens : mailbox.Opens world home)
    {body : String} {reached : World}
    (hok : Action.outcome (mailbox.takeNext order) world = (.ok body, reached)) :
    ∃ name, world.tree.message? home name = some (Bytes.ofText body) ∧
      reached.tree.message? home = Function.update (world.tree.message? home) name none ∧
      Conserved home ⟨reached.tree, added, returned ++ [(name, Bytes.ofText body)]⟩ := by
  obtain ⟨name, rest, -, hclaimable, rfl⟩ := hopens.exists_of_takeNext_eq_ok h.sound hok
  obtain ⟨hmessage, hclaim⟩ := h.claims_eq_none hclaimable
  refine ⟨name, hmessage, Mailbox.message?_taken_eq_update, ?_⟩
  refine h.advance hclaimable.sameDirectories_taken (hclaimable.sound_taken h.sound)
    (fun _ => .inl) ?_
  rw [World.tree_recorded, Mailbox.message?_taken_eq_update,
    Mailbox.claimed?_taken_eq hclaimable.visible hclaim]
  exact h.accounted.take hmessage

theorem Conserved.step
    (h : Conserved home before) (hstep : Step home before after) :
    Conserved home after := by
  cases hstep with
  | @deliver mailbox world _ _ _ id _ _ _ hopens hfresh houtcome =>
      obtain ⟨hnone, -, rfl⟩ := hopens.of_deliver_eq_ok houtcome
      obtain ⟨hfits, -, hfree⟩ := Mailbox.deliveryError?_eq_none_iff.mp hnone
      have hadmits := Mailbox.admits_fileName hfits
      exact h.add (MessageName.isVisible_fileName id) hadmits.plain hadmits.short hfree hfresh
  | deliverFails hopens houtcome =>
      rw [hopens.eq_of_deliver_eq_error houtcome]
      exact h
  | appear hvisible hplain hshort hfree hfresh => exact h.add hvisible hplain hshort hfree hfresh
  | @take _ _ _ _ _ _ _ name hopens houtcome hvisible hgone =>
      obtain ⟨taken, hmessage, hafter, hconserved⟩ := h.takeNext_ok hopens houtcome
      obtain rfl : name = taken := by
        by_contra hne
        rw [hafter, Function.update_of_ne hne] at hgone
        exact hvisible hgone
      exact hconserved
  | takeFails hopens houtcome => exact (h.takeNext_error hopens houtcome).2.2
  | crash hopens hreach hbefore => exact h.crash hopens hreach hbefore
  | look hopens hreach =>
      rw [Mailbox.observes_pending _ _ _ _ hreach]
      exact h
  | recover hopens hreach => exact h.of_revivals (hopens.reaches_recoverClaims h.sound hreach)

theorem Conserved.of_run
    (h : Conserved home before) (hrun : Relation.ReflTransGen (Step home) before after) :
    Conserved home after := by
  induction hrun with
  | refl => exact h
  | tail _ hstep ih => exact ih.step hstep

end Steps

/-! ## Whole runs -/

/-- Every added message is in one place.  Receivers return one that waits, once and whole, or leave
all of them where they are; recovery brings back all that were not returned, unless the path of a
claim is too long. -/
structure ExactlyOnce (home : Location) (history : History) : Prop where
  accounted : Accounted (history.tree.message? home) (history.tree.claimed? home)
    history.added history.returned
  take_ok : ∀ {mailbox : Mailbox} {world after : World} {order : ReceiveOrder} {body : String},
    world.tree = history.tree → mailbox.Opens world home →
      Action.outcome (mailbox.takeNext order) world = (.ok body, after) →
        ∃ name, (name, Bytes.ofText body) ∈ history.added ∧
          name ∉ history.returned.map Prod.fst ∧
          history.tree.message? home name = some (Bytes.ofText body) ∧
          after.tree.message? home = Function.update (history.tree.message? home) name none
  take_error : ∀ {mailbox : Mailbox} {world after : World} {order : ReceiveOrder}
      {error : MailError},
    world.tree = history.tree → mailbox.Opens world home →
      Action.outcome (mailbox.takeNext order) world = (.error error, after) →
        after.tree.message? home = history.tree.message? home ∧
          after.tree.claimed? home = history.tree.claimed? home
  recovered : ∀ {mailbox : Mailbox} {world : World},
    world.tree = history.tree → mailbox.Opens world home →
      (∀ name, history.tree.claimed? home name ≠ none →
        Mailbox.Fits (mailbox.entry (MessageName.claim name))) →
          ∃ count after, Action.outcome mailbox.recoverClaims world = (.ok count, after) ∧
            ∀ message ∈ history.added, message ∉ history.returned →
              after.tree.message? home message.1 = some message.2

section Runs

variable {home : Location} {start : Tree} {history : History}

/-- With all messages accounted for, only the lengths of paths stand in the way of recovery. -/
theorem Conserved.revivable
    (h : Conserved home history) {mailbox : Mailbox}
    (hfits : ∀ name, history.tree.claimed? home name ≠ none →
      Mailbox.Fits (mailbox.entry (MessageName.claim name))) :
    mailbox.Revivable history.tree home where
  file := h.claim_ne
  free := by
    intro name hclaimed
    obtain ⟨content, hsome⟩ := Option.ne_none_iff_exists'.mp hclaimed
    exact h.place_ne (mem_map_fst.mpr
      ⟨content, (h.accounted.mem_iff name content).mpr (.inr (.inr hsome))⟩)
  fits := fun hclaimed => hfits _ hclaimed

theorem Conserved.exactlyOnce
    (h : Conserved home history) :
    ExactlyOnce home history where
  accounted := h.accounted
  take_ok := by
    rintro mailbox world after order body htree hopens hok
    have hworld : Conserved home ⟨world.tree, history.added, history.returned⟩ := htree ▸ h
    obtain ⟨name, hmessage, hafter, -⟩ := hworld.takeNext_ok hopens hok
    refine ⟨name, ?_, hworld.accounted.not_returned hmessage, htree ▸ hmessage, htree ▸ hafter⟩
    exact (hworld.accounted.mem_iff name _).mpr (.inr (.inl hmessage))
  take_error := by
    rintro mailbox world after order error htree hopens herror
    have hworld : Conserved home ⟨world.tree, history.added, history.returned⟩ := htree ▸ h
    obtain ⟨hmessages, hclaims, -⟩ := hworld.takeNext_error hopens herror
    rw [← htree]
    exact ⟨hmessages, hclaims⟩
  recovered := by
    rintro mailbox world htree hopens hfits
    have hrevivable := h.revivable hfits
    rw [← htree] at hrevivable
    obtain ⟨count, after, houtcome, hafter⟩ :=
      hrevivable.outcome_recoverClaims hopens (htree ▸ h.sound)
    refine ⟨count, after, houtcome, fun ⟨name, content⟩ hadded hreturned => ?_⟩
    rw [(hafter name).2, htree]
    rcases (h.accounted.mem_iff name content).mp hadded with hold | hmessage | hclaimed
    · exact absurd hold hreturned
    · rw [h.accounted.claims_eq_none hmessage, hmessage]
      rfl
    · rw [hclaimed]
      rfl

/-- Whatever is done to a mailbox that had no messages and no claims, every message is received at
most once, as it was added, and until then it waits or can be brought back. -/
theorem exactlyOnce_of_run
    (hstart : Start home start)
    (hrun : Relation.ReflTransGen (Step home) ⟨start, [], []⟩ history) :
    ExactlyOnce home history :=
  (hstart.conserved.of_run hrun).exactlyOnce

/-- A message appears and is claimed by a receiver that dies. -/
theorem exists_run_to_claim
    {mailbox : Mailbox} {world : World} {name : String} {content : Bytes}
    (hstart : Start home world.tree) (hopens : mailbox.Opens world home)
    (hvisible : MessageName.isVisible name = true) (hadmits : mailbox.Admits name)
    (hfree : world.tree.child? home name = none)
    (hfits : Mailbox.Fits (Mailbox.claimPath (mailbox.entry name) name))
    (hshort : (Bytes.ofText (MessageName.claim name)).length ≤ Path.maxName) :
    let reached := world.withTree (world.tree.write home (MessageName.claim name) content)
    Relation.ReflTransGen (Step home) ⟨world.tree, [], []⟩
        ⟨reached.tree, [(name, content)], []⟩ ∧
      mailbox.Opens reached home := by
  intro reached
  have hdir : world.tree.child? home name ≠ some .directory := by simp [hfree]
  have happear : Step home ⟨world.tree, [], []⟩
      ⟨world.tree.write home name content, [(name, content)], []⟩ :=
    .appear hvisible hadmits.plain hadmits.short hdir List.not_mem_nil
  let waiting := world.withTree (world.tree.write home name content)
  have hwaiting : Conserved home ⟨waiting.tree, [(name, content)], []⟩ :=
    hstart.conserved.step happear
  have hopensWaiting : mailbox.Opens waiting home :=
    hopens.withTree (Tree.sameDirectories_write hdir)
  have hfile : waiting.tree.child? home name = some (.file content) := by simp [waiting]
  have hclaimable : mailbox.Claimable waiting home name content :=
    ⟨hopensWaiting, hadmits, hvisible, hfile,
      Mailbox.claimFault?_eq_none_iff.mpr ⟨hfits, hshort, hwaiting.claim_ne hvisible⟩⟩
  have hmessages : ∀ other, waiting.tree.message? home other =
      if other = name then some content else none := by
    intro other
    rw [World.tree_withTree, Tree.message?_write hvisible, hstart.message?_eq]
  have hlist : mailbox.candidates waiting home .oldest = [name] :=
    hopensWaiting.candidates_eq_singleton hwaiting.sound hmessages hadmits.fits
  have hreached : reached = Mailbox.claimed waiting home name content := by
    simp only [reached, waiting, Mailbox.claimed, World.tree_withTree, World.withTree_withTree,
      Tree.unlink_write, Tree.unlink_eq_self hfree]
  have hreach := hclaimable.reaches_claimed hlist
  rw [← hreached] at hreach
  refine ⟨(Relation.ReflTransGen.single happear).tail (.crash hopensWaiting hreach ?_), ?_⟩
  · intro heq
    have hnone := hclaimable.child?_receipt
    rw [← hopensWaiting.outcome_takeNext_cons hwaiting.sound hlist hfile, ← heq, hreached,
      hclaimable.child?_claim] at hnone
    cases hnone
  · rw [hreached]
    exact hclaimable.opens_claimed

theorem start_empty :
    Start [] Tree.empty where
  sound := Tree.sound_empty
  home_eq := rfl
  message?_eq := fun name => by simp [Tree.message?]
  claim_eq := fun name _ => Tree.child?_empty [] _

theorem start_lone
    {b : UInt8} (hb : Name.IsPlain [b]) :
    Start [[b]] (Tree.lone b) where
  sound := Tree.sound_lone hb
  home_eq := Tree.get?_lone b
  message?_eq := Tree.message?_lone b
  claim_eq := fun _ _ => Tree.child?_lone b _

/-- The receiver of the first message died, and recovery brings the message back. -/
theorem exactlyOnce_of_claim :
    let history : History :=
      ⟨Tree.empty.write [] (MessageName.claim "a.eml") (Bytes.ofText "hi"),
        [("a.eml", Bytes.ofText "hi")], []⟩
    let world := World.blank.withTree history.tree
    Start [] Tree.empty ∧ Relation.ReflTransGen (Step []) ⟨Tree.empty, [], []⟩ history ∧
      ExactlyOnce [] history ∧
      ∃ count after, Action.outcome Mailbox.here.recoverClaims world = (.ok count, after) ∧
        after.tree.message? [] "a.eml" = some (Bytes.ofText "hi") := by
  intro history world
  have hplain : Name.IsPlain (Bytes.ofText "a.eml") := by decide
  have hclaim := MessageName.isPlain_claim hplain
  have hadmits : Mailbox.here.Admits "a.eml" :=
    ⟨hplain, by decide, Mailbox.fits_of_length hplain (by decide)⟩
  obtain ⟨hrun, hopens⟩ := @exists_run_to_claim [] Mailbox.here World.blank "a.eml"
    (Bytes.ofText "hi") start_empty (Mailbox.opens_here rfl) (by decide) hadmits
    (Tree.child?_empty [] _) (Mailbox.fits_claimPath_of_length hplain (by decide)) (by decide)
  have h := exactlyOnce_of_run start_empty hrun
  have hfits : ∀ name, history.tree.claimed? [] name ≠ none →
      Mailbox.Fits (Mailbox.here.entry (MessageName.claim name)) := by
    intro name hclaimed
    have hname : name = "a.eml" := by
      by_contra hne
      apply hclaimed
      rw [Tree.claimed?_write_claim (by decide), if_neg hne]
      simp [Tree.claimed?]
    subst hname
    exact Mailbox.fits_of_length hclaim (by decide)
  obtain ⟨count, after, houtcome, hafter⟩ := @h.recovered Mailbox.here world rfl hopens hfits
  exact ⟨start_empty, hrun, h, count, after, houtcome,
    hafter _ (List.mem_singleton_self _) List.not_mem_nil⟩

/-- A delivery replaces the file that bears the name of its identifier. -/
theorem exists_deliver_replaced
    {mailbox : Mailbox} {world : World} {id : MessageId} {old : Bytes}
    (hopens : mailbox.Opens world home) (hfits : Mailbox.Fits (mailbox.entry id.stagingName))
    (hfree : world.tree.child? home id.stagingName = none)
    (hold : world.tree.child? home id.fileName = some (.file old)) (body : String)
    (sync : Bool) :
    ∃ path after, Action.outcome (mailbox.deliver id body sync) world = (.ok path, after) ∧
      after.tree.message? home id.fileName = some (Bytes.ofText body) ∧
      after.tree.claimed? home = world.tree.claimed? home := by
  have hvisible := MessageName.isVisible_fileName id
  have hnone := Mailbox.deliveryError?_eq_none_iff.mpr ⟨hfits, hfree, by simp [hold]⟩
  have houtcome := hopens.outcome_deliver id body sync
  rw [hnone] at houtcome
  refine ⟨_, _, houtcome, ?_, ?_⟩
  · rw [World.tree_recorded, Mailbox.published, World.tree_withTree,
      Tree.message?_write hvisible, if_pos rfl]
  · rw [World.tree_recorded, Mailbox.published, World.tree_withTree,
      Tree.claimed?_write_eq hvisible]

/-- A claim can be made through a path with many slashes at its end, since they are left out of the
path of the claim; recovery keeps them. -/
theorem exists_run_to_long_claim
    {n : Nat} {b : UInt8} {name : String} {content : Bytes} (hb : Name.IsPlain [b])
    (hdot : b ≠ Path.dot) (hvisible : MessageName.isVisible name = true)
    (hplain : Name.IsPlain (Bytes.ofText name))
    (hshort : (Bytes.ofText (MessageName.claim name)).length ≤ Path.maxName)
    (hfits : n + 2 + (Bytes.ofText name).length ≤ Path.maxLength)
    (hlong : Path.maxLength < n + 2 + (Bytes.ofText (MessageName.claim name)).length) :
    let mailbox : Mailbox := ⟨Path.trailed n b⟩
    let reached := World.blank.withTree
      ((Tree.lone b).write [[b]] (MessageName.claim name) content)
    Relation.ReflTransGen (Step [[b]]) ⟨Tree.lone b, [], []⟩
        ⟨reached.tree, [(name, content)], []⟩ ∧
      mailbox.Opens reached [[b]] ∧
      Action.outcome mailbox.recoverClaims reached =
        (.error (.io (mailbox.entry (MessageName.claim name)) .nameTooLong), reached) ∧
      reached.tree.message? [[b]] name = none := by
  intro mailbox reached
  have hclaim := MessageName.isPlain_claim hplain
  have hclaimLength := MessageName.length_ofText_claim name
  have hopens : mailbox.Opens (World.blank.withTree (Tree.lone b)) [[b]] :=
    Mailbox.opens_trailed hb (by omega) rfl (Tree.get?_lone b)
  have hadmits : mailbox.Admits name := by
    refine ⟨hplain, by omega, ?_⟩
    rw [Mailbox.Fits, Mailbox.entry, Path.child_trailed hplain, List.length_append,
      Path.length_trailed]
    exact hfits
  have hclaimFits : Mailbox.Fits (Mailbox.claimPath (mailbox.entry name) name) := by
    rw [Mailbox.claimPath, Mailbox.entry, Path.withFileName_child_trailed hb hdot hplain]
    refine Nat.le_trans (Path.length_child_le _ hclaim) ?_
    refine Nat.le_trans (Nat.add_le_add_left hshort _) ?_
    exact (by decide : 1 + 1 + Path.maxName ≤ Path.maxLength)
  obtain ⟨hrun, hopensReached⟩ := @exists_run_to_claim [[b]] mailbox
    (World.blank.withTree (Tree.lone b)) name content (start_lone hb) hopens hvisible hadmits
    (Tree.child?_lone _ _) hclaimFits hshort
  have hnotFits : ¬Mailbox.Fits (mailbox.entry (MessageName.claim name)) := by
    apply Mailbox.not_fits_of_length hclaim
    rw [Path.length_trailed]
    exact hlong
  have hnames : reached.scan.arrange (reached.tree.names [[b]]) =
      [Bytes.ofText (MessageName.claim name)] := by
    rw [World.tree_withTree, Tree.names_write_lone]
    exact List.perm_singleton.mp (reached.scan.perm _)
  refine ⟨hrun, hopensReached, ?_, ?_⟩
  · exact hopensReached.outcome_recoverClaims_of_long hvisible hclaim hnotFits hnames
  · rw [World.tree_withTree, Tree.message?_write_of_hidden (MessageName.isVisible_claim _),
      Tree.message?_lone]

/-- A delivery replaces a message that appeared under the name of its identifier.  And a message
that has a claim cannot be brought back through a path of the mailbox that is almost too long. -/
theorem not_exactlyOnce :
    let id : MessageId := ⟨0, 1⟩
    let before := World.blank.withTree (Tree.empty.write [] id.fileName (Bytes.ofText "a"))
    let long : Mailbox := ⟨Path.trailed 4084 0x6d⟩
    let after := World.blank.withTree
      ((Tree.lone 0x6d).write [[0x6d]] (MessageName.claim "x.eml") (Bytes.ofText "a"))
    (Start [] Tree.empty ∧
      Step [] ⟨Tree.empty, [], []⟩ ⟨before.tree, [(id.fileName, Bytes.ofText "a")], []⟩ ∧
      ∃ path replaced, Action.outcome (Mailbox.here.deliver id "b" false) before =
          (.ok path, replaced) ∧
        replaced.tree.message? [] id.fileName = some (Bytes.ofText "b") ∧
        replaced.tree.claimed? [] = before.tree.claimed? [] ∧
        before.tree.claimed? [] id.fileName = none) ∧
    (Start [[0x6d]] (Tree.lone 0x6d) ∧
      Relation.ReflTransGen (Step [[0x6d]]) ⟨Tree.lone 0x6d, [], []⟩
        ⟨after.tree, [("x.eml", Bytes.ofText "a")], []⟩ ∧
      long.Opens after [[0x6d]] ∧
      Action.outcome long.recoverClaims after =
        (.error (.io (long.entry (MessageName.claim "x.eml")) .nameTooLong), after) ∧
      after.tree.message? [[0x6d]] "x.eml" = none) := by
  intro id before long after
  have hvisible := MessageName.isVisible_fileName id
  refine ⟨⟨start_empty, ?_, ?_⟩, start_lone (by decide), ?_⟩
  · have hshort : (Bytes.ofText id.fileName).length ≤ Path.maxName := by
      rw [MessageId.length_ofText_fileName]
      decide
    exact .appear hvisible id.isPlain_fileName hshort (by simp) List.not_mem_nil
  · have hfits : Mailbox.Fits (Mailbox.here.entry id.stagingName) :=
      Mailbox.fits_of_length id.isPlain_stagingName
        (by rw [MessageId.length_ofText_stagingName]; decide)
    have hfree : before.tree.child? [] id.stagingName = none := by
      rw [World.tree_withTree, Tree.child?_write,
        if_neg (Mailbox.fileName_ne_stagingName id id).symm, Tree.child?_empty]
    have hold : before.tree.child? [] id.fileName = some (.file (Bytes.ofText "a")) := by
      simp [before]
    have hclaimed : before.tree.claimed? [] id.fileName = none := by
      rw [World.tree_withTree, Tree.claimed?_write_of_visible hvisible]
      simp [Tree.claimed?]
    obtain ⟨path, replaced, houtcome, hmessage, hclaims⟩ :=
      exists_deliver_replaced (Mailbox.opens_here rfl) hfits hfree hold "b" false
    exact ⟨path, replaced, houtcome, hmessage, hclaims, hclaimed⟩
  · exact exists_run_to_long_claim (by decide) (by decide) (by decide) (by decide) (by decide)
      (by decide) (by decide)

end Runs

end Postbox
