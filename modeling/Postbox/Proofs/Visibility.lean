import Postbox.Proofs.Activities

/-!
# No message is ever partly visible

A delivery can be interrupted anywhere, in the middle of writing the body too.  Whoever looks at the
mailbox then sees what was there before, or what the complete delivery leads to.  The staging file
that may be left behind stays where it is and stays out of sight.
-/

namespace Postbox.Mailbox

/-- Receivers cannot tell the two worlds apart: the messages are the same, and so are the answers
to what waits and what comes next. -/
structure LooksLike (home : Location) (reached state : World) : Prop where
  message?_eq : ∀ name, reached.tree.message? home name = state.tree.message? home name
  pending_eq : ∀ {reader : Mailbox}, reader.Opens reached home →
    (Action.outcome (reader.pending .oldest) reached).1 =
      (Action.outcome (reader.pending .oldest) state).1
  takeNext_eq : ∀ {reader : Mailbox}, reader.Opens reached home →
    (Action.outcome (reader.takeNext .oldest) reached).1 =
      (Action.outcome (reader.takeNext .oldest) state).1

/-- A staging file is in its place, and no receiver gets to see it. -/
structure Hidden (home : Location) (id : MessageId) (left : Bytes) (tree : Tree) : Prop where
  child?_eq : tree.child? home id.stagingName = some (.file left)
  not_pending : ∀ {reader : Mailbox} {world : World} (order : ReceiveOrder), world.tree = tree →
    reader.Opens world home → ∃ paths,
      (Action.outcome (reader.pending order) world).1 = .ok paths ∧
        ∀ path ∈ paths, path.fileName? ≠ some (Bytes.ofText id.stagingName)
  not_taken : ∀ {reader : Mailbox} {world after : World} {body : String} (order : ReceiveOrder),
    world.tree = tree → reader.Opens world home →
      Action.outcome (reader.takeNext order) world = (.ok body, after) →
        (∃ name, tree.message? home name = some (Bytes.ofText body) ∧
          after.tree.message? home name = none) ∧
        after.tree.child? home id.stagingName = some (.file left)

section Resemblance

variable {reached state : World} {home : Location}

theorem looksLike_refl (home : Location) (world : World) :
    LooksLike home world world :=
  ⟨fun _ => rfl, fun _ => rfl, fun _ => rfl⟩

/-- What receivers see depends only on the messages and on the claims in their way. -/
theorem looksLike_of_sameDirectories
    (hcwd : state.cwd = reached.cwd) (hsame : reached.tree.SameDirectories state.tree)
    (hsound : reached.tree.Sound) (hsoundState : state.tree.Sound)
    (hmessages : ∀ name, reached.tree.message? home name = state.tree.message? home name) :
    LooksLike home reached state where
  message?_eq := hmessages
  pending_eq := by
    intro reader hopens
    have hstate := hopens.of_sameDirectories hcwd hsame
    rw [hopens.outcome_pending, hstate.outcome_pending,
      hopens.candidates_oldest_congr hsound hstate hsoundState hmessages]
  takeNext_eq := by
    intro reader hopens
    have hstate := hopens.of_sameDirectories hcwd hsame
    exact hopens.outcome_takeNext_congr hsound hstate hsoundState hmessages
      fun _ => claimFault?_congr hsame

end Resemblance

section Interruption

variable {mailbox : Mailbox} {world reached : World} {home : Location} {id : MessageId}
  {body : String} {sync : Bool}

/-- As long as the body is being written, nothing is to be seen of it. -/
theorem Staged.looksLike
    (hstaged : Staged mailbox world home id body reached) (hopens : mailbox.Opens world home)
    (hsound : world.tree.Sound) :
    LooksLike home reached world := by
  have hreached := hstaged.sound hopens hsound
  obtain ⟨written, -, rfl⟩ := hstaged.eq_staged
  refine looksLike_of_sameDirectories rfl ?_ hreached hsound fun name => ?_
  · exact (Tree.sameDirectories_write (by simp [hstaged.free])).symm
  · simp [staged, MessageName.isVisible_stagingName]

/-- A staging file that is there stays there, out of sight, whatever happens to the mailbox. -/
theorem hidden_of_activities
    {before later : Tree} {left : Bytes} (hsound : before.Sound)
    (hfile : before.child? home id.stagingName = some (.file left))
    (h : Relation.ReflTransGen (Activity home) before later) :
    Hidden home id left later := by
  have hvisible := MessageName.isVisible_stagingName id
  have hclaim : ∀ other, id.stagingName ≠ MessageName.claim other :=
    fun other heq => MessageName.claim_ne_stagingName other id heq.symm
  have hlater := sound_of_activities h hsound
  have hstays := child?_of_activities h hsound hvisible hclaim hfile
  refine ⟨hstays, ?_, ?_⟩
  · rintro reader state order rfl hopens
    refine ⟨_, by rw [hopens.outcome_pending], fun path hpath => ?_⟩
    obtain ⟨name, hname, rfl⟩ := List.mem_map.mp hpath
    obtain ⟨hadmits, hnameVisible, -⟩ := hopens.exists_of_mem_candidates hlater hname
    rw [entry, Path.fileName?_child _ hadmits.plain]
    intro heq
    obtain rfl := Bytes.ofText_injective (Option.some.inj heq)
    rw [hvisible] at hnameVisible
    cases hnameVisible
  · rintro reader state after text order rfl hopens houtcome
    obtain ⟨name, -, -, hclaimable, rfl⟩ := hopens.exists_of_takeNext_eq_ok hlater houtcome
    have hreach := Action.reaches_outcome (reader.takeNext order) state
    rw [houtcome] at hreach
    refine ⟨⟨name, Tree.message?_eq_some_iff.mpr ⟨hclaimable.visible, hclaimable.file⟩, ?_⟩, ?_⟩
    · simp [taken]
    · exact (Activity.receive order hopens hreach).child?_eq hlater hvisible hclaim hstays

/-- Wherever a delivery is interrupted, receivers see the mailbox as it was before or as the
complete delivery leaves it.  A staging file that it leaves behind is never listed, received,
renamed, changed or removed, whatever is done to the mailbox later. -/
theorem deliver_never_partly_visible
    (hsound : world.tree.Sound) (hopens : mailbox.Opens world home)
    (hreach : Action.Reaches (mailbox.deliver id body sync) world reached) :
    (LooksLike home reached world ∨
      ∃ after, Action.outcome (mailbox.deliver id body sync) world =
          (.ok (mailbox.entry id.fileName), after) ∧ LooksLike home reached after) ∧
      ∀ left later, reached.tree.child? home id.stagingName = some (.file left) →
        Relation.ReflTransGen (Activity home) reached.tree later → Hidden home id left later := by
  have hreached := (Activity.deliver id body sync hopens hreach).sound hsound
  refine ⟨?_, fun left later hfile h => hidden_of_activities hreached hfile h⟩
  rcases hopens.reaches_deliver hreach with rfl | hstaged | ⟨hnone, hpublished⟩
  · exact .inl (looksLike_refl home _)
  · exact .inl (hstaged.looksLike hopens hsound)
  · have houtcome := hopens.outcome_deliver id body sync
    rw [hnone] at houtcome
    refine .inr ⟨_, houtcome, ?_⟩
    -- What is still to come is a report, which receivers do not see.
    rcases hpublished with rfl | rfl
    · exact looksLike_of_sameDirectories rfl (.refl _) hreached hreached fun _ => rfl
    · exact looksLike_refl home _

/-- Half of a body has been written beside an older message. -/
theorem half_written_never_partly_visible :
    let before := World.blank.withTree (Tree.empty.write [] "a.eml" (Bytes.ofText "old"))
    let half := staged before [] ⟨1, 2⟩ (Bytes.ofText "ne")
    before.tree.Sound ∧ here.Opens before [] ∧
      Action.Reaches (here.deliver ⟨1, 2⟩ "new" true) before half ∧
      half.tree.child? [] (MessageId.stagingName ⟨1, 2⟩) = some (.file (Bytes.ofText "ne")) ∧
      (LooksLike [] half before ∨
        ∃ after, Action.outcome (here.deliver ⟨1, 2⟩ "new" true) before =
          (.ok (here.entry (MessageId.fileName ⟨1, 2⟩)), after) ∧ LooksLike [] half after) ∧
      Hidden [] ⟨1, 2⟩ (Bytes.ofText "ne") half.tree := by
  intro before half
  have hsound : (Tree.empty.write [] "a.eml" (Bytes.ofText "old")).Sound :=
    Tree.sound_empty.write rfl (by decide) (by decide) (by simp)
  have hopens : here.Opens before [] := opens_here rfl
  have hfits : Fits (here.entry (MessageId.stagingName ⟨1, 2⟩)) :=
    fits_of_length (MessageId.isPlain_stagingName _)
      (by rw [MessageId.length_ofText_stagingName]; decide)
  have hne : MessageId.stagingName ⟨1, 2⟩ ≠ "a.eml" := by
    intro heq
    have hhidden := MessageName.isVisible_stagingName ⟨1, 2⟩
    rw [heq] at hhidden
    exact absurd hhidden (by decide)
  have hfree : before.tree.child? [] (MessageId.stagingName ⟨1, 2⟩) = none := by
    rw [World.tree_withTree, Tree.child?_write, if_neg hne, Tree.child?_empty]
  have hreach : Action.Reaches (here.deliver ⟨1, 2⟩ "new" true) before half :=
    hopens.reaches_staged hfits hfree (by decide)
  have hfile := child?_staged before [] ⟨1, 2⟩ (Bytes.ofText "ne")
  have h := deliver_never_partly_visible hsound hopens hreach
  exact ⟨hsound, hopens, hreach, hfile, h.1, h.2 _ _ hfile .refl⟩

end Interruption

end Postbox.Mailbox
