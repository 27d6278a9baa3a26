import Postbox.Proofs.Mirrors

/-!
# Which claims come back

Recovery renames every claim to the name it claims.  Claims lie beside each other, no two of them
claim one name, and no name that comes back is that of a claim: so no renaming stands in the way of
another, and what a recovery has done is determined by which claims it has renamed.
-/

namespace Postbox

namespace Tree

/-! ## Renaming, place by place -/

section Renaming

variable {tree after a b : Tree} {source target location : Location}

/-- Only directories have anything below them. -/
theorem Sound.get?_append_of_not_directory
    (h : tree.Sound) (hentry : tree.get? location ≠ some .directory) {below : Location}
    (hbelow : below ≠ []) :
    tree.get? (location ++ below) = none := by
  obtain ⟨front, name, rfl⟩ := (below.eq_nil_or_concat').resolve_left hbelow
  by_contra hsome
  rw [← List.append_assoc] at hsome
  exact hentry (h.get?_of_isPrefix (h.parent hsome) (List.prefix_append _ _))

theorem ne_of_not_isPrefix
    {above location : Location} (h : ¬above <+: location) :
    location ≠ above := by
  rintro rfl
  exact h (List.prefix_refl _)

/-- A file takes its new place alone: nothing is below it, nor below what it replaces. -/
theorem get?_put_erase_file
    (hsound : tree.Sound) (hsource : source ≠ []) (htarget : target ≠ [])
    (hapart : ¬target <+: source) {content : Bytes}
    (hfile : tree.get? source = some (.file content))
    (hfree : tree.get? target ≠ some .directory) (location : Location) :
    ((tree.erase source).put target (.file content)).get? location =
      if target <+: location then tree.get? (source ++ location.drop target.length)
      else if source <+: location then none
      else tree.get? location := by
  rw [get?_put _ _ _ htarget, get?_erase _ _ hsource]
  have hnotDirectory : tree.get? source ≠ some .directory := by simp [hfile]
  by_cases hmoved : target <+: location
  · obtain ⟨below, rfl⟩ := hmoved
    rw [if_pos (List.prefix_append _ _), List.drop_left]
    by_cases hbelow : below = []
    · simp [hbelow, hfile]
    · have hne : target ++ below ≠ source := fun heq => hapart ⟨below, heq⟩
      rw [if_neg (by simpa using hbelow), if_neg hne,
        hsound.get?_append_of_not_directory hfree hbelow,
        hsound.get?_append_of_not_directory hnotDirectory hbelow]
  · rw [if_neg (ne_of_not_isPrefix hmoved), if_neg hmoved]
    by_cases hleft : source <+: location
    · obtain ⟨below, rfl⟩ := hleft
      rw [if_pos (List.prefix_append _ _)]
      by_cases hbelow : below = []
      · simp [hbelow]
      · rw [if_neg (by simpa using hbelow),
          hsound.get?_append_of_not_directory hnotDirectory hbelow]
    · rw [if_neg (ne_of_not_isPrefix hleft), if_neg hleft]

/-- What was at the source and below it is at the target and below it, in place of all that was
there. -/
theorem get?_moveEntry
    (hsound : tree.Sound) (hsource : source ≠ []) (htarget : target ≠ [])
    (hapart : ¬source <+: target) (hapart' : ¬target <+: source)
    (h : tree.moveEntry source target = .ok after) (location : Location) :
    after.get? location =
      if target <+: location then tree.get? (source ++ location.drop target.length)
      else if source <+: location then none
      else tree.get? location := by
  obtain ⟨-, ⟨content, hfile, hfree, rfl⟩ | ⟨-, ⟨rfl, -⟩ | ⟨-, ⟨hfree, rfl⟩ | ⟨-, hempty, rfl⟩⟩⟩⟩ :=
    moveEntry_cases h
  · exact get?_put_erase_file hsound hsource htarget hapart' hfile hfree location
  · exact absurd rfl (ne_of_not_isPrefix hapart)
  · exact get?_graft hsource htarget (fun _ => hsound.get?_below_none hfree) location
  · have herased := hsound.erase_empty htarget hempty
    have hgone : (tree.erase target).get? target = none := by simp [get?_erase, htarget]
    rw [get?_graft hsource htarget fun _ => herased.get?_below_none hgone]
    by_cases hmoved : target <+: location
    · have hne : source ++ location.drop target.length ≠ target := fun heq => hapart ⟨_, heq⟩
      rw [if_pos hmoved, if_pos hmoved, get?_erase _ _ htarget, if_neg hne]
    · rw [if_neg hmoved, if_neg hmoved, get?_erase _ _ htarget,
        if_neg (ne_of_not_isPrefix hmoved)]

/-- An entry can take the place of another one: a file where no directory is, a directory where
nothing or an empty directory is. -/
def CanReplace (tree : Tree) (source target : Location) : Prop :=
  match tree.get? source with
  | none => False
  | some (.file _) => tree.get? target ≠ some .directory
  | some .directory => tree.get? target = none ∨
      tree.get? target = some .directory ∧ ∀ name, tree.get? (target ++ [name]) = none

theorem names_eq_nil_iff
    {directory : Location} :
    tree.names directory = [] ↔ ∀ name, tree.get? (directory ++ [name]) = none := by
  rw [List.eq_nil_iff_forall_not_mem]
  apply forall_congr'
  intro name
  rw [mem_names, not_not]

/-- Renaming succeeds where the entry can take the place of what is at the target. -/
theorem exists_moveEntry_eq_ok_iff
    (hname : checkName target = .ok ()) (hapart : ¬source <+: target) :
    (∃ after, tree.moveEntry source target = .ok after) ↔ tree.CanReplace source target := by
  rw [CanReplace]
  constructor
  · rintro ⟨after, hafter⟩
    obtain ⟨-, ⟨content, hfile, hfree, -⟩ | ⟨hdir, ⟨rfl, -⟩ | ⟨-, ⟨hfree, -⟩ | ⟨hold, hempty, -⟩⟩⟩⟩ :=
      moveEntry_cases hafter
    · rw [hfile]
      exact hfree
    · exact absurd rfl (ne_of_not_isPrefix hapart)
    · rw [hdir]
      exact .inl hfree
    · rw [hdir]
      exact .inr ⟨hold, names_eq_nil_iff.mp hempty⟩
  · intro h
    split at h
    · exact h.elim
    · rename_i content hfile
      exact ⟨_, moveEntry_file hfile h hname⟩
    · rename_i hdir
      have hne : source ≠ target := (ne_of_not_isPrefix hapart).symm
      rw [moveEntry, hdir]
      simp only [hname, bind, Except.bind, if_neg hne, List.isPrefixOf_iff_prefix, if_neg hapart]
      rcases h with hfree | ⟨hold, hempty⟩
      · rw [hfree]
        exact ⟨_, rfl⟩
      · rw [hold]
        simp only [if_pos (names_eq_nil_iff.mpr hempty)]
        exact ⟨_, rfl⟩

theorem get?_ne_none_of_moveEntry
    (h : tree.moveEntry source target = .ok after) :
    tree.get? source ≠ none := by
  obtain ⟨-, ⟨content, hfile, -⟩ | ⟨hdir, -⟩⟩ := moveEntry_cases h
  · simp [hfile]
  · simp [hdir]

/-- What is there is found. -/
theorem moveEntry_ne_notFound
    (hname : checkName target = .ok ()) (hsource : tree.get? source ≠ none) :
    tree.moveEntry source target ≠ .error .notFound := by
  intro h
  simp only [moveEntry, hname, bind, Except.bind, pure, Except.pure, throw, throwThe,
    MonadExceptOf.throw] at h
  grind

end Renaming

/-! ## Claims that have come back -/

/-- The claims on the names have come back: each of them, with all that was below it, is where it
claimed to belong, and no other claim and no other entry has changed. -/
structure Recovered (home : Location) (names : List String) (before after : Tree) : Prop where
  original : ∀ name ∈ names, ∀ below, after.get? (home ++ [Bytes.ofText name] ++ below) =
    before.get? (home ++ [Bytes.ofText (MessageName.claim name)] ++ below)
  claim : ∀ name ∈ names, ∀ below,
    after.get? (home ++ [Bytes.ofText (MessageName.claim name)] ++ below) = none
  other : ∀ location, (∀ name ∈ names, ¬home ++ [Bytes.ofText name] <+: location ∧
      ¬home ++ [Bytes.ofText (MessageName.claim name)] <+: location) →
    after.get? location = before.get? location

section Recovering

variable {before middle after other : Tree} {home : Location} {names : List String} {name : String}

theorem place_prefix_iff
    {a b : String} {below : Location} :
    home ++ [Bytes.ofText a] <+: home ++ [Bytes.ofText b] ++ below ↔ a = b := by
  constructor
  · intro hpre
    by_contra hne
    apply not_place_prefix_place hne
    exact List.prefix_of_prefix_length_le hpre (List.prefix_append _ _) (by simp)
  · rintro rfl
    exact List.prefix_append _ _

theorem recovered_nil (home : Location) (tree : Tree) :
    Recovered home [] tree tree where
  original := fun _ hmem => absurd hmem List.not_mem_nil
  claim := fun _ hmem => absurd hmem List.not_mem_nil
  other := fun _ _ => rfl

/-- Only which claims have come back matters, not in which order. -/
theorem Recovered.congr
    {names' : List String} (h : Recovered home names before after)
    (hsame : ∀ name, name ∈ names' ↔ name ∈ names) :
    Recovered home names' before after where
  original := fun name hmem => h.original name ((hsame name).mp hmem)
  claim := fun name hmem => h.claim name ((hsame name).mp hmem)
  other := fun location hlocation =>
    h.other location fun name hmem => hlocation name ((hsame name).mpr hmem)

/-- The claims that have come back determine the tree. -/
theorem Recovered.unique
    (h : Recovered home names before after) (hother : Recovered home names before other) :
    after = other := by
  apply Tree.ext
  intro location
  by_cases htouched : ∃ name ∈ names, home ++ [Bytes.ofText name] <+: location ∨
      home ++ [Bytes.ofText (MessageName.claim name)] <+: location
  · obtain ⟨name, hmem, ⟨below, rfl⟩ | ⟨below, rfl⟩⟩ := htouched
    · rw [h.original name hmem, hother.original name hmem]
    · rw [h.claim name hmem, hother.claim name hmem]
  · have houtside : ∀ name ∈ names, ¬home ++ [Bytes.ofText name] <+: location ∧
        ¬home ++ [Bytes.ofText (MessageName.claim name)] <+: location := by
      intro name hmem
      constructor
      · intro hpre
        exact htouched ⟨name, hmem, .inl hpre⟩
      · intro hpre
        exact htouched ⟨name, hmem, .inr hpre⟩
    rw [h.other location houtside, hother.other location houtside]

/-- An entry with any other name stays, with all that is below it. -/
theorem Recovered.get?_eq
    (h : Recovered home names before after) {entry : String}
    (hne : ∀ name ∈ names, name ≠ entry ∧ MessageName.claim name ≠ entry) (below : Location) :
    after.get? (home ++ [Bytes.ofText entry] ++ below) =
      before.get? (home ++ [Bytes.ofText entry] ++ below) := by
  apply h.other
  intro name hmem
  rw [place_prefix_iff, place_prefix_iff]
  exact hne name hmem

/-- A name that is not among those that come back keeps its entry. -/
theorem Recovered.get?_name
    (h : Recovered home names before after) (hname : MessageName.isVisible name = true)
    (hnew : name ∉ names) (below : Location) :
    after.get? (home ++ [Bytes.ofText name] ++ below) =
      before.get? (home ++ [Bytes.ofText name] ++ below) := by
  apply h.get?_eq
  intro other hmem
  constructor
  · rintro rfl
    exact hnew hmem
  · exact (MessageName.ne_claim hname other).symm

/-- A claim that has not come back is still there. -/
theorem Recovered.get?_claim
    (h : Recovered home names before after)
    (hvisible : ∀ name ∈ names, MessageName.isVisible name = true) (hnew : name ∉ names)
    (below : Location) :
    after.get? (home ++ [Bytes.ofText (MessageName.claim name)] ++ below) =
      before.get? (home ++ [Bytes.ofText (MessageName.claim name)] ++ below) := by
  apply h.get?_eq
  intro other hmem
  constructor
  · exact MessageName.ne_claim (hvisible other hmem) name
  · intro heq
    rw [MessageName.claim_injective heq] at hmem
    exact hnew hmem

/-- One more claim comes back.  It is where it was at first, and its name is still free of the
others. -/
theorem Recovered.cons
    (h : Recovered home names before middle) (hsound : middle.Sound)
    (hvisible : ∀ name ∈ names, MessageName.isVisible name = true)
    (hname : MessageName.isVisible name = true) (hnew : name ∉ names)
    (hmove : middle.moveEntry (home ++ [Bytes.ofText (MessageName.claim name)])
      (home ++ [Bytes.ofText name]) = .ok after) :
    Recovered home (name :: names) before after := by
  have hne : name ≠ MessageName.claim name := MessageName.ne_claim hname name
  have hget := get?_moveEntry hsound place_ne_nil place_ne_nil
    (not_place_prefix_place hne.symm) (not_place_prefix_place hne) hmove
  constructor
  · intro other hmem below
    rw [hget]
    rcases List.mem_cons.mp hmem with rfl | hmem
    · rw [if_pos (List.prefix_append _ _), List.drop_left]
      exact h.get?_claim hvisible hnew below
    · have hfirst : name ≠ other := by
        rintro rfl
        exact hnew hmem
      have hsecond : MessageName.claim name ≠ other :=
        (MessageName.ne_claim (hvisible other hmem) name).symm
      rw [if_neg (mt place_prefix_iff.mp hfirst), if_neg (mt place_prefix_iff.mp hsecond)]
      exact h.original other hmem below
  · intro other hmem below
    rw [hget, if_neg (mt place_prefix_iff.mp (MessageName.ne_claim hname other))]
    by_cases heq : name = other
    · rw [heq, if_pos (List.prefix_append _ _)]
    · have hsecond : MessageName.claim name ≠ MessageName.claim other := fun hclaim =>
        heq (MessageName.claim_injective hclaim)
      rw [if_neg (mt place_prefix_iff.mp hsecond)]
      exact h.claim other ((List.mem_cons.mp hmem).resolve_left (Ne.symm heq)) below
  · intro location hlocation
    obtain ⟨hfirst, hsecond⟩ := hlocation name List.mem_cons_self
    rw [hget, if_neg hfirst, if_neg hsecond]
    apply h.other
    intro other hmem
    exact hlocation other (List.mem_cons_of_mem _ hmem)

theorem Recovered.child?_of_mem
    (h : Recovered home names before after) (hmem : name ∈ names) :
    after.child? home name = before.child? home (MessageName.claim name) ∧
      after.child? home (MessageName.claim name) = none := by
  have horiginal := h.original name hmem []
  have hclaim := h.claim name hmem []
  rw [List.append_nil, List.append_nil] at horiginal
  rw [List.append_nil] at hclaim
  exact ⟨horiginal, hclaim⟩

theorem Recovered.child?_of_notMem
    (h : Recovered home names before after)
    (hvisible : ∀ name ∈ names, MessageName.isVisible name = true)
    (hname : MessageName.isVisible name = true) (hnew : name ∉ names) :
    after.child? home name = before.child? home name ∧
      after.child? home (MessageName.claim name) = before.child? home (MessageName.claim name) := by
  have hentry := h.get?_name hname hnew []
  have hclaim := h.get?_claim hvisible hnew []
  rw [List.append_nil] at hentry hclaim
  exact ⟨hentry, hclaim⟩

/-- Claims that come back one after the other are claims that have come back. -/
theorem exists_recovered_of_revivals
    (hsound : before.Sound) (hhome : before.get? home = some .directory)
    (h : Relation.ReflTransGen (Revival home) before after) :
    ∃ names, (∀ name ∈ names, MessageName.isVisible name = true ∧
        before.child? home (MessageName.claim name) ≠ none) ∧
      Recovered home names before after := by
  suffices hall : after.Sound ∧ after.get? home = some .directory ∧
      ∃ names, (∀ name ∈ names, MessageName.isVisible name = true ∧
          before.child? home (MessageName.claim name) ≠ none) ∧
        Recovered home names before after by
    exact hall.2.2
  -- The next renaming needs a sound tree and a home that is still there.
  induction h with
  | refl => exact ⟨hsound, hhome, [], fun _ hmem => absurd hmem List.not_mem_nil, recovered_nil _ _⟩
  | @tail middle after _ hstep ih =>
      obtain ⟨hmiddle, hmiddleHome, names, hnames, hrecovered⟩ := ih
      refine ⟨hstep.sound hmiddle hmiddleHome, (hstep.get?_home_eq hmiddle).trans hmiddleHome, ?_⟩
      obtain ⟨name, hname, -, hmove⟩ := hstep
      have hvisible : ∀ other ∈ names, MessageName.isVisible other = true :=
        fun other hmem => (hnames other hmem).1
      have hthere : middle.child? home (MessageName.claim name) ≠ none :=
        get?_ne_none_of_moveEntry hmove
      have hnew : name ∉ names := fun hmem => hthere (hrecovered.child?_of_mem hmem).2
      rw [(hrecovered.child?_of_notMem hvisible hname hnew).2] at hthere
      refine ⟨name :: names, ?_, hrecovered.cons hmiddle hvisible hname hnew hmove⟩
      intro other hmem
      rcases List.mem_cons.mp hmem with rfl | hmem
      · exact ⟨hname, hthere⟩
      · exact hnames other hmem

/-- Whether a claim can take its place does not depend on the others. -/
theorem Recovered.canReplace_iff
    (h : Recovered home names before after)
    (hvisible : ∀ name ∈ names, MessageName.isVisible name = true)
    (hname : MessageName.isVisible name = true) (hnew : name ∉ names) :
    after.CanReplace (home ++ [Bytes.ofText (MessageName.claim name)])
        (home ++ [Bytes.ofText name]) ↔
      before.CanReplace (home ++ [Bytes.ofText (MessageName.claim name)])
        (home ++ [Bytes.ofText name]) := by
  obtain ⟨hentry, hclaim⟩ := h.child?_of_notMem hvisible hname hnew
  rw [child?, child?] at hentry hclaim
  have hbelow := fun below => h.get?_name hname hnew [below]
  simp only [CanReplace, hentry, hclaim, hbelow]

end Recovering

end Tree

namespace Mailbox

/-! ## One claim -/

/-- The claim on a name can come back: its path is not too long, and it can take the place of what
bears the name. -/
structure CanReturn (mailbox : Mailbox) (tree : Tree) (home : Location) (name : String) : Prop where
  fits : Fits (mailbox.entry (MessageName.claim name))
  canReplace : tree.CanReplace (home ++ [Bytes.ofText (MessageName.claim name)])
    (home ++ [Bytes.ofText name])

section Returning

variable {mailbox : Mailbox} {world start current : World} {home : Location} {name : String}

/-- There is room for a name where there is room for its claim. -/
theorem admits_of_admits_claim
    (hvisible : MessageName.isVisible name = true)
    (h : mailbox.Admits (MessageName.claim name)) :
    mailbox.Admits name := by
  have hplain := MessageName.isPlain_of_isPlain_claim hvisible h.plain
  have hlen := MessageName.length_ofText_claim name
  have hshort := h.short
  refine ⟨hplain, by omega, Nat.le_trans (Path.length_child_mono _ hplain h.plain ?_) h.fits⟩
  omega

/-- Renaming a claim that is there to the name it claims. -/
theorem Opens.answer_rename_back
    (h : mailbox.Opens world home) (hsound : world.tree.Sound)
    (hvisible : MessageName.isVisible name = true)
    (hthere : world.tree.child? home (MessageName.claim name) ≠ none) :
    (mailbox.CanReturn world.tree home name ∧ ∃ after,
        world.tree.moveEntry (home ++ [Bytes.ofText (MessageName.claim name)])
          (home ++ [Bytes.ofText name]) = .ok after ∧
        world.answer (.rename (mailbox.entry (MessageName.claim name)) (mailbox.entry name)) =
          (.ok (), world.withTree after)) ∨
      ¬mailbox.CanReturn world.tree home name ∧ ∃ fault, fault ≠ .notFound ∧
        world.answer (.rename (mailbox.entry (MessageName.claim name)) (mailbox.entry name)) =
          (.error fault, world) := by
  obtain ⟨hplain, hshort⟩ := hsound.isPlain_of_child? hthere
  by_cases hfits : Fits (mailbox.entry (MessageName.claim name))
  swap
  · right
    refine ⟨fun hreturn => hfits hreturn.fits, .nameTooLong, by simp, ?_⟩
    rw [World.answer, Tree.rename, Tree.target, h.fault?_entry hplain hfits]
    rfl
  have hclaim : mailbox.Admits (MessageName.claim name) := ⟨hplain, hshort, hfits⟩
  have hadmits := admits_of_admits_claim hvisible hclaim
  have hchecked : Tree.checkName (home ++ [Bytes.ofText name]) = .ok () :=
    Tree.checkName_concat.mpr hadmits.short
  have hne : MessageName.claim name ≠ name := (MessageName.ne_claim hvisible name).symm
  have hiff := @Tree.exists_moveEntry_eq_ok_iff world.tree _ _ hchecked
    (Tree.not_place_prefix_place hne)
  rw [answer_rename_eq_change h hclaim hadmits]
  cases hmove : world.tree.moveEntry (home ++ [Bytes.ofText (MessageName.claim name)])
      (home ++ [Bytes.ofText name]) with
  | ok after =>
      left
      exact ⟨⟨hfits, hiff.mp ⟨after, hmove⟩⟩, after, rfl, rfl⟩
  | error fault =>
      right
      refine ⟨fun hreturn => ?_, fault, ?_, rfl⟩
      · obtain ⟨after, hok⟩ := hiff.mpr hreturn.canReplace
        rw [hmove] at hok
        cases hok
      · rintro rfl
        exact Tree.moveEntry_ne_notFound hchecked hthere hmove

end Returning

/-! ## All claims -/

/-- The names that are claimed, among all names in a directory. -/
def claimedNames (names : List Name) : List String :=
  names.filterMap fun name => (Bytes.text? name).bind MessageName.claimed?

theorem mem_claimedNames
    {names : List Name} {name : String} :
    name ∈ claimedNames names ↔
      MessageName.isVisible name = true ∧ Bytes.ofText (MessageName.claim name) ∈ names := by
  simp only [claimedNames, List.mem_filterMap, Option.bind_eq_some_iff,
    MessageName.claimed?_eq_some_iff, Bytes.text?_eq_some_iff]
  constructor
  · rintro ⟨_, hmem, _, rfl, hvisible, rfl⟩
    exact ⟨hvisible, hmem⟩
  · rintro ⟨hvisible, hmem⟩
    exact ⟨_, hmem, _, rfl, hvisible, rfl⟩

theorem nodup_claimedNames
    {names : List Name} (h : names.Nodup) :
    (claimedNames names).Nodup := by
  refine List.Nodup.filterMap ?_ h
  intro a b name ha hb
  simp only [Option.mem_def, Option.bind_eq_some_iff, Bytes.text?_eq_some_iff,
    MessageName.claimed?_eq_some_iff] at ha hb
  obtain ⟨_, rfl, -, rfl⟩ := ha
  obtain ⟨_, rfl, -, rfl⟩ := hb
  rfl

theorem claimedNames_cons_claim
    {name : String} (hvisible : MessageName.isVisible name = true) (rest : List Name) :
    claimedNames (Bytes.ofText (MessageName.claim name) :: rest) = name :: claimedNames rest := by
  rw [claimedNames, List.filterMap_cons, Bytes.text?_ofText, Option.bind_some,
    MessageName.claimed?_claim hvisible]
  rfl

theorem claimedNames_cons_passed
    {name : Name} (h : (Bytes.text? name).bind MessageName.claimed? = none) (rest : List Name) :
    claimedNames (name :: rest) = claimedNames rest := by
  rw [claimedNames, List.filterMap_cons, h]
  rfl

/-- The names that are claimed in a mailbox, in the order of its listing. -/
def claims (world : World) (home : Location) : List String :=
  claimedNames (world.scan.arrange (world.tree.names home))

theorem mem_claims
    {world : World} {home : Location} {name : String} :
    name ∈ claims world home ↔ MessageName.isVisible name = true ∧
      world.tree.child? home (MessageName.claim name) ≠ none := by
  rw [claims, mem_claimedNames, (world.scan.perm _).mem_iff, Tree.mem_names]
  rfl

theorem nodup_claims (world : World) (home : Location) :
    (claims world home).Nodup :=
  nodup_claimedNames ((world.scan.perm _).nodup_iff.mpr (world.tree.nodup_names home))

/-- What recovery comes to: all claims come back, or one of them cannot. -/
inductive RecoveryResult (mailbox : Mailbox) (world : World) (home : Location)
    (claims : List String) : Except MailError Nat × World → Prop where
  | complete {after : World} (hreturn : ∀ name ∈ claims, mailbox.CanReturn world.tree home name)
      (hsteady : mailbox.Steady world after) (hsound : after.tree.Sound)
      (hrecovered : Tree.Recovered home claims world.tree after.tree) :
      RecoveryResult mailbox world home claims (.ok claims.length, after)
  | hindered {error : MailError} {after : World} {name : String} (hmem : name ∈ claims)
      (hreturn : ¬mailbox.CanReturn world.tree home name) :
      RecoveryResult mailbox world home claims (.error error, after)

section Runs

variable {mailbox : Mailbox} {world start current : World} {home : Location} {name : String}
  {done : List String} {rest names : List Name}

theorem RecoveryResult.of_perm
    {first second : List String} {result : Except MailError Nat × World}
    (hperm : first.Perm second) (h : RecoveryResult mailbox world home first result) :
    RecoveryResult mailbox world home second result := by
  cases h with
  | complete hreturn hsteady hsound hrecovered =>
      rw [hperm.length_eq]
      have hsame : ∀ name, name ∈ second ↔ name ∈ first := fun _ => hperm.mem_iff.symm
      refine .complete (fun name hmem => hreturn name ((hsame name).mp hmem)) hsteady hsound ?_
      exact hrecovered.congr hsame
  | hindered hmem hreturn => exact .hindered (hperm.mem_iff.mp hmem) hreturn

/-- A recovery underway: the claims on the names in `done` have come back, and those among the names
still to come are there as they were at the start. -/
structure Underway (mailbox : Mailbox) (start : World) (home : Location) (done : List String)
    (names : List Name) (current : World) : Prop where
  opens : mailbox.Opens start home
  clear : mailbox.StaysClear start home
  steady : mailbox.Steady start current
  sound : current.tree.Sound
  recovered : Tree.Recovered home done start.tree current.tree
  returned : ∀ name ∈ done,
    MessageName.isVisible name = true ∧ mailbox.CanReturn start.tree home name
  coming : ∀ name ∈ claimedNames names, start.tree.child? home (MessageName.claim name) ≠ none
  nodup : (done ++ claimedNames names).Nodup

theorem Underway.pass
    {entry : Name} (h : Underway mailbox start home done (entry :: rest) current)
    (hpassed : (Bytes.text? entry).bind MessageName.claimed? = none) :
    Underway mailbox start home done rest current := by
  have hnames := claimedNames_cons_passed hpassed rest
  exact { h with coming := hnames ▸ h.coming, nodup := hnames ▸ h.nodup }

theorem Underway.notMem
    (h : Underway mailbox start home done (Bytes.ofText (MessageName.claim name) :: rest) current)
    (hvisible : MessageName.isVisible name = true) :
    name ∉ done := by
  have hnodup := h.nodup
  rw [claimedNames_cons_claim hvisible] at hnodup
  intro hmem
  exact List.disjoint_of_nodup_append hnodup hmem List.mem_cons_self

/-- The next claim is still there. -/
theorem Underway.child?_ne_none
    (h : Underway mailbox start home done (Bytes.ofText (MessageName.claim name) :: rest) current)
    (hvisible : MessageName.isVisible name = true) :
    current.tree.child? home (MessageName.claim name) ≠ none := by
  have hkept := h.recovered.child?_of_notMem (fun other hmem => (h.returned other hmem).1) hvisible
    (h.notMem hvisible)
  rw [hkept.2]
  apply h.coming
  rw [claimedNames_cons_claim hvisible]
  exact List.mem_cons_self

/-- Whether the next claim can come back was decided at the start. -/
theorem Underway.canReturn_iff
    (h : Underway mailbox start home done (Bytes.ofText (MessageName.claim name) :: rest) current)
    (hvisible : MessageName.isVisible name = true) :
    mailbox.CanReturn current.tree home name ↔ mailbox.CanReturn start.tree home name := by
  have hiff := h.recovered.canReplace_iff (fun other hmem => (h.returned other hmem).1) hvisible
    (h.notMem hvisible)
  constructor
  · intro hreturn
    exact ⟨hreturn.fits, hiff.mp hreturn.canReplace⟩
  · intro hreturn
    exact ⟨hreturn.fits, hiff.mpr hreturn.canReplace⟩

/-- The next claim comes back. -/
theorem Underway.advance
    (h : Underway mailbox start home done (Bytes.ofText (MessageName.claim name) :: rest) current)
    (hvisible : MessageName.isVisible name = true)
    (hreturn : mailbox.CanReturn start.tree home name) {after : Tree}
    (hmove : current.tree.moveEntry (home ++ [Bytes.ofText (MessageName.claim name)])
      (home ++ [Bytes.ofText name]) = .ok after) (event : Event) :
    Underway mailbox start home (name :: done) rest ((current.withTree after).recorded event) := by
  have hplain := (h.sound.isPlain_of_child? (h.child?_ne_none hvisible)).1
  have hrevival : Tree.Revival home current.tree after :=
    ⟨name, hvisible, MessageName.isPlain_of_isPlain_claim hvisible hplain, hmove⟩
  have hcoming := h.coming
  have hnodup := h.nodup
  rw [claimedNames_cons_claim hvisible] at hcoming hnodup
  exact {
    opens := h.opens
    clear := h.clear
    steady := by
      refine (h.steady.revive ?_ h.sound Tree.place_ne_nil hmove).recorded event
      exact fun above hmem place habove => h.clear above hmem place habove name hvisible
    sound := hrevival.sound h.sound (h.steady.opens h.opens).get?_eq
    recovered := h.recovered.cons h.sound (fun other hmem => (h.returned other hmem).1) hvisible
      (h.notMem hvisible) hmove
    returned := List.forall_mem_cons.mpr ⟨⟨hvisible, hreturn⟩, h.returned⟩
    coming := fun other hmem => hcoming other (List.mem_cons_of_mem _ hmem)
    nodup := List.perm_middle.nodup_iff.mp hnodup }

/-- The induction over the listing. -/
theorem Underway.recoveryResult
    (h : Underway mailbox start home done names current) :
    RecoveryResult mailbox start home (done ++ claimedNames names)
      (Action.outcome (mailbox.reviveAll done.length names) current) := by
  -- The claims that have come back are counted from the front, so each one moves over to `done`.
  induction names generalizing current done with
  | nil =>
      rw [show claimedNames [] = [] from rfl, List.append_nil]
      exact .complete (fun name hmem => (h.returned name hmem).2) h.steady h.sound h.recovered
  | cons entry rest ih =>
      rcases claim_or_passed entry with ⟨name, hvisible, rfl⟩ | hpassed
      swap
      · rw [claimedNames_cons_passed hpassed, reviveAll_cons_passed hpassed]
        exact ih (h.pass hpassed)
      rw [claimedNames_cons_claim hvisible, reviveAll_cons_claim hvisible, Action.outcome_bind,
        Action.outcome_attempt]
      rcases (h.steady.opens h.opens).answer_rename_back h.sound hvisible
        (h.child?_ne_none hvisible) with
        ⟨hreturn, after, hmove, hanswer⟩ | ⟨hreturn, fault, hfault, hanswer⟩
      · rw [hanswer]
        have hnext := h.advance hvisible ((h.canReturn_iff hvisible).mp hreturn) hmove
          (.debugging "revived claimed message" [("path", (mailbox.entry name).display)])
        exact (ih hnext).of_perm List.perm_middle.symm
      · rw [hanswer]
        rw [h.canReturn_iff hvisible] at hreturn
        have hmem : name ∈ done ++ name :: claimedNames rest := by simp
        cases fault with
        | notFound => exact absurd rfl hfault
        | _ => exact .hindered hmem hreturn

/-- Without a directory nothing is recovered. -/
theorem exists_recoverClaims_eq_error_of_not_opens
    (h : ¬∃ home, mailbox.Opens world home) :
    ∃ error, Action.outcome mailbox.recoverClaims world = (.error error, world) := by
  obtain ⟨fault, herror⟩ := outcome_list_bind_of_not_opens h (mailbox.reviveAll 0)
  exact ⟨_, herror⟩

/-- Recovery of a mailbox whose path does not depend on its claims. -/
theorem Opens.recoveryResult
    (h : mailbox.Opens world home) (hsound : world.tree.Sound)
    (hclear : mailbox.StaysClear world home) :
    RecoveryResult mailbox world home (claims world home)
      (Action.outcome mailbox.recoverClaims world) := by
  have hstart : Underway mailbox world home [] (world.scan.arrange (world.tree.names home))
      world := {
    opens := h
    clear := hclear
    steady := steady_refl mailbox world
    sound := hsound
    recovered := Tree.recovered_nil home world.tree
    returned := fun _ hmem => absurd hmem List.not_mem_nil
    coming := fun name hmem => (mem_claims.mp hmem).2
    nodup := nodup_claims world home }
  rw [recoverClaims, Action.outcome_bind, Action.outcome_onPath, World.answer, h.list_eq]
  exact hstart.recoveryResult

end Runs

end Mailbox

end Postbox
