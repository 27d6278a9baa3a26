import Postbox.Proofs.Ascents
import Postbox.Proofs.Mailboxes

/-!
# Walks along the components of a path

Only the components of a path decide to which directory it leads.  So the directory before the last
component is one step away, and the directories of a path and of all paths above it make up a walk
from the one to the root, in which every step goes to the parent or to a child.
-/

namespace Postbox

namespace Tree

variable {tree : Tree} {cwd place found home : Location}

/-! ## Where components lead -/

/-- The directory that components lead to, one after the other. -/
def reach (tree : Tree) : Location → List Bytes → Except Fault Location
  | place, [] => do
    tree.inDirectory place
    return place
  | place, segment :: rest => do
    tree.reach (← tree.move place (.ofSegment segment)) rest

theorem reach_nil_eq_ok_iff :
    tree.reach place [] = .ok found ↔ tree.get? place = some .directory ∧ found = place := by
  rw [reach]
  cases hplace : tree.inDirectory place with
  | error fault =>
      simp only [bind, Except.bind, reduceCtorEq, false_iff, not_and]
      intro hdir
      rw [inDirectory_eq_ok_iff.mpr hdir] at hplace
      cases hplace
  | ok _ => simp [bind, Except.bind, pure, Except.pure, inDirectory_eq_ok_iff.mp hplace, eq_comm]

/-- Nobody gets anywhere from where no directory is. -/
theorem reach_of_inDirectory_eq_error
    {fault : Fault} (h : tree.inDirectory place = .error fault) (segments : List Bytes) :
    tree.reach place segments = .error fault := by
  cases segments with
  | nil =>
      rw [reach, h]
      rfl
  | cons segment rest =>
      rw [reach, move.eq_def, h]
      rfl

theorem reach_append (place : Location) (front back : List Bytes) :
    tree.reach place (front ++ back) = tree.reach place front >>= (tree.reach · back) := by
  induction front generalizing place with
  | nil =>
      rw [List.nil_append, reach]
      cases hplace : tree.inDirectory place with
      | error fault => exact reach_of_inDirectory_eq_error hplace back
      | ok _ => rfl
  | cons segment rest ih =>
      rw [List.cons_append, reach, reach]
      cases tree.move place (.ofSegment segment) with
      | error fault => rfl
      | ok next => exact ih next

/-- The last component makes the last move, and ends in a directory. -/
theorem reach_concat_eq_ok_iff
    {front : List Bytes} {last : Bytes} :
    tree.reach place (front ++ [last]) = .ok found ↔
      ∃ middle, tree.reach place front = .ok middle ∧
        tree.move middle (.ofSegment last) = .ok found ∧ tree.get? found = some .directory := by
  rw [reach_append]
  cases tree.reach place front with
  | error fault => simp [bind, Except.bind]
  | ok middle =>
      simp only [bind, Except.bind, reach, Except.ok.injEq, exists_eq_left']
      cases tree.move middle (.ofSegment last) with
      | error fault => simp
      | ok next =>
          have hnil := @reach_nil_eq_ok_iff tree next found
          rw [reach] at hnil
          simp only [bind, Except.bind] at hnil
          simp only [Except.ok.injEq, hnil]
          constructor
          · rintro ⟨hdir, rfl⟩
            exact ⟨rfl, hdir⟩
          · rintro ⟨rfl, hdir⟩
            exact ⟨hdir, rfl⟩

/-- Stretches that mean nothing are passed over. -/
theorem reach_filter (place : Location) (segments : List Bytes) :
    (do
      let found ← tree.follow place (segments.map .ofSegment)
      tree.inDirectory found
      return found) = tree.reach place (segments.filter fun segment => !Path.isIdle segment) := by
  induction segments generalizing place with
  | nil => rfl
  | cons segment rest ih =>
      rw [List.map_cons, follow, List.filter_cons]
      cases hidle : Path.isIdle segment with
      | true =>
          have hstay : Path.Move.ofSegment segment = .stay := by
            simp only [Path.isIdle, Bool.or_eq_true, beq_iff_eq] at hidle
            rw [Path.Move.ofSegment, if_pos hidle]
          rw [hstay, move.eq_def, if_neg (by simp)]
          cases hplace : tree.inDirectory place with
          | error fault =>
              rw [reach_of_inDirectory_eq_error hplace]
              rfl
          | ok _ => exact ih place
      | false =>
          rw [Bool.not_false, if_pos rfl, reach]
          cases tree.move place (.ofSegment segment) with
          | error fault => rfl
          | ok next => exact ih next

/-- Only its components, and whether it starts at the root, decide where a path leads. -/
theorem enter_eq_reach (tree : Tree) (cwd : Location) (path : Path) :
    tree.enter cwd path = tree.reach (start cwd path) (Path.significant path.bytes) := by
  rw [enter, Path.moves]
  exact reach_filter _ _

theorem enter_of_isAbsolute
    {path : Path} (h : path.isAbsolute = true) :
    tree.enter cwd path = tree.reach [] (Path.significant path.bytes) := by
  rw [enter_eq_reach, start, if_pos h]

/-- In a sound tree the names of a directory lead there from the root. -/
theorem Sound.reach_directory
    (h : tree.Sound) (hhome : tree.get? home = some .directory) :
    tree.reach [] home = .ok home := by
  induction home using List.reverseRecOn with
  | nil => rfl
  | append_singleton front name ih =>
      have hsome : tree.get? (front ++ [name]) ≠ none := by simp [hhome]
      have hfront := h.parent hsome
      have hname := h.plain hsome (List.mem_append_right _ List.mem_cons_self)
      have hlen := h.short hsome (List.mem_append_right _ List.mem_cons_self)
      refine reach_concat_eq_ok_iff.mpr ⟨front, ih hfront, ?_, hhome⟩
      rw [hname.ofSegment_eq, move_eq_ok_iff]
      exact ⟨hfront, hlen, hsome, rfl⟩

/-- A component leads up or down. -/
theorem move_cases
    {segment : Bytes} (hsegment : Path.IsComponent segment)
    (h : tree.move place (.ofSegment segment) = .ok found) :
    segment = Path.dotdot ∧ found = place.dropLast ∨
      segment ≠ Path.dotdot ∧ found = place ++ [segment] := by
  have hidle : ¬(segment = [] ∨ segment = [Path.dot]) := by
    simpa [Path.isIdle] using hsegment.not_idle
  rw [Path.Move.ofSegment, if_neg hidle, move_eq_ok_iff] at h
  by_cases hup : segment = Path.dotdot
  · rw [if_pos hup] at h
    exact .inl ⟨hup, h.2⟩
  · rw [if_neg hup] at h
    exact .inr ⟨hup, h.2.2.2⟩

/-- A directory takes no more room than the components that lead there. -/
theorem extent_le_of_reach
    {segments : List Bytes} (hsegments : ∀ segment ∈ segments, Path.IsComponent segment)
    (h : tree.reach place segments = .ok found) :
    Path.extent found ≤ Path.extent place + Path.extent segments := by
  induction segments using List.reverseRecOn generalizing found with
  | nil =>
      rw [(reach_nil_eq_ok_iff.mp h).2]
      exact Nat.le_add_right _ _
  | append_singleton front last ih =>
      obtain ⟨middle, hfront, hmove, -⟩ := reach_concat_eq_ok_iff.mp h
      have hmiddle := ih (fun _ hmem => hsegments _ (List.mem_append_left _ hmem)) hfront
      have hlast := hsegments last (List.mem_append_right _ List.mem_cons_self)
      rw [Path.extent_append]
      rcases move_cases hlast hmove with ⟨-, rfl⟩ | ⟨-, rfl⟩
      · have hup := Path.extent_dropLast_le middle
        omega
      · rw [Path.extent_append]
        omega

/-- Components without `..` lead straight down. -/
theorem eq_append_of_reach
    {segments : List Bytes} (hsegments : ∀ segment ∈ segments, Path.IsComponent segment)
    (hup : Path.dotdot ∉ segments) (h : tree.reach place segments = .ok found) :
    found = place ++ segments := by
  induction segments using List.reverseRecOn generalizing found with
  | nil =>
      rw [List.append_nil]
      exact (reach_nil_eq_ok_iff.mp h).2
  | append_singleton front last ih =>
      obtain ⟨middle, hfront, hmove, -⟩ := reach_concat_eq_ok_iff.mp h
      obtain ⟨hfrontUp, hlastUp⟩ := not_or.mp (mt List.mem_append.mpr hup)
      have hmiddle := ih (fun _ hmem => hsegments _ (List.mem_append_left _ hmem)) hfrontUp hfront
      have hlast := hsegments last (List.mem_append_right _ List.mem_cons_self)
      rcases move_cases hlast hmove with ⟨rfl, -⟩ | ⟨-, rfl⟩
      · exact absurd List.mem_cons_self hlastUp
      · rw [hmiddle, List.append_assoc]

/-! ## Directories of related paths -/

/-- Where the path of an entry leads is for its directory and its name to say. -/
theorem follow_child
    (tree : Tree) (cwd : Location) (dir : Path) {name : Name} (hname : Name.IsPlain name) :
    ∃ moves, (dir.child name).moves = moves ++ [.down name] ∧
      tree.enter cwd dir = (do
        let place ← tree.follow (start cwd (dir.child name)) moves
        tree.inDirectory place
        return place) := by
  obtain ⟨moves, hmoves, hdir⟩ := dir.moves_child hname
  have hstart : start cwd (dir.child name) = start cwd dir := by
    rw [start, start, dir.isAbsolute_child hname]
  refine ⟨moves, hmoves, ?_⟩
  rw [hstart, enter]
  rcases hdir with hdir | hdir
  · rw [hdir]
  · rw [hdir, follow_append]
    cases tree.follow (start cwd dir) moves with
    | error fault => rfl
    | ok place =>
        simp only [bind, Except.bind, follow, move.eq_def]
        cases hplace : tree.inDirectory place with
        | error fault => rfl
        | ok _ => simp [pure, Except.pure, hplace]

theorem target_child_eq
    {dir : Path} {name : Name} (hname : Name.IsPlain name)
    (hfault : (dir.child name).fault? = none) :
    tree.target cwd (dir.child name) = (tree.enter cwd dir).map (· ++ [name]) := by
  obtain ⟨moves, hmoves, henter⟩ := follow_child tree cwd dir hname
  rw [target, hfault, hmoves, List.dropLast_concat, List.getLast?_concat, henter]
  cases tree.follow (start cwd (dir.child name)) moves with
  | error fault => rfl
  | ok place =>
      simp only [bind, Except.bind]
      cases tree.inDirectory place <;> rfl

/-- A component behind a path is one step more. -/
theorem enter_child_eq
    {dir : Path} {segment : Bytes} (hsegment : Path.IsComponent segment) :
    tree.enter cwd (dir.child segment) = tree.enter cwd dir >>= (tree.reach · [segment]) := by
  have hstart : start cwd (dir.child segment) = start cwd dir := by
    rw [start, start, dir.isAbsolute_child_of_isComponent hsegment]
  rw [enter_eq_reach, enter_eq_reach, hstart, Path.significant_child dir hsegment, reach_append]

theorem enter_eq_ok_iff_of_extends
    {path parent : Path} {last : Bytes} (h : path.Extends parent last) :
    tree.enter cwd path = .ok found ↔
      ∃ middle, tree.enter cwd parent = .ok middle ∧
        tree.move middle (.ofSegment last) = .ok found ∧ tree.get? found = some .directory := by
  have hstart : start cwd path = start cwd parent := by
    rw [start, start, h.isAbsolute_eq]
  rw [enter_eq_reach, enter_eq_reach, hstart, h.significant_eq, reach_concat_eq_ok_iff]

theorem Sound.get?_of_concat
    (h : tree.Sound) {front : Location} {name : Name}
    (hplace : tree.get? (front ++ [name]) = some .directory) :
    tree.get? front = some .directory := by
  apply h.parent
  rw [hplace]
  exact Option.some_ne_none _

theorem Sound.get?_dropLast
    (h : tree.Sound) (hplace : tree.get? place = some .directory) :
    tree.get? place.dropLast = some .directory := by
  rcases place.eq_nil_or_concat' with rfl | ⟨front, name, rfl⟩
  · exact hplace
  · rw [List.dropLast_concat]
    exact h.get?_of_concat hplace

/-- The directory around another one is its parent, however its path is written. -/
theorem Sound.enter_directoryAround
    (h : tree.Sound) {base : Path} (hbase : tree.enter cwd base = .ok home) :
    tree.enter cwd (Mailbox.directoryAround base) = .ok home.dropLast := by
  have hup : tree.enter cwd (base.join ⟨Path.dotdot⟩) = .ok home.dropLast := by
    obtain ⟨-, hhome⟩ := enter_eq_ok_iff.mp hbase
    have hmove : tree.move home .up = .ok home.dropLast := move_eq_ok_iff.mpr ⟨hhome, rfl⟩
    have hrest := reach_nil_eq_ok_iff.mpr ⟨h.get?_dropLast hhome, rfl⟩
    have hstep : tree.reach home [Path.dotdot] = .ok home.dropLast := by
      rw [reach, show Path.Move.ofSegment Path.dotdot = .up by decide, hmove]
      exact hrest
    have hchild := @enter_child_eq tree cwd base Path.dotdot Path.isComponent_dotdot
    rw [hbase] at hchild
    exact hchild.trans hstep
  rw [Mailbox.directoryAround]
  split
  · rename_i parent name hparent hname
    split
    · exact hup
    · rcases Path.extends_of_parent?_eq_some hparent with ⟨last, hextends⟩ | ⟨-, hnone, -⟩
      · obtain ⟨middle, hmiddle, hmove, -⟩ := (enter_eq_ok_iff_of_extends hextends).mp hbase
        rcases move_cases hextends.isComponent hmove with ⟨hlast, -⟩ | ⟨-, rfl⟩
        · rw [hextends.fileName?_eq, if_pos hlast] at hname
          cases hname
        · rw [List.dropLast_concat]
          exact hmiddle
      · rw [hnone] at hname
        cases hname
  · exact hup

/-- A relative path leads to a directory from an existing directory only. -/
theorem get?_of_enter
    {dir : Path} (habs : dir.isAbsolute = false) (h : tree.enter cwd dir = .ok home) :
    tree.get? cwd = some .directory := by
  obtain ⟨hfollow, hhome⟩ := enter_eq_ok_iff.mp h
  have hplace := get?_of_follow_eq_ok hhome hfollow
  rwa [start, habs, if_neg Bool.false_ne_true] at hplace

/-- A path seen from the working directory has the components of both, and only those that can be
names before its own. -/
theorem Sound.absolute_spec
    (h : tree.Sound) {dir : Path} (hzero : (0 : UInt8) ∉ dir.bytes)
    (hdir : tree.enter cwd dir = .ok home) :
    (Path.absolute (World.pathOf cwd) dir).Rooted ∧
      Path.significant (Path.absolute (World.pathOf cwd) dir).bytes =
        start cwd dir ++ Path.significant dir.bytes ∧
      tree.get? (start cwd dir) = some .directory := by
  have hstart : dir.isAbsolute = false → tree.get? cwd = some .directory :=
    fun habs => get?_of_enter habs hdir
  have hcwd : dir.isAbsolute = false →
      (World.pathOf cwd).Rooted ∧ Path.significant (World.pathOf cwd).bytes = cwd := by
    intro habs
    have hsome : tree.get? cwd ≠ none := by simp [hstart habs]
    exact World.pathOf_spec fun _ => h.plain hsome
  obtain ⟨hrooted, hsignificant⟩ := Path.absolute_spec (fun habs => (hcwd habs).1) hzero
  rw [hsignificant, start]
  cases habs : dir.isAbsolute with
  | true => exact ⟨hrooted, rfl, rfl⟩
  | false =>
      rw [if_neg Bool.false_ne_true, if_neg Bool.false_ne_true, (hcwd habs).2]
      exact ⟨hrooted, rfl, hstart habs⟩

/-- A path seen from the working directory leads to the same directory from everywhere. -/
theorem Sound.enter_absolute
    (h : tree.Sound) {dir : Path} (hzero : (0 : UInt8) ∉ dir.bytes)
    (hdir : tree.enter cwd dir = .ok home) (elsewhere : Location) :
    tree.enter elsewhere (Path.absolute (World.pathOf cwd) dir) = .ok home := by
  obtain ⟨hrooted, hsignificant, hstart⟩ := h.absolute_spec hzero hdir
  rw [enter_of_isAbsolute hrooted.isAbsolute_eq, hsignificant, reach_append,
    h.reach_directory hstart]
  rwa [enter_eq_reach] at hdir

/-- The path that names a directory from the root leads there, and is not longer than any other
path from the root that does. -/
theorem Sound.enter_pathOf
    (h : tree.Sound) (hhome : tree.get? home = some .directory) :
    (World.pathOf home).Rooted ∧ tree.enter cwd (World.pathOf home) = .ok home ∧
      ∀ {path : Path}, path.Rooted → tree.enter cwd path = .ok home →
        (World.pathOf home).bytes.length ≤ path.bytes.length := by
  have hsome : tree.get? home ≠ none := by simp [hhome]
  obtain ⟨hrooted, hsignificant⟩ := World.pathOf_spec fun _ => h.plain hsome
  refine ⟨hrooted, ?_, fun {path} hpath henter => ?_⟩
  · rw [enter_of_isAbsolute hrooted.isAbsolute_eq, hsignificant]
    exact h.reach_directory hhome
  · rw [enter_of_isAbsolute hpath.isAbsolute_eq] at henter
    have hlen := World.length_pathOf_le fun _ => h.plain hsome
    have hextent := extent_le_of_reach (fun _ => Path.isComponent_of_mem_significant) henter
    have hsignificantLen := Path.extent_significant_le hpath.isAbsolute_eq
    have hpos := List.length_pos_iff.mpr hpath.ne_nil
    have hroot : Path.extent [] = 0 := rfl
    omega

theorem Sound.get?_of_isPrefix
    (h : tree.Sound) (hhome : tree.get? home = some .directory) (hpre : place <+: home) :
    tree.get? place = some .directory := by
  obtain ⟨rest, rfl⟩ := hpre
  induction rest using List.reverseRecOn with
  | nil => simpa using hhome
  | append_singleton front name ih =>
      rw [← List.append_assoc] at hhome
      exact ih (h.get?_of_concat hhome)

/-- A path without `..` passes only through directories around the one it leads to. -/
theorem isPrefix_of_mem_ancestors
    {path above : Path} (hup : Path.dotdot ∉ Path.significant path.bytes)
    (henter : tree.enter cwd path = .ok home) (hmem : above ∈ path.ancestors)
    (habove : tree.enter cwd above = .ok place) :
    place <+: home := by
  obtain ⟨hsame, -, hpre⟩ := Path.isPrefix_of_mem_ancestors hmem
  have hcomponents : ∀ {other : Path}, ∀ segment ∈ Path.significant other.bytes,
      Path.IsComponent segment := fun _ => Path.isComponent_of_mem_significant
  have hstart : start cwd above = start cwd path := by
    rw [start, start, hsame]
  rw [enter_eq_reach] at henter habove
  rw [eq_append_of_reach hcomponents hup henter,
    eq_append_of_reach hcomponents (fun h => hup (hpre.subset h)) habove, hstart]
  exact (List.prefix_append_right_inj _).mpr hpre

/-! ## From a directory to the root -/

/-- One place is the directory around the other. -/
def Adjacent (a b : Location) : Prop :=
  b = a.dropLast ∨ a = b.dropLast

/-- The places make up a walk that ends at the root. -/
inductive Homeward : List Location → Prop where
  | root : Homeward [[]]
  | step {a b : Location} {rest : List Location} (hadjacent : Adjacent a b)
      (hrest : Homeward (b :: rest)) : Homeward (a :: b :: rest)

/-- A path from the root and all paths above it lead along a walk. -/
theorem exists_homeward
    {path : Path} (habs : path.isAbsolute = true) (h : tree.enter cwd path = .ok home) :
    ∃ walk, List.Forall₂ (fun above place => tree.enter cwd above = .ok place) path.ancestors
      (home :: walk) ∧ Homeward (home :: walk) := by
  induction path, habs using Path.ascend generalizing home with
  | root path habs hparent =>
      have hroot := h
      rw [enter_of_isAbsolute habs, Path.significant_of_parent?_eq_none hparent] at hroot
      obtain ⟨-, rfl⟩ := reach_nil_eq_ok_iff.mp hroot
      rw [Path.ancestors_of_parent?_eq_none hparent]
      exact ⟨[], .cons h .nil, .root⟩
  | step path parent last habs hparentAbs hparent hextends ih =>
      obtain ⟨middle, hmiddle, hmove, -⟩ := (enter_eq_ok_iff_of_extends hextends).mp h
      obtain ⟨walk, hall, hwalk⟩ := ih hmiddle
      rw [Path.ancestors_of_parent?_eq_some hparent]
      refine ⟨middle :: walk, .cons h hall, .step ?_ hwalk⟩
      rcases move_cases hextends.isComponent hmove with ⟨-, rfl⟩ | ⟨-, rfl⟩
      · exact .inr rfl
      · exact .inl List.dropLast_concat.symm

/-- A path leads to the same directory as long as no directory on the way is lost. -/
theorem enter_of_directories
    {after : Tree} {path : Path} (h : tree.enter cwd path = .ok home)
    (hkept : ∀ above ∈ path.ancestors, ∀ place, tree.enter cwd above = .ok place →
      after.get? place = some .directory) :
    after.enter cwd path = .ok home := by
  have hself : ∀ path : Path, path ∈ path.ancestors := by
    intro path
    rw [Path.ancestors]
    exact List.mem_cons_self
  induction path using Path.climb generalizing home with
  | start path hnil =>
      have hhome := hkept path (hself path) home h
      rw [enter_eq_reach, hnil] at h ⊢
      obtain ⟨-, rfl⟩ := reach_nil_eq_ok_iff.mp h
      exact reach_nil_eq_ok_iff.mpr ⟨hhome, rfl⟩
  | step path parent last hparent hextends ih =>
      rw [Path.ancestors_of_parent?_eq_some hparent] at hkept
      have hhome := hkept path List.mem_cons_self home h
      obtain ⟨middle, hmiddle, hmove, -⟩ := (enter_eq_ok_iff_of_extends hextends).mp h
      have hparentKept := fun above hmem => hkept above (List.mem_cons_of_mem _ hmem)
      refine (enter_eq_ok_iff_of_extends hextends).mpr
        ⟨middle, ih hmiddle hparentKept, ?_, hhome⟩
      rw [move_eq_ok_iff] at hmove ⊢
      refine ⟨hparentKept parent (hself parent) middle hmiddle, ?_⟩
      cases hstep : Path.Move.ofSegment last with
      | stay => simpa [hstep] using hmove.2
      | up => simpa [hstep] using hmove.2
      | down name =>
          rw [hstep] at hmove
          obtain ⟨-, hlen, -, rfl⟩ := hmove
          exact ⟨hlen, by simp [hhome], rfl⟩

/-- Renaming loses no directory but those that go along. -/
theorem get?_directory_of_moveEntry
    {tree after : Tree} {source target location : Location} (hsound : tree.Sound)
    (hsource : source ≠ []) (htarget : target ≠ [])
    (h : tree.moveEntry source target = .ok after)
    (hlocation : tree.get? location = some .directory) (hnotSource : ¬source <+: location) :
    after.get? location = some .directory := by
  by_cases hpre : target <+: location
  swap
  · have hsame := get?_moveEntry_of_not_prefix hsound hsource htarget h hnotSource hpre
    rw [hsame, hlocation]
  -- Only an empty directory is replaced, so the location is the target itself.
  have hdir := hsound.get?_of_isPrefix hlocation hpre
  obtain ⟨-, ⟨content, -, hfree, -⟩ | ⟨hsourceDir, ⟨rfl, -⟩ | ⟨-, ⟨hfree, -⟩ | ⟨-, hempty, rfl⟩⟩⟩⟩ :=
    moveEntry_cases h
  · exact absurd hdir hfree
  · exact absurd hpre hnotSource
  · rw [hfree] at hdir
    cases hdir
  · obtain ⟨rest, rfl⟩ := hpre
    cases rest with
    | nil =>
        have herased := hsound.erase_empty htarget hempty
        have hgone : (tree.erase target).get? target = none := by simp [get?_erase, htarget]
        have hne : source ≠ target := by
          rintro rfl
          exact hnotSource (List.prefix_append _ _)
        rw [List.append_nil, get?_graft hsource htarget fun _ => herased.get?_below_none hgone]
        simp [get?_erase _ _ htarget, hne, hsourceDir]
    | cons name rest =>
        exfalso
        have hchild := hsound.get?_of_isPrefix hlocation
          (show target ++ [name] <+: target ++ name :: rest by simp)
        have hmem := mem_names.mpr (show tree.get? (target ++ [name]) ≠ none by simp [hchild])
        rw [hempty] at hmem
        cases hmem

end Tree

/-! ## Paths with room behind them -/

namespace Path

/-- The bytes that are kept free behind a path, for the name of a neighbour and for that of a
staging file in it. -/
def reserve : Nat := 300

/-- There is room behind the path for the names of entries. -/
def Roomy (path : Path) : Prop :=
  path.bytes.length + reserve ≤ maxLength

theorem Rooted.fault?_eq
    {path : Path} (h : path.Rooted) (hlen : path.bytes.length ≤ maxLength) :
    path.fault? = none := by
  rw [fault?, if_neg (by simpa using h.zero_notMem), if_neg h.ne_nil,
    if_neg (Nat.not_lt.mpr hlen)]

end Path

namespace Mailbox

theorem admits_of_roomy
    {mailbox : Mailbox} (hroom : mailbox.dir.Roomy) {name : String}
    (hname : Name.IsPlain (Bytes.ofText name))
    (hshort : (Bytes.ofText name).length ≤ Path.maxName) :
    mailbox.Admits name := by
  refine ⟨hname, hshort, fits_of_length hname ?_⟩
  simp only [Path.Roomy, Path.reserve, Path.maxName, Path.maxLength] at hroom hshort ⊢
  omega

/-- All paths above that of a mailbox are paths of mailboxes, along a walk to the root. -/
theorem exists_homeward_opens
    {path : Path} {world : World} {home : Location} (hrooted : path.Rooted) (hroom : path.Roomy)
    (henter : world.tree.enter world.cwd path = .ok home) :
    ∃ walk, List.Forall₂ (fun above place => Opens ⟨above⟩ world place ∧ above.Roomy)
      path.ancestors (home :: walk) ∧ Tree.Homeward (home :: walk) := by
  obtain ⟨walk, hall, hwalk⟩ := Tree.exists_homeward hrooted.isAbsolute_eq henter
  refine ⟨walk, ?_, hwalk⟩
  refine (List.forall₂_iff_get.mpr ?_)
  obtain ⟨hlen, hget⟩ := List.forall₂_iff_get.mp hall
  refine ⟨hlen, fun i hi hj => ?_⟩
  obtain ⟨haboveRooted, haboveLen⟩ := hrooted.of_mem_ancestors (List.get_mem path.ancestors ⟨i, hi⟩)
  have haboveRoom := Nat.le_trans (Nat.add_le_add_right haboveLen _) hroom
  have hfault := haboveRooted.fault?_eq (Nat.le_trans (Nat.le_add_right _ _) haboveRoom)
  exact ⟨opens_of_enter hfault (hget i hi hj), haboveRoom⟩

end Mailbox

end Postbox
