import Mathlib.Data.List.Induction
import Mathlib.Data.List.Nodup
import Mathlib.Tactic.Common
import Postbox.Files.Operation
import Postbox.Proofs.Names

/-!
# Trees as file systems keep them

In a sound tree every entry has a plain name of bearable length and lies in a directory.  Operations
keep trees sound.  Renaming a directory takes along all that is below it and touches nothing else.
-/

namespace Postbox.Tree

/-- All names are plain and not too long, and every entry lies in a directory. -/
structure Sound (tree : Tree) : Prop where
  plain : ∀ {location : Location} {name : Name},
    tree.get? location ≠ none → name ∈ location → Name.IsPlain name
  short : ∀ {location : Location} {name : Name},
    tree.get? location ≠ none → name ∈ location → name.length ≤ Path.maxName
  parent : ∀ {directory : Location} {name : Name},
    tree.get? (directory ++ [name]) ≠ none → tree.get? directory = some .directory

theorem sound_empty :
    empty.Sound := by
  have hnone : ∀ location : Location, empty.get? location ≠ none → location = [] := by
    intro location h
    by_contra hne
    exact h (by simp [get?, hne, empty])
  constructor
  · intro location name h hmem
    rw [hnone location h] at hmem
    cases hmem
  · intro location name h hmem
    rw [hnone location h] at hmem
    cases hmem
  · intro directory name h
    have := hnone _ h
    simp at this

/-- Two trees have the same directories. -/
def SameDirectories (a b : Tree) : Prop :=
  ∀ location, a.get? location = some .directory ↔ b.get? location = some .directory

theorem SameDirectories.refl (tree : Tree) :
    SameDirectories tree tree :=
  fun _ => Iff.rfl

theorem SameDirectories.symm
    {a b : Tree} (h : SameDirectories a b) :
    SameDirectories b a :=
  fun location => (h location).symm

theorem SameDirectories.trans
    {a b c : Tree} (hab : SameDirectories a b) (hbc : SameDirectories b c) :
    SameDirectories a c :=
  fun location => (hab location).trans (hbc location)

/-! ## The names in a directory -/

theorem mem_names
    {tree : Tree} {directory : Location} {name : Name} :
    name ∈ tree.names directory ↔ tree.get? (directory ++ [name]) ≠ none := by
  have hne : directory ++ [name] ≠ [] := by simp
  have hentry : tree.get? (directory ++ [name]) ≠ none ↔ directory ++ [name] ∈ tree.entries := by
    rw [get?, if_neg hne, Std.ExtTreeMap.mem_iff_isSome_getElem?, Option.isSome_iff_ne_none]
  rw [hentry, names, List.mem_filterMap]
  constructor
  · rintro ⟨location, hmem, hlast⟩
    rw [Option.filter_eq_some_iff, decide_eq_true_eq] at hlast
    rw [← hlast.2]
    exact Std.ExtTreeMap.mem_keys.mp hmem
  · intro hmem
    refine ⟨directory ++ [name], Std.ExtTreeMap.mem_keys.mpr hmem, ?_⟩
    simp

theorem nodup_names (tree : Tree) (directory : Location) :
    (tree.names directory).Nodup := by
  refine List.Nodup.filterMap ?_ Std.ExtTreeMap.nodup_keys
  intro a b name ha hb
  simp only [Option.mem_def, Option.filter_eq_some_iff, decide_eq_true_eq] at ha hb
  rw [ha.2, hb.2]

/-! ## Writing and removing files -/

theorem Sound.put
    {tree : Tree} (h : tree.Sound) {directory : Location} {name : Name} (entry : Entry)
    (hdir : tree.get? directory = some .directory)
    (hname : Name.IsPlain name) (hlen : name.length ≤ Path.maxName)
    (hfile : tree.get? (directory ++ [name]) ≠ some .directory) :
    (tree.put (directory ++ [name]) entry).Sound := by
  have hne : directory ++ [name] ≠ [] := by simp
  have hdirNames : tree.get? directory ≠ none := by simp [hdir]
  refine ⟨?_, ?_, ?_⟩
  · intro location other hlocation hother
    rw [get?_put _ _ _ hne] at hlocation
    split at hlocation
    · rename_i heq
      subst heq
      rcases List.mem_append.mp hother with hother | hother
      · exact h.plain hdirNames hother
      · exact List.mem_singleton.mp hother ▸ hname
    · exact h.plain hlocation hother
  · intro location other hlocation hother
    rw [get?_put _ _ _ hne] at hlocation
    split at hlocation
    · rename_i heq
      subst heq
      rcases List.mem_append.mp hother with hother | hother
      · exact h.short hdirNames hother
      · exact List.mem_singleton.mp hother ▸ hlen
    · exact h.short hlocation hother
  · intro place other hplace
    rw [get?_put _ _ _ hne] at hplace ⊢
    have hparent : tree.get? place = some .directory := by
      split at hplace
      · rename_i heq
        rw [(List.append_inj' heq rfl).1]
        exact hdir
      · exact h.parent hplace
    rw [if_neg, hparent]
    rintro rfl
    exact hfile hparent

theorem Sound.erase
    {tree : Tree} (h : tree.Sound) {target : Location} (hne : target ≠ [])
    (hempty : ∀ name, tree.get? (target ++ [name]) = none) :
    (tree.erase target).Sound := by
  have hold : ∀ {location : Location},
      (tree.erase target).get? location ≠ none → tree.get? location ≠ none := by
    intro location hlocation
    rw [get?_erase _ _ hne] at hlocation
    split at hlocation
    · exact absurd rfl hlocation
    · exact hlocation
  refine ⟨?_, ?_, ?_⟩
  · intro location name hlocation hname
    exact h.plain (hold hlocation) hname
  · intro location name hlocation hname
    exact h.short (hold hlocation) hname
  · intro directory name hentry
    rw [get?_erase _ _ hne, if_neg, h.parent (hold hentry)]
    rintro rfl
    exact hold hentry (hempty name)

theorem Sound.erase_empty
    {tree : Tree} (h : tree.Sound) {target : Location} (hne : target ≠ [])
    (hempty : tree.names target = []) :
    (tree.erase target).Sound := by
  apply h.erase hne
  intro name
  by_contra hentry
  rw [← ne_eq, ← mem_names, hempty] at hentry
  cases hentry

theorem Sound.get?_below_file
    {tree : Tree} (h : tree.Sound) {location : Location} {content : Bytes}
    (hfile : tree.get? location = some (.file content)) (name : Name) :
    tree.get? (location ++ [name]) = none := by
  by_contra hentry
  have hdir := h.parent hentry
  rw [hfile] at hdir
  cases hdir

/-! ## Moving an entry with all that is below it -/

/-- A place is where an entry has been moved to, or where one has stayed. -/
theorem relocate_eq_iff
    {source target key location : Location} :
    relocate source target key = location ↔
      (∃ rest, key = source ++ rest ∧ location = target ++ rest) ∨
        ¬source <+: key ∧ location = key := by
  unfold relocate
  split
  · rename_i hpre
    obtain ⟨rest, rfl⟩ := List.isPrefixOf_iff_prefix.mp hpre
    simp [eq_comm]
  · rename_i hpre
    rw [List.isPrefixOf_iff_prefix] at hpre
    constructor
    · rintro rfl
      exact .inr ⟨hpre, rfl⟩
    · rintro (⟨rest, rfl, -⟩ | ⟨-, rfl⟩)
      · exact absurd (List.prefix_append _ _) hpre
      · rfl

/-- As long as the target is free, no two entries are moved to one place. -/
theorem relocate_injOn
    {source target a b : Location} (ha : ¬target <+: a) (hb : ¬target <+: b)
    (h : relocate source target a = relocate source target b) :
    a = b := by
  rcases relocate_eq_iff.mp h with ⟨rest, rfl, hmoved⟩ | ⟨hstayed, hmoved⟩
  · rcases relocate_eq_iff.mp hmoved with ⟨other, rfl, heq⟩ | ⟨-, heq⟩
    · rw [List.append_cancel_left heq]
    · exact absurd ⟨rest, heq⟩ hb
  · rcases relocate_eq_iff.mp hmoved with ⟨other, rfl, rfl⟩ | ⟨-, rfl⟩
    · exact absurd (List.prefix_append _ _) ha
    · rfl

theorem get?_eq_some_iff_mem_toList
    {tree : Tree} {location : Location} {entry : Entry} (h : location ≠ []) :
    tree.get? location = some entry ↔ (location, entry) ∈ tree.entries.toList := by
  rw [get?, if_neg h, Std.ExtTreeMap.mem_toList_iff_getElem?_eq_some]

theorem not_prefix_of_mem_toList
    {tree : Tree} {target key : Location} {entry : Entry} (htarget : target ≠ [])
    (hfree : ∀ below, target <+: below → tree.get? below = none)
    (hkey : (key, entry) ∈ tree.entries.toList) :
    ¬target <+: key := by
  intro hpre
  have hne : key ≠ [] := by
    rintro rfl
    exact htarget (List.prefix_nil.mp hpre)
  rw [← get?_eq_some_iff_mem_toList hne, hfree key hpre] at hkey
  cases hkey

/-- Every entry is found where it has been moved to, and nothing else is. -/
theorem get?_graft_eq_some_iff
    {tree : Tree} {source target location : Location} {entry : Entry} (htarget : target ≠ [])
    (hfree : ∀ below, target <+: below → tree.get? below = none) (hne : location ≠ []) :
    (tree.graft source target).get? location = some entry ↔
      ∃ key, (key, entry) ∈ tree.entries.toList ∧ relocate source target key = location := by
  have hdistinct : (tree.entries.toList.map fun pair =>
      (relocate source target pair.1, pair.2)).Pairwise (fun a b => ¬compare a.1 b.1 = .eq) := by
    rw [List.pairwise_map]
    refine List.Pairwise.imp_of_mem ?_ Std.ExtTreeMap.distinct_keys_toList
    intro a b ha hb hab heq
    rw [Std.compare_eq_iff_eq] at heq hab
    exact hab (relocate_injOn (not_prefix_of_mem_toList htarget hfree ha)
      (not_prefix_of_mem_toList htarget hfree hb) heq)
  have hmoved : ∀ {key : Location} {entry : Entry}, (key, entry) ∈ tree.entries.toList →
      relocate source target key = location →
        (tree.graft source target).get? location = some entry := by
    intro key entry hkey hrel
    rw [get?, if_neg hne, graft, dif_neg htarget]
    refine Std.ExtTreeMap.getElem?_ofList_of_mem (k := location) Std.ReflCmp.compare_self
      hdistinct ?_
    exact List.mem_map.mpr ⟨(key, entry), hkey, Prod.ext hrel rfl⟩
  constructor
  · intro h
    by_cases hsome : ∃ pair ∈ tree.entries.toList, relocate source target pair.1 = location
    · obtain ⟨⟨key, other⟩, hkey, hrel⟩ := hsome
      rw [hmoved hkey hrel, Option.some.injEq] at h
      exact ⟨key, h ▸ hkey, hrel⟩
    · rw [get?, if_neg hne, graft, dif_neg htarget,
        Std.ExtTreeMap.getElem?_ofList_of_contains_eq_false] at h
      · cases h
      · rw [← Bool.not_eq_true, List.contains_iff_mem, List.map_map, List.mem_map]
        exact hsome
  · rintro ⟨key, hkey, hrel⟩
    exact hmoved hkey hrel

/-- What is where after an entry has moved to a free place. -/
theorem get?_graft
    {tree : Tree} {source target : Location} (hsource : source ≠ []) (htarget : target ≠ [])
    (hfree : ∀ below, target <+: below → tree.get? below = none) (location : Location) :
    (tree.graft source target).get? location =
      if target <+: location then tree.get? (source ++ location.drop target.length)
      else if source <+: location then none
      else tree.get? location := by
  by_cases hne : location = []
  · subst hne
    simp [List.prefix_nil, htarget, hsource]
  ext entry
  rw [get?_graft_eq_some_iff htarget hfree hne]
  split
  · rename_i hpre
    obtain ⟨rest, rfl⟩ := hpre
    rw [List.drop_left, get?_eq_some_iff_mem_toList (by simp [hsource])]
    constructor
    · rintro ⟨key, hkey, hrel⟩
      rcases relocate_eq_iff.mp hrel with ⟨other, rfl, heq⟩ | ⟨-, rfl⟩
      · rwa [List.append_cancel_left heq]
      · exact absurd (List.prefix_append _ _) (not_prefix_of_mem_toList htarget hfree hkey)
    · intro hkey
      exact ⟨source ++ rest, hkey, relocate_eq_iff.mpr (.inl ⟨rest, rfl, rfl⟩)⟩
  · rename_i hpre
    split
    · rename_i hsourcePrefix
      simp only [reduceCtorEq, iff_false, not_exists, not_and]
      intro key hkey hrel
      rcases relocate_eq_iff.mp hrel with ⟨rest, rfl, rfl⟩ | ⟨hstayed, rfl⟩
      · exact hpre (List.prefix_append _ _)
      · exact hstayed hsourcePrefix
    · rename_i hsourcePrefix
      rw [get?_eq_some_iff_mem_toList hne]
      constructor
      · rintro ⟨key, hkey, hrel⟩
        rcases relocate_eq_iff.mp hrel with ⟨rest, rfl, rfl⟩ | ⟨-, rfl⟩
        · exact absurd (List.prefix_append _ _) hpre
        · exact hkey
      · intro hkey
        exact ⟨location, hkey, relocate_eq_iff.mpr (.inr ⟨hsourcePrefix, rfl⟩)⟩

/-- Nothing is below a free place. -/
theorem Sound.get?_below_none
    {tree : Tree} (h : tree.Sound) {location below : Location}
    (hfree : tree.get? location = none) (hbelow : location <+: below) :
    tree.get? below = none := by
  obtain ⟨rest, rfl⟩ := hbelow
  induction rest using List.reverseRecOn with
  | nil => rwa [List.append_nil]
  | append_singleton rest name ih =>
      by_contra hentry
      rw [← List.append_assoc] at hentry
      rw [h.parent hentry] at ih
      cases ih

/-- The names on the way to an entry that has moved are old ones, but for the new name. -/
theorem eq_or_exists_of_mem_graft
    {tree : Tree} {source directory location : Location} {name other : Name}
    (hsource : source ≠ []) (hdir : tree.get? directory = some .directory)
    (hfree : ∀ below, directory ++ [name] <+: below → tree.get? below = none)
    (hlocation : (tree.graft source (directory ++ [name])).get? location ≠ none)
    (hother : other ∈ location) :
    other = name ∨ ∃ origin, tree.get? origin ≠ none ∧ other ∈ origin := by
  rw [get?_graft hsource (by simp) hfree] at hlocation
  split at hlocation
  · rename_i hmoved
    obtain ⟨rest, rfl⟩ := hmoved
    rw [List.drop_left] at hlocation
    rcases List.mem_append.mp hother with hother | hother
    · rcases List.mem_append.mp hother with hother | hother
      · exact .inr ⟨directory, by simp [hdir], hother⟩
      · exact .inl (List.mem_singleton.mp hother)
    · exact .inr ⟨_, hlocation, List.mem_append_right _ hother⟩
  · split at hlocation
    · exact absurd rfl hlocation
    · exact .inr ⟨location, hlocation, hother⟩

theorem Sound.graft
    {tree : Tree} (h : tree.Sound) {source directory : Location} {name : Name}
    (hsource : source ≠ []) (hdir : tree.get? directory = some .directory)
    (hname : Name.IsPlain name) (hlen : name.length ≤ Path.maxName)
    (hfree : tree.get? (directory ++ [name]) = none)
    (hpre : ¬source <+: directory ++ [name]) :
    (tree.graft source (directory ++ [name])).Sound := by
  have hbelow : ∀ below, directory ++ [name] <+: below → tree.get? below = none :=
    fun _ => h.get?_below_none hfree
  have hget := get?_graft hsource (by simp) hbelow
  refine ⟨?_, ?_, ?_⟩
  · intro location other hlocation hother
    rcases eq_or_exists_of_mem_graft hsource hdir hbelow hlocation hother with
      rfl | ⟨origin, horigin, hmem⟩
    · exact hname
    · exact h.plain horigin hmem
  · intro location other hlocation hother
    rcases eq_or_exists_of_mem_graft hsource hdir hbelow hlocation hother with
      rfl | ⟨origin, horigin, hmem⟩
    · exact hlen
    · exact h.short horigin hmem
  · intro place other hplace
    rw [hget] at hplace ⊢
    by_cases hmoved : directory ++ [name] <+: place
    · obtain ⟨rest, rfl⟩ := hmoved
      rw [if_pos ((List.prefix_append _ _).trans (List.prefix_append _ _)),
        List.append_assoc, List.drop_left, ← List.append_assoc] at hplace
      rw [if_pos (List.prefix_append _ _), List.drop_left]
      exact h.parent hplace
    · rw [if_neg hmoved]
      by_cases hend : directory ++ [name] = place ++ [other]
      · obtain rfl := (List.append_inj' hend rfl).1
        rw [if_neg (fun hsub => hpre (hsub.trans (List.prefix_append _ _)))]
        exact hdir
      · have hstayed : ¬directory ++ [name] <+: place ++ [other] := by
          intro hsub
          rcases List.prefix_concat_iff.mp hsub with heq | hsub
          · exact hend heq
          · exact hmoved hsub
        rw [if_neg hstayed] at hplace
        split at hplace
        · exact absurd rfl hplace
        · rename_i hsub
          rw [if_neg (fun hsub' => hsub (hsub'.trans (List.prefix_append _ _)))]
          exact h.parent hplace

/-! ## Renaming -/

theorem checkName_concat
    {directory : Location} {name : Name} :
    checkName (directory ++ [name]) = .ok () ↔ name.length ≤ Path.maxName := by
  rw [checkName, List.getLast?_concat]
  simp only
  split
  · simp only [reduceCtorEq, false_iff]
    omega
  · simp only [true_iff]
    omega

theorem moveEntry_file
    {tree : Tree} {source target : Location} {content : Bytes}
    (hsource : tree.get? source = some (.file content))
    (htarget : tree.get? target ≠ some .directory) (hname : checkName target = .ok ()) :
    tree.moveEntry source target = .ok ((tree.erase source).put target (.file content)) := by
  rw [moveEntry, hsource]
  simp only [hname]
  cases hentry : tree.get? target with
  | none => rfl
  | some entry =>
      cases entry with
      | file other => rfl
      | directory => exact absurd hentry htarget

/-- What renaming a directory comes to when it succeeds. -/
theorem moveEntry_directory_cases
    {tree after : Tree} {source target : Location}
    (hsource : tree.get? source = some .directory) (hname : checkName target = .ok ())
    (h : tree.moveEntry source target = .ok after) :
    source = target ∧ after = tree ∨
      ¬source <+: target ∧
        (tree.get? target = none ∧ after = tree.graft source target ∨
          tree.get? target = some .directory ∧ tree.names target = [] ∧
            after = (tree.erase target).graft source target) := by
  rw [moveEntry, hsource] at h
  simp only [hname, bind, Except.bind, pure, Except.pure] at h
  split at h
  · rename_i hsame
    cases h
    exact .inl ⟨hsame, rfl⟩
  · right
    split at h
    · cases h
    · rename_i hpre
      rw [List.isPrefixOf_iff_prefix] at hpre
      refine ⟨hpre, ?_⟩
      split at h
      · cases h
      · rename_i htarget
        split at h
        · rename_i hempty
          cases h
          exact .inr ⟨htarget, hempty, rfl⟩
        · cases h
      · rename_i htarget
        cases h
        exact .inl ⟨htarget, rfl⟩

/-- What renaming comes to when it succeeds. -/
theorem moveEntry_cases
    {tree after : Tree} {source target : Location}
    (h : tree.moveEntry source target = .ok after) :
    checkName target = .ok () ∧
      ((∃ content, tree.get? source = some (.file content) ∧
          tree.get? target ≠ some .directory ∧
          after = (tree.erase source).put target (.file content)) ∨
        tree.get? source = some .directory ∧
          (source = target ∧ after = tree ∨
            ¬source <+: target ∧
              (tree.get? target = none ∧ after = tree.graft source target ∨
                tree.get? target = some .directory ∧ tree.names target = [] ∧
                  after = (tree.erase target).graft source target))) := by
  have hname : checkName target = .ok () := by
    unfold moveEntry at h
    cases hname : checkName target with
    | ok _ => rfl
    | error fault =>
        rw [hname] at h
        split at h <;> cases h
  refine ⟨hname, ?_⟩
  cases hsource : tree.get? source with
  | none =>
      rw [moveEntry, hsource] at h
      cases h
  | some entry =>
      cases entry with
      | directory => exact .inr ⟨rfl, moveEntry_directory_cases hsource hname h⟩
      | file content =>
          by_cases htarget : tree.get? target = some .directory
          · simp [moveEntry, hsource, hname, htarget, bind, Except.bind, throw, throwThe,
              MonadExceptOf.throw] at h
          · rw [moveEntry_file hsource htarget hname] at h
            cases h
            exact .inl ⟨content, rfl, htarget, rfl⟩

/-- Renaming touches only what is at or below the two places. -/
theorem get?_moveEntry_of_not_prefix
    {tree after : Tree} {source target location : Location} (hsound : tree.Sound)
    (hsource : source ≠ []) (htarget : target ≠ [])
    (h : tree.moveEntry source target = .ok after)
    (hnotSource : ¬source <+: location) (hnotTarget : ¬target <+: location) :
    after.get? location = tree.get? location := by
  have hneSource : location ≠ source := by
    rintro rfl
    exact hnotSource (List.prefix_refl _)
  have hneTarget : location ≠ target := by
    rintro rfl
    exact hnotTarget (List.prefix_refl _)
  obtain ⟨-, ⟨content, -, -, rfl⟩ | ⟨-, ⟨rfl, rfl⟩ | ⟨-, ⟨hfree, rfl⟩ | ⟨-, hempty, rfl⟩⟩⟩⟩ :=
    moveEntry_cases h
  · rw [get?_put _ _ _ htarget, if_neg hneTarget, get?_erase _ _ hsource, if_neg hneSource]
  · rfl
  · rw [get?_graft hsource htarget (fun _ => hsound.get?_below_none hfree),
      if_neg hnotTarget, if_neg hnotSource]
  · have herased := hsound.erase_empty htarget hempty
    have hgone : (tree.erase target).get? target = none := by simp [get?_erase, htarget]
    rw [get?_graft hsource htarget (fun _ => herased.get?_below_none hgone),
      if_neg hnotTarget, if_neg hnotSource, get?_erase _ _ htarget, if_neg hneTarget]

/-- Renaming to a plain name in a directory keeps a tree sound. -/
theorem Sound.moveEntry
    {tree after : Tree} (hsound : tree.Sound) {source directory : Location} {name : Name}
    (hsource : source ≠ []) (hdir : tree.get? directory = some .directory)
    (hname : Name.IsPlain name)
    (h : tree.moveEntry source (directory ++ [name]) = .ok after)
    (hnotSource : ¬source <+: directory) :
    after.Sound := by
  have htarget : directory ++ [name] ≠ [] := by simp
  have hne : source ≠ directory := by
    rintro rfl
    exact hnotSource (List.prefix_refl _)
  obtain ⟨hcheck, ⟨content, hfile, hnotDir, rfl⟩ | ⟨-, ⟨rfl, rfl⟩ |
    ⟨hpre, ⟨hfree, rfl⟩ | ⟨htargetDir, hempty, rfl⟩⟩⟩⟩ := moveEntry_cases h
  · refine (hsound.erase hsource (hsound.get?_below_file hfile)).put (.file content) ?_ hname
      (checkName_concat.mp hcheck) ?_
    · rw [get?_erase _ _ hsource, if_neg hne.symm, hdir]
    · rw [get?_erase _ _ hsource]
      split
      · simp
      · exact hnotDir
  · exact hsound
  · exact hsound.graft hsource hdir hname (checkName_concat.mp hcheck) hfree hpre
  · refine (hsound.erase_empty htarget hempty).graft hsource ?_ hname
      (checkName_concat.mp hcheck) (by simp [get?_erase]) hpre
    rw [get?_erase _ _ htarget, if_neg (by simp), hdir]

end Postbox.Tree
