import Postbox.Path
import Std.Data.ExtTreeMap

/-!
# File trees

A file tree says for every location whether a file or a directory is there.  A location is the list
of names that leads to it from the root; the root is always a directory.  Two trees that hold the
same entries are equal (`Tree.ext`).

This is the scope of all that is said about files here.  A file has one location: there are no
second names of one file, so writing to one location never changes what is at another.  There are no
symbolic links, so that a location is reached by its own names only, and no special files such as
pipes and devices.  Nothing has an owner or access rights, and there is always room for one more
entry.
-/

namespace Postbox

/-- The names that lead from the root to an entry. -/
abbrev Location := List Name

/-- What can be at a location. -/
inductive Entry where
  | file (content : Bytes)
  | directory
deriving DecidableEq

/-- A file tree: the entries below its root. -/
structure Tree where
  entries : Std.ExtTreeMap Location Entry compare
  root_notMem : [] ∉ entries

namespace Tree

/-- The tree that has only its root. -/
def empty : Tree :=
  ⟨∅, by simp⟩

instance : Inhabited Tree :=
  ⟨empty⟩

/-- What is at a location. -/
def get? (tree : Tree) (location : Location) : Option Entry :=
  if location = [] then some .directory else tree.entries[location]?

/-- The tree with an entry at a location, in place of what was there.  The root stays. -/
def put (tree : Tree) (location : Location) (entry : Entry) : Tree :=
  if h : location = [] then tree
  else ⟨tree.entries.insert location entry, by simp [h, tree.root_notMem]⟩

/-- The tree without the entry at a location.  The root stays. -/
def erase (tree : Tree) (location : Location) : Tree :=
  ⟨tree.entries.erase location, by simp [tree.root_notMem]⟩

/-- The names in a directory, in their order. -/
def names (tree : Tree) (directory : Location) : List Name :=
  tree.entries.keys.filterMap fun location =>
    location.getLast?.filter fun name => location = directory ++ [name]

/-- Where a location leads after what was at and below `source` has moved to `target`. -/
def relocate (source target location : Location) : Location :=
  if source.isPrefixOf location then target ++ location.drop source.length else location

theorem relocate_ne_nil {source target location : Location} (ht : target ≠ [])
    (hl : location ≠ []) : relocate source target location ≠ [] := by
  unfold relocate
  split <;> simp [ht, hl]

/-- The tree in which what was at and below one location is at and below another, free one. -/
def graft (tree : Tree) (source target : Location) : Tree :=
  if ht : target = [] then tree
  else
    ⟨.ofList (tree.entries.toList.map fun (location, entry) =>
      (relocate source target location, entry)) compare, by
        rw [Std.ExtTreeMap.mem_ofList]
        simp only [List.map_map, List.contains_eq_mem, List.mem_map, Function.comp_apply,
          decide_eq_true_eq, not_exists, not_and, Prod.forall]
        intro location entry hmem
        refine relocate_ne_nil ht fun hl => tree.root_notMem ?_
        subst hl
        rw [Std.ExtTreeMap.mem_iff_isSome_getElem?,
          Std.ExtTreeMap.mem_toList_iff_getElem?_eq_some.1 hmem]
        rfl⟩

/-- Trees with the same entries are equal. -/
theorem ext {a b : Tree} (h : ∀ location, a.get? location = b.get? location) : a = b := by
  obtain ⟨a, ha⟩ := a
  obtain ⟨b, hb⟩ := b
  congr 1
  refine Std.ExtTreeMap.ext_getElem? fun {location} => ?_
  by_cases hl : location = []
  · subst hl
    rw [Std.ExtTreeMap.getElem?_eq_none ha, Std.ExtTreeMap.getElem?_eq_none hb]
  · simpa [get?, hl] using h location

@[simp] theorem get?_root (tree : Tree) : tree.get? [] = some .directory := by
  simp [get?]

theorem get?_put (tree : Tree) {target : Location} (entry : Entry) (location : Location)
    (h : target ≠ []) :
    (tree.put target entry).get? location =
      if location = target then some entry else tree.get? location := by
  unfold get? put
  by_cases hl : location = []
  · simp [hl, h.symm]
  · simp only [hl, h, dite_false, if_false, Std.ExtTreeMap.getElem?_insert, Std.compare_eq_iff_eq]
    by_cases ht : target = location
    · simp [ht]
    · simp [ht, Ne.symm ht]

theorem get?_erase (tree : Tree) {target : Location} (location : Location)
    (h : target ≠ []) :
    (tree.erase target).get? location =
      if location = target then none else tree.get? location := by
  unfold get? erase
  by_cases hl : location = []
  · simp [hl, h.symm]
  · simp only [hl, if_false, Std.ExtTreeMap.getElem?_erase, Std.compare_eq_iff_eq]
    by_cases ht : target = location
    · simp [ht]
    · simp [ht, Ne.symm ht]

end Tree

end Postbox
