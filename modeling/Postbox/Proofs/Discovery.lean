import Mathlib.Data.List.Infix
import Postbox.Proofs.Layers
import Postbox.Proofs.Walks

/-!
# Where the settings are found

The settings file for a directory is looked for along the text of its path.  Where the path leads
straight down, these are the directories around it.  A path with `..` passes through others as well,
and they make no difference as long as the search would not end there.
-/

namespace Postbox

namespace Tree

/-- The directory has a settings file. -/
def hasSettings (tree : Tree) (place : Location) : Bool :=
  match tree.child? place Settings.fileName with
  | some (.file _) => true
  | _ => false

/-- The directory is a repository. -/
def hasRepository (tree : Tree) (place : Location) : Bool :=
  (tree.child? place Settings.repositoryMark).isSome

/-- The search for settings ends in the directory. -/
def isLandmark (tree : Tree) (place : Location) : Bool :=
  tree.hasSettings place || tree.hasRepository place

/-- The first of the directories that has a settings file, unless a repository comes before. -/
def nearest? (tree : Tree) (places : List Location) : Option Location :=
  (places.find? tree.isLandmark).filter tree.hasSettings

section Walking

variable {tree : Tree} {places walk : List Location} {place top home : Location}
  {marked : Location → Bool}

theorem nearest?_cons (tree : Tree) (place : Location) (rest : List Location) :
    tree.nearest? (place :: rest) =
      if tree.hasSettings place then some place
      else if tree.hasRepository place then none
      else tree.nearest? rest := by
  rw [nearest?, nearest?, List.find?_cons, isLandmark]
  cases hsettings : tree.hasSettings place <;> cases tree.hasRepository place <;>
    simp [hsettings]

theorem exists_of_hasSettings
    (h : tree.hasSettings place = true) :
    ∃ content, tree.child? place Settings.fileName = some (.file content) := by
  rw [hasSettings] at h
  split at h
  · rename_i content hfile
    exact ⟨content, hfile⟩
  · cases h

/-- The directories around a place, itself included, from the inside out. -/
def around (place : Location) : List Location :=
  place.inits.reverse

theorem around_concat (front : Location) (name : Name) :
    around (front ++ [name]) = (front ++ [name]) :: around front := by
  simp [around, List.inits_append]

theorem exists_around_eq_cons (place : Location) :
    ∃ rest, around place = place :: rest := by
  rcases place.eq_nil_or_concat' with rfl | ⟨front, name, rfl⟩
  · exact ⟨[], rfl⟩
  · exact ⟨around front, around_concat front name⟩

/-- On a walk to the root all directories around `top` are left one by one, from the inside out.
Whatever else is on the way makes no difference if it is not marked. -/
theorem Homeward.find?_eq
    (hwalk : Homeward walk) (hmarked : ∀ place ∈ walk, marked place = true → place <+: home)
    (htop : top <+: home) (hhead : ∀ place ∈ walk.head?, top <+: place)
    (hdeeper : ∀ place, place <+: home → top <+: place → place ≠ top → marked place = false) :
    walk.find? marked = (around top).find? marked := by
  induction hwalk generalizing top with
  | root =>
      obtain rfl := List.prefix_nil.mp (hhead [] rfl)
      rfl
  | @step a b rest hadjacent hrest ih =>
      have hrestMarked := fun place hmem => hmarked place (List.mem_cons_of_mem _ hmem)
      have ha := hhead a rfl
      obtain ⟨outer, houter⟩ := exists_around_eq_cons top
      by_cases hat : a = top
      · subst hat
        cases hmark : marked a with
        | true => rw [List.find?_cons_of_pos hmark, houter, List.find?_cons_of_pos hmark]
        | false =>
            have hneg : ¬marked a = true := by simp [hmark]
            rw [List.find?_cons_of_neg hneg]
            rcases a.eq_nil_or_concat' with rfl | ⟨front, name, rfl⟩
            · exact ih hrestMarked htop (fun _ _ => List.nil_prefix) hdeeper
            · -- The walk leaves `front ++ [name]`, or goes below it for now.
              rw [around_concat, List.find?_cons_of_neg hneg]
              refine ih hrestMarked ((List.prefix_append _ _).trans htop) ?_ fun place hplace => ?_
              · rintro _ ⟨⟩
                rcases hadjacent with rfl | hchild
                · rw [List.dropLast_concat]
                · exact (List.prefix_append _ _).trans (hchild ▸ List.dropLast_prefix _)
              · intro hfront hne
                by_cases heq : place = front ++ [name]
                · rw [heq, hmark]
                · refine hdeeper place hplace ?_ heq
                  apply List.prefix_of_prefix_length_le htop hplace
                  have hlen := hfront.length_le
                  have hlonger := mt hfront.eq_of_length (Ne.symm hne)
                  rw [List.length_append, List.length_singleton]
                  omega
      · have hmark : marked a = false := by
          by_contra hmark
          have hhome := hmarked a List.mem_cons_self (by simpa using hmark)
          rw [hdeeper a hhome ha hat] at hmark
          exact hmark rfl
        rw [List.find?_cons_of_neg (by simp [hmark])]
        refine ih hrestMarked htop ?_ hdeeper
        rintro _ ⟨⟩
        rcases hadjacent with rfl | hchild
        · rcases a.eq_nil_or_concat' with rfl | ⟨front, name, rfl⟩
          · exact absurd (List.prefix_nil.mp ha).symm hat
          · rw [List.dropLast_concat]
            exact (List.prefix_concat_iff.mp ha).resolve_left (Ne.symm hat)
        · exact ha.trans (hchild ▸ List.dropLast_prefix _)

/-- A walk home decides like the directories around the place where it begins, if the search ends in
no other one. -/
theorem Homeward.nearest?_eq
    (hwalk : Homeward (home :: walk))
    (hmarked : ∀ place ∈ home :: walk, tree.isLandmark place = true → place <+: home) :
    tree.nearest? (home :: walk) = tree.nearest? (around home) := by
  rw [nearest?, nearest?, hwalk.find?_eq hmarked (List.prefix_refl home)]
  · rintro _ ⟨⟩
    exact List.prefix_refl _
  · intro place hplace hhome hne
    exact absurd (hplace.eq_of_length_le hhome.length_le) hne

end Walking

end Tree

namespace Settings

open Mailbox

section Finding

variable {world : World} {dir : Path} {place : Location} {dirs : List Path}
  {places : List Location}

theorem admits_fileName
    (hroom : dir.Roomy) :
    Admits ⟨dir⟩ fileName :=
  admits_of_roomy hroom (by decide) (by decide)

theorem isFile_fileName
    (h : Opens ⟨dir⟩ world place) (hroom : dir.Roomy) :
    world.tree.isFile world.cwd (dir.child (Bytes.ofText fileName)) =
      world.tree.hasSettings place := by
  rw [Bool.eq_iff_iff, Tree.hasSettings]
  refine (h.designates (admits_fileName hroom)).isFile_iff.trans ?_
  change (∃ content, world.tree.child? place fileName = some (.file content)) ↔ _
  cases world.tree.child? place fileName with
  | none => simp
  | some entry => cases entry <;> simp

theorem holds_repositoryMark
    (h : Opens ⟨dir⟩ world place) (hroom : dir.Roomy) :
    world.tree.holds world.cwd (dir.child (Bytes.ofText repositoryMark)) =
      world.tree.hasRepository place := by
  have hadmits : Admits ⟨dir⟩ repositoryMark := admits_of_roomy hroom (by decide) (by decide)
  rw [Tree.holds, Tree.hasRepository]
  have hlocate := (h.designates hadmits).locate_eq
  rw [entry] at hlocate
  rw [hlocate]
  change _ = (world.tree.get? (place ++ [Bytes.ofText repositoryMark])).isSome
  cases world.tree.get? (place ++ [Bytes.ofText repositoryMark]) <;> rfl

/-- The file that is found is in the nearest directory that has one. -/
theorem run_findIn
    (hall : List.Forall₂ (fun dir place => Opens ⟨dir⟩ world place ∧ dir.Roomy) dirs places) :
    match world.tree.nearest? places with
    | none => (findIn dirs).run world = (none, world)
    | some place => ∃ dir, Opens ⟨dir⟩ world place ∧ dir.Roomy ∧
        (findIn dirs).run world = (some (dir.child (Bytes.ofText fileName)), world) := by
  induction hall with
  | nil => rfl
  | @cons dir place dirs places hfirst hrest ih =>
      have hisFile := isFile_fileName hfirst.1 hfirst.2
      have hholds := holds_repositoryMark hfirst.1 hfirst.2
      rw [Tree.nearest?_cons]
      simp only [findIn, Procedure.run_bind, Procedure.request, Procedure.run, World.answer,
        hisFile]
      cases hsettings : world.tree.hasSettings place with
      | true => exact ⟨dir, hfirst.1, hfirst.2, rfl⟩
      | false =>
          simp only [Bool.false_eq_true, if_false, Procedure.run_bind, Procedure.run,
            World.answer, hholds]
          cases hrepository : world.tree.hasRepository place with
          | true => rfl
          | false => simpa using ih

/-- Where the file that is found for a directory lies. -/
def found? (world : World) (dir : Path) : Option (Except Fault Location) :=
  ((find dir).run world).1.map (world.tree.locate world.cwd)

theorem found?_eq
    (hall : List.Forall₂ (fun dir place => Opens ⟨dir⟩ world place ∧ dir.Roomy)
      dir.ancestors places) :
    found? world dir =
      (world.tree.nearest? places).map fun place => .ok (place ++ [Bytes.ofText fileName]) := by
  have hfound := run_findIn hall
  rw [found?, find]
  cases hnearest : world.tree.nearest? places with
  | none =>
      rw [hnearest] at hfound
      rw [hfound]
      rfl
  | some place =>
      rw [hnearest] at hfound
      obtain ⟨above, hopens, hroom, hrun⟩ := hfound
      obtain ⟨content, hfile⟩ :=
        Tree.exists_of_hasSettings (Option.filter_eq_some_iff.mp hnearest).2
      rw [hrun]
      exact congrArg some ((hopens.designates (admits_fileName hroom)).locate_of_some hfile)

/-- The settings in the content of a file, if they make sense. -/
def ofBytes? (content : Bytes) : Option Settings :=
  (content.text?.bind ofText?).filter (·.error?.isNone)

theorem toOption_ofContent (path : Path) (content : Bytes) :
    (ofContent path (.ok content)).toOption = ofBytes? content := by
  rw [ofContent, ofBytes?]
  cases content.text? with
  | none => rfl
  | some text =>
      cases htext : ofText? text with
      | none => simp [htext, Except.toOption]
      | some settings =>
          cases herror : settings.error? <;>
            simp [htext, herror, Except.toOption, Option.filter]

/-- The settings that a search through directories leads to. -/
def nearestIn (tree : Tree) (places : List Location) : Settings :=
  match (tree.nearest? places).bind fun place => tree.child? place fileName with
  | some (.file content) => (ofBytes? content).getD {}
  | _ => {}

/-- Without a file that is asked for, the lowest layers are what the nearest file says, or the
defaults. -/
theorem run_base
    (hall : List.Forall₂ (fun dir place => Opens ⟨dir⟩ world place ∧ dir.Roomy)
      dir.ancestors places) :
    ((base none dir).run world).1 = .ok (nearestIn world.tree places) := by
  have hfound := run_findIn hall
  rw [nearestIn]
  simp only [base, Procedure.run_bind, find]
  cases hnearest : world.tree.nearest? places with
  | none =>
      rw [hnearest] at hfound
      rw [hfound]
      rfl
  | some place =>
      rw [hnearest] at hfound
      obtain ⟨above, hopens, hroom, hrun⟩ := hfound
      obtain ⟨content, hfile⟩ :=
        Tree.exists_of_hasSettings (Option.filter_eq_some_iff.mp hnearest).2
      have hread := (hopens.designates (admits_fileName hroom)).answer_read hfile
      have hload : (load (above.child (Bytes.ofText fileName))).run world =
          (ofContent (above.child (Bytes.ofText fileName)) (.ok content), world) := by
        rw [load, Procedure.run_bind]
        simp only [Procedure.request, Procedure.run]
        rw [show above.child (Bytes.ofText fileName) = entry ⟨above⟩ fileName from rfl, hread]
        rfl
      rw [hrun]
      simp only [Procedure.run_bind, hload, Option.bind_some, hfile,
        ← toOption_ofContent (above.child (Bytes.ofText fileName))]
      cases ofContent (above.child (Bytes.ofText fileName)) (.ok content) <;> rfl

end Finding

end Settings

end Postbox
