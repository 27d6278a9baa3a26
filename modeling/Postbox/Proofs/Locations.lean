import Postbox.Proofs.Paths
import Postbox.Proofs.Trees

/-!
# Operations at a place

A path designates a place when an operation can make, rename or remove an entry there.  What each
operation does is then a matter of the entry at that place; the text of the path no longer matters.
-/

namespace Postbox

namespace Path

/-- The path of an entry can only be too long, if the path of the directory holds no zero byte. -/
theorem fault?_child
    {dir : Path} {name : Name} (hdir : (0 : UInt8) ∉ dir.bytes) (hname : Name.IsPlain name) :
    (dir.child name).fault? =
      if maxLength < (dir.child name).bytes.length then some .nameTooLong else none := by
  have hzero : (0 : UInt8) ∉ (dir.child name).bytes := by
    rcases dir.child_bytes hname with ⟨hchild, -⟩ | ⟨front, hchild, hfront⟩
    · rw [hchild]
      exact hname.zero_notMem
    · have hfrontZero : (0 : UInt8) ∉ front := by
        intro hmem
        rcases hfront with ⟨hfront, -⟩ | hfront
        · exact hdir (hfront ▸ hmem)
        · exact hdir (hfront ▸ List.mem_append_left _ hmem)
      rw [hchild, List.mem_append, List.mem_cons]
      rintro (hmem | hmem | hmem)
      · exact hfrontZero hmem
      · exact absurd hmem (by decide)
      · exact hname.zero_notMem hmem
  have hne : (dir.child name).bytes ≠ [] := by
    rcases dir.child_bytes hname with ⟨hchild, -⟩ | ⟨front, hchild, -⟩
    · rw [hchild]
      exact hname.ne_nil
    · rw [hchild]
      simp
  rw [fault?, if_neg (by simpa using hzero), if_neg hne]

/-- A zero byte in the path of a directory is in the paths of its entries too. -/
theorem zero_notMem_of_child
    {dir : Path} {name : Name} (hname : Name.IsPlain name)
    (h : (0 : UInt8) ∉ (dir.child name).bytes) :
    (0 : UInt8) ∉ dir.bytes := by
  intro hmem
  apply h
  rcases dir.child_bytes hname with ⟨-, hdir⟩ | ⟨front, hchild, hdir⟩
  · rw [hdir] at hmem
    cases hmem
  · rw [hchild]
    rcases hdir with ⟨hdir, -⟩ | hdir
    · exact List.mem_append_left _ (hdir ▸ hmem)
    · rw [hdir, List.mem_append, List.mem_singleton] at hmem
      rcases hmem with hmem | hmem
      · exact List.mem_append_left _ hmem
      · exact absurd hmem (by decide)

theorem zero_notMem_of_fault?
    {path : Path} (h : path.fault? = none) :
    (0 : UInt8) ∉ path.bytes := by
  unfold fault? at h
  split at h
  · cases h
  · rename_i hzero
    simpa using hzero

end Path

namespace Tree

/-! ## Directories decide where a path leads -/

theorem move_eq_ok_iff
    {tree : Tree} {place next : Location} {step : Path.Move} :
    tree.move place step = .ok next ↔
      tree.get? place = some .directory ∧
        match step with
        | .stay => next = place
        | .up => next = place.dropLast
        | .down name => name.length ≤ Path.maxName ∧ tree.get? (place ++ [name]) ≠ none ∧
            next = place ++ [name] := by
  rw [move.eq_def]
  by_cases hplace : tree.get? place = some .directory
  · rw [inDirectory_eq_ok_iff.mpr hplace]
    cases step with
    | stay => simp [hplace, bind, Except.bind, pure, Except.pure, eq_comm]
    | up => simp [hplace, bind, Except.bind, pure, Except.pure, eq_comm]
    | down name =>
        simp only [bind, Except.bind, pure, Except.pure, throw, throwThe, MonadExceptOf.throw,
          Option.isNone_iff_eq_none]
        split
        · simp only [reduceCtorEq, false_iff]
          omega
        · split
          · rename_i hnone
            simp [hnone]
          · rename_i hlen hsome
            simp only [Except.ok.injEq, hplace, true_and]
            constructor
            · rintro rfl
              exact ⟨by omega, hsome, rfl⟩
            · rintro ⟨-, -, rfl⟩
              rfl
  · simp only [hplace, false_and, iff_false]
    cases hdir : tree.inDirectory place with
    | error fault => simp [bind, Except.bind]
    | ok _ => exact absurd (inDirectory_eq_ok_iff.mp hdir) hplace

/-- A path leads to the same directory in every tree with the same directories. -/
theorem enter_of_sameDirectories
    {a b : Tree} {cwd home : Location} {path : Path} (hsame : SameDirectories a b)
    (h : a.enter cwd path = .ok home) :
    b.enter cwd path = .ok home := by
  rw [enter_eq_ok_iff] at h ⊢
  obtain ⟨hfollow, hhome⟩ := h
  refine ⟨?_, (hsame home).mp hhome⟩
  generalize start cwd path = place at hfollow ⊢
  generalize path.moves = moves at hfollow ⊢
  induction moves generalizing place with
  | nil => exact hfollow
  | cons step rest ih =>
      rw [follow_cons_eq_ok_iff] at hfollow ⊢
      obtain ⟨next, hmove, hrest⟩ := hfollow
      refine ⟨next, ?_, ih next hrest⟩
      have hnext := get?_of_follow_eq_ok hhome hrest
      rw [move_eq_ok_iff] at hmove ⊢
      refine ⟨(hsame place).mp hmove.1, ?_⟩
      cases step with
      | stay => exact hmove.2
      | up => exact hmove.2
      | down name =>
          obtain ⟨-, hlen, -, rfl⟩ := hmove
          refine ⟨hlen, ?_, rfl⟩
          rw [(hsame _).mp hnext]
          simp

/-! ## A path names the same place in every tree -/

theorem eq_of_move_eq_ok
    {a b : Tree} {place x y : Location} {step : Path.Move}
    (ha : a.move place step = .ok x) (hb : b.move place step = .ok y) :
    x = y := by
  rw [move_eq_ok_iff] at ha hb
  cases step with
  | stay => rw [ha.2, hb.2]
  | up => rw [ha.2, hb.2]
  | down name => rw [ha.2.2.2, hb.2.2.2]

theorem eq_of_follow_eq_ok
    {a b : Tree} {place x y : Location} {moves : List Path.Move}
    (ha : a.follow place moves = .ok x) (hb : b.follow place moves = .ok y) :
    x = y := by
  induction moves generalizing place with
  | nil =>
      rw [follow] at ha hb
      rw [← Except.ok.inj ha, ← Except.ok.inj hb]
  | cons step rest ih =>
      obtain ⟨next, hmove, harest⟩ := follow_cons_eq_ok_iff.mp ha
      obtain ⟨next', hmove', hbrest⟩ := follow_cons_eq_ok_iff.mp hb
      obtain rfl := eq_of_move_eq_ok hmove hmove'
      exact ih harest hbrest

/-! ## Designated places -/

/-- The path names a place in a directory, by a name that is not too long. -/
structure Designates (tree : Tree) (cwd : Location) (path : Path) (location : Location) : Prop where
  target_eq : tree.target cwd path = .ok location
  checkName_eq : checkName location = .ok ()

/-- A path that names a place goes to a directory and then down by a name. -/
theorem exists_of_target_eq_ok
    {tree : Tree} {cwd location : Location} {path : Path}
    (h : tree.target cwd path = .ok location) :
    path.fault? = none ∧
      ∃ moves place name, path.moves = moves ++ [.down name] ∧
        tree.follow (start cwd path) moves = .ok place ∧
        tree.get? place = some .directory ∧ location = place ++ [name] := by
  rw [target] at h
  cases hfault : path.fault? with
  | some fault =>
      rw [hfault] at h
      cases h
  | none =>
      rw [hfault] at h
      refine ⟨rfl, path.moves.dropLast, ?_⟩
      simp only [bind, Except.bind] at h
      split at h
      · cases h
      · rename_i place hfollow
        split at h
        · cases h
        · rename_i hplace
          split at h
          · rename_i name hlast
            cases h
            exact ⟨place, name, (List.dropLast_append_getLast? _ hlast).symm, hfollow,
              inDirectory_eq_ok_iff.mp hplace, rfl⟩
          · cases h

/-- The place that a path names is in its text; the tree only decides whether it can be named. -/
theorem eq_of_target_eq_ok
    {a b : Tree} {cwd x y : Location} {path : Path}
    (ha : a.target cwd path = .ok x) (hb : b.target cwd path = .ok y) :
    x = y := by
  obtain ⟨-, moves, place, name, hmoves, hfollow, -, rfl⟩ := exists_of_target_eq_ok ha
  obtain ⟨-, moves', place', name', hmoves', hfollow', -, rfl⟩ := exists_of_target_eq_ok hb
  obtain ⟨rfl, hname⟩ := List.append_inj' (hmoves.symm.trans hmoves') rfl
  obtain rfl := eq_of_follow_eq_ok hfollow hfollow'
  cases hname
  rfl

theorem follow_down
    {tree : Tree} {place : Location} {name : Name}
    (hplace : tree.get? place = some .directory) (hlen : name.length ≤ Path.maxName) :
    tree.follow place [.down name] =
      if (tree.get? (place ++ [name])).isNone then .error .notFound
      else .ok (place ++ [name]) := by
  rw [follow, move.eq_def, inDirectory_eq_ok_iff.mpr hplace]
  simp only [bind, Except.bind, pure, Except.pure, throw, throwThe, MonadExceptOf.throw,
    if_neg (Nat.not_lt.mpr hlen)]
  cases tree.get? (place ++ [name]) <;> rfl

/-- A path that designates a place leads there, if an entry is there. -/
theorem Designates.locate_eq
    {tree : Tree} {cwd location : Location} {path : Path}
    (h : tree.Designates cwd path location) :
    tree.locate cwd path =
      if (tree.get? location).isNone then .error .notFound else .ok location := by
  obtain ⟨hfault, moves, place, name, hmoves, hfollow, hplace, rfl⟩ :=
    exists_of_target_eq_ok h.target_eq
  rw [locate, hfault, hmoves, follow_append, hfollow]
  exact follow_down hplace (checkName_concat.mp h.checkName_eq)

theorem Designates.ne_nil
    {tree : Tree} {cwd location : Location} {path : Path}
    (h : tree.Designates cwd path location) :
    location ≠ [] := by
  obtain ⟨-, moves, place, name, -, -, -, rfl⟩ := exists_of_target_eq_ok h.target_eq
  simp

section Operations

variable {tree : Tree} {cwd location : Location} {path : Path} {content : Bytes}

theorem Designates.create_eq
    (h : tree.Designates cwd path location) :
    tree.create cwd path =
      if (tree.get? location).isNone then .ok (tree.put location (.file []))
      else .error .alreadyExists := by
  rw [create, h.target_eq]
  simp only [bind, Except.bind, h.checkName_eq]
  cases tree.get? location <;> rfl

theorem Designates.locate_of_some
    (h : tree.Designates cwd path location) {entry : Entry}
    (hentry : tree.get? location = some entry) :
    tree.locate cwd path = .ok location := by
  rw [h.locate_eq, hentry]
  rfl

theorem Designates.append_eq
    (h : tree.Designates cwd path location) (hfile : tree.get? location = some (.file content))
    (bytes : Bytes) :
    tree.append cwd path bytes = .ok (tree.put location (.file (content ++ bytes))) := by
  rw [append, h.locate_of_some hfile]
  simp only [bind, Except.bind, hfile]
  rfl

theorem Designates.read_eq
    (h : tree.Designates cwd path location) (hfile : tree.get? location = some (.file content)) :
    tree.read cwd path = .ok content := by
  rw [read, h.locate_of_some hfile]
  simp only [bind, Except.bind, hfile]
  rfl

theorem Designates.flush_eq
    (h : tree.Designates cwd path location) (hfile : tree.get? location = some (.file content)) :
    tree.flush cwd path = .ok () := by
  rw [flush, h.locate_of_some hfile]
  rfl

theorem Designates.isFile_iff
    (h : tree.Designates cwd path location) :
    tree.isFile cwd path = true ↔ ∃ content, tree.get? location = some (.file content) := by
  rw [isFile, h.locate_eq]
  cases hentry : tree.get? location with
  | none => simp
  | some entry => cases entry <;> simp [hentry]

theorem Designates.remove_eq
    (h : tree.Designates cwd path location) (hfile : tree.get? location = some (.file content)) :
    tree.remove cwd path = .ok (tree.erase location) := by
  rw [remove, h.target_eq]
  simp only [bind, Except.bind, h.checkName_eq, hfile]
  rfl

theorem Designates.rename_eq
    (h : tree.Designates cwd path location) {other : Path} {target : Location}
    (htarget : tree.target cwd other = .ok target) :
    tree.rename cwd path other = tree.moveEntry location target := by
  rw [rename, h.target_eq, htarget]
  simp only [bind, Except.bind, h.checkName_eq]

end Operations

end Tree

end Postbox
