import Mathlib.Order.Bounds.Basic
import Postbox.Proofs.LongPaths
import Postbox.Proofs.Oracles

/-!
# The search for settings goes upward

The settings file for a directory is the nearest one on the way up along its path, unless a
directory before it holds a repository.  Since a parent has a shorter path, the search comes to an
end.  What lies beyond the first repository is never looked at, so it makes no difference to the
settings in force.

All this holds whoever answers the two questions that the search asks about a directory.  Where a
file tree answers them is the matter of another module.
-/

namespace Postbox

namespace Path

/-! ## So many parents up -/

/-- The path that is so many parents above, if there is one. -/
def above? (path : Path) : Nat → Option Path
  | 0 => some path
  | steps + 1 => (path.above? steps).bind parent?

section Above

variable {path parent above a b : Path} {name : Name} {i j : Nat}

theorem above?_succ_of_parent?_eq_some
    (h : path.parent? = some parent) (steps : Nat) :
    path.above? (steps + 1) = parent.above? steps := by
  induction steps with
  | zero => exact h
  | succ steps ih => rw [above?, ih, above?]

theorem above?_succ_of_parent?_eq_none
    (h : path.parent? = none) (steps : Nat) :
    path.above? (steps + 1) = none := by
  induction steps with
  | zero => exact h
  | succ steps ih => rw [above?, ih, Option.bind_none]

/-- The ancestors of a path are the paths above it, one after the other. -/
theorem getElem?_ancestors (path : Path) (i : Nat) :
    path.ancestors[i]? = path.above? i := by
  induction path using ancestors.induct generalizing i with
  | case1 path ih =>
      cases hparent : path.parent? with
      | none =>
          rw [ancestors_of_parent?_eq_none hparent]
          cases i with
          | zero => rfl
          | succ i => exact (above?_succ_of_parent?_eq_none hparent i).symm
      | some parent =>
          rw [ancestors_of_parent?_eq_some hparent]
          cases i with
          | zero => rfl
          | succ i =>
              rw [List.getElem?_cons_succ, ih parent hparent,
                above?_succ_of_parent?_eq_some hparent]

/-- Each step up shortens the path. -/
theorem length_above?_add_le
    (h : path.above? i = some above) :
    above.bytes.length + i ≤ path.bytes.length := by
  induction i generalizing above with
  | zero =>
      rw [Option.some.inj h]
      exact Nat.le_refl _
  | succ i ih =>
      obtain ⟨below, hbelow, hparent⟩ := Option.bind_eq_some_iff.mp h
      have hshorter := length_parent?_lt hparent
      have hrest := ih hbelow
      omega

theorem above?_eq_none (path : Path) :
    path.above? (path.bytes.length + 1) = none := by
  cases h : path.above? (path.bytes.length + 1) with
  | none => rfl
  | some above =>
      have hlen := length_above?_add_le h
      omega

theorem length_ancestors_le (path : Path) :
    path.ancestors.length ≤ path.bytes.length + 1 := by
  rw [← List.getElem?_eq_none_iff, getElem?_ancestors, above?_eq_none]

/-- The path of an entry tells above which path it is looked for. -/
theorem child_ne_of_mem_ancestors
    (hname : Name.IsPlain name) (hparent : path.parent? = some parent)
    (h : above ∈ parent.ancestors) :
    above.child name ≠ path.child name := by
  intro heq
  rcases extends_of_parent?_eq_some hparent with ⟨last, hextends⟩ | ⟨-, -, -, rfl⟩
  · have hcomponent := isComponent_of_isPlain hname
    have hsame : significant above.bytes = significant path.bytes := by
      have hchild := congrArg (fun path : Path => significant path.bytes) heq
      simpa only [significant_child _ hcomponent, List.append_cancel_right_eq] using hchild
    have hlen := (isPrefix_of_mem_ancestors h).2.2.length_le
    rw [hsame, hextends.significant_eq, List.length_append, List.length_singleton] at hlen
    omega
  · -- Above a dot is the empty path, which needs no slash before the name.
    rw [ancestors_of_parent?_eq_none parent?_nil, List.mem_singleton] at h
    have hempty : (Path.child ⟨[]⟩ name).bytes = name := by
      rw [child, join, hname.isAbsolute_eq, if_neg Bool.false_ne_true, if_pos (.inl rfl)]
      rfl
    have hshorter := length_parent?_lt hparent
    have hlen := path.le_length_child hname
    rw [← heq, h, hempty] at hlen
    rw [List.length_nil] at hshorter
    omega

theorem nodup_children
    (hname : Name.IsPlain name) (path : Path) :
    (path.ancestors.map (·.child name)).Nodup := by
  induction path using ancestors.induct with
  | case1 path ih =>
      cases hparent : path.parent? with
      | none =>
          rw [ancestors_of_parent?_eq_none hparent]
          exact List.nodup_singleton _
      | some parent =>
          rw [ancestors_of_parent?_eq_some hparent, List.map_cons, List.nodup_cons]
          refine ⟨fun hmem => ?_, ih parent hparent⟩
          obtain ⟨above, habove, heq⟩ := List.mem_map.mp hmem
          exact child_ne_of_mem_ancestors hname hparent habove heq

/-- Entries of one name have different paths in different directories of the way up. -/
theorem eq_of_child_eq
    (hname : Name.IsPlain name) (ha : path.above? i = some a) (hb : path.above? j = some b)
    (h : a.child name = b.child name) :
    i = j := by
  have hget : ∀ {k : Nat} {above : Path}, path.above? k = some above →
      (path.ancestors.map (·.child name))[k]? = some (above.child name) := by
    intro k above habove
    rw [List.getElem?_map, getElem?_ancestors, habove, Option.map_some]
  have hlt : i < (path.ancestors.map (·.child name)).length :=
    (List.getElem?_eq_some_iff.mp (hget ha)).1
  exact (List.getElem?_inj hlt (nodup_children hname path)).mp
    ((hget ha).trans ((congrArg some h).trans (hget hb).symm))

end Above

end Path

/-! ## The nearest settings file -/

namespace Settings

/-- The path of the settings file in a directory. -/
def fileIn (dir : Path) : Path :=
  dir.child (Bytes.ofText fileName)

/-- Going up from a path, the settings of that directory come first, and no repository comes before
them.  There may be one beside them. -/
structure IsNearest (settings repository : Path → Prop) (start : Path) (i : Nat) : Prop where
  isLeast : IsLeast {n | ∃ dir, start.above? n = some dir ∧ settings dir} i
  unmarked : ∀ h < i, ∀ dir, start.above? h = some dir → ¬repository dir

/-- What is found is the nearest settings file, and nothing only if there is none. -/
structure FindsNearest (settings repository : Path → Prop) (start : Path) (found : Option Path) :
    Prop where
  found_iff : ∀ i dir, start.above? i = some dir →
    (found = some (fileIn dir) ↔ IsNearest settings repository start i)
  none_iff : found = none ↔ ¬∃ i, IsNearest settings repository start i

section Nearest

variable {settings repository settings' repository' : Path → Prop} {start dir last file : Path}
  {found found' : Option Path} {i h : Nat}

theorem isNearest_iff :
    IsNearest settings repository start i ↔
      ∃ dir, start.above? i = some dir ∧ settings dir ∧
        ∀ h < i, ∀ other, start.above? h = some other → ¬settings other ∧ ¬repository other := by
  constructor
  · rintro ⟨⟨⟨dir, hdir, hsettings⟩, hleast⟩, hunmarked⟩
    refine ⟨dir, hdir, hsettings, fun h hlt other hother => ⟨fun hearlier => ?_, ?_⟩⟩
    · exact absurd (hleast ⟨other, hother, hearlier⟩) (Nat.not_le.mpr hlt)
    · exact hunmarked h hlt other hother
  · rintro ⟨dir, hdir, hsettings, hbefore⟩
    refine ⟨⟨⟨dir, hdir, hsettings⟩, ?_⟩, fun h hlt other hother => (hbefore h hlt other hother).2⟩
    rintro n ⟨other, hother, hearlier⟩
    exact Nat.le_of_not_lt fun hlt => (hbefore n hlt other hother).1 hearlier

/-- The nearest settings are not beyond a repository. -/
theorem IsNearest.le
    (hnearest : IsNearest settings repository start i) (hlast : start.above? h = some last)
    (hmark : repository last) :
    i ≤ h :=
  Nat.le_of_not_lt fun hlt => hnearest.unmarked h hlt last hlast hmark

/-- Up to a repository the directories are alike, so the nearest settings are in the same one. -/
theorem IsNearest.congr
    (hnearest : IsNearest settings repository start i) (hlast : start.above? h = some last)
    (hmark : repository last)
    (hagree : ∀ i ≤ h, ∀ dir, start.above? i = some dir →
      (settings dir ↔ settings' dir) ∧ (repository dir ↔ repository' dir)) :
    IsNearest settings' repository' start i := by
  have hle := hnearest.le hlast hmark
  obtain ⟨dir, hdir, hsettings, hbefore⟩ := isNearest_iff.mp hnearest
  refine isNearest_iff.mpr ⟨dir, hdir, (hagree i hle dir hdir).1.mp hsettings, ?_⟩
  intro n hlt other hother
  have hsame := hagree n (Nat.le_trans (Nat.le_of_lt hlt) hle) other hother
  have hneither := hbefore n hlt other hother
  exact ⟨mt hsame.1.mpr hneither.1, mt hsame.2.mpr hneither.2⟩

/-- It is enough to know which files can be found. -/
theorem FindsNearest.of_eq_some_iff
    (hfound : ∀ file, found = some file ↔
      ∃ i dir, start.above? i = some dir ∧ file = fileIn dir ∧
        IsNearest settings repository start i) :
    FindsNearest settings repository start found where
  found_iff := fun i dir hdir => by
    rw [hfound]
    constructor
    · rintro ⟨j, other, hother, hfile, hnearest⟩
      rwa [Path.eq_of_child_eq (by decide) hdir hother hfile]
    · intro hnearest
      exact ⟨i, dir, hdir, rfl, hnearest⟩
  none_iff := by
    constructor
    · rintro hnone ⟨i, hnearest⟩
      obtain ⟨dir, hdir, -⟩ := isNearest_iff.mp hnearest
      have hsome := (hfound (fileIn dir)).mpr ⟨i, dir, hdir, rfl, hnearest⟩
      rw [hnone] at hsome
      cases hsome
    · intro hnone
      rw [Option.eq_none_iff_forall_ne_some]
      intro file hfile
      obtain ⟨i, -, -, -, hnearest⟩ := (hfound file).mp hfile
      exact hnone ⟨i, hnearest⟩

theorem FindsNearest.exists_of_eq_some
    (hfinds : FindsNearest settings repository start (some file)) :
    ∃ i dir, start.above? i = some dir ∧ file = fileIn dir ∧
      IsNearest settings repository start i := by
  have hsome : ∃ i, IsNearest settings repository start i := by
    by_contra hnone
    cases hfinds.none_iff.mpr hnone
  obtain ⟨i, hnearest⟩ := hsome
  obtain ⟨dir, hdir, -⟩ := isNearest_iff.mp hnearest
  exact ⟨i, dir, hdir, Option.some.inj ((hfinds.found_iff i dir hdir).mpr hnearest), hnearest⟩

/-- Only one thing can be found. -/
theorem FindsNearest.unique
    (hfinds : FindsNearest settings repository start found)
    (hfinds' : FindsNearest settings repository start found') :
    found = found' := by
  cases found with
  | none => exact (hfinds'.none_iff.mpr (hfinds.none_iff.mp rfl)).symm
  | some file =>
      obtain ⟨i, dir, hdir, rfl, hnearest⟩ := hfinds.exists_of_eq_some
      exact ((hfinds'.found_iff i dir hdir).mpr hnearest).symm

/-- Two searches find the same if all is alike up to a repository. -/
theorem FindsNearest.congr
    (hfinds : FindsNearest settings repository start found)
    (hfinds' : FindsNearest settings' repository' start found')
    (hlast : start.above? h = some last) (hmark : repository last)
    (hagree : ∀ i ≤ h, ∀ dir, start.above? i = some dir →
      (settings dir ↔ settings' dir) ∧ (repository dir ↔ repository' dir)) :
    found = found' := by
  have hmark' : repository' last := (hagree h (Nat.le_refl h) last hlast).2.mp hmark
  have hback : ∀ i ≤ h, ∀ dir, start.above? i = some dir →
      (settings' dir ↔ settings dir) ∧ (repository' dir ↔ repository dir) :=
    fun i hle dir hdir => (hagree i hle dir hdir).imp Iff.symm Iff.symm
  have hsame : ∀ i, IsNearest settings' repository' start i ↔
      IsNearest settings repository start i := fun i =>
    ⟨fun h => h.congr hlast hmark' hback, fun h => h.congr hlast hmark hagree⟩
  refine hfinds.unique ⟨fun i dir hdir => (hfinds'.found_iff i dir hdir).trans (hsame i), ?_⟩
  exact hfinds'.none_iff.trans (not_congr (exists_congr hsame))

end Nearest

end Settings

/-! ## The search, whoever answers -/

namespace Oracle

/-- The system finds a settings file in the directory. -/
def HasSettings (oracle : Oracle) (dir : Path) : Prop :=
  oracle.answer (.isFile (Settings.fileIn dir)) = true

/-- The system finds the mark of a repository in the directory. -/
def HasRepository (oracle : Oracle) (dir : Path) : Prop :=
  oracle.answer (.holds (dir.child (Bytes.ofText Settings.repositoryMark))) = true

/-- The search ends in the directory. -/
def StopsAt (oracle : Oracle) (dir : Path) : Prop :=
  oracle.HasSettings dir ∨ oracle.HasRepository dir

instance (oracle : Oracle) (dir : Path) : Decidable (oracle.HasSettings dir) :=
  inferInstanceAs (Decidable (_ = true))

instance (oracle : Oracle) (dir : Path) : Decidable (oracle.HasRepository dir) :=
  inferInstanceAs (Decidable (_ = true))

instance (oracle : Oracle) (dir : Path) : Decidable (oracle.StopsAt dir) :=
  inferInstanceAs (Decidable (_ ∨ _))

/-- The two systems answer alike what is asked about the directory.  The content of a file is asked
for where there is one. -/
structure AgreesAt (oracle other : Oracle) (dir : Path) : Prop where
  hasSettings_iff : oracle.HasSettings dir ↔ other.HasSettings dir
  hasRepository_iff : oracle.HasRepository dir ↔ other.HasRepository dir
  read_eq : oracle.HasSettings dir →
    oracle.answer (.read (Settings.fileIn dir)) = other.answer (.read (Settings.fileIn dir))

end Oracle

namespace Settings

open Procedure

section Searching

variable {oracle other : Oracle} {overrides : Overrides} {start dir last file : Path}
  {dirs : List Path} {h : Nat}

/-- One step of the search. -/
theorem consult_findIn_cons (oracle : Oracle) (dir : Path) (rest : List Path) :
    (findIn (dir :: rest)).consult oracle =
      if oracle.HasSettings dir then some (fileIn dir)
      else if oracle.HasRepository dir then none
      else (findIn rest).consult oracle := by
  rw [findIn, consult_bind]
  change (if oracle.HasSettings dir then _ else _ : Procedure _).consult oracle = _
  split
  · rfl
  · rw [consult_bind]
    change (if oracle.HasRepository dir then _ else _ : Procedure _).consult oracle = _
    split <;> rfl

/-- The search ends in the first directory that has settings or a repository, and settings count
first. -/
theorem consult_findIn_eq (oracle : Oracle) (dirs : List Path) :
    (findIn dirs).consult oracle =
      ((dirs.find? (oracle.StopsAt ·)).filter (oracle.HasSettings ·)).map fileIn := by
  induction dirs with
  | nil => rfl
  | cons dir rest ih =>
      rw [consult_findIn_cons, ih, List.find?_cons]
      by_cases hsettings : oracle.HasSettings dir
      · simp [Oracle.StopsAt, hsettings]
      · by_cases hrepository : oracle.HasRepository dir <;>
          simp [Oracle.StopsAt, hsettings, hrepository]

theorem consult_findIn_eq_some_iff :
    (findIn dirs).consult oracle = some file ↔
      ∃ (i : Nat) (dir : Path), dirs[i]? = some dir ∧ file = fileIn dir ∧ oracle.HasSettings dir ∧
        ∀ h < i, ∀ before, dirs[h]? = some before →
          ¬oracle.HasSettings before ∧ ¬oracle.HasRepository before := by
  rw [consult_findIn_eq, Option.map_eq_some_iff]
  constructor
  · rintro ⟨dir, hdir, rfl⟩
    obtain ⟨hfirst, hsettings⟩ := Option.filter_eq_some_iff.mp hdir
    obtain ⟨-, i, hi, rfl, hbefore⟩ := List.find?_eq_some_iff_getElem.mp hfirst
    refine ⟨i, _, List.getElem?_eq_getElem hi, rfl, of_decide_eq_true hsettings, ?_⟩
    intro h hlt before hget
    obtain ⟨_, rfl⟩ := List.getElem?_eq_some_iff.mp hget
    have hgoesOn : ¬oracle.StopsAt dirs[h] := by simpa using hbefore h hlt
    exact not_or.mp hgoesOn
  · rintro ⟨i, dir, hdir, rfl, hsettings, hbefore⟩
    obtain ⟨hi, rfl⟩ := List.getElem?_eq_some_iff.mp hdir
    have hfirst : dirs.find? (oracle.StopsAt ·) = some dirs[i] := by
      refine List.find?_eq_some_iff_getElem.mpr
        ⟨decide_eq_true (.inl hsettings), i, hi, rfl, fun h hlt => ?_⟩
      have hgoesOn : ¬oracle.StopsAt dirs[h] :=
        not_or.mpr (hbefore h hlt _ (List.getElem?_eq_getElem (hlt.trans hi)))
      simpa using hgoesOn
    exact ⟨_, Option.filter_eq_some_iff.mpr ⟨hfirst, decide_eq_true hsettings⟩, rfl⟩

/-- Whatever the system, what is found is the nearest settings file by its answers. -/
theorem findsNearest_consult (oracle : Oracle) (start : Path) :
    FindsNearest oracle.HasSettings oracle.HasRepository start ((find start).consult oracle) := by
  apply FindsNearest.of_eq_some_iff
  intro file
  rw [find, consult_findIn_eq_some_iff]
  simp only [Path.getElem?_ancestors, isNearest_iff]
  constructor
  · rintro ⟨i, dir, hdir, hfile, hnearest⟩
    exact ⟨i, dir, hdir, hfile, dir, hdir, hnearest⟩
  · rintro ⟨i, dir, hdir, hfile, other, hother, hnearest⟩
    obtain rfl : dir = other := Option.some.inj (hdir.symm.trans hother)
    exact ⟨i, dir, hdir, hfile, hnearest⟩

/-- At most two questions are asked for each directory. -/
theorem effort_findIn_le (oracle : Oracle) (dirs : List Path) :
    (findIn dirs).effort oracle ≤ 2 * dirs.length := by
  induction dirs with
  | nil => exact Nat.le_refl 0
  | cons dir rest ih =>
      rw [findIn, effort_bind, effort_request, List.length_cons]
      split
      · rw [effort_pure]
        omega
      · rw [effort_bind, effort_request]
        split
        · rw [effort_pure]
          omega
        · omega

/-- Systems that agree up to a repository lead to the same settings. -/
theorem consult_resolve_eq_of_agreesAt
    (hfile : overrides.file? = none) (hlast : start.above? h = some last)
    (hmark : oracle.HasRepository last)
    (hagree : ∀ i ≤ h, ∀ dir, start.above? i = some dir → oracle.AgreesAt other dir)
    (hvariables : ∀ name ∈ Environment.names,
      oracle.answer (.variable name) = other.answer (.variable name)) :
    (resolve overrides start).consult oracle = (resolve overrides start).consult other := by
  have hfinds := findsNearest_consult oracle start
  have hfind : (find start).consult oracle = (find start).consult other :=
    hfinds.congr (findsNearest_consult other start) hlast hmark fun i hle dir hdir =>
      ⟨(hagree i hle dir hdir).hasSettings_iff, (hagree i hle dir hdir).hasRepository_iff⟩
  apply consult_resolve_congr _ hvariables
  rw [hfile]
  refine consult_base_congr hfind fun file hfound => ?_
  rw [hfound] at hfinds
  obtain ⟨i, dir, hdir, rfl, hnearest⟩ := hfinds.exists_of_eq_some
  obtain ⟨found, hsame, hsettings, -⟩ := isNearest_iff.mp hnearest
  obtain rfl : dir = found := Option.some.inj (hdir.symm.trans hsame)
  exact (hagree i (hnearest.le hlast hmark) dir hdir).read_eq hsettings

end Searching

end Settings

end Postbox
