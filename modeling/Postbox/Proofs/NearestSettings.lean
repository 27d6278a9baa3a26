import Postbox.Proofs.UpwardSearch
import Postbox.Proofs.Walks

/-!
# The nearest settings in a file tree

In a file tree a directory on the way up has settings or a repository by what its entries are.  The
search sees an entry under the path that it makes for it, so an entry whose path is too long counts
for nothing.  A directory has paths that are as long as one likes, so this happens to any of them.
-/

namespace Postbox

namespace Tree

/-- The path of an entry can be followed if that of the directory leads to the directory and the
whole is not too long. -/
theorem locate_child_eq_ok_iff
    {tree : Tree} {cwd location : Location} {dir : Path} {name : Name}
    (hname : Name.IsPlain name) :
    tree.locate cwd (dir.child name) = .ok location ↔
      (dir.child name).fault? = none ∧ ∃ place, tree.enter cwd dir = .ok place ∧
        name.length ≤ Path.maxName ∧ tree.get? location ≠ none ∧ location = place ++ [name] := by
  obtain ⟨moves, hmoves, henter⟩ := follow_child tree cwd dir hname
  rw [locate, hmoves, henter]
  cases hfault : (dir.child name).fault? with
  | some fault => simp
  | none =>
      rw [follow_append]
      cases tree.follow (start cwd (dir.child name)) moves with
      | error fault => simp [bind, Except.bind]
      | ok place =>
          change tree.follow place [.down name] = .ok location ↔
            _ ∧ ∃ found, tree.reach place [] = .ok found ∧ _
          rw [follow_cons_eq_ok_iff]
          simp only [move_eq_ok_iff, reach_nil_eq_ok_iff, follow, Except.ok.injEq]
          constructor
          · rintro ⟨_, ⟨hdir, hlen, hsome, rfl⟩, rfl⟩
            exact ⟨trivial, place, ⟨hdir, rfl⟩, hlen, hsome, rfl⟩
          · rintro ⟨-, _, ⟨hdir, rfl⟩, hlen, hsome, rfl⟩
            exact ⟨_, ⟨hdir, hlen, hsome, rfl⟩, rfl⟩

theorem isFile_eq_true_iff
    {tree : Tree} {cwd : Location} {path : Path} :
    tree.isFile cwd path = true ↔
      ∃ content location, tree.locate cwd path = .ok location ∧
        tree.get? location = some (.file content) := by
  rw [isFile]
  cases tree.locate cwd path with
  | error fault => simp
  | ok location =>
      cases hentry : tree.get? location with
      | none => simp [hentry]
      | some entry => cases entry <;> simp [hentry]

end Tree

/-! ## Entries and what is seen of them -/

namespace World

open Mailbox

/-- The directory at a path has an entry of some name.  The empty path is that of the working
directory. -/
def HasEntry (world : World) (dir : Path) (name : String) (entry : Entry) : Prop :=
  ∃ place, Enters ⟨dir⟩ world place ∧ world.tree.child? place name = some entry

/-- The entry can be seen: its path is not too long. -/
def ShowsEntry (world : World) (dir : Path) (name : String) (entry : Entry) : Prop :=
  world.HasEntry dir name entry ∧ Fits (dir.child (Bytes.ofText name))

/-- The directory has a settings file. -/
def HasSettings (world : World) (dir : Path) : Prop :=
  ∃ content, world.HasEntry dir Settings.fileName (.file content)

/-- The directory is a repository. -/
def HasRepository (world : World) (dir : Path) : Prop :=
  ∃ entry, world.HasEntry dir Settings.repositoryMark entry

/-- The directory has a settings file that can be seen. -/
def ShowsSettings (world : World) (dir : Path) : Prop :=
  ∃ content, world.ShowsEntry dir Settings.fileName (.file content)

/-- The directory can be seen to be a repository. -/
def ShowsRepository (world : World) (dir : Path) : Prop :=
  ∃ entry, world.ShowsEntry dir Settings.repositoryMark entry

/-- The directory has the same settings file in both worlds, and is a repository in both or in
neither. -/
structure AgreesAt (world other : World) (dir : Path) : Prop where
  settings_iff : ∀ content, world.HasEntry dir Settings.fileName (.file content) ↔
    other.HasEntry dir Settings.fileName (.file content)
  repository_iff : world.HasRepository dir ↔ other.HasRepository dir

section Seeing

variable {world other : World} {dir : Path} {name : String} {entry found : Entry} {content : Bytes}

theorem HasEntry.unique
    (h : world.HasEntry dir name entry) (hfound : world.HasEntry dir name found) :
    entry = found := by
  obtain ⟨place, henters, hentry⟩ := h
  obtain ⟨place', henters', hentry'⟩ := hfound
  obtain rfl : place = place' :=
    Except.ok.inj (henters.enter_eq.symm.trans henters'.enter_eq)
  exact Option.some.inj (hentry.symm.trans hentry')

/-- What can be seen is what the path of the entry leads to. -/
theorem showsEntry_iff
    (hname : Name.IsPlain (Bytes.ofText name))
    (hshort : (Bytes.ofText name).length ≤ Path.maxName) :
    world.ShowsEntry dir name entry ↔
      ∃ location, world.tree.locate world.cwd (dir.child (Bytes.ofText name)) = .ok location ∧
        world.tree.get? location = some entry := by
  constructor
  · rintro ⟨⟨place, henters, hentry⟩, hfits⟩
    exact ⟨_, (henters.designates ⟨hname, hshort, hfits⟩).locate_of_some hentry, hentry⟩
  · rintro ⟨location, hlocate, hentry⟩
    obtain ⟨hfault, place, henter, -, -, rfl⟩ := (Tree.locate_child_eq_ok_iff hname).mp hlocate
    have hzero := Path.zero_notMem_of_child hname (Path.zero_notMem_of_fault? hfault)
    refine ⟨⟨place, ⟨henter, hzero⟩, hentry⟩, Nat.le_of_not_lt fun hlong => ?_⟩
    rw [Path.fault?_child hzero hname, if_pos hlong] at hfault
    cases hfault

theorem ShowsEntry.read_eq
    (h : world.ShowsEntry dir name (.file content)) (hname : Name.IsPlain (Bytes.ofText name))
    (hshort : (Bytes.ofText name).length ≤ Path.maxName) :
    world.tree.read world.cwd (dir.child (Bytes.ofText name)) = .ok content := by
  obtain ⟨⟨place, henters, hentry⟩, hfits⟩ := h
  exact (henters.designates ⟨hname, hshort, hfits⟩).read_eq hentry

/-- The search sees the settings files that can be seen. -/
theorem oracle_hasSettings_iff :
    world.oracle.HasSettings dir ↔ world.ShowsSettings dir := by
  refine Tree.isFile_eq_true_iff.trans (exists_congr fun content => ?_)
  exact (showsEntry_iff (by decide) (by decide)).symm

theorem oracle_hasRepository_iff :
    world.oracle.HasRepository dir ↔ world.ShowsRepository dir := by
  have hname : Name.IsPlain (Bytes.ofText Settings.repositoryMark) := by decide
  simp only [ShowsRepository, showsEntry_iff hname (show _ ≤ Path.maxName by decide)]
  change (world.tree.locate world.cwd (dir.child _)).isOk = true ↔ _
  cases hlocate : world.tree.locate world.cwd
      (dir.child (Bytes.ofText Settings.repositoryMark)) with
  | error fault => simp [Except.isOk, Except.toBool]
  | ok location =>
      obtain ⟨-, -, -, -, hsome, -⟩ := (Tree.locate_child_eq_ok_iff hname).mp hlocate
      obtain ⟨entry, hentry⟩ := Option.ne_none_iff_exists'.mp hsome
      exact iff_of_true rfl ⟨entry, location, rfl, hentry⟩

/-- Worlds that agree at a directory are alike to the search. -/
theorem AgreesAt.oracle
    (h : world.AgreesAt other dir) :
    world.oracle.AgreesAt other.oracle dir where
  hasSettings_iff := by
    rw [oracle_hasSettings_iff, oracle_hasSettings_iff]
    exact exists_congr fun content => and_congr_left fun _ => h.settings_iff content
  hasRepository_iff := by
    have hshows : ∀ world : World, world.ShowsRepository dir ↔
        world.HasRepository dir ∧ Fits (dir.child (Bytes.ofText Settings.repositoryMark)) :=
      fun _ => exists_and_right
    rw [oracle_hasRepository_iff, oracle_hasRepository_iff, hshows, hshows, h.repository_iff]
  read_eq := fun hsettings => by
    obtain ⟨content, hshows⟩ := oracle_hasSettings_iff.mp hsettings
    have hother : other.ShowsEntry dir Settings.fileName (.file content) :=
      ⟨(h.settings_iff content).mp hshows.1, hshows.2⟩
    exact (hshows.read_eq (by decide) (by decide)).trans
      (hother.read_eq (by decide) (by decide)).symm

end Seeing

end World

/-! ## The search -/

namespace Settings

open Procedure

section Searching

variable {start : Path}

/-- What is found in a world is the nearest settings file that can be seen. -/
theorem findsNearest_run (world : World) (start : Path) :
    FindsNearest world.ShowsSettings world.ShowsRepository start ((find start).run world).1 := by
  have hsettings : world.oracle.HasSettings = world.ShowsSettings :=
    funext fun _ => propext World.oracle_hasSettings_iff
  have hrepository : world.oracle.HasRepository = world.ShowsRepository :=
    funext fun _ => propext World.oracle_hasRepository_iff
  rw [(inquires_find start).run_eq, ← hsettings, ← hrepository]
  exact findsNearest_consult world.oracle start

/-- The search for settings that begins at a path. -/
structure SearchesUpward (start : Path) : Prop where
  /-- The way up has an end. -/
  ends : start.above? (start.bytes.length + 1) = none
  /-- Whatever the answers are, the search has an end too. -/
  brief : ∀ oracle, (find start).effort oracle ≤ 2 * (start.bytes.length + 1)
  /-- By the answers of any system, what is found is the nearest settings file. -/
  consulted : ∀ oracle : Oracle,
    FindsNearest oracle.HasSettings oracle.HasRepository start ((find start).consult oracle)
  /-- What systems answer beyond a repository does not matter to the settings in force. -/
  unconsulted : ∀ (oracle other : Oracle) (overrides : Overrides) (h : Nat) (last : Path),
    overrides.file? = none → start.above? h = some last → oracle.HasRepository last →
      (∀ i ≤ h, ∀ dir, start.above? i = some dir → oracle.AgreesAt other dir) →
        (∀ name ∈ Environment.names,
          oracle.answer (.variable name) = other.answer (.variable name)) →
          (resolve overrides start).consult oracle = (resolve overrides start).consult other
  /-- In a file tree, what is found is the nearest settings file that can be seen. -/
  found : ∀ world : World,
    FindsNearest world.ShowsSettings world.ShowsRepository start ((find start).run world).1
  /-- A repository beside the first settings does not hide them. -/
  beside : ∀ (world : World) (i : Nat) (dir : Path), start.above? i = some dir →
    world.ShowsSettings dir → world.ShowsRepository dir →
      (∀ h < i, ∀ before, start.above? h = some before →
        ¬world.ShowsSettings before ∧ ¬world.ShowsRepository before) →
        ((find start).run world).1 = some (fileIn dir)
  /-- A directory with the name of a settings file is none. -/
  passed : ∀ (world : World) (i : Nat) (dir : Path), start.above? i = some dir →
    world.HasEntry dir fileName .directory →
      ¬world.ShowsSettings dir ∧ ((find start).run world).1 ≠ some (fileIn dir)
  /-- What lies beyond a repository that can be seen does not matter to the settings in force. -/
  settled : ∀ (world other : World) (overrides : Overrides) (h : Nat) (last : Path),
    overrides.file? = none → start.above? h = some last → world.ShowsRepository last →
      (∀ i ≤ h, ∀ dir, start.above? i = some dir → world.AgreesAt other dir) →
        (∀ name ∈ Environment.names, world.environment name = other.environment name) →
          ((resolve overrides start).run world).1 = ((resolve overrides start).run other).1

/-- The search for settings goes up along the path and stops at the nearest settings file or at a
repository, so that nothing beyond that matters. -/
theorem search_stops_at_nearest (start : Path) :
    SearchesUpward start where
  ends := start.above?_eq_none
  brief := fun oracle =>
    (effort_findIn_le oracle start.ancestors).trans
      (Nat.mul_le_mul_left 2 start.length_ancestors_le)
  consulted := fun oracle => findsNearest_consult oracle start
  unconsulted := fun _ _ _ _ _ => consult_resolve_eq_of_agreesAt
  found := fun world => findsNearest_run world start
  beside := fun world i dir hdir hsettings _ hbefore =>
    ((findsNearest_run world start).found_iff i dir hdir).mpr
      (isNearest_iff.mpr ⟨dir, hdir, hsettings, hbefore⟩)
  passed := fun world i dir hdir hdirectory => by
    have hnone : ¬world.ShowsSettings dir := by
      rintro ⟨content, hshows⟩
      cases hdirectory.unique hshows.1
    refine ⟨hnone, fun hfound => ?_⟩
    have hnearest := ((findsNearest_run world start).found_iff i dir hdir).mp hfound
    obtain ⟨other, hother, hsettings, -⟩ := isNearest_iff.mp hnearest
    rw [Option.some.inj (hdir.symm.trans hother)] at hnone
    exact hnone hsettings
  settled := fun world other overrides h last hfile hlast hmark hagree hvariables => by
    rw [(inquires_resolve overrides start).run_eq, (inquires_resolve overrides start).run_eq]
    exact consult_resolve_eq_of_agreesAt hfile hlast (World.oracle_hasRepository_iff.mpr hmark)
      (fun i hle dir hdir => (hagree i hle dir hdir).oracle) hvariables

/-- A directory with the name of a settings file is passed, and a repository is beside the file. -/
example :
    let tree := ((Tree.nested 0x64 fileName).write [] fileName []).write [] repositoryMark []
    ((find ⟨[0x64]⟩).run (World.blank.withTree tree)).1 = some (fileIn ⟨[]⟩) := by
  decide +kernel

/-- The mark of a repository has a path that is too long, and the search goes on beyond it. -/
theorem long_path_hides_repository :
    let world := World.blank.withTree ((Tree.nested 0x64 repositoryMark).write [] fileName [])
    let start := Path.trailed 4091 0x64
    start.above? 0 = some start ∧ world.HasRepository start ∧ ¬world.HasSettings start ∧
      start.above? 1 = some ⟨[]⟩ ∧ ((find start).run world).1 = some (fileIn ⟨[]⟩) ∧
        ¬FindsNearest world.HasSettings world.HasRepository start ((find start).run world).1 := by
  intro world start
  have hd : Name.IsPlain [0x64] := by decide
  have hkept : ∀ location, location ≠ [] ++ [Bytes.ofText fileName] →
      world.tree.get? location = (Tree.nested 0x64 repositoryMark).get? location :=
    fun location hne => (Tree.get?_put _ _ _ Tree.place_ne_nil).trans (if_neg hne)
  have hopens : Mailbox.Opens ⟨start⟩ world [[0x64]] := by
    apply Mailbox.opens_trailed hd (by decide) rfl
    rw [hkept _ (by decide)]
    exact Tree.get?_nested 0x64 repositoryMark
  have hrepository : world.HasRepository start := by
    refine ⟨.directory, [[0x64]], hopens.enters, ?_⟩
    rw [Tree.child?, hkept _ (by decide)]
    exact Tree.child?_nested 0x64 repositoryMark
  have hsettings : ¬world.HasSettings start := by
    rintro ⟨content, place, henters, hentry⟩
    obtain rfl : [[0x64]] = place :=
      Except.ok.inj (hopens.enter_eq.symm.trans henters.enter_eq)
    have hnone := Tree.child?_nested_of_ne (b := 0x64) (show fileName ≠ repositoryMark by decide)
    rw [Tree.child?, hkept _ (by decide)] at hentry
    rw [Tree.child?, hentry] at hnone
    cases hnone
  have hlong : ∀ {name : String}, Name.IsPlain (Bytes.ofText name) →
      2 < (Bytes.ofText name).length → ¬Mailbox.Fits (start.child (Bytes.ofText name)) := by
    intro name hname hlen
    have hstart : start.bytes.length = 4093 := Path.length_trailed 4091 0x64
    change ¬Mailbox.Fits (Mailbox.entry ⟨start⟩ name)
    apply Mailbox.not_fits_of_length hname
    rw [hstart, Path.maxLength]
    omega
  have hparent : start.parent? = some ⟨[]⟩ := Path.parent?_trailed hd (by decide)
  have habove : start.above? 1 = some ⟨[]⟩ := Path.above?_succ_of_parent?_eq_some hparent 0
  have hroot : world.ShowsSettings ⟨[]⟩ := by
    refine ⟨[], ⟨[], ⟨rfl, List.not_mem_nil⟩, ?_⟩, by decide⟩
    exact (Tree.child?_write _ _ _ _ _).trans (if_pos rfl)
  have hfound : ((find start).run world).1 = some (fileIn ⟨[]⟩) := by
    refine ((findsNearest_run world start).found_iff 1 ⟨[]⟩ habove).mpr
      (isNearest_iff.mpr ⟨⟨[]⟩, habove, hroot, fun h hlt before hbefore => ?_⟩)
    obtain rfl : h = 0 := Nat.lt_one_iff.mp hlt
    obtain rfl : start = before := Option.some.inj hbefore
    refine ⟨?_, ?_⟩
    · rintro ⟨content, -, hfits⟩
      exact hlong (by decide) (by decide) hfits
    · rintro ⟨entry, -, hfits⟩
      exact hlong (by decide) (by decide) hfits
  refine ⟨rfl, hrepository, hsettings, habove, hfound, fun hfinds => ?_⟩
  have hnearest := (hfinds.found_iff 1 ⟨[]⟩ habove).mp hfound
  exact hnearest.unmarked 0 Nat.one_pos start rfl hrepository

end Searching

end Settings

end Postbox
