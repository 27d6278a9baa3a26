import Postbox.Proofs.NearestSettings
import Postbox.Proofs.SettingsFiles

/-!
# Which layer decides a setting

A settings file is a layer like the others: it supplies some settings and leaves the rest to the
defaults.  So every setting in force comes from the highest layer that supplies a value that will
do: whoever asks, the environment, the file, and at last the defaults.
-/

namespace Postbox

/-! ## What the settings file supplies -/

namespace Settings

/-- What the settings file supplies: the one that was asked for, or else the nearest one that can be
seen.  The first has to be good, or there are no settings but an error.  The second supplies nothing
if it is no good, and no other one is looked for. -/
inductive FileSupplies (world : World) :
    Option Path → Path → Except SettingsError Layer → Prop
  | asked {file directory : Path} {outcome : Except SettingsError Layer}
      (h : Loads file (world.tree.read world.cwd file) outcome) :
      FileSupplies world (some file) directory outcome
  | missing {directory : Path}
      (h : FindsNearest world.ShowsSettings world.ShowsRepository directory none) :
      FileSupplies world none directory (.ok {})
  | found {directory file : Path} {layer : Layer}
      (h : FindsNearest world.ShowsSettings world.ShowsRepository directory (some file))
      (hloads : Loads file (world.tree.read world.cwd file) (.ok layer)) :
      FileSupplies world none directory (.ok layer)
  | ignored {directory file : Path} {error : SettingsError}
      (h : FindsNearest world.ShowsSettings world.ShowsRepository directory (some file))
      (hloads : Loads file (world.tree.read world.cwd file) (.error error)) :
      FileSupplies world none directory (.ok {})

section Files

variable {world : World} {file? : Option Path} {directory : Path}
  {outcome other : Except SettingsError Layer}

theorem run_load (path : Path) (world : World) :
    (load path).run world = (ofContent path (world.tree.read world.cwd path), world) :=
  rfl

theorem run_find_eq
    {found : Option Path}
    (h : FindsNearest world.ShowsSettings world.ShowsRepository directory found) :
    ∃ log, (find directory).run world = (found, { world with log }) := by
  obtain ⟨log, hlog⟩ := onlyReports_findIn directory.ancestors world
  rw [← find] at hlog
  exact ⟨log, Prod.ext ((findsNearest_run world directory).unique h) hlog⟩

/-- The settings at the lowest layers are the defaults under what the file supplies. -/
theorem FileSupplies.run_base_eq
    (h : FileSupplies world file? directory outcome) :
    ((base file? directory).run world).1 = outcome.map ({} : Settings).under := by
  cases h with
  | asked h => exact h.ofContent_eq
  | missing h =>
      obtain ⟨log, hfind⟩ := run_find_eq h
      simp only [base, Procedure.run_bind, hfind]
      rfl
  | found h hloads =>
      obtain ⟨log, hfind⟩ := run_find_eq h
      simp only [base, Procedure.run_bind, hfind, run_load, hloads.ofContent_eq]
      rfl
  | ignored h hloads =>
      obtain ⟨log, hfind⟩ := run_find_eq h
      simp only [base, Procedure.run_bind, hfind, run_load, hloads.ofContent_eq]
      rfl

theorem exists_fileSupplies (world : World) (file? : Option Path) (directory : Path) :
    ∃ outcome, FileSupplies world file? directory outcome := by
  cases file? with
  | some file =>
      obtain ⟨outcome, h⟩ := exists_loads file (world.tree.read world.cwd file)
      exact ⟨outcome, .asked h⟩
  | none =>
      have hfinds := findsNearest_run world directory
      cases hfound : ((find directory).run world).1 with
      | none => exact ⟨_, .missing (hfound ▸ hfinds)⟩
      | some file =>
          rw [hfound] at hfinds
          obtain ⟨error | layer, h⟩ := exists_loads file (world.tree.read world.cwd file)
          · exact ⟨_, .ignored hfinds h⟩
          · exact ⟨_, .found hfinds h⟩

theorem FileSupplies.unique
    (h : FileSupplies world file? directory outcome)
    (hother : FileSupplies world file? directory other) :
    outcome = other := by
  cases h with
  | asked h =>
      cases hother with
      | asked hother => exact h.unique hother
  | missing h =>
      cases hother with
      | missing => rfl
      | found hother => cases h.unique hother
      | ignored => rfl
  | found h hloads =>
      cases hother with
      | missing hother => cases h.unique hother
      | found hother hloads' =>
          cases h.unique hother
          exact hloads.unique hloads'
      | ignored hother hloads' =>
          cases h.unique hother
          cases hloads.unique hloads'
  | ignored h hloads =>
      cases hother with
      | missing => rfl
      | found hother hloads' =>
          cases h.unique hother
          cases hloads.unique hloads'
      | ignored => rfl

end Files

end Settings

/-! ## What the environment supplies -/

namespace Environment

variable {α ε : Type}

/-- The value of a variable, read without the blanks around it, if there is one and it can be
read. -/
def parsed? (environment : Environment) (name : String) (read : String → Except ε α) : Option α :=
  ((environment name).bind Bytes.text?).bind fun text => (read (Text.trim text)).toOption

theorem value_fst (environment : Environment) (name : String) (read : String → Except String α) :
    (environment.value name read).1 = environment.parsed? name read := by
  rw [value, parsed?]
  cases (environment name).bind Bytes.text? with
  | none => rfl
  | some text =>
      rw [Option.bind_some]
      cases hread : read (Text.trim text) <;> simp only [hread] <;> rfl

theorem parsed?_mapError (environment : Environment) (name : String)
    (read : String → Except ε α) (message : ε → String) :
    environment.parsed? name (fun text => (read text).mapError message) =
      environment.parsed? name read := by
  rw [parsed?, parsed?]
  congr 1
  funext text
  cases read (Text.trim text) <;> rfl

theorem require_fst (holds : α → Bool) (warning : α → SettingsWarning)
    (found : Option α × List SettingsWarning) :
    (require holds warning found).1 = found.1.filter holds := by
  obtain ⟨_ | value, warnings⟩ := found
  · rfl
  · rw [require, Option.filter]
    split <;> rfl

/-- The environment supplies what can be read in it and will do. -/
theorem layer_fst (environment : Environment) :
    environment.layer.1 =
      { intervalMs? := (environment.parsed? "MAILDROP_POLL_INTERVAL_MS" Whole.read).filter (0 < ·)
        maxIntervalMs? := environment.parsed? "MAILDROP_POLL_MAX_INTERVAL_MS" Whole.read
        backoff? :=
          (environment.parsed? "MAILDROP_POLL_BACKOFF" Decimal.read).filter Binary64.isGrowth
        timeoutSecs? := environment.parsed? "MAILDROP_TIMEOUT_SECS" Whole.read
        sync? := environment.parsed? "MAILDROP_SYNC" readTruth
        order? := environment.parsed? "MAILDROP_ORDER" ReceiveOrder.read } := by
  simp only [layer, require_fst, value_fst, parsed?_mapError]

end Environment

/-- Overrides supply no interval of zero. -/
theorem Overrides.layer_fst (overrides : Overrides) :
    overrides.layer.1 =
      { intervalMs? := overrides.intervalMs?.filter (0 < ·)
        timeoutSecs? := overrides.timeoutSecs?
        sync? := overrides.sync?
        order? := overrides.order? } := by
  simp only [layer, Environment.require_fst]

/-! ## Setting by setting -/

/-- Two layers as one: the lower one supplies what the upper one does not. -/
def Layer.above (upper lower : Layer) : Layer where
  intervalMs? := upper.intervalMs?.or lower.intervalMs?
  maxIntervalMs? := upper.maxIntervalMs?.or lower.maxIntervalMs?
  backoff? := upper.backoff?.or lower.backoff?
  timeoutSecs? := upper.timeoutSecs?.or lower.timeoutSecs?
  sync? := upper.sync?.or lower.sync?
  order? := upper.order?.or lower.order?

namespace Settings

theorem under_above (settings : Settings) (upper lower : Layer) :
    settings.under (upper.above lower) = (settings.under lower).under upper := by
  have hgetD : ∀ {α : Type} (top bottom : Option α) (default : α),
      (top.or bottom).getD default = top.getD (bottom.getD default) := by
    intro α top bottom default
    cases top <;> rfl
  simp only [under, Layer.above, hgetD, Option.or_assoc]

/-- A layer of overrides raises the cap below it to its interval. -/
theorem overridden_maxIntervalMs? (settings : Settings) {layer : Layer}
    (hcap : layer.maxIntervalMs? = none) :
    (settings.overridden layer).maxIntervalMs? =
      settings.maxIntervalMs?.map fun cap => layer.intervalMs?.elim cap (max cap) := by
  cases hinterval : layer.intervalMs? with
  | none => simp [overridden, under, hinterval, hcap]
  | some ms => simp [overridden, under, raiseCap, hinterval, hcap]

/-- Only the cap depends on more than what the layers supply for the setting itself. -/
theorem overridden_eq_under (settings : Settings) (layer : Layer) :
    settings.overridden layer =
      { settings.under layer with
        maxIntervalMs? := (settings.overridden layer).maxIntervalMs? } := by
  rw [overridden]
  split <;> rfl

/-- Every setting in force is the value of the highest layer that supplies one that will do, and an
interval that is asked for raises the cap.  The file supplies one layer or is one error. -/
theorem resolve_eq_fieldwise (overrides : Overrides) (directory : Path) (world : World) :
    let asked := overrides.intervalMs?.filter (0 < ·)
    let given : Environment := world.environment
    (∃! outcome, FileSupplies world overrides.file? directory outcome) ∧
      ∀ outcome, FileSupplies world overrides.file? directory outcome →
        ((resolve overrides directory).run world).1 = outcome.map fun file =>
          { intervalMs :=
              (asked.or <|
                ((given.parsed? "MAILDROP_POLL_INTERVAL_MS" Whole.read).filter (0 < ·)).or
                  file.intervalMs?).getD 1000
            maxIntervalMs? :=
              ((given.parsed? "MAILDROP_POLL_MAX_INTERVAL_MS" Whole.read).or
                file.maxIntervalMs?).map fun cap => asked.elim cap (max cap)
            backoff :=
              (((given.parsed? "MAILDROP_POLL_BACKOFF" Decimal.read).filter Binary64.isGrowth).or
                file.backoff?).getD .one
            timeoutSecs? :=
              overrides.timeoutSecs?.or <| (given.parsed? "MAILDROP_TIMEOUT_SECS" Whole.read).or
                file.timeoutSecs?
            sync :=
              (overrides.sync?.or <| (given.parsed? "MAILDROP_SYNC" Environment.readTruth).or
                file.sync?).getD false
            order :=
              (overrides.order?.or <| (given.parsed? "MAILDROP_ORDER" ReceiveOrder.read).or
                file.order?).getD .oldest } := by
  intro asked given
  refine ⟨?_, fun outcome hfile => ?_⟩
  · obtain ⟨outcome, hfile⟩ := exists_fileSupplies world overrides.file? directory
    exact ⟨outcome, hfile, fun other hother => hother.unique hfile⟩
  rw [run_resolve, hfile.run_base_eq]
  cases outcome with
  | error error => rfl
  | ok file =>
      have hcap : overrides.layer.1.maxIntervalMs? = none := rfl
      refine congrArg Except.ok ?_
      beta_reduce
      rw [overridden_eq_under, overridden_maxIntervalMs? _ hcap, ← under_above, ← under_above,
        Overrides.layer_fst, Environment.layer_fst]
      simp only [under, Layer.above, Option.or_assoc, Option.or_none, Option.none_or]
      rfl

/-- The file at the root is good and supplies two settings.  The nearest file for the directory
below has an interval of zero.  Where it is found, nothing of it counts, nor does the good file
beyond it; where it is asked for, it is an error. -/
theorem resolve_eq_fieldwise_of_two_files :
    let good := "[polling]\ninterval_ms = 250\n\n[receive]\norder = \"listing\"\n"
    let bad := "[polling]\ninterval_ms = 0\n\n[delivery]\nsync = true\n"
    let world : World :=
      { World.blank with
        tree := ((Tree.lone 0x64).write [] fileName (Bytes.ofText good)).write [[0x64]] fileName
          (Bytes.ofText bad)
        environment := fun name =>
          if name = "MAILDROP_POLL_MAX_INTERVAL_MS" then some (Bytes.ofText "4000") else none }
    let root : Path := ⟨[Path.slash]⟩
    let below : Path := .ofText "/d"
    let overrides : Overrides := { timeoutSecs? := some 5 }
    (FileSupplies world none root (.ok { intervalMs? := some 250, order? := some .listing }) ∧
      ((resolve overrides root).run world).1 =
        .ok { intervalMs := 250, maxIntervalMs? := some 4000, timeoutSecs? := some 5
              order := .listing }) ∧
      (FileSupplies world none below (.ok {}) ∧
        ((resolve overrides below).run world).1 =
          .ok { maxIntervalMs? := some 4000, timeoutSecs? := some 5 }) ∧
      FileSupplies world (some (fileIn below)) below (.error .intervalZero) ∧
        ((resolve { overrides with file? := some (fileIn below) } below).run world).1 =
          .error .intervalZero := by
  intro good bad world root below overrides
  have hgood : Loads (fileIn root) (world.tree.read world.cwd (fileIn root))
      (.ok { intervalMs? := some 250, order? := some .listing }) := by
    have hread : world.tree.read world.cwd (fileIn root) = .ok (Bytes.ofText good) := by
      decide +kernel
    obtain ⟨table, htable, hlayer⟩ := exists_decodes good
      { intervalMs? := some 250, order? := some .listing } (by decide +kernel)
    rw [hread]
    exact .accepted (Bytes.text?_ofText good) htable hlayer ⟨by decide, by decide +kernel⟩
      (fun _ hcap => by cases hcap)
  have hbad : Loads (fileIn below) (world.tree.read world.cwd (fileIn below))
      (.error .intervalZero) := by
    have hread : world.tree.read world.cwd (fileIn below) = .ok (Bytes.ofText bad) := by
      decide +kernel
    obtain ⟨table, htable, hlayer⟩ := exists_decodes bad
      { intervalMs? := some 0, sync? := some true } (by decide +kernel)
    rw [hread]
    exact .flawed (Bytes.text?_ofText bad) htable hlayer (.interval rfl)
  have hfoundRoot : ((find root).run world).1 = some (fileIn root) := by decide +kernel
  have hfoundBelow : ((find below).run world).1 = some (fileIn below) := by decide +kernel
  have hfile := FileSupplies.found (hfoundRoot ▸ findsNearest_run world root) hgood
  have hignored := FileSupplies.ignored (hfoundBelow ▸ findsNearest_run world below) hbad
  have hasked : FileSupplies world (some (fileIn below)) below (.error .intervalZero) :=
    .asked hbad
  refine ⟨⟨hfile, ?_⟩, ⟨hignored, ?_⟩, hasked, ?_⟩
  · exact ((resolve_eq_fieldwise overrides root world).2 _ hfile).trans (by decide +kernel)
  · exact ((resolve_eq_fieldwise overrides below world).2 _ hignored).trans (by decide +kernel)
  · exact (resolve_eq_fieldwise { overrides with file? := some (fileIn below) } below world).2
      _ hasked

end Settings

end Postbox
