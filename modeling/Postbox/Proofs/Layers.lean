import Postbox.Proofs.Programs
import Postbox.Proofs.Rounding

/-!
# What holds of the settings in force

The settings of a file count only if they make sense together.  A higher layer is looked at value by
value: the environment supplies an interval and a cap each on its own, and only an overriding
interval raises the cap.
-/

namespace Postbox

/-- What one setting alone has to be: every layer sees to it. -/
structure Settings.Workable (settings : Settings) : Prop where
  interval_pos : 0 < settings.intervalMs
  backoff_growth : settings.backoff.isGrowth = true

/-- The cap, if there is one, is not below the interval. -/
def Settings.CapHolds (settings : Settings) : Prop :=
  ∀ cap, settings.maxIntervalMs? = some cap → settings.intervalMs ≤ cap

/-- The values that a layer supplies will do, each for itself. -/
structure Layer.Acceptable (layer : Layer) : Prop where
  interval_pos : ∀ ms, layer.intervalMs? = some ms → 0 < ms
  backoff_growth : ∀ factor, layer.backoff? = some factor → factor.isGrowth = true

namespace Environment

variable {α : Type} {holds : α → Bool} {warning : α → SettingsWarning}

/-- A value that is kept will do. -/
theorem holds_of_require_eq_some
    {value : α} (found : Option α × List SettingsWarning)
    (h : (require holds warning found).1 = some value) :
    holds value = true := by
  obtain ⟨_ | given, warnings⟩ := found
  · cases h
  · rw [require] at h
    split at h
    · rename_i hgiven
      rw [← Option.some.inj h]
      exact hgiven
    · cases h

theorem acceptable_layer (environment : Environment) :
    environment.layer.1.Acceptable where
  interval_pos := fun ms h => by
    have hholds := holds_of_require_eq_some _ h
    exact of_decide_eq_true hholds
  backoff_growth := fun _ h => holds_of_require_eq_some _ h

/-- Only the variables that settings are taken from matter. -/
theorem layer_congr
    {environment other : Environment} (h : ∀ name ∈ names, environment name = other name) :
    environment.layer = other.layer := by
  have hvalue : ∀ {β : Type} {name : String} (read : String → Except String β), name ∈ names →
      environment.value name read = other.value name read := by
    intro β name read hname
    rw [value, value, h name hname]
  simp only [layer]
  rw [hvalue _ (by simp [names]), hvalue _ (by simp [names]), hvalue _ (by simp [names]),
    hvalue _ (by simp [names]), hvalue _ (by simp [names]), hvalue _ (by simp [names])]

end Environment

namespace Overrides

theorem acceptable_layer (overrides : Overrides) :
    overrides.layer.1.Acceptable where
  interval_pos := fun ms h => by
    have hholds := Environment.holds_of_require_eq_some _ h
    exact of_decide_eq_true hholds
  backoff_growth := fun _ h => by cases h

/-- An overriding interval of zero counts for nothing. -/
theorem eq_zero_of_layer_eq_none
    {overrides : Overrides} {ms : Nat} (h : overrides.layer.1.intervalMs? = none)
    (hms : overrides.intervalMs? = some ms) :
    ms = 0 := by
  simp only [layer, Environment.require, hms] at h
  split at h
  · cases h
  · rename_i hzero
    simpa using hzero

end Overrides

namespace Settings

section Layers

variable {settings : Settings} {layer : Layer}

theorem error?_eq_none_iff :
    settings.error? = none ↔ settings.Workable ∧ settings.CapHolds := by
  unfold error? CapHolds
  constructor
  · intro h
    split at h
    · cases h
    · split at h
      · cases h
      · rename_i hinterval hbackoff
        refine ⟨⟨Nat.pos_of_ne_zero hinterval, by simpa using hbackoff⟩, fun cap hcap => ?_⟩
        simp only [hcap] at h
        split at h
        · cases h
        · omega
  · rintro ⟨⟨hinterval, hbackoff⟩, hcap⟩
    rw [if_neg (by omega), hbackoff, if_neg (by simp)]
    cases hmax : settings.maxIntervalMs? with
    | none => rfl
    | some cap =>
        have hle := hcap cap hmax
        exact if_neg (by omega)

theorem workable_default :
    ({} : Settings).Workable :=
  ⟨by decide, by decide +kernel⟩

theorem Workable.under
    (h : settings.Workable) (hlayer : layer.Acceptable) :
    (settings.under layer).Workable where
  interval_pos := by
    rw [Settings.under]
    cases hinterval : layer.intervalMs? with
    | none => exact h.interval_pos
    | some ms => exact hlayer.interval_pos ms hinterval
  backoff_growth := by
    rw [Settings.under]
    cases hbackoff : layer.backoff? with
    | none => exact h.backoff_growth
    | some factor => exact hlayer.backoff_growth factor hbackoff

theorem Workable.overridden
    (h : settings.Workable) (hlayer : layer.Acceptable) :
    (settings.overridden layer).Workable := by
  have hunder := h.under hlayer
  rw [Settings.overridden]
  split
  · exact ⟨hunder.interval_pos, hunder.backoff_growth⟩
  · exact hunder

/-- An interval from above takes the cap along. -/
theorem capHolds_overridden
    {ms : Nat} (h : layer.intervalMs? = some ms) :
    (settings.overridden layer).CapHolds := by
  intro cap hcap
  simp only [Settings.overridden, h, Option.isSome_some, if_true, raiseCap, Option.map_eq_some_iff]
    at hcap ⊢
  obtain ⟨given, -, rfl⟩ := hcap
  exact Nat.le_max_right _ _

/-- A layer without interval and cap leaves both as they are. -/
theorem overridden_eq_of_no_interval (settings : Settings)
    (hinterval : layer.intervalMs? = none) (hcap : layer.maxIntervalMs? = none) :
    (settings.overridden layer).intervalMs = settings.intervalMs ∧
      (settings.overridden layer).maxIntervalMs? = settings.maxIntervalMs? := by
  simp [Settings.overridden, Settings.under, hinterval, hcap]

/-- Where a layer puts the cap below the interval, one of the two is its own. -/
theorem capHolds_under_or
    (h : settings.CapHolds) {cap : Nat} (hcap : (settings.under layer).maxIntervalMs? = some cap) :
    (settings.under layer).intervalMs ≤ cap ∨
      layer.intervalMs? = some (settings.under layer).intervalMs ∨
        layer.maxIntervalMs? = some cap := by
  simp only [Settings.under] at hcap ⊢
  cases hinterval : layer.intervalMs? with
  | some ms => exact .inr (.inl rfl)
  | none =>
      cases hmax : layer.maxIntervalMs? with
      | some max => exact .inr (.inr (by simpa [hmax] using hcap))
      | none => exact .inl (h cap (by simpa [hmax] using hcap))

end Layers

/-! ## From the files to the settings -/

section Resolving

variable {overrides : Overrides} {directory : Path} {world : World} {settings : Settings}

theorem error?_of_ofContent_eq_ok
    {path : Path} {content : Except Fault Bytes} (h : ofContent path content = .ok settings) :
    settings.error? = none := by
  unfold ofContent at h
  split at h
  · cases h
  · split at h
    · cases h
    · split at h
      · cases h
      · split at h
        · cases h
        · rename_i herror
          rw [← Except.ok.inj h]
          exact herror

theorem error?_default :
    ({} : Settings).error? = none :=
  error?_eq_none_iff.mpr ⟨workable_default, fun _ h => by cases h⟩

/-- The settings at the lowest layers make sense. -/
theorem error?_of_run_base
    {file? : Option Path} (h : ((base file? directory).run world).1 = .ok settings) :
    settings.error? = none := by
  have hdefault : ∀ {other : Settings}, (Except.ok {} : Except SettingsError Settings) = .ok other →
      other.error? = none := fun heq => Except.ok.inj heq ▸ error?_default
  cases file? with
  | some file => exact error?_of_ofContent_eq_ok h
  | none =>
      simp only [base, Procedure.run_bind] at h
      cases hfound : ((find directory).run world).1 with
      | none =>
          rw [hfound] at h
          exact hdefault h
      | some file =>
          rw [hfound] at h
          simp only [Procedure.run_bind] at h
          cases hload : ((load file).run ((find directory).run world).2).1 with
          | ok loaded =>
              rw [hload] at h
              rw [← Except.ok.inj h]
              exact error?_of_ofContent_eq_ok hload
          | error error =>
              rw [hload] at h
              exact hdefault h

/-- Reading variables tells what they are. -/
theorem run_readVariables (names : List String) (world : World) :
    ∃ environment : Environment, (readVariables names).run world = (environment, world) ∧
      ∀ name ∈ names, environment name = world.environment name := by
  induction names with
  | nil => exact ⟨_, rfl, fun _ h => by cases h⟩
  | cons name rest ih =>
      obtain ⟨environment, hrun, hagree⟩ := ih
      refine ⟨fun key => if key = name then world.environment name else environment key, ?_, ?_⟩
      · have hvariable : (Procedure.request (.variable name)).run world =
            (world.environment name, world) := rfl
        rw [readVariables, Procedure.run_bind, hvariable]
        simp only
        rw [Procedure.run_bind, hrun]
        rfl
      · intro key hkey
        by_cases heq : key = name
        · simp [heq]
        · simpa [heq] using hagree key ((List.mem_cons.mp hkey).resolve_left heq)

/-- The settings in force are those of the lowest layers under the environment and the
overrides. -/
theorem run_resolve (overrides : Overrides) (directory : Path) (world : World) :
    ((resolve overrides directory).run world).1 =
      ((base overrides.file? directory).run world).1.map fun settings =>
        (settings.under (Environment.layer world.environment).1).overridden overrides.layer.1 := by
  obtain ⟨log, hlog⟩ := onlyReports_base overrides.file? directory world
  rw [resolve, Procedure.run_bind, hlog]
  cases ((base overrides.file? directory).run world).1 with
  | error error => rfl
  | ok settings =>
      obtain ⟨environment, hrun, hagree⟩ := run_readVariables Environment.names { world with log }
      have hlayer : environment.layer = Environment.layer world.environment :=
        Environment.layer_congr hagree
      simp only [Procedure.run_bind, hrun, hlayer]
      rfl

theorem exists_of_run_resolve
    (h : ((resolve overrides directory).run world).1 = .ok settings) :
    ∃ found : Settings, found.error? = none ∧
      settings =
        (found.under (Environment.layer world.environment).1).overridden overrides.layer.1 := by
  rw [run_resolve] at h
  cases hbase : ((base overrides.file? directory).run world).1 with
  | error error =>
      rw [hbase] at h
      cases h
  | ok found =>
      rw [hbase] at h
      exact ⟨found, error?_of_run_base hbase, (Except.ok.inj h).symm⟩

theorem workable_of_run_resolve
    (h : ((resolve overrides directory).run world).1 = .ok settings) :
    settings.Workable := by
  obtain ⟨found, herror, rfl⟩ := exists_of_run_resolve h
  exact ((error?_eq_none_iff.mp herror).1.under
    (Environment.acceptable_layer world.environment)).overridden overrides.acceptable_layer

/-- The settings in force have a positive interval and a finite factor of at least one.  Their cap
is not below the interval, unless one of the two comes from the environment and no override gives an
interval. -/
theorem resolved_settings_accepted
    (h : ((resolve overrides directory).run world).1 = .ok settings) :
    1 ≤ settings.intervalMs ∧
      (settings.backoff.isFinite = true ∧ settings.backoff.isNegative = false ∧
        Binary64.one.units ≤ settings.backoff.units) ∧
      ∀ cap, settings.maxIntervalMs? = some cap →
        settings.intervalMs ≤ cap ∨
          ((∀ ms, overrides.intervalMs? = some ms → ms = 0) ∧
            ((Environment.layer world.environment).1.intervalMs? = some settings.intervalMs ∨
              (Environment.layer world.environment).1.maxIntervalMs? = some cap)) := by
  obtain ⟨hinterval, hgrowth⟩ := workable_of_run_resolve h
  refine ⟨hinterval, ?_, fun cap hcap => ?_⟩
  · have hparts := hgrowth
    simp only [Binary64.isGrowth, Bool.and_eq_true, Bool.not_eq_true'] at hparts
    exact ⟨hparts.1.1, hparts.1.2, Binary64.one_units_le_of_isGrowth hgrowth⟩
  · obtain ⟨found, herror, rfl⟩ := exists_of_run_resolve h
    cases htop : overrides.layer.1.intervalMs? with
    | some ms => exact .inl (capHolds_overridden htop cap hcap)
    | none =>
        obtain ⟨hsame, hsameCap⟩ := overridden_eq_of_no_interval
          (found.under (Environment.layer world.environment).1) htop rfl
        rw [hsameCap] at hcap
        rw [hsame]
        exact (capHolds_under_or (error?_eq_none_iff.mp herror).2 hcap).imp_right fun hsupplied =>
          ⟨fun _ => Overrides.eq_zero_of_layer_eq_none htop, hsupplied⟩

/-- A file supplies interval and cap, the environment a cap below that interval, and an interval
above both is asked for: the cap goes up with it. -/
theorem resolved_settings_accepted_under_override :
    let content := Bytes.ofText
      "[polling]\ninterval_ms = 2000\nmax_interval_ms = 3000\nbackoff = 2\n"
    let world : World :=
      { World.blank with
        tree := Tree.empty.put [Bytes.ofText fileName] (.file content)
        environment := fun name =>
          if name = "MAILDROP_POLL_MAX_INTERVAL_MS" then some (Bytes.ofText "1500") else none }
    let settings : Settings :=
      { intervalMs := 4000, maxIntervalMs? := some 4000, backoff := .ofInt 2 }
    ((resolve { intervalMs? := some 4000 } ⟨[Path.slash]⟩).run world).1 = .ok settings ∧
      1 ≤ settings.intervalMs ∧
      (settings.backoff.isFinite = true ∧ settings.backoff.isNegative = false ∧
        Binary64.one.units ≤ settings.backoff.units) ∧
      ∀ cap, settings.maxIntervalMs? = some cap → settings.intervalMs ≤ cap := by
  intro content world settings
  have h : ((resolve { intervalMs? := some 4000 } ⟨[Path.slash]⟩).run world).1 = .ok settings := by
    decide +kernel
  obtain ⟨hinterval, hbackoff, hcap⟩ := resolved_settings_accepted h
  refine ⟨h, hinterval, hbackoff, fun cap hmax => (hcap cap hmax).resolve_right ?_⟩
  rintro ⟨hzero, -⟩
  exact absurd (hzero 4000 rfl) (by decide)

/-- The environment alone puts the cap below the interval. -/
theorem cap_below_interval_resolved :
    let environment : Environment := fun name =>
      if name = "MAILDROP_POLL_INTERVAL_MS" then some (Bytes.ofText "5000")
      else if name = "MAILDROP_POLL_MAX_INTERVAL_MS" then some (Bytes.ofText "2000")
      else none
    ∃ settings cap,
      ((resolve {} ⟨[Path.slash]⟩).run { World.blank with environment }).1 = .ok settings ∧
        settings.maxIntervalMs? = some cap ∧ cap < settings.intervalMs ∧
          settings.error? = some (.capBelowInterval cap settings.intervalMs) := by
  intro environment
  refine ⟨{ intervalMs := 5000, maxIntervalMs? := some 2000 }, 2000, ?_, rfl, by decide,
    by decide +kernel⟩
  decide +kernel

end Resolving

end Settings

end Postbox
