import Postbox.Proofs.Layers

/-!
# What a settings file supplies

A settings file is good if it is a text that describes a table, every item of the table that is
there for a setting can stand for one, and the settings make sense, with the defaults for those that
are missing.  A good file is a layer like the others: it supplies the settings that it has items
for.  Each way of being no good is an error of its own.

`Loads` says this without regard to how a file is loaded.  Loading follows it.
-/

namespace Postbox

open Toml (Item Table)

/-! ## Items that stand for settings -/

namespace Toml

namespace Item

/-- An item that can be a section: its items stand for fields, if it has any. -/
inductive IsSection : Item → Prop
  | table (fields : Table) : IsSection (.table fields)
  | inlineTable (fields : Table) : IsSection (.inlineTable fields)
  | array (items : List Item) : IsSection (.array items)
  | tables (fields : List Table) : IsSection (.tables fields)
  | moment : IsSection .moment

instance : DecidablePred IsSection
  | .table fields => isTrue (.table fields)
  | .inlineTable fields => isTrue (.inlineTable fields)
  | .array items => isTrue (.array items)
  | .tables fields => isTrue (.tables fields)
  | .moment => isTrue .moment
  | .text _ | .integer _ | .float _ | .boolean _ => isFalse nofun

/-- The item that stands for a field of a section: by its key in a table, by its place in an
array. -/
def field? (key : String) (place : Nat) : Item → Option Item
  | .table fields | .inlineTable fields => fields.get? key
  | .array items => items[place]?
  | .tables fields => fields[place]?.map .table
  | _ => none

/-- The item is a whole number. -/
inductive IsWhole : Item → Nat → Prop
  | integer (value : Nat) : IsWhole (.integer value) value

/-- The item is a number. -/
inductive IsNumber : Item → Binary64 → Prop
  | integer (value : Int) : IsNumber (.integer value) (.ofInt value)
  | float (value : Binary64) : IsNumber (.float value) value

/-- The item is a truth value. -/
inductive IsTruth : Item → Bool → Prop
  | boolean (value : Bool) : IsTruth (.boolean value) value

/-- There is nothing in the item. -/
inductive IsVoid : Item → Prop
  | array : IsVoid (.array [])
  | table {fields : Table} (h : fields.items = []) : IsVoid (.table fields)
  | inlineTable {fields : Table} (h : fields.items = []) : IsVoid (.inlineTable fields)

/-- The item names an order, as a text or as the key of nothing. -/
inductive NamesOrder : Item → ReceiveOrder → Prop
  | text (order : ReceiveOrder) : NamesOrder (.text order.name) order
  | table {fields : Table} {item : Item} (order : ReceiveOrder)
      (h : fields.items = [(order.name, item)]) (hvoid : item.IsVoid) :
      NamesOrder (.table fields) order
  | inlineTable {fields : Table} {item : Item} (order : ReceiveOrder)
      (h : fields.items = [(order.name, item)]) (hvoid : item.IsVoid) :
      NamesOrder (.inlineTable fields) order

end Item

/-- The item that a table has for a field of a section, if there is one. -/
def Table.setting? (table : Table) (heading key : String) (place : Nat) : Option Item :=
  (table.get? heading).bind (Item.field? key place)

end Toml

/-- A missing item supplies no value, and any other one the value that it stands for. -/
inductive Supplies {α : Type} (stands : Item → α → Prop) : Option Item → Option α → Prop
  | missing : Supplies stands none none
  | given {item : Item} {value : α} (h : stands item value) :
      Supplies stands (some item) (some value)

/-! ## Good files -/

namespace Settings

/-- A table can be read as settings and supplies those of a layer. -/
structure Decodes (table : Table) (layer : Layer) : Prop where
  isSection : ∀ heading ∈ ["polling", "delivery", "receive"],
    ∀ item ∈ table.get? heading, item.IsSection
  interval : Supplies Item.IsWhole (table.setting? "polling" "interval_ms" 0) layer.intervalMs?
  cap : Supplies Item.IsWhole (table.setting? "polling" "max_interval_ms" 1) layer.maxIntervalMs?
  backoff : Supplies Item.IsNumber (table.setting? "polling" "backoff" 2) layer.backoff?
  timeout : Supplies Item.IsWhole (table.setting? "polling" "timeout_secs" 3) layer.timeoutSecs?
  sync : Supplies Item.IsTruth (table.setting? "delivery" "sync" 0) layer.sync?
  order : Supplies Item.NamesOrder (table.setting? "receive" "order" 0) layer.order?

/-- The first thing that is wrong with settings. -/
inductive Flaw (settings : Settings) : SettingsError → Prop
  | interval (h : settings.intervalMs = 0) : Flaw settings .intervalZero
  | backoff (hinterval : settings.intervalMs ≠ 0) (h : settings.backoff.isGrowth = false) :
      Flaw settings (.backoffTooSmall settings.backoff)
  | cap {cap : Nat} (hworks : settings.Workable) (hcap : settings.maxIntervalMs? = some cap)
      (h : cap < settings.intervalMs) :
      Flaw settings (.capBelowInterval cap settings.intervalMs)

/-- What comes of the file at a path, given what reading the file gave: the layer that it supplies,
or what is wrong with it. -/
inductive Loads (path : Path) : Except Fault Bytes → Except SettingsError Layer → Prop
  | unread (fault : Fault) : Loads path (.error fault) (.error (.io path fault))
  | notText {bytes : Bytes} (htext : bytes.text? = none) :
      Loads path (.ok bytes) (.error (.io path .notText))
  | notTable {bytes : Bytes} {text : String} (htext : bytes.text? = some text)
      (htable : Table.ofText? text = none) :
      Loads path (.ok bytes) (.error (.malformed path))
  | notSettings {bytes : Bytes} {text : String} {table : Table}
      (htext : bytes.text? = some text) (htable : Table.ofText? text = some table)
      (hnone : ∀ layer, ¬Decodes table layer) :
      Loads path (.ok bytes) (.error (.malformed path))
  | flawed {bytes : Bytes} {text : String} {table : Table} {layer : Layer} {error : SettingsError}
      (htext : bytes.text? = some text) (htable : Table.ofText? text = some table)
      (hlayer : Decodes table layer) (hflaw : Flaw (({} : Settings).under layer) error) :
      Loads path (.ok bytes) (.error error)
  | accepted {bytes : Bytes} {text : String} {table : Table} {layer : Layer}
      (htext : bytes.text? = some text) (htable : Table.ofText? text = some table)
      (hlayer : Decodes table layer) (hworks : (({} : Settings).under layer).Workable)
      (hcap : (({} : Settings).under layer).CapHolds) :
      Loads path (.ok bytes) (.ok layer)

end Settings

/-! ## Reading items -/

section Items

variable {α : Type} {item : Item}

namespace Supplies

variable {stands : Item → α → Prop} {item? : Option Item} {value? other? : Option α}

instance [∀ item value, Decidable (stands item value)] (item? : Option Item) (value? : Option α) :
    Decidable (Supplies stands item? value?) :=
  match item?, value? with
  | none, none => isTrue .missing
  | none, some _ | some _, none => isFalse nofun
  | some item, some value => decidable_of_iff (stands item value) ⟨.given, fun | .given h => h⟩

@[simp] theorem none_iff :
    Supplies stands none value? ↔ value? = none := by
  constructor
  · rintro ⟨⟩
    rfl
  · rintro rfl
    exact .missing

@[simp] theorem some_iff :
    Supplies stands (some item) value? ↔ ∃ value, stands item value ∧ value? = some value := by
  constructor
  · rintro ⟨⟩
    exact ⟨_, ‹_›, rfl⟩
  · rintro ⟨value, h, rfl⟩
    exact .given h

/-- What can be read supplies one value. -/
theorem unique
    {read? : Item → Option α} (h : Supplies stands item? value?)
    (hread : ∀ item value, read? item = some value ↔ stands item value)
    (hother : Supplies stands item? other?) :
    value? = other? := by
  cases h with
  | missing => exact (none_iff.mp hother).symm
  | given h =>
      obtain ⟨value, hvalue, rfl⟩ := some_iff.mp hother
      exact ((hread _ _).mpr h).symm.trans ((hread _ _).mpr hvalue)

end Supplies

namespace Settings

theorem whole?_eq_some_iff (item : Item) (value : Nat) :
    whole? item = some value ↔ item.IsWhole value := by
  constructor
  · intro h
    cases item with
    | integer number =>
        rw [whole?] at h
        split at h
        · rename_i hpos
          rw [← Option.some.inj h]
          obtain ⟨value, rfl⟩ := Int.eq_ofNat_of_zero_le hpos
          exact .integer value
        · cases h
    | _ => cases h
  · rintro ⟨⟩
    rw [whole?, if_pos (Int.natCast_nonneg value), Int.toNat_natCast]

theorem number?_eq_some_iff (item : Item) (value : Binary64) :
    number? item = some value ↔ item.IsNumber value := by
  constructor
  · intro h
    cases item with
    | integer number => exact Option.some.inj h ▸ .integer number
    | float number => exact Option.some.inj h ▸ .float number
    | _ => cases h
  · rintro (_ | _) <;> rfl

theorem truth?_eq_some_iff (item : Item) (value : Bool) :
    truth? item = some value ↔ item.IsTruth value := by
  constructor
  · intro h
    cases item with
    | boolean truth => exact Option.some.inj h ▸ .boolean truth
    | _ => cases h
  · rintro ⟨⟩
    rfl

theorem isVoid_eq_true_iff :
    isVoid item = true ↔ item.IsVoid := by
  constructor
  · intro h
    cases item with
    | array items => exact List.isEmpty_iff.mp h ▸ .array
    | table fields => exact .table (List.isEmpty_iff.mp h)
    | inlineTable fields => exact .inlineTable (List.isEmpty_iff.mp h)
    | _ => cases h
  · rintro (_ | h | h)
    · rfl
    · exact List.isEmpty_iff.mpr h
    · exact List.isEmpty_iff.mpr h

theorem ofName?_eq_some_iff {word : String} {order : ReceiveOrder} :
    ReceiveOrder.ofName? word = some order ↔ word = order.name := by
  constructor
  · intro h
    rw [ReceiveOrder.ofName?] at h
    split at h
    · rename_i hword
      exact Option.some.inj h ▸ hword
    · split at h
      · rename_i hword
        exact Option.some.inj h ▸ hword
      · cases h
  · rintro rfl
    exact ReceiveOrder.ofName?_name order

theorem order?_eq_some_iff (item : Item) (order : ReceiveOrder) :
    order? item = some order ↔ item.NamesOrder order := by
  have hfields : ∀ fields : Table, order? (.table fields) = some order ↔
      ∃ item, fields.items = [(order.name, item)] ∧ item.IsVoid := by
    intro fields
    rw [order?]
    split
    · rename_i name item hitems
      rw [hitems]
      simp [← isVoid_eq_true_iff, ofName?_eq_some_iff, and_comm]
    · rename_i hother
      refine iff_of_false nofun ?_
      rintro ⟨item, hitems, -⟩
      exact hother _ _ hitems
  constructor
  · intro h
    cases item with
    | text word => exact ofName?_eq_some_iff.mp h ▸ .text order
    | table fields =>
        obtain ⟨item, hitems, hvoid⟩ := (hfields fields).mp h
        exact .table order hitems hvoid
    | inlineTable fields =>
        obtain ⟨item, hitems, hvoid⟩ := (hfields fields).mp h
        exact .inlineTable order hitems hvoid
    | _ => cases h
  · rintro (_ | ⟨_, hitems, hvoid⟩ | ⟨_, hitems, hvoid⟩)
    · exact ReceiveOrder.ofName?_name order
    · exact (hfields _).mpr ⟨_, hitems, hvoid⟩
    · exact (hfields _).mpr ⟨_, hitems, hvoid⟩

instance (value : Nat) : Decidable (item.IsWhole value) :=
  decidable_of_iff _ (whole?_eq_some_iff item value)

instance (value : Binary64) : Decidable (item.IsNumber value) :=
  decidable_of_iff _ (number?_eq_some_iff item value)

instance (value : Bool) : Decidable (item.IsTruth value) :=
  decidable_of_iff _ (truth?_eq_some_iff item value)

instance (order : ReceiveOrder) : Decidable (item.NamesOrder order) :=
  decidable_of_iff _ (order?_eq_some_iff item order)

theorem fields?_eq_some_iff {names : List String} {fields : List (Option Item)} :
    fields? names item = some fields ↔
      item.IsSection ∧ fields = names.zipIdx.map fun name => item.field? name.1 name.2 := by
  have hkeys : ∀ find? : String → Option Item,
      names.map find? = names.zipIdx.map fun name => find? name.1 := by
    intro find?
    conv_lhs => rw [← List.zipIdx_map_fst 0 names, List.map_map]
    rfl
  have hplace : ∀ found : List (Option Item),
      some found = some fields ↔ fields = found := fun found =>
    ⟨fun h => (Option.some.inj h).symm, fun h => congrArg some h.symm⟩
  cases item with
  | table table =>
      rw [fields?, hplace, hkeys]
      exact (and_iff_right (.table table)).symm
  | inlineTable table =>
      rw [fields?, hplace, hkeys]
      exact (and_iff_right (.inlineTable table)).symm
  | array items => exact (hplace _).trans (and_iff_right (.array items)).symm
  | tables tables => exact (hplace _).trans (and_iff_right (.tables tables)).symm
  | moment =>
      rw [fields?, hplace, hkeys]
      exact (and_iff_right .moment).symm
  | _ => exact iff_of_false nofun nofun

section Fields

variable {read? : Item → Option α} {stands : Item → α → Prop} {item? : Option Item}

theorem fieldOr_eq_some_iff
    (hread : ∀ item value, read? item = some value ↔ stands item value) {default value : α} :
    fieldOr default read? item? = some value ↔
      ∃ value?, Supplies stands item? value? ∧ value = value?.getD default := by
  cases item? with
  | none => simp [fieldOr, eq_comm]
  | some item => simp [fieldOr, hread]

theorem fieldOr_some_eq_some_iff
    (hread : ∀ item value, read? item = some value ↔ stands item value)
    {default value : Option α} :
    fieldOr default (fun item => (read? item).map some) item? = some value ↔
      ∃ value?, Supplies stands item? value? ∧ value = value?.or default := by
  cases item? with
  | none => simp [fieldOr, eq_comm]
  | some item => simp [fieldOr, hread, eq_comm]

end Fields

end Settings

end Items

/-! ## Reading tables -/

namespace Settings

section Tables

variable {settings after : Settings} {section? : Option Item} {table : Table}

theorem under_empty (settings : Settings) :
    settings.under {} = settings :=
  rfl

theorem fieldOr_withPolling?_eq_some_iff :
    fieldOr settings settings.withPolling? section? = some after ↔
      (∀ item ∈ section?, item.IsSection) ∧ ∃ interval?,
        Supplies Item.IsWhole (section?.bind (Item.field? "interval_ms" 0)) interval? ∧ ∃ cap?,
          Supplies Item.IsWhole (section?.bind (Item.field? "max_interval_ms" 1)) cap? ∧ ∃ backoff?,
            Supplies Item.IsNumber (section?.bind (Item.field? "backoff" 2)) backoff? ∧ ∃ timeout?,
              Supplies Item.IsWhole (section?.bind (Item.field? "timeout_secs" 3)) timeout? ∧
                settings.under
                  { intervalMs? := interval?, maxIntervalMs? := cap?, backoff? := backoff?
                    timeoutSecs? := timeout? } = after := by
  cases section? with
  | none => simp [fieldOr, settings.under_empty]
  | some item =>
      change settings.withPolling? item = some after ↔ _
      simp [withPolling?, fields?_eq_some_iff, Option.bind_eq_some_iff, and_assoc,
        fieldOr_eq_some_iff whole?_eq_some_iff, fieldOr_some_eq_some_iff whole?_eq_some_iff,
        fieldOr_eq_some_iff number?_eq_some_iff, under]

theorem fieldOr_withDelivery?_eq_some_iff :
    fieldOr settings settings.withDelivery? section? = some after ↔
      (∀ item ∈ section?, item.IsSection) ∧ ∃ sync?,
        Supplies Item.IsTruth (section?.bind (Item.field? "sync" 0)) sync? ∧
          settings.under { sync? } = after := by
  cases section? with
  | none => simp [fieldOr, settings.under_empty]
  | some item =>
      change settings.withDelivery? item = some after ↔ _
      -- Without going through the two truth values, which would hide the item behind them.
      simp [withDelivery?, fields?_eq_some_iff, Option.bind_eq_some_iff, and_assoc,
        fieldOr_eq_some_iff truth?_eq_some_iff, under, -Bool.exists_bool]

theorem fieldOr_withReceive?_eq_some_iff :
    fieldOr settings settings.withReceive? section? = some after ↔
      (∀ item ∈ section?, item.IsSection) ∧ ∃ order?,
        Supplies Item.NamesOrder (section?.bind (Item.field? "order" 0)) order? ∧
          settings.under { order? } = after := by
  cases section? with
  | none => simp [fieldOr, settings.under_empty]
  | some item =>
      change settings.withReceive? item = some after ↔ _
      simp [withReceive?, fields?_eq_some_iff, Option.bind_eq_some_iff, and_assoc,
        fieldOr_eq_some_iff order?_eq_some_iff, under]

/-- A table can be read as settings exactly if it supplies a layer, and they are the defaults under
that layer. -/
theorem ofTable?_eq_some_iff :
    ofTable? table = some settings ↔
      ∃ layer, Decodes table layer ∧ ({} : Settings).under layer = settings := by
  constructor
  · intro h
    rw [ofTable?] at h
    obtain ⟨fields, hfields, h⟩ := Option.bind_eq_some_iff.mp h
    cases hfields
    obtain ⟨first, hpolling, h⟩ := Option.bind_eq_some_iff.mp h
    obtain ⟨second, hdelivery, hreceive⟩ := Option.bind_eq_some_iff.mp h
    obtain ⟨hsection, interval?, hinterval, cap?, hcap, backoff?, hbackoff, timeout?, htimeout,
      rfl⟩ := fieldOr_withPolling?_eq_some_iff.mp hpolling
    obtain ⟨hsection', sync?, hsync, rfl⟩ := fieldOr_withDelivery?_eq_some_iff.mp hdelivery
    obtain ⟨hsection'', order?, horder, rfl⟩ := fieldOr_withReceive?_eq_some_iff.mp hreceive
    refine ⟨⟨interval?, cap?, backoff?, timeout?, sync?, order?⟩,
      ⟨?_, hinterval, hcap, hbackoff, htimeout, hsync, horder⟩, ?_⟩
    · simpa using ⟨hsection, hsection', hsection''⟩
    · simp [under]
  · rintro ⟨layer, hlayer, rfl⟩
    have hpolling (settings : Settings) := fieldOr_withPolling?_eq_some_iff.mpr
      ⟨hlayer.isSection "polling" (by simp), _, hlayer.interval, _, hlayer.cap, _, hlayer.backoff,
        _, hlayer.timeout, Eq.refl (settings.under _)⟩
    have hdelivery (settings : Settings) := fieldOr_withDelivery?_eq_some_iff.mpr
      ⟨hlayer.isSection "delivery" (by simp), _, hlayer.sync, Eq.refl (settings.under _)⟩
    have hreceive (settings : Settings) := fieldOr_withReceive?_eq_some_iff.mpr
      ⟨hlayer.isSection "receive" (by simp), _, hlayer.order, Eq.refl (settings.under _)⟩
    refine Option.bind_eq_some_iff.mpr ⟨_, hpolling {}, ?_⟩
    refine Option.bind_eq_some_iff.mpr ⟨_, hdelivery _, ?_⟩
    refine (hreceive _).trans (congrArg some ?_)
    simp [under]

instance (layer : Layer) : Decidable (Decodes table layer) :=
  decidable_of_iff
    ((∀ heading ∈ ["polling", "delivery", "receive"],
        ∀ item ∈ table.get? heading, item.IsSection) ∧
      Supplies Item.IsWhole (table.setting? "polling" "interval_ms" 0) layer.intervalMs? ∧
      Supplies Item.IsWhole (table.setting? "polling" "max_interval_ms" 1) layer.maxIntervalMs? ∧
      Supplies Item.IsNumber (table.setting? "polling" "backoff" 2) layer.backoff? ∧
      Supplies Item.IsWhole (table.setting? "polling" "timeout_secs" 3) layer.timeoutSecs? ∧
      Supplies Item.IsTruth (table.setting? "delivery" "sync" 0) layer.sync? ∧
      Supplies Item.NamesOrder (table.setting? "receive" "order" 0) layer.order?)
    ⟨fun ⟨hsection, hinterval, hcap, hbackoff, htimeout, hsync, horder⟩ =>
        ⟨hsection, hinterval, hcap, hbackoff, htimeout, hsync, horder⟩,
      fun h => ⟨h.isSection, h.interval, h.cap, h.backoff, h.timeout, h.sync, h.order⟩⟩

theorem Decodes.unique
    {layer other : Layer} (h : Decodes table layer) (hother : Decodes table other) :
    layer = other := by
  cases layer
  cases other
  congr 1
  · exact h.interval.unique whole?_eq_some_iff hother.interval
  · exact h.cap.unique whole?_eq_some_iff hother.cap
  · exact h.backoff.unique number?_eq_some_iff hother.backoff
  · exact h.timeout.unique whole?_eq_some_iff hother.timeout
  · exact h.sync.unique truth?_eq_some_iff hother.sync
  · exact h.order.unique order?_eq_some_iff hother.order

/-- Whether a text supplies a layer can be found out. -/
theorem exists_decodes
    (text : String) (layer : Layer)
    (h : (Table.ofText? text).any (fun table => Decodes table layer) = true) :
    ∃ table, Table.ofText? text = some table ∧ Decodes table layer := by
  obtain ⟨table, htable, hlayer⟩ := (Option.any_eq_true _ _).mp h
  exact ⟨table, htable, of_decide_eq_true hlayer⟩

/-- The check of settings finds what is wrong with them. -/
theorem error?_eq_some_iff {error : SettingsError} :
    settings.error? = some error ↔ Flaw settings error := by
  constructor
  · intro h
    unfold error? at h
    split at h
    · rename_i hinterval
      exact Option.some.inj h ▸ .interval hinterval
    · rename_i hinterval
      split at h
      · rename_i hbackoff
        exact Option.some.inj h ▸ .backoff hinterval (by simpa using hbackoff)
      · rename_i hbackoff
        have hworks : settings.Workable := ⟨Nat.pos_of_ne_zero hinterval, by simpa using hbackoff⟩
        cases hmax : settings.maxIntervalMs? with
        | none =>
            simp only [hmax] at h
            cases h
        | some cap =>
            simp only [hmax] at h
            split at h
            · rename_i hlt
              exact Option.some.inj h ▸ .cap hworks hmax hlt
            · cases h
  · rintro (h | ⟨hinterval, h⟩ | ⟨hworks, hcap, h⟩)
    · exact if_pos h
    · rw [error?, if_neg hinterval, h]
      rfl
    · rw [error?, if_neg (Nat.ne_of_gt hworks.interval_pos), hworks.backoff_growth, hcap]
      exact if_pos h

end Tables

/-! ## Loading -/

section Loading

variable {path : Path} {content : Except Fault Bytes} {table : Table} {layer : Layer}
  {outcome other : Except SettingsError Layer}

theorem ofTable?_eq_none_iff :
    ofTable? table = none ↔ ∀ layer, ¬Decodes table layer := by
  rw [Option.eq_none_iff_forall_ne_some]
  constructor
  · intro h layer hlayer
    exact h _ (ofTable?_eq_some_iff.mpr ⟨layer, hlayer, rfl⟩)
  · intro h settings hsettings
    obtain ⟨layer, hlayer, -⟩ := ofTable?_eq_some_iff.mp hsettings
    exact h layer hlayer

/-- Loading gives the defaults under what the file supplies, or says what is wrong with it. -/
theorem Loads.ofContent_eq
    (h : Loads path content outcome) :
    ofContent path content = outcome.map ({} : Settings).under := by
  have htext? : ∀ {text : String} {table : Table}, Table.ofText? text = some table →
      ofText? text = ofTable? table := fun htable => by rw [ofText?, htable]; rfl
  cases h with
  | unread fault => rfl
  | notText htext => rw [ofContent, htext]; rfl
  | notTable htext htable => simp only [ofContent, htext, ofText?, htable]; rfl
  | notSettings htext htable hnone =>
      simp only [ofContent, htext, htext? htable, ofTable?_eq_none_iff.mpr hnone]
      rfl
  | flawed htext htable hlayer hflaw =>
      simp only [ofContent, htext, htext? htable, ofTable?_eq_some_iff.mpr ⟨_, hlayer, rfl⟩,
        error?_eq_some_iff.mpr hflaw]
      rfl
  | accepted htext htable hlayer hworks hcap =>
      simp only [ofContent, htext, htext? htable, ofTable?_eq_some_iff.mpr ⟨_, hlayer, rfl⟩,
        error?_eq_none_iff.mpr ⟨hworks, hcap⟩]
      rfl

/-- Something comes of every content. -/
theorem exists_loads (path : Path) (content : Except Fault Bytes) :
    ∃ outcome, Loads path content outcome := by
  cases content with
  | error fault => exact ⟨_, .unread fault⟩
  | ok bytes =>
      cases htext : bytes.text? with
      | none => exact ⟨_, .notText htext⟩
      | some text =>
          cases htable : Table.ofText? text with
          | none => exact ⟨_, .notTable htext htable⟩
          | some table =>
              by_cases hdecodes : ∃ layer, Decodes table layer
              swap
              · exact ⟨_, .notSettings htext htable fun layer hlayer => hdecodes ⟨layer, hlayer⟩⟩
              obtain ⟨layer, hlayer⟩ := hdecodes
              cases herror : (({} : Settings).under layer).error? with
              | some error => exact ⟨_, .flawed htext htable hlayer (error?_eq_some_iff.mp herror)⟩
              | none =>
                  obtain ⟨hworks, hcap⟩ := error?_eq_none_iff.mp herror
                  exact ⟨_, .accepted htext htable hlayer hworks hcap⟩

theorem Loads.exists_of_ok
    (h : Loads path content (.ok layer)) :
    ∃ bytes text table, content = .ok bytes ∧ bytes.text? = some text ∧
      Table.ofText? text = some table ∧ Decodes table layer := by
  cases h with
  | accepted htext htable hlayer => exact ⟨_, _, _, rfl, htext, htable, hlayer⟩

/-- Only one thing comes of a content. -/
theorem Loads.unique
    (h : Loads path content outcome) (hother : Loads path content other) :
    outcome = other := by
  have hsame : outcome.map ({} : Settings).under = other.map ({} : Settings).under :=
    h.ofContent_eq.symm.trans hother.ofContent_eq
  cases outcome with
  | error error =>
      cases other with
      | error error' => exact congrArg Except.error (Except.error.inj hsame)
      | ok layer => cases hsame
  | ok layer =>
      cases other with
      | error error => cases hsame
      | ok layer' =>
          -- Two layers can give the same settings, so it takes the table to tell them apart.
          obtain ⟨bytes, text, table, rfl, htext, htable, hlayer⟩ := h.exists_of_ok
          obtain ⟨bytes', text', table', hbytes, htext', htable', hlayer'⟩ := hother.exists_of_ok
          obtain rfl := Except.ok.inj hbytes
          obtain rfl := Option.some.inj (htext.symm.trans htext')
          obtain rfl := Option.some.inj (htable.symm.trans htable')
          rw [hlayer.unique hlayer']

end Loading

end Settings

end Postbox
