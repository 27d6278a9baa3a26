import Postbox.Config.Settings
import Postbox.Toml.Document

/-!
# Settings files

Settings are read from a table with the sections `polling`, `delivery` and `receive`.  Keys that
name no setting are passed over, and settings without a key keep their defaults.  A section may also
be an array of its settings in their order.
-/

namespace Postbox.Settings

open Toml (Item Table)

/-- The items that stand for the named fields of a section: by their keys in a table, by their
places in an array.  A moment has none of the keys. -/
def fields? (names : List String) : Item → Option (List (Option Item))
  | .table table | .inlineTable table => some (names.map table.get?)
  | .array items => some ((names.zipIdx).map fun (_, place) => items[place]?)
  | .tables tables => some ((names.zipIdx).map fun (_, place) => tables[place]?.map .table)
  | .moment => some (names.map fun _ => none)
  | _ => none

/-- A field that keeps its default where there is no item for it. -/
def fieldOr {α : Type} (default : α) (read? : Item → Option α) : Option Item → Option α
  | none => some default
  | some item => read? item

/-- A whole number. -/
def whole? : Item → Option Nat
  | .integer value => if 0 ≤ value then some value.toNat else none
  | _ => none

/-- A number; an integer counts. -/
def number? : Item → Option Binary64
  | .integer value => some (.ofInt value)
  | .float value => some value
  | _ => none

/-- A truth value. -/
def truth? : Item → Option Bool
  | .boolean value => some value
  | _ => none

/-- Nothing but a pair of brackets or braces, or a header alone. -/
def isVoid : Item → Bool
  | .array items => items.isEmpty
  | .table table | .inlineTable table => table.items.isEmpty
  | _ => false

/-- A receive order: its name, or a table in which its name stands for nothing. -/
def order? : Item → Option ReceiveOrder
  | .text name => ReceiveOrder.ofName? name
  | .table table | .inlineTable table =>
    match table.items with
    | [(name, item)] => if isVoid item then ReceiveOrder.ofName? name else none
    | _ => none
  | _ => none

/-- The section on waiting, as part of the settings. -/
def withPolling? (settings : Settings) (item : Item) : Option Settings := do
  match ← fields? ["interval_ms", "max_interval_ms", "backoff", "timeout_secs"] item with
  | [interval, cap, backoff, timeout] =>
    return { settings with
      intervalMs := ← fieldOr settings.intervalMs whole? interval
      maxIntervalMs? := ← fieldOr settings.maxIntervalMs? (fun i => some <$> whole? i) cap
      backoff := ← fieldOr settings.backoff number? backoff
      timeoutSecs? := ← fieldOr settings.timeoutSecs? (fun i => some <$> whole? i) timeout }
  | _ => none

/-- The section on sending. -/
def withDelivery? (settings : Settings) (item : Item) : Option Settings := do
  match ← fields? ["sync"] item with
  | [sync] => return { settings with sync := ← fieldOr settings.sync truth? sync }
  | _ => none

/-- The section on the choice of messages. -/
def withReceive? (settings : Settings) (item : Item) : Option Settings := do
  match ← fields? ["order"] item with
  | [order] => return { settings with order := ← fieldOr settings.order order? order }
  | _ => none

/-- The settings that a table gives. -/
def ofTable? (table : Table) : Option Settings := do
  match ← fields? ["polling", "delivery", "receive"] (.table table) with
  | [polling, delivery, receive] =>
    let settings : Settings := {}
    let settings ← fieldOr settings settings.withPolling? polling
    let settings ← fieldOr settings settings.withDelivery? delivery
    fieldOr settings settings.withReceive? receive
  | _ => none

/-- The settings that a text gives, whether or not they make sense. -/
def ofText? (text : String) : Option Settings := do
  ofTable? (← Table.ofText? text)

/-- The settings in the file at a path, given what reading the file gave. -/
def ofContent (path : Path) (content : Except Fault Bytes) : Except SettingsError Settings :=
  match content with
  | .error fault => .error (.io path fault)
  | .ok bytes => match bytes.text? with
    | none => .error (.io path .notText)
    | some text => match ofText? text with
      | none => .error (.malformed path)
      | some settings => match settings.error? with
        | some error => .error error
        | none => .ok settings

end Postbox.Settings
