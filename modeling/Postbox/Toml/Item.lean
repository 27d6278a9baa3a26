import Postbox.Number.Binary64

/-!
# Items and tables

What a configuration text says: tables of named items.  A table remembers how it came about, since
that decides what may still be said about it: a table that a longer path only passed through can
still be opened by a header of its own, and one made by a dotted key can still be extended by dotted
keys.
-/

namespace Postbox.Toml

mutual

/-- What a key stands for. -/
inductive Item where
  | text (value : String)
  | integer (value : Int)
  | float (value : Binary64)
  | boolean (value : Bool)
  /-- A date, a time, or both. -/
  | moment
  | array (items : List Item)
  /-- A table between braces; nothing can be added to it. -/
  | inlineTable (table : Table)
  /-- A table under a header or made by a path. -/
  | table (table : Table)
  /-- The tables under equal headers in double brackets. -/
  | tables (tables : List Table)

/-- A table: its items by their keys, and how it came about. -/
inductive Table where
  /-- Items, and whether a path passed through the table before it had a header, and whether that
  path was a dotted key. -/
  | mk (isImplied isDotted : Bool) (items : List (String × Item))

end

namespace Table

/-- A table that nothing has been said about. -/
def empty : Table :=
  .mk false false []

/-- A path passed through the table before it had a header. -/
def isImplied : Table → Bool
  | mk isImplied _ _ => isImplied

/-- A dotted key made the table. -/
def isDotted : Table → Bool
  | mk _ isDotted _ => isDotted

/-- The items of a table by their keys. -/
def items : Table → List (String × Item)
  | mk _ _ items => items

/-- The item that a key stands for. -/
def get? (table : Table) (key : String) : Option Item :=
  table.items.lookup key

/-- The table in which a key stands for an item, in place of what it stood for. -/
def set (table : Table) (key : String) (item : Item) : Table :=
  .mk table.isImplied table.isDotted
    (if (table.get? key).isSome then
      table.items.map fun entry => if entry.1 = key then (key, item) else entry
    else table.items ++ [(key, item)])

/-- The table with a new key. -/
def add? (table : Table) (key : String) (item : Item) : Option Table :=
  if (table.get? key).isSome then none else some (table.set key item)

/-- Change the table that a path leads to, making tables on the way where there are none.  A list of
tables is entered at its last one.  The path is a dotted key or it is that of a header; a dotted key
does not enter a table that has a header. -/
def change? (isDotted : Bool) (change : Table → Option Table) : List String → Table → Option Table
  | [], table => change table
  | key :: rest, table =>
    match table.get? key with
    | none =>
      (change? isDotted change rest (.mk true isDotted [])).map fun child =>
        table.set key (.table child)
    | some (.table child) =>
      if isDotted && !child.isImplied then none
      else (change? isDotted change rest child).map fun child => table.set key (.table child)
    | some (.tables tables) =>
      match tables.getLast? with
      | none => none
      | some last =>
        (change? isDotted change rest last).map fun last =>
          table.set key (.tables (tables.dropLast ++ [last]))
    | some _ => none

/-- Let a dotted key, `path` and then `key`, stand for an item.  A table along the path must have
been made by dotted keys. -/
def assign? (table : Table) (path : List String) (key : String) (item : Item) : Option Table :=
  table.change? true (fun inner =>
    if path ≠ [] ∧ ¬ inner.isDotted then none else inner.add? key item) path

/-- Open a table by its header: a new one, or one that was only passed through. -/
def openTable? (table : Table) (path : List String) (key : String) : Option Table :=
  table.change? false (fun parent =>
    match parent.get? key with
    | none => some (parent.set key (.table empty))
    | some (.table child) =>
      if child.isImplied && !child.isDotted then
        some (parent.set key (.table (.mk false false child.items)))
      else none
    | some _ => none) path

/-- Open one more table of a list of tables. -/
def openListed? (table : Table) (path : List String) (key : String) : Option Table :=
  table.change? false (fun parent =>
    match parent.get? key with
    | none => some (parent.set key (.tables [empty]))
    | some (.tables tables) => some (parent.set key (.tables (tables ++ [empty])))
    | some _ => none) path

end Table

end Postbox.Toml
