import PlatterMachine.Toml.Text

/-!
# Tables of a TOML document

A document is a tree of tables. While it is read, a draft remembers the table that new keys go to,
the keys in the order of the file, and which tables so far exist only because something inside them
was named: such a table may still be defined once, where any other key may not be defined again.
-/

namespace PlatterMachine.Toml

inductive Node where
  | text (s : String)
  | bool (b : Bool)
  /-- A number, date or time. -/
  | scalar
  | array
  | table (entries : List (String × Node))
  /-- A table for each time its name was given, the latest first. -/
  | tables (elements : List (List (String × Node)))

abbrev Entries := List (String × Node)

namespace Entries

def set (entries : Entries) (key : String) (node : Node) : Entries :=
  if (entries.lookup key).isSome then
    entries.map fun (k, n) => if k = key then (k, node) else (k, n)
  else entries ++ [(key, node)]

/-- The entries of the table at a key; of several tables the latest. -/
def at? (entries : Entries) : Key → Option Entries
  | [] => some entries
  | k :: rest =>
    match entries.lookup k with
    | some (.table inner) => at? inner rest
    | some (.tables (inner :: _)) => at? inner rest
    | _ => none

/-- Changes the entries of the table at a key; of several tables the latest. -/
def update (change : Entries → Entries) (entries : Entries) : Key → Entries
  | [] => change entries
  | k :: rest =>
    match entries.lookup k with
    | some (.table inner) => set entries k (.table (update change inner rest))
    | some (.tables (inner :: older)) =>
      set entries k (.tables (update change inner rest :: older))
    | _ => entries

/-- Gives a value to a dotted key, with tables where there is nothing yet; fails where a part of the
key is something else than a table. -/
def setDotted (entries : Entries) (node : Node) : Key → Option Entries
  | [] => some entries
  | [k] => some (set entries k node)
  | k :: rest =>
    match entries.lookup k with
    | none => (setDotted [] node rest).map fun inner => set entries k (.table inner)
    | some (.table inner) =>
      (setDotted inner node rest).map fun inner => set entries k (.table inner)
    | some _ => none

end Entries

structure Draft where
  root : Entries := []
  keys : Array Key := #[]
  /-- Tables that exist only because something inside them was named. -/
  implied : List Key := []
  /-- Keys last known to hold an array. -/
  arrays : List Key := []
  /-- The table that new keys go to. -/
  context : Key := []

namespace Draft

/-- Notes whether the value of a key in the current table is an array. An empty key stands for the
table itself. -/
def note (d : Draft) (key : String) (isArray : Bool) : Draft :=
  let full :=
    if key.isEmpty then (if d.context.isEmpty then [""] else d.context) else d.context ++ [key]
  let others := d.arrays.filter (· ≠ full)
  { d with arrays := if isArray then full :: others else others }

def imply (d : Draft) (key : Key) : Draft :=
  if key ∈ d.implied then d else { d with implied := key :: d.implied }

/-- Gives a key of the current table its value. A table that was only implied becomes defined and
keeps what it holds. -/
def define (d : Draft) (key : String) (node : Node) : Option Draft :=
  let full := d.context ++ [key]
  let defined := { d with implied := d.implied.filter (· ≠ full) }
  match d.root.at? d.context with
  | none => none
  | some entries =>
    let put := fun d : Draft =>
      { d with root := d.root.update (fun es => es.set key node) d.context }
    if (entries.lookup key).isNone then some (put d)
    else if full ∉ d.implied then none
    else if full ∈ d.arrays then some (put defined)
    else some defined

/-- Makes sure that all but the last part of a key are tables. -/
def openParents (d : Draft) (above : Key) : Key → Option Draft
  | [] => some d
  | [_] => some d
  | k :: rest =>
    match d.root.at? above with
    | none => none
    | some entries =>
      let key := above ++ [k]
      match entries.lookup k with
      | none =>
        let d := d.imply key
        openParents { d with root := d.root.update (fun es => es.set k (.table [])) above } key rest
      | some (.table _) | some (.tables _) => openParents d key rest
      | some _ => none

/-- Makes the table with this key the current one; with `another` it is one more of several. -/
def openTable (d : Draft) (key : Key) (another : Bool) : Option Draft := do
  let d ← d.openParents [] key
  let above := key.dropLast
  let name := key.getLastD ""
  let entries ← d.root.at? above
  if another then
    let older ←
      match entries.lookup name with
      | none => some []
      | some (.tables older) => some older
      | some _ => none
    some { d with
      root := d.root.update (fun es => es.set name (.tables ([] :: older))) above
      context := key }
  else
    let d ← { d with context := above }.define name (.table [])
    some { d with context := key }

def openDotted (d : Draft) : (above : Key) → Option Draft
  | [] => some d
  | k :: rest => do
    let key := d.context ++ [k]
    let d ← (d.imply key).openTable key false
    d.openDotted rest

end Draft

end PlatterMachine.Toml
