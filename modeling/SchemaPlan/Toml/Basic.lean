set_option autoImplicit false

/-!
# TOML documents

A document is a table.  Tables come about in several ways, by a heading of their
own, as a step of another heading, by a dotted key or in braces, and the way
decides what may still be added: every key is given once and every table is
opened once.
-/

namespace SchemaPlan

/-- How a table came about. -/
inductive Toml.Origin
  /-- By a heading of its own. -/
  | headed
  /-- As a step on the way of a heading to a table inside it. -/
  | passed
  /-- As a step of a dotted key. -/
  | dotted
  /-- In braces: nothing can be added. -/
  | braced
  deriving DecidableEq, Repr

/-- A TOML value. -/
inductive Toml
  | string (text : String)
  | integer (value : Int)
  | float (literal : String)
  | boolean (value : Bool)
  | dateTime (literal : String)
  | array (items : List Toml)
  | table (origin : Toml.Origin) (entries : List (String × Toml))
  /-- The tables of a heading in double brackets, the latest first. -/
  | tables (latest : List (List (String × Toml)))
  deriving Repr, Inhabited

namespace Toml

/-- The entries of a table. -/
abbrev Entries := List (String × Toml)

/-- The value under a key. -/
def lookup (key : String) (entries : Entries) : Option Toml :=
  (entries.find? fun e => e.1 == key).map (·.2)

/-- Replace the value under a key, or add it at the end. -/
def store (key : String) (value : Toml) : Entries → Entries
  | [] => [(key, value)]
  | e :: rest => if e.1 == key then (key, value) :: rest else e :: store key value rest

/-! ## Keys with values -/

/-- Put a value under a dotted key, whose last part is apart.  The steps of the
key may pass through tables that dotted keys made, and all but the last step
through tables that a heading passed or the latest of several tables. -/
def put (key : String) (value : Toml) : List String → Entries → Option Entries
  | [], entries =>
    match lookup key entries with
    | some _ => none
    | none => some (entries ++ [(key, value)])
  | step :: path, entries =>
    match lookup step entries with
    | none => (put key value path []).map fun inner => entries ++ [(step, .table .dotted inner)]
    | some (.table .dotted inner) =>
      (put key value path inner).map fun inner => store step (.table .dotted inner) entries
    | some (.table .passed inner) =>
      if path.isEmpty then none
      else (put key value path inner).map fun inner => store step (.table .passed inner) entries
    | some (.tables (inner :: older)) =>
      if path.isEmpty then none
      else (put key value path inner).map fun inner =>
        store step (.tables (inner :: older)) entries
    | some _ => none

/-- Change the entries of the table that a heading opened. -/
def within (change : Entries → Option Entries) : List String → Entries → Option Entries
  | [], entries => change entries
  | step :: path, entries =>
    match lookup step entries with
    | some (.table origin inner) =>
      (within change path inner).map fun inner => store step (.table origin inner) entries
    | some (.tables (inner :: older)) =>
      (within change path inner).map fun inner => store step (.tables (inner :: older)) entries
    | _ => none

/-! ## Headings -/

/-- Open the table of a heading: a new one, or one that was only passed so far. -/
def openTable (key : String) (entries : Entries) : Option Entries :=
  match lookup key entries with
  | none => some (entries ++ [(key, .table .headed [])])
  | some (.table .passed inner) => some (store key (.table .headed inner) entries)
  | some _ => none

/-- Open one more of the tables of a heading in double brackets. -/
def openNext (key : String) (entries : Entries) : Option Entries :=
  match lookup key entries with
  | none => some (entries ++ [(key, .tables [[]])])
  | some (.tables older) => some (store key (.tables ([] :: older)) entries)
  | some _ => none

/-- Follow the steps of a heading, making the tables that are not there yet, and
open the last. -/
def heading (opened : Entries → Option Entries) : List String → Entries → Option Entries
  | [], entries => opened entries
  | step :: path, entries =>
    match lookup step entries with
    | none =>
      (heading opened path []).map fun inner => entries ++ [(step, .table .passed inner)]
    | some (.table .braced _) => none
    | some (.table origin inner) =>
      (heading opened path inner).map fun inner => store step (.table origin inner) entries
    | some (.tables (inner :: older)) =>
      (heading opened path inner).map fun inner => store step (.tables (inner :: older)) entries
    | some _ => none

end Toml

end SchemaPlan
