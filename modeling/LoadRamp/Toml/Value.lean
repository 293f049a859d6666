import LoadRamp.Number.Binary64

/-!
# TOML values

A table remembers how it came about, because that decides whether a later line
may add to it:

* an inline table and a table with a header of its own are complete;
* a table that is only named on the way to another header may still get its own;
* a table that dotted keys made grows by dotted keys alone.

`Entries.modifyAt` walks along a path and makes the missing tables.
-/

namespace LoadRamp
namespace Toml

/-- How a table came about. -/
inductive Origin
  | inline
  | header
  /-- Named on the way to another header. -/
  | passing
  /-- Made by a dotted key. -/
  | dotted
  deriving DecidableEq

/-- A table that may still be completed. -/
def Origin.isOpen : Origin → Bool
  | .passing | .dotted => true
  | .inline | .header => false

inductive Value
  | string (text : String)
  | integer (value : Int)
  | float (value : Number.Binary64)
  | boolean (value : Bool)
  | datetime (text : String)
  | array (items : List Value)
  | table (origin : Origin) (entries : List (String × Value))
  /-- The tables of one `[[name]]`. -/
  | tables (all : List (List (String × Value)))

instance : Inhabited Value := ⟨.boolean false⟩

/-- The entries of a table, in the order in which they were made. -/
abbrev Entries := List (String × Value)

namespace Entries

def find? (key : String) : Entries → Option Value
  | [] => none
  | (k, v) :: rest => if k = key then some v else find? key rest

/-- The entries with another value at a key, at the end if the key is new. -/
def set (key : String) (value : Value) : Entries → Entries
  | [] => [(key, value)]
  | (k, v) :: rest => if k = key then (key, value) :: rest else (k, v) :: set key value rest

def erase (key : String) : Entries → Entries
  | [] => []
  | (k, v) :: rest => if k = key then rest else (k, v) :: erase key rest

/-- Change the table at the end of a path that starts in a table of the given
origin.  The path comes from a dotted key or from a header; missing tables are
made accordingly, and the last table of a `[[name]]` stands for all of them. -/
def modifyAt (dotted : Bool) (change : Origin → Entries → Option Entries) :
    (origin : Origin) → (path : List String) → Entries → Option Entries
  | origin, [], entries => change origin entries
  | _, key :: path, entries =>
    match find? key entries with
    | none =>
      let origin := if dotted then Origin.dotted else Origin.passing
      (modifyAt dotted change origin path []).map fun made =>
        entries ++ [(key, .table origin made)]
    | some (.table origin inner) =>
      if origin = .inline || (dotted && !origin.isOpen) then none
      else
        (modifyAt dotted change origin path inner).map fun changed =>
          set key (.table origin changed) entries
    | some (.tables all) =>
      match all.getLast? with
      | none => none
      | some last =>
        (modifyAt dotted change .header path last).map fun changed =>
          set key (.tables (all.dropLast ++ [changed])) entries
    | some _ => none

/-- Add a value under a dotted key.  A table made by dotted keys takes only such
keys, any other table only plain ones. -/
def addKey (path : List String) (key : String) (value : Value) (entries : Entries) :
    Option Entries :=
  let put := fun (origin : Origin) (table : Entries) =>
    if decide (origin = .dotted) == path.isEmpty || (find? key table).isSome then none
    else some (table ++ [(key, value)])
  modifyAt true put .header path entries

end Entries
end Toml
end LoadRamp
