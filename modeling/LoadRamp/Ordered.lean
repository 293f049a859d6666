/-!
# Association lists in ascending order

A table is a list of keys with values whose keys ascend in a given strict order.
`alter` changes the value at one key and is the only way a table grows.
-/

namespace LoadRamp
namespace Ordered

/-- The order of texts by their characters, which is also that of their UTF-8
bytes. -/
def textBefore (a b : String) : Bool := decide (a < b)

/-- The table in which the value at `key` is what `change` makes of the value
there before. -/
def alter {κ α : Type} (before : κ → κ → Bool) (key : κ) (change : Option α → α) :
    List (κ × α) → List (κ × α)
  | [] => [(key, change none)]
  | (k, a) :: rest =>
    if before key k then (key, change none) :: (k, a) :: rest
    else if before k key then (k, a) :: alter before key change rest
    else (k, change (some a)) :: rest

/-- The table with a value put at a key. -/
def insert {κ α : Type} (before : κ → κ → Bool) (key : κ) (value : α)
    (table : List (κ × α)) : List (κ × α) :=
  alter before key (fun _ => value) table

/-- The value at a key. -/
def find? {κ α : Type} [DecidableEq κ] (key : κ) (table : List (κ × α)) : Option α :=
  (table.find? fun entry => entry.1 = key).map (·.2)

/-- The table without a key. -/
def remove {κ α : Type} [DecidableEq κ] (key : κ) (table : List (κ × α)) : List (κ × α) :=
  table.filter fun entry => entry.1 ≠ key

/-- The table of a list of pairs; of two pairs with one key the later one counts. -/
def ofList {κ α : Type} (before : κ → κ → Bool) (pairs : List (κ × α)) : List (κ × α) :=
  pairs.foldl (fun table pair => insert before pair.1 pair.2 table) []

/-- The entries of a table that are met in any order, in ascending order of their keys. -/
def arrange {κ α : Type} (before : κ → κ → Bool) (entries : List (κ × α)) : List (κ × α) :=
  entries.mergeSort fun a b => !before b.1 a.1

end Ordered
end LoadRamp
