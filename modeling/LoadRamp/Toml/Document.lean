import LoadRamp.Toml.Scalar

/-!
# TOML documents

A document is a sequence of lines: blank lines, comments, keys with values, and
headers.  Values nest at most `depthLimit` deep and keys have at most that many
parts.

* `Toml.value` reads a value, `Toml.statement` one line of a document.
* `Document.push` and its companions say what a line does to the tables read so
  far, and refuse a line that defines something twice.
* `Toml.read?` gives the entries of the root table.
-/

namespace LoadRamp
namespace Toml

/-- The largest number of arrays and inline tables inside each other, and of the
parts of a key. -/
def depthLimit : Nat := 79

def fullKey : Reader (List String) := key depthLimit

/-- The values of an array after its opening bracket or a comma. -/
def arrayRest (item : Reader Value) : (fuel : Nat) → Reader (List Value)
  | 0, _ => none
  | fuel + 1, cs => do
    match ← skipLines (cs.length + 1) cs with
    | ']' :: rest => some ([], rest)
    | cs =>
      let (first, cs) ← item cs
      match ← skipLines (cs.length + 1) cs with
      | ',' :: rest =>
        let (more, rest) ← arrayRest item fuel rest
        some (first :: more, rest)
      | ']' :: rest => some ([first], rest)
      | _ => none

/-- A key and its value, as in an inline table. -/
def pair (item : Reader Value) : Reader (List String × Value) := fun cs => do
  let (path, cs) ← fullKey cs
  let cs ← expect '=' cs
  let (value, cs) ← item (skipSpace cs)
  some ((path, value), cs)

/-- The entries with a value added under a path whose last part is the key. -/
def addPath (path : List String) (value : Value) (entries : Entries) : Option Entries :=
  match path.getLast? with
  | some last => entries.addKey path.dropLast last value
  | none => none

/-- The pairs of an inline table after its opening brace or a comma, added to the
entries before them. -/
def inlineRest (item : Reader Value) : (fuel : Nat) → Entries → Reader Entries
  | 0, _, _ => none
  | fuel + 1, entries, cs => do
    let ((path, value), cs) ← pair item cs
    let entries ← addPath path value entries
    match skipSpace cs with
    | ',' :: rest => inlineRest item fuel entries rest
    | '\x7d' :: rest => some (entries, rest)
    | _ => none

/-- A value that is neither an array nor a table. -/
def scalar : Reader Value := fun cs =>
  match cs with
  | '"' :: _ | '\'' :: _ => (string cs).map fun (text, rest) => (.string text, rest)
  | 't' :: _ | 'f' :: _ => boolean cs
  | _ => number cs

/-- A value in which at most so many arrays and inline tables lie inside each
other. -/
def value : (depth : Nat) → Reader Value
  | 0, cs => scalar cs
  | depth + 1, cs =>
    match cs with
    | '[' :: rest =>
      (arrayRest (value depth) (rest.length + 1) rest).map fun (items, rest) =>
        (.array items, rest)
    | '\x7b' :: rest =>
      match skipSpace rest with
      | '\x7d' :: rest => some (.table .inline [], rest)
      | rest =>
        (inlineRest (value depth) (rest.length + 1) [] rest).map fun (entries, rest) =>
          (.table .inline entries, rest)
    | _ => scalar cs

/-- The tables read so far: those that are complete, and the one that the latest
header began. -/
structure Document where
  root : Entries
  current : Entries
  /-- The path of the current table; empty for the root itself. -/
  path : List String
  /-- Whether the latest header had two brackets. -/
  repeated : Bool

namespace Document

def start : Document := ⟨[], [], [], false⟩

/-- Put the current table into its place. -/
def close (d : Document) : Option Entries :=
  match d.path.getLast? with
  | none => some d.current
  | some last =>
    let put := fun (_ : Origin) (parent : Entries) =>
      if d.repeated then
        match parent.find? last with
        | none => some (parent ++ [(last, .tables [d.current])])
        | some (.tables all) => some (parent.set last (.tables (all ++ [d.current])))
        | some _ => none
      else
        match parent.find? last with
        | none => some (parent ++ [(last, .table .header d.current)])
        | some _ => none
    Entries.modifyAt false put .header d.path.dropLast d.root

/-- A key with a value. -/
def push (d : Document) (path : List String) (value : Value) : Option Document :=
  (addPath path value d.current).map fun current => { d with current }

/-- The entries of the table at a path, if there is one. -/
def tableAt? : (path : List String) → Entries → Option (Origin × Entries)
  | [], _ => none
  | [key], entries =>
    match entries.find? key with
    | some (.table origin inner) => some (origin, inner)
    | _ => none
  | key :: rest, entries =>
    match entries.find? key with
    | some (.table _ inner) => tableAt? rest inner
    | some (.tables all) => tableAt? rest (all.getLast?.getD [])
    | _ => none

/-- A header.  A table that was only passed by so far keeps its entries, and moves
to the end of its parent. -/
def header (d : Document) (path : List String) : Option Document := do
  let last ← path.getLast?
  let root ← d.close
  let free := fun (_ : Origin) (parent : Entries) =>
    match parent.find? last with
    | none => some parent
    | some (.table .passing _) => some (parent.erase last)
    | some _ => none
  let cleared ← Entries.modifyAt false free .header path.dropLast root
  let current :=
    match tableAt? path root with
    | some (.passing, entries) => entries
    | _ => []
  some ⟨cleared, current, path, false⟩

/-- A header with two brackets. -/
def repeatedHeader (d : Document) (path : List String) : Option Document := do
  let root ← d.close
  some ⟨root, [], path, true⟩

end Document

/-- One line that is neither blank nor a comment alone. -/
def statement (d : Document) : List Char → Option (Document × List Char)
  | '[' :: '[' :: rest => do
    let (path, rest) ← fullKey rest
    let rest ← expect ']' rest
    let rest ← expect ']' rest
    let rest ← finishLine? rest
    let d ← d.repeatedHeader path
    some (d, rest)
  | '[' :: rest => do
    let (path, rest) ← fullKey rest
    let rest ← expect ']' rest
    let rest ← finishLine? rest
    let d ← d.header path
    some (d, rest)
  | cs => do
    let ((path, value), rest) ← pair (value depthLimit) cs
    let rest ← finishLine? rest
    let d ← d.push path value
    some (d, rest)

/-- The lines of a document; the number of characters bounds the number of lines. -/
def lines : (fuel : Nat) → Document → List Char → Option Document
  | 0, _, _ => none
  | fuel + 1, d, cs =>
    match skipSpace cs with
    | [] => some d
    | '#' :: rest =>
      match finishLine? ('#' :: rest) with
      | some rest => lines fuel d rest
      | none => none
    | cs =>
      match lineEnd? cs with
      | some rest => lines fuel d rest
      | none =>
        match statement d cs with
        | some (d, rest) => lines fuel d rest
        | none => none

/-- The entries of the root table of a document, if it is well formed.  A byte
order mark at the front is skipped. -/
def read? (text : String) : Option Entries :=
  let cs := text.toList
  let cs := if cs.head? = some (Char.ofNat 0xFEFF) then cs.drop 1 else cs
  (lines (cs.length + 1) Document.start cs).bind Document.close

end Toml
end LoadRamp
