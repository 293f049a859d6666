import LoadRamp.Number.Decimal
import LoadRamp.Text.Ascii

/-!
# Small pieces of TOML text

Blanks, line ends, comments, keys and strings.  A reader takes characters from
the front of its input and returns what they mean with the rest, or nothing when
they are not well formed.
-/

namespace LoadRamp
namespace Toml

/-- A reader of a piece of text. -/
abbrev Reader (α : Type) := List Char → Option (α × List Char)

def isSpace (c : Char) : Bool := c == ' ' || c == '\t'

def skipSpace (cs : List Char) : List Char := cs.dropWhile isSpace

/-- The rest after one line end, if the text begins with one. -/
def lineEnd? : List Char → Option (List Char)
  | '\n' :: rest => some rest
  | '\r' :: '\n' :: rest => some rest
  | _ => none

/-- Whether a character may stand in a comment. -/
def isCommentChar (c : Char) : Bool :=
  c == '\t' || (0x20 ≤ c.toNat && c.toNat ≤ 0x7E) || 0x80 ≤ c.toNat

/-- The rest after a comment, if the text begins with one. -/
def skipComment : List Char → List Char
  | '#' :: rest => rest.dropWhile isCommentChar
  | cs => cs

/-- The rest after the end of a line: blanks, perhaps a comment, and a line end or
the end of the text. -/
def finishLine? (cs : List Char) : Option (List Char) :=
  match skipComment (skipSpace cs) with
  | [] => some []
  | rest => lineEnd? rest

/-- The rest after blanks, comments and line ends, for the inside of an array. -/
def skipLines : (fuel : Nat) → List Char → Option (List Char)
  | 0, cs => some cs
  | fuel + 1, cs =>
    let cs := skipSpace cs
    match cs with
    | '#' :: _ =>
      match lineEnd? (skipComment cs) with
      | some rest => skipLines fuel rest
      | none => none
    | _ =>
      match lineEnd? cs with
      | some rest => skipLines fuel rest
      | none => some cs

/-- The value of a digit in base sixteen. -/
def hexValue? (c : Char) : Option Nat :=
  let n := c.toNat
  if 48 ≤ n ∧ n ≤ 57 then some (n - 48)
  else if 65 ≤ n ∧ n ≤ 70 then some (n - 55)
  else if 97 ≤ n ∧ n ≤ 102 then some (n - 87)
  else none

/-- A number of exactly so many digits in base sixteen. -/
def hexNumber : (count value : Nat) → Reader Nat
  | 0, value, cs => some (value, cs)
  | _ + 1, _, [] => none
  | count + 1, value, c :: rest =>
    match hexValue? c with
    | some digit => hexNumber count (value * 16 + digit) rest
    | none => none

/-- The character with a code point, unless it is no character. -/
def charOf? (code : Nat) : Option Char :=
  if code < 0xD800 ∨ (0xDFFF < code ∧ code ≤ 0x10FFFF) then some (Char.ofNat code) else none

/-- The character that an escape stands for, after its backslash. -/
def escape : Reader Char
  | 'b' :: rest => some ('\x08', rest)
  | 't' :: rest => some ('\t', rest)
  | 'n' :: rest => some ('\n', rest)
  | 'f' :: rest => some ('\x0c', rest)
  | 'r' :: rest => some ('\r', rest)
  | '"' :: rest => some ('"', rest)
  | '\\' :: rest => some ('\\', rest)
  | 'u' :: rest =>
    (hexNumber 4 0 rest).bind fun (code, rest) => (charOf? code).map (·, rest)
  | 'U' :: rest =>
    (hexNumber 8 0 rest).bind fun (code, rest) => (charOf? code).map (·, rest)
  | _ => none

/-- Whether a character may stand as itself in a string of any kind, quotes and
backslashes aside. -/
def isTextChar (c : Char) : Bool := isCommentChar c

/-- The rest of a string on one line, after its opening quote. -/
def basicRest : (fuel : Nat) → Reader (List Char)
  | 0, _ => none
  | _ + 1, [] => none
  | fuel + 1, c :: rest =>
    if c = '"' then some ([], rest)
    else if c = '\\' then
      (escape rest).bind fun (e, rest) =>
        (basicRest fuel rest).map fun (text, rest) => (e :: text, rest)
    else if isTextChar c then
      (basicRest fuel rest).map fun (text, rest) => (c :: text, rest)
    else none

/-- The rest of a string without escapes on one line, after its opening quote. -/
def literalRest : Reader (List Char)
  | [] => none
  | c :: rest =>
    if c = '\'' then some ([], rest)
    else if isTextChar c then (literalRest rest).map fun (text, rest) => (c :: text, rest)
    else none

/-- The rest after three quotes that close a string of several lines, with up to
two quotes in front of them that belong to the string. -/
def closing? (quote : Char) (cs : List Char) : Option (List Char × List Char) :=
  let run := (cs.takeWhile (· == quote)).length
  if run < 3 then none
  else
    let own := min (run - 3) 2
    some (List.replicate own quote, cs.drop (own + 3))

/-- The rest after blanks and line ends. -/
def skipBlankLines : (fuel : Nat) → List Char → List Char
  | 0, cs => cs
  | fuel + 1, cs =>
    let cs := skipSpace cs
    match lineEnd? cs with
    | some rest => skipBlankLines fuel rest
    | none => cs

/-- The rest after a backslash at the end of a line and all blanks and line ends
that follow. -/
def joinLines? (cs : List Char) : Option (List Char) :=
  (lineEnd? (skipSpace cs)).map fun rest => skipBlankLines (rest.length + 1) rest

/-- The rest of a string of several lines, after its opening quotes. -/
def longBasicRest : (fuel : Nat) → Reader (List Char)
  | 0, _ => none
  | _ + 1, [] => none
  | fuel + 1, c :: rest =>
    if c = '"' then
      match closing? '"' (c :: rest) with
      | some found => some found
      | none => (longBasicRest fuel rest).map fun (text, rest) => (c :: text, rest)
    else if c = '\\' then
      match joinLines? rest with
      | some rest => longBasicRest fuel rest
      | none =>
        (escape rest).bind fun (e, rest) =>
          (longBasicRest fuel rest).map fun (text, rest) => (e :: text, rest)
    else
      match lineEnd? (c :: rest) with
      | some rest => (longBasicRest fuel rest).map fun (text, rest) => ('\n' :: text, rest)
      | none =>
        if isTextChar c then
          (longBasicRest fuel rest).map fun (text, rest) => (c :: text, rest)
        else none

/-- The rest of a string of several lines without escapes, after its opening
quotes. -/
def longLiteralRest : (fuel : Nat) → Reader (List Char)
  | 0, _ => none
  | _ + 1, [] => none
  | fuel + 1, c :: rest =>
    if c = '\'' then
      match closing? '\'' (c :: rest) with
      | some found => some found
      | none => (longLiteralRest fuel rest).map fun (text, rest) => (c :: text, rest)
    else
      match lineEnd? (c :: rest) with
      | some rest => (longLiteralRest fuel rest).map fun (text, rest) => ('\n' :: text, rest)
      | none =>
        if isTextChar c then
          (longLiteralRest fuel rest).map fun (text, rest) => (c :: text, rest)
        else none

/-- The text without a line end at its front. -/
def dropLineEnd (cs : List Char) : List Char := (lineEnd? cs).getD cs

/-- A string of any of the four kinds. -/
def string : Reader String := fun cs =>
  let text : Option (List Char × List Char) :=
    match cs with
    | '"' :: '"' :: '"' :: rest => longBasicRest (rest.length + 1) (dropLineEnd rest)
    | '"' :: rest => basicRest (rest.length + 1) rest
    | '\'' :: '\'' :: '\'' :: rest => longLiteralRest (rest.length + 1) (dropLineEnd rest)
    | '\'' :: rest => literalRest rest
    | _ => none
  text.map fun (text, rest) => (String.ofList text, rest)

def isBareKeyChar (c : Char) : Bool :=
  Text.isLetter c || Text.isDigit c || c == '_' || c == '-'

/-- One part of a key: a string on one line, or bare. -/
def keyPart : Reader String := fun cs =>
  match cs with
  | '"' :: rest =>
    (basicRest (rest.length + 1) rest).map fun (text, rest) => (String.ofList text, rest)
  | '\'' :: rest => (literalRest rest).map fun (text, rest) => (String.ofList text, rest)
  | _ =>
    let bare := cs.takeWhile isBareKeyChar
    if bare.isEmpty then none
    else some (String.ofList bare, cs.dropWhile isBareKeyChar)

/-- A key of at most so many parts, with points between them.  Blanks may stand
around every part. -/
def key : (parts : Nat) → Reader (List String)
  | 0, _ => none
  | parts + 1, cs =>
    match keyPart (skipSpace cs) with
    | none => none
    | some (part, rest) =>
      match skipSpace rest with
      | '.' :: rest => (key parts rest).map fun (more, rest) => (part :: more, rest)
      | rest => some ([part], rest)

end Toml
end LoadRamp
