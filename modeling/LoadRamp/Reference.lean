/-!
# Variable references in text

A template is a text in which `${NAME}` stands for the value of a variable.
Values are copied as they are: a reference inside a value is not expanded.

* `Reference.splitOpen` finds the first opening, `Reference.splitClose` the end of
  a name.
* `Reference.expand` reports the leftmost reference that has no value.
-/

namespace LoadRamp
namespace Reference

/-- What is wrong with a template. -/
inductive Error
  | unterminated (template : String)
  | empty (template : String)
  | unset (name : String)
  deriving DecidableEq

def Error.message : Error → String
  | .unterminated template => "unterminated variable reference in '" ++ template ++ "'"
  | .empty template => "empty variable reference in '" ++ template ++ "'"
  | .unset name => "environment variable " ++ name ++ " is not set"

/-- The text before the first opening and the text after it. -/
def splitOpen : List Char → Option (List Char × List Char)
  | '$' :: '\x7b' :: rest => some ([], rest)
  | c :: rest => (splitOpen rest).map fun (before, after) => (c :: before, after)
  | [] => none

/-- The text before the first closing brace and the text after it. -/
def splitClose : List Char → Option (List Char × List Char)
  | '\x7d' :: rest => some ([], rest)
  | c :: rest => (splitClose rest).map fun (name, after) => (c :: name, after)
  | [] => none

theorem length_of_splitOpen {cs before after : List Char}
    (h : splitOpen cs = some (before, after)) : after.length < cs.length := by
  fun_induction splitOpen cs generalizing before with
  | case1 rest => cases h; simp only [List.length_cons]; omega
  | case2 c rest _ ih =>
    obtain ⟨⟨b, a⟩, hb, he⟩ := Option.map_eq_some_iff.1 h
    cases he
    have := ih hb
    simp; omega
  | case3 => cases h

theorem length_of_splitClose {cs name after : List Char}
    (h : splitClose cs = some (name, after)) : after.length < cs.length := by
  fun_induction splitClose cs generalizing name with
  | case1 rest => cases h; simp
  | case2 c rest _ ih =>
    obtain ⟨⟨b, a⟩, hb, he⟩ := Option.map_eq_some_iff.1 h
    cases he
    have := ih hb
    simp; omega
  | case3 => cases h

/-- The rest of a template with every reference replaced. -/
def expandRest (template : String) (lookup : String → Option String) (cs : List Char) :
    Except Error (List Char) :=
  match _hopen : splitOpen cs with
  | none => .ok cs
  | some (before, after) =>
    match _hclose : splitClose after with
    | none => .error (.unterminated template)
    | some ([], _) => .error (.empty template)
    | some (name, rest) =>
      match lookup (String.ofList name) with
      | none => .error (.unset (String.ofList name))
      | some value => do
        let expanded ← expandRest template lookup rest
        .ok (before ++ value.toList ++ expanded)
termination_by cs.length
decreasing_by
  have h₁ := length_of_splitOpen _hopen
  have h₂ := length_of_splitClose _hclose
  omega

/-- A template with every reference replaced by the value of its variable. -/
def expand (template : String) (lookup : String → Option String) : Except Error String :=
  (expandRest template lookup template.toList).map String.ofList

/-- The names that the rest of a template refers to, up to the first fault. -/
def namesIn (cs : List Char) : List String :=
  match _hopen : splitOpen cs with
  | none => []
  | some (_, after) =>
    match _hclose : splitClose after with
    | none => []
    | some (name, rest) => String.ofList name :: namesIn rest
termination_by cs.length
decreasing_by
  have h₁ := length_of_splitOpen _hopen
  have h₂ := length_of_splitClose _hclose
  omega

/-- The names whose values can matter to a template. -/
def names (template : String) : List String := namesIn template.toList

end Reference
end LoadRamp
