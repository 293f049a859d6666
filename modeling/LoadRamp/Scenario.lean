import LoadRamp.Check

/-!
# Scenarios

A scenario is a list of request groups that a user works through from front to
back.  A group sends one request and runs its checks on the response.

* `Scenario.make` accepts exactly the scenarios in which a group and a
  description name one check.
* `Scenario.keys` lists the keys under which the outcomes of one iteration are
  counted.
-/

namespace LoadRamp

/-- A request with the checks on its response. -/
structure Group where
  name : String
  method : Http.Method
  path : String
  headers : List (String × String) := []
  body? : Option (List UInt8) := none
  checks : List Check := []

namespace Group

def withHeader (g : Group) (name value : String) : Group :=
  { g with headers := g.headers ++ [(name, value)] }

def withBearerToken (g : Group) (token : String) : Group :=
  g.withHeader "Authorization" ("Bearer " ++ token)

def withBody (g : Group) (body : List UInt8) : Group := { g with body? := some body }

def withCheck (g : Group) (check : Check) : Group := { g with checks := g.checks ++ [check] }

def descriptions (g : Group) : List String := g.checks.map Check.description

/-- A text without the slashes at its end. -/
def withoutSlashes (text : String) : List Char :=
  (text.toList.reverse.dropWhile (· == '/')).reverse

/-- The URL of a path under a base URL: exactly one slash between the two, and
none after a base without a path. -/
def url (g : Group) (baseUrl : String) : String :=
  let base := withoutSlashes baseUrl
  match g.path.toList with
  | [] => String.ofList base
  | '/' :: rest => String.ofList (base ++ '/' :: rest)
  | path => String.ofList (base ++ '/' :: path)

/-- The request of a group for a base URL. -/
def request (g : Group) (baseUrl : String) : Http.Request :=
  ⟨g.method, g.url baseUrl, g.headers, g.body?⟩

end Group

/-- The first element of a list that stands among the elements seen before it. -/
def firstRepeat {α : Type} [DecidableEq α] (seen : List α) : List α → Option α
  | [] => none
  | a :: rest => if a ∈ seen then some a else firstRepeat (a :: seen) rest

theorem firstRepeat_eq_none {α : Type} [DecidableEq α] {seen list : List α} :
    firstRepeat seen list = none ↔ list.Nodup ∧ ∀ a ∈ list, a ∉ seen := by
  induction list generalizing seen with
  | nil => simp [firstRepeat]
  | cons a rest ih =>
    by_cases h : a ∈ seen
    · simp [firstRepeat, h]
    · simp only [firstRepeat, h, if_false, ih, List.nodup_cons, List.mem_cons, not_or,
        forall_eq_or_imp, not_false_eq_true, true_and]
      constructor
      · rintro ⟨hn, hall⟩
        exact ⟨⟨fun ha => (hall a ha).1 rfl, hn⟩, fun x hx => (hall x hx).2⟩
      · rintro ⟨⟨ha, hn⟩, hall⟩
        exact ⟨hn, fun x hx => ⟨fun hxa => ha (hxa ▸ hx), hall x hx⟩⟩

namespace Scenario

/-- Why a list of groups is no scenario. -/
inductive Error
  | noGroups (scenario : String)
  | repeatedGroup (group : String)
  | repeatedCheck (check group : String)
  deriving DecidableEq

def Error.message : Error → String
  | .noGroups scenario => "scenario '" ++ scenario ++ "' has no request groups"
  | .repeatedGroup group => "request group '" ++ group ++ "' is defined more than once"
  | .repeatedCheck check group =>
    "check '" ++ check ++ "' is defined more than once in group '" ++ group ++ "'"

/-- The first group that repeats a name or a description, the name looked at
first. -/
def firstOffence (seen : List String) : List Group → Option Error
  | [] => none
  | g :: rest =>
    if g.name ∈ seen then some (.repeatedGroup g.name)
    else
      match firstRepeat [] g.descriptions with
      | some description => some (.repeatedCheck description g.name)
      | none => firstOffence (g.name :: seen) rest

theorem firstOffence_eq_none {seen : List String} {groups : List Group} :
    firstOffence seen groups = none ↔
      (groups.map Group.name).Nodup ∧ (∀ g ∈ groups, g.name ∉ seen) ∧
        ∀ g ∈ groups, g.descriptions.Nodup := by
  induction groups generalizing seen with
  | nil => simp [firstOffence]
  | cons g rest ih =>
    by_cases hseen : g.name ∈ seen
    · simp [firstOffence, hseen]
    · have hrep := @firstRepeat_eq_none String _ [] g.descriptions
      cases hfirst : firstRepeat [] g.descriptions with
      | some d =>
        have : ¬ g.descriptions.Nodup := fun hn => by
          have := hrep.2 ⟨hn, by simp⟩
          simp [hfirst] at this
        simp [firstOffence, hseen, hfirst, this]
      | none =>
        have hn := (hrep.1 hfirst).1
        simp only [firstOffence, hseen, if_false, hfirst, ih, List.map_cons, List.nodup_cons,
          List.mem_cons, not_or, forall_eq_or_imp, not_false_eq_true, true_and, hn,
          List.mem_map, not_exists, not_and]
        constructor
        · rintro ⟨hnames, hall, hdesc⟩
          exact ⟨⟨fun x hx hxg => (hall x hx).1 hxg, hnames⟩,
            fun x hx => (hall x hx).2, hdesc⟩
        · rintro ⟨⟨hnew, hnames⟩, hall, hdesc⟩
          exact ⟨hnames, fun x hx => ⟨fun h => hnew x hx h, hall x hx⟩, hdesc⟩

end Scenario

/-- A named list of groups in which a group and a description name one check. -/
structure Scenario where
  name : String
  groups : List Group
  nonempty : groups ≠ []
  names_nodup : (groups.map Group.name).Nodup
  descriptions_nodup : ∀ g ∈ groups, g.descriptions.Nodup

/-- What the outcomes of one check are counted under. -/
structure CheckKey where
  scenario : String
  group : String
  check : String
  deriving DecidableEq

namespace CheckKey

def parts (k : CheckKey) : List String := [k.scenario, k.group, k.check]

/-- Keys are ordered by scenario, then group, then check. -/
def before (a b : CheckKey) : Bool := decide (a.parts < b.parts)

def text (k : CheckKey) : String := k.scenario ++ " / " ++ k.group ++ " / " ++ k.check

end CheckKey

namespace Scenario

/-- The scenario of some groups, if they make one. -/
def make (name : String) (groups : List Group) : Except Error Scenario :=
  if hg : groups = [] then .error (.noGroups name)
  else
    match h : firstOffence [] groups with
    | some offence => .error offence
    | none =>
      have valid := firstOffence_eq_none.1 h
      .ok ⟨name, groups, hg, valid.1, valid.2.2⟩

/-- The number of outcomes of one iteration. -/
def checksPerIteration (s : Scenario) : Nat :=
  s.groups.foldl (fun sum g => sum + g.checks.length) 0

def key (s : Scenario) (group : Group) (check : Check) : CheckKey :=
  ⟨s.name, group.name, check.description⟩

/-- The keys of the outcomes of one iteration, in order. -/
def keys (s : Scenario) : List CheckKey :=
  s.groups.flatMap fun g => g.checks.map fun c => s.key g c

end Scenario
end LoadRamp
