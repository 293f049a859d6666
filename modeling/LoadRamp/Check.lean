import LoadRamp.Http.Message
import LoadRamp.Number.Decimal
import LoadRamp.Text.Offsets
import LoadRamp.Text.Quoted

/-!
# Checks

A check is a named assertion about a response.  Its verdict need not be a plain
yes or no: the assertion can report an error or break down, and both count as a
failure of this check and of nothing else.

A failure quotes the first characters of the body.  They are counted in characters and
cut off at a number of bytes, which `upTo?_excerptCut` relates.
-/

namespace LoadRamp

/-- What evaluating an assertion comes to. -/
inductive Verdict
  /-- The assertion holds or does not hold. -/
  | decided (holds : Bool)
  /-- The assertion could not be decided; the reasons, outermost first. -/
  | error (reasons : List String)
  /-- The assertion broke down, perhaps with a message. -/
  | broken (message? : Option String)

/-- A named assertion about a response. -/
structure Check where
  description : String
  verdict : Http.Response → Verdict

/-- The outcome of one check on one response. -/
inductive Outcome
  | passed
  | failed (reason : String)
  deriving DecidableEq

def Outcome.isPassed : Outcome → Bool
  | .passed => true
  | .failed _ => false

/-- The message of a breakdown, or what is said when it has none. -/
def breakdownText (message? : Option String) : String := message?.getD "unknown panic"

/-- The longest piece of a body, in characters, that a reason quotes. -/
def excerptLength : Nat := 120

/-- The place of the first character that a reason leaves out, if a text has so many. -/
def excerptCut? (text : String) : Option Nat := (Text.indices text)[excerptLength]?.map Prod.fst

/-- A text, cut at that place if there is one.  Nothing if it cannot be cut there. -/
def excerpt? (text : String) : Option String :=
  match excerptCut? text with
  | some cut => (Text.upTo? text cut).map (· ++ "...")
  | none => some text

/-- It can be cut there: that is where its first characters end. -/
theorem upTo?_excerptCut {text : String} {cut : Nat} (h : excerptCut? text = some cut) :
    Text.upTo? text cut = some (String.ofList (text.toList.take excerptLength)) := by
  rw [excerptCut?, Text.getElem?_indices, Option.map_map, Option.map_eq_some_iff] at h
  obtain ⟨c, -, rfl⟩ := h
  apply Text.upTo?_eq_some.2
  refine ⟨String.ofList (text.toList.drop excerptLength), ?_, rfl⟩
  rw [← String.ofList_append, List.take_append_drop, String.ofList_toList]

theorem isSome_excerpt? (text : String) : (excerpt? text).isSome := by
  unfold excerpt?
  split
  · next hcut => rw [upTo?_excerptCut hcut, Option.map_some, Option.isSome_some]
  · rfl

/-- What a reason quotes of a text.  The guard around an assertion does not reach this far,
so a cut that failed would end the user. -/
def excerpt (text : String) : String := (excerpt? text).get (isSome_excerpt? text)

namespace Check

/-- A check that is always decided. -/
def deciding (description : String) (holds : Http.Response → Bool) : Check :=
  ⟨description, fun response => .decided (holds response)⟩

/-- The check for one status. -/
def status (expected : Nat) : Check :=
  deciding ("is status " ++ Number.Decimal.write expected) fun response =>
    response.status == expected

/-- The same assertion under another description. -/
def withDescription (c : Check) (description : String) : Check :=
  { c with description := description }

/-- The outcome of a check on a response. -/
def evaluate (c : Check) (response : Http.Response) : Outcome :=
  match c.verdict response with
  | .decided true => .passed
  | .decided false =>
    .failed ("got status " ++ Number.Decimal.write response.status ++ " with body " ++
      Text.quoted (excerpt response.text))
  | .error reasons => .failed ("check returned an error: " ++ ": ".intercalate reasons)
  | .broken message? => .failed ("check panicked: " ++ breakdownText message?)

end Check
end LoadRamp
