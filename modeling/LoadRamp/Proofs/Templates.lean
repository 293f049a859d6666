import LoadRamp.Proofs.Results
import LoadRamp.Reference
import Mathlib.Data.List.Infix

/-!
# The grammar of templates

A template is text with references in it, and there is only one way to take it apart.

* `Template` is a template taken apart: plain text, and after each reference plain text again.
  `Template.ext_of_text` says that its text determines it.
* `Fault` lists what can be wrong with a reference, given the text after its opening.
* `expand_eq_ok` and `expand_eq_error` say what `expand` makes of a text, and
  `expand_grammar` puts them together.
* `turns` goes through a template as a loop with a bounded number of turns.  `turns_eq` says
  that the bound is never met, since each turn uses up a reference.

Nothing here looks into the values of variables: they may hold openings themselves.
-/

namespace LoadRamp
namespace Reference

/-! ## Openings and closing braces -/

/-- What opens a reference. -/
def opening : List Char := ['$', '\x7b']

/-- Whether nothing in a text opens a reference. -/
def Plain (cs : List Char) : Prop := ¬ opening <:+: cs

theorem plain_nil : Plain [] := by
  rw [Plain, List.infix_nil]
  exact List.cons_ne_nil _ _

theorem Plain.of_cons {c : Char} {cs : List Char} (h : Plain (c :: cs)) : Plain cs :=
  fun hopens => h (hopens.trans (List.suffix_cons c cs).isInfix)

theorem Plain.cons {c : Char} {cs : List Char} (h : Plain cs)
    (hfirst : ∀ rest, c = '$' → cs = '\x7b' :: rest → False) : Plain (c :: cs) := by
  intro hopens
  rcases List.infix_cons_iff.1 hopens with ⟨rest, hrest⟩ | hlater
  · obtain ⟨hc, hcs⟩ := List.cons.inj hrest
    exact hfirst rest hc.symm hcs.symm
  · exact h hlater

theorem splitOpen_eq_none {cs : List Char} : splitOpen cs = none ↔ Plain cs := by
  fun_induction splitOpen cs with
  | case1 rest =>
    refine iff_of_false (Option.some_ne_none _) fun hplain => hplain ?_
    exact (List.prefix_append opening rest).isInfix
  | case2 c rest hfirst ih =>
    rw [Option.map_eq_none_iff, ih]
    exact ⟨fun hplain => hplain.cons hfirst, Plain.of_cons⟩
  | case3 => exact iff_of_true rfl plain_nil

/-- The first opening is the one with plain text before it. -/
theorem splitOpen_eq_some {cs before after : List Char} :
    splitOpen cs = some (before, after) ↔ Plain before ∧ cs = before ++ opening ++ after := by
  fun_induction splitOpen cs generalizing before with
  | case1 rest =>
    constructor
    · intro h
      cases h
      exact ⟨plain_nil, rfl⟩
    · rintro ⟨hplain, hsplit⟩
      -- Text before this opening would begin with it, or with a dollar sign before a dollar sign.
      cases before with
      | nil => cases hsplit; rfl
      | cons first front =>
        cases front with
        | nil => cases hsplit
        | cons second front =>
          cases hsplit
          exact absurd (List.prefix_append opening front).isInfix hplain
  | case2 c rest hfirst ih =>
    rw [Option.map_eq_some_iff]
    constructor
    · rintro ⟨⟨front, back⟩, hsplit, heq⟩
      cases heq
      obtain ⟨hplain, rfl⟩ := ih.1 hsplit
      refine ⟨hplain.cons fun text hc htext => hfirst (text ++ opening ++ after) hc ?_, rfl⟩
      rw [htext]
      rfl
    · rintro ⟨hplain, hsplit⟩
      cases before with
      | nil =>
        cases hsplit
        exact absurd rfl fun h => hfirst after rfl h
      | cons first front =>
        obtain ⟨rfl, hrest⟩ := List.cons.inj hsplit
        exact ⟨(front, after), ih.2 ⟨hplain.of_cons, hrest⟩, rfl⟩
  | case3 =>
    constructor
    · intro h
      cases h
    · rintro ⟨-, hsplit⟩
      cases before <;> cases hsplit

theorem Plain.splitOpen_append {before : List Char} (h : Plain before) (after : List Char) :
    splitOpen (before ++ opening ++ after) = some (before, after) :=
  splitOpen_eq_some.2 ⟨h, rfl⟩

theorem splitClose_eq_none {cs : List Char} : splitClose cs = none ↔ '\x7d' ∉ cs := by
  fun_induction splitClose cs with
  | case1 rest => simp
  | case2 c rest hfirst ih =>
    rw [Option.map_eq_none_iff, ih, List.mem_cons, not_or]
    exact ⟨fun hrest => ⟨fun hc => hfirst hc.symm, hrest⟩, fun h => h.2⟩
  | case3 => simp

/-- The first closing brace is the one with none before it. -/
theorem splitClose_eq_some {cs name after : List Char} :
    splitClose cs = some (name, after) ↔ '\x7d' ∉ name ∧ cs = name ++ '\x7d' :: after := by
  fun_induction splitClose cs generalizing name with
  | case1 rest =>
    constructor
    · intro h
      cases h
      exact ⟨List.not_mem_nil, rfl⟩
    · rintro ⟨hclosed, hsplit⟩
      cases name with
      | nil => cases hsplit; rfl
      | cons c name =>
        cases hsplit
        exact absurd List.mem_cons_self hclosed
  | case2 c rest hfirst ih =>
    rw [Option.map_eq_some_iff]
    constructor
    · rintro ⟨⟨front, back⟩, hsplit, heq⟩
      cases heq
      obtain ⟨hclosed, rfl⟩ := ih.1 hsplit
      exact ⟨List.not_mem_cons_of_ne_of_not_mem (fun hc => hfirst hc.symm) hclosed, rfl⟩
    · rintro ⟨hclosed, hsplit⟩
      cases name with
      | nil =>
        cases hsplit
        exact absurd rfl hfirst
      | cons d name =>
        obtain ⟨rfl, hrest⟩ := List.cons.inj hsplit
        exact ⟨(name, after), ih.2 ⟨fun h => hclosed (List.mem_cons_of_mem _ h), hrest⟩, rfl⟩
  | case3 =>
    constructor
    · intro h
      cases h
    · rintro ⟨-, hsplit⟩
      cases name <;> cases hsplit

theorem splitClose_append {name : List Char} (h : '\x7d' ∉ name) (after : List Char) :
    splitClose (name ++ '\x7d' :: after) = some (name, after) :=
  splitClose_eq_some.2 ⟨h, rfl⟩

/-! ## Templates -/

/-- Whether a text can be the name of a variable in a reference. -/
structure Named (name : String) : Prop where
  nonempty : name ≠ ""
  unclosed : '\x7d' ∉ name.toList

theorem Named.exists_cons {name : String} (h : Named name) :
    ∃ c cs, name.toList = c :: cs :=
  List.exists_cons_of_ne_nil fun hnil => h.nonempty (String.toList_eq_nil_iff.1 hnil)

/-- A reference in a template, with the text between it and the next one. -/
structure Segment where
  name : String
  after : String
  named : Named name
  plain : Plain after.toList

/-- A template taken apart. -/
structure Template where
  /-- The text before the first reference. -/
  front : String
  plain : Plain front.toList
  segments : List Segment

namespace Template

/-- A template with something in the place of each reference. -/
def render (f : String → String) (t : Template) : String :=
  t.front ++ String.join (t.segments.map fun s => f s.name ++ s.after)

/-- A template as it is written. -/
def text (t : Template) : String := t.render fun name => "$\x7b" ++ name ++ "\x7d"

/-- Whether every variable of a template is set. -/
def SetIn (lookup : String → Option String) (t : Template) : Prop :=
  ∀ s ∈ t.segments, (lookup s.name).isSome

/-- A template with its values, for variables that are set. -/
def filled (lookup : String → Option String) (t : Template) : String :=
  t.render fun name => (lookup name).getD ""

section Parts

variable {front : String} {plain : Plain front.toList} {s : Segment} {rest : List Segment}

/-- What follows the name in the first reference is a template of its own. -/
theorem toList_render (f : String → String) :
    (render f ⟨front, plain, s :: rest⟩).toList =
      front.toList ++ ((f s.name).toList ++ (render f ⟨s.after, s.plain, rest⟩).toList) := by
  simp only [render, String.toList_append, String.toList_join, List.map_cons, List.flatMap_cons,
    List.append_assoc]

theorem toList_render_nil (f : String → String) :
    (render f ⟨front, plain, []⟩).toList = front.toList := by
  simp [render]

theorem toList_text :
    (text ⟨front, plain, s :: rest⟩).toList =
      front.toList ++ opening ++
        (s.name.toList ++ '\x7d' :: (text ⟨s.after, s.plain, rest⟩).toList) := by
  rw [text, toList_render]
  simp [opening, text]

theorem setIn_cons {lookup : String → Option String} :
    SetIn lookup ⟨front, plain, s :: rest⟩ ↔
      (lookup s.name).isSome ∧ SetIn lookup ⟨s.after, s.plain, rest⟩ := List.forall_mem_cons

/-- A text with a reference in it is not plain. -/
theorem not_plain_text : ¬ Plain (text ⟨front, plain, s :: rest⟩).toList := by
  rw [toList_text]
  exact fun hplain => hplain ⟨_, _, rfl⟩

/-- The first opening and the first brace after it are where the text before a reference and its
name end. -/
theorem cons_inj {front' : String} {plain' : Plain front'.toList} {s' : Segment}
    {rest' : List Segment}
    (h : (text ⟨front, plain, s :: rest⟩).toList = (text ⟨front', plain', s' :: rest'⟩).toList) :
    front = front' ∧ s.name = s'.name ∧
      text ⟨s.after, s.plain, rest⟩ = text ⟨s'.after, s'.plain, rest'⟩ := by
  rw [toList_text, toList_text] at h
  have hopens := splitOpen_eq_some.2 ⟨plain, h.symm⟩
  rw [splitOpen_eq_some.2 ⟨plain', rfl⟩] at hopens
  obtain ⟨hfront, hafter⟩ := Prod.mk.inj (Option.some.inj hopens)
  have hcloses := splitClose_eq_some.2 ⟨s.named.unclosed, hafter⟩
  rw [splitClose_eq_some.2 ⟨s'.named.unclosed, rfl⟩] at hcloses
  obtain ⟨hname, hlater⟩ := Prod.mk.inj (Option.some.inj hcloses)
  exact ⟨(String.toList_inj.1 hfront).symm, (String.toList_inj.1 hname).symm,
    (String.toList_inj.1 hlater).symm⟩

end Parts

/-- There is one way to take a text apart. -/
theorem ext_of_text {t t' : Template} (h : t.text = t'.text) : t = t' := by
  obtain ⟨front, plain, segments⟩ := t
  obtain ⟨front', plain', segments'⟩ := t'
  induction segments generalizing front front' segments' with
  | nil =>
    have htext := congrArg String.toList h
    rw [text, toList_render_nil] at htext
    cases segments' with
    | nil =>
      rw [text, toList_render_nil] at htext
      obtain rfl := String.toList_inj.1 htext
      rfl
    | cons s' rest' => exact absurd (htext ▸ plain) not_plain_text
  | cons s rest ih =>
    have htext := congrArg String.toList h
    cases segments' with
    | nil =>
      rw [text, text, toList_render_nil] at htext
      exact absurd (htext ▸ plain') not_plain_text
    | cons s' rest' =>
      obtain ⟨rfl, hname, hlater⟩ := cons_inj htext
      obtain ⟨hafter, hsegments⟩ := Template.mk.inj (ih _ s.plain _ s'.plain rest' hlater)
      have hsame : s = s' := by
        cases s
        cases s'
        rw [Segment.mk.injEq]
        exact ⟨hname, hafter⟩
      rw [hsame, hsegments]

end Template

/-! ## Faults -/

section Expand

variable (template : String) (lookup : String → Option String)

/-- What is wrong with a reference, given the text after its opening. -/
inductive Fault : String → Error → Prop
  /-- No brace closes it. -/
  | unterminated {rest : String} (hunclosed : '\x7d' ∉ rest.toList) :
      Fault rest (.unterminated template)
  /-- The brace that closes it comes at once. -/
  | empty {rest : String} : Fault ("\x7d" ++ rest) (.empty template)
  /-- Its variable has no value. -/
  | unset {name rest : String} (hnamed : Named name) (hunset : lookup name = none) :
      Fault (name ++ "\x7d" ++ rest) (.unset name)

/-- Every text is a template whose variables are set, or begins with one that is followed by a
reference that is at fault. -/
theorem exists_template (cs : List Char) :
    (∃ t : Template, t.SetIn lookup ∧ cs = t.text.toList) ∨
      ∃ (t : Template) (rest : String) (e : Error), t.SetIn lookup ∧
        cs = t.text.toList ++ opening ++ rest.toList ∧ Fault template lookup rest e := by
  -- What is before an opening is a template without references.
  have hbare {before : List Char} (hplain : Plain before) :
      ∃ t : Template, t.SetIn lookup ∧ before = t.text.toList :=
    ⟨⟨String.ofList before, by rwa [String.toList_ofList], []⟩, List.forall_mem_nil _,
      by rw [Template.text, Template.toList_render_nil, String.toList_ofList]⟩
  induction cs using expandRest.induct lookup with
  | case1 cs hopen => exact .inl (hbare (splitOpen_eq_none.1 hopen))
  | case2 cs before after hopen hclose =>
    obtain ⟨hplain, rfl⟩ := splitOpen_eq_some.1 hopen
    obtain ⟨t, hset, htext⟩ := hbare hplain
    refine .inr ⟨t, String.ofList after, _, hset, ?_, .unterminated ?_⟩
    · rw [← htext, String.toList_ofList]
    · rw [String.toList_ofList]
      exact splitClose_eq_none.1 hclose
  | case3 cs before after hopen rest hclose =>
    obtain ⟨hplain, rfl⟩ := splitOpen_eq_some.1 hopen
    obtain ⟨-, rfl⟩ := splitClose_eq_some.1 hclose
    obtain ⟨t, hset, htext⟩ := hbare hplain
    refine .inr ⟨t, "\x7d" ++ String.ofList rest, _, hset, ?_, .empty⟩
    simp [← htext]
  | case4 cs before after hopen name rest hname hclose hunset =>
    obtain ⟨hplain, rfl⟩ := splitOpen_eq_some.1 hopen
    obtain ⟨hclosed, rfl⟩ := splitClose_eq_some.1 hclose
    obtain ⟨t, hset, htext⟩ := hbare hplain
    refine .inr ⟨t, String.ofList name ++ "\x7d" ++ String.ofList rest, _, hset, ?_,
      .unset ⟨?_, ?_⟩ hunset⟩
    · simp [← htext]
    · simpa using hname
    · rwa [String.toList_ofList]
  | case5 cs before after hopen name rest hname hclose value hvalue ih =>
    obtain ⟨hplain, rfl⟩ := splitOpen_eq_some.1 hopen
    obtain ⟨hclosed, rfl⟩ := splitClose_eq_some.1 hclose
    have hnamed : Named (String.ofList name) :=
      ⟨by simpa using hname, by rwa [String.toList_ofList]⟩
    -- The template that the rest begins with, and this reference before it.
    let extend (t : Template) : Template :=
      ⟨String.ofList before, by rwa [String.toList_ofList],
        ⟨String.ofList name, t.front, hnamed, t.plain⟩ :: t.segments⟩
    have htext (t : Template) : (extend t).text.toList =
        before ++ opening ++ (name ++ '\x7d' :: t.text.toList) := by
      rw [Template.toList_text, String.toList_ofList, String.toList_ofList]
    have hset {t : Template} (h : t.SetIn lookup) : (extend t).SetIn lookup :=
      Template.setIn_cons.2 ⟨Option.isSome_iff_exists.2 ⟨value, hvalue⟩, h⟩
    rcases ih with ⟨t, ht, rfl⟩ | ⟨t, last, e, ht, rfl, hfault⟩
    · exact .inl ⟨extend t, hset ht, (htext t).symm⟩
    · refine .inr ⟨extend t, last, e, hset ht, ?_, hfault⟩
      rw [htext]
      simp

end Expand

/-! ## One reference after the other -/

section Turn

variable (template : String) (lookup : String → Option String)

/-- One turn of a loop through a text: what it writes, and the rest unless there is none. -/
def turn (cs : List Char) : Except Error (List Char × Option (List Char)) :=
  match splitOpen cs with
  | none => .ok (cs, none)
  | some (before, after) =>
    match splitClose after with
    | none => .error (.unterminated template)
    | some ([], _) => .error (.empty template)
    | some (name, rest) =>
      match lookup (String.ofList name) with
      | none => .error (.unset (String.ofList name))
      | some value => .ok (before ++ value.toList, some rest)

/-- What remains to be done after a turn. -/
def afterTurn (goOn : List Char → Except Error (List Char)) :
    List Char × Option (List Char) → Except Error (List Char)
  | (written, none) => .ok written
  | (written, some rest) => (goOn rest).map (written ++ ·)

/-- The loop with a bounded number of turns, given what is written already. -/
def turns : Nat → (written cs : List Char) → Option (Except Error (List Char))
  | 0, _, _ => none
  | n + 1, written, cs =>
    match turn template lookup cs with
    | .error e => some (.error e)
    | .ok (more, none) => some (.ok (written ++ more))
    | .ok (more, some rest) => turns n (written ++ more) rest

theorem expandRest_eq_turn (cs : List Char) :
    expandRest template lookup cs =
      (turn template lookup cs).bind (afterTurn (expandRest template lookup)) := by
  rw [expandRest]
  split
  · next hopen =>
    rw [turn, hopen]
    rfl
  · next before after hopen =>
    split
    · next hclose => simp only [turn, hopen, hclose, Except.bind]
    · next hclose => simp only [turn, hopen, hclose, Except.bind]
    · next name rest hname hclose =>
      obtain ⟨c, more, rfl⟩ := List.exists_cons_of_ne_nil hname
      split
      · next hunset => simp only [turn, hopen, hclose, hunset, Except.bind]
      · next value hvalue =>
        simp only [turn, hopen, hclose, hvalue, Except.bind, afterTurn]
        cases expandRest template lookup rest <;> rfl

variable {template lookup}

theorem turn_of_plain {cs : List Char} (h : Plain cs) :
    turn template lookup cs = .ok (cs, none) := by
  rw [turn, splitOpen_eq_none.2 h]

/-- A reference to a variable that is set is replaced by its value. -/
theorem turn_segment {front : List Char} {name value : String} (hplain : Plain front)
    (hnamed : Named name) (hvalue : lookup name = some value) (rest : List Char) :
    turn template lookup (front ++ opening ++ (name.toList ++ '\x7d' :: rest)) =
      .ok (front ++ value.toList, some rest) := by
  obtain ⟨c, more, hname⟩ := hnamed.exists_cons
  have hclose := splitClose_append hnamed.unclosed rest
  rw [← String.ofList_toList (s := name), hname] at hvalue
  rw [hname] at hclose ⊢
  simp only [turn, hplain.splitOpen_append, hclose, hvalue]

/-- A reference that is at fault is reported. -/
theorem turn_of_fault {front : List Char} {rest : String} {e : Error} (hplain : Plain front)
    (h : Fault template lookup rest e) :
    turn template lookup (front ++ opening ++ rest.toList) = .error e := by
  cases h with
  | unterminated hunclosed =>
    simp only [turn, hplain.splitOpen_append, splitClose_eq_none.2 hunclosed]
  | @empty rest =>
    have hclose : splitClose ("\x7d" ++ rest).toList = some ([], rest.toList) := by
      rw [String.toList_append]
      exact splitClose_append List.not_mem_nil rest.toList
    simp only [turn, hplain.splitOpen_append, hclose]
  | @unset name rest hnamed hunset =>
    obtain ⟨c, more, hname⟩ := hnamed.exists_cons
    have hclose := splitClose_append hnamed.unclosed rest.toList
    have hsplit : (name ++ "\x7d" ++ rest).toList = name.toList ++ '\x7d' :: rest.toList := by simp
    rw [← String.ofList_toList (s := name), hname] at hunset
    rw [hname] at hclose hsplit
    rw [hsplit, ← String.ofList_toList (s := name), hname]
    simp only [turn, hplain.splitOpen_append, hclose, hunset]

/-- A turn that is not the last uses up a reference, which has four characters or more. -/
theorem length_of_turn {cs more rest : List Char}
    (h : turn template lookup cs = .ok (more, some rest)) : rest.length + 4 ≤ cs.length := by
  unfold turn at h
  split at h
  · cases h
  · next hopen =>
    split at h
    · cases h
    · cases h
    · next name _ hname hclose =>
      split at h
      · cases h
      · cases h
        obtain ⟨-, rfl⟩ := splitOpen_eq_some.1 hopen
        obtain ⟨-, rfl⟩ := splitClose_eq_some.1 hclose
        have hlength : 0 < name.length := List.length_pos_iff.2 hname
        simp only [opening, List.length_append, List.length_cons, List.length_nil]
        omega

/-- The loop comes to its end before it has taken a turn for every four characters and one more,
with what `expandRest` says. -/
theorem turns_eq {n : Nat} {cs : List Char} (h : cs.length < 4 * n) (written : List Char) :
    turns template lookup n written cs =
      some ((expandRest template lookup cs).map (written ++ ·)) := by
  induction n generalizing cs written with
  | zero => exact absurd h (Nat.not_lt_zero _)
  | succ n ih =>
    rw [turns, expandRest_eq_turn]
    split
    · next hturn =>
      rw [hturn]
      rfl
    · next hturn =>
      rw [hturn]
      rfl
    · next more rest hturn =>
      have hlength := length_of_turn hturn
      rw [hturn, ih (by omega)]
      simp only [Except.bind, afterTurn]
      cases expandRest template lookup rest with
      | error e => rfl
      | ok expanded => simp only [Except.map, List.append_assoc]

end Turn

/-! ## Expansion -/

section Result

variable {template : String} {lookup : String → Option String}

theorem expandRest_text {t : Template} (hset : t.SetIn lookup) :
    expandRest template lookup t.text.toList = .ok (t.filled lookup).toList := by
  obtain ⟨front, plain, segments⟩ := t
  induction segments generalizing front with
  | nil =>
    rw [Template.text, Template.toList_render_nil, Template.filled, Template.toList_render_nil,
      expandRest_eq_turn, turn_of_plain plain]
    rfl
  | cons s rest ih =>
    obtain ⟨hfirst, hrest⟩ := Template.setIn_cons.1 hset
    obtain ⟨value, hvalue⟩ := Option.isSome_iff_exists.1 hfirst
    rw [Template.toList_text, expandRest_eq_turn, turn_segment plain s.named hvalue,
      Template.filled, Template.toList_render, hvalue]
    simp only [Except.bind, afterTurn, ih _ s.plain hrest, Except.map, List.append_assoc]
    rfl

theorem expandRest_fault {t : Template} (hset : t.SetIn lookup) {rest : String} {e : Error}
    (hfault : Fault template lookup rest e) :
    expandRest template lookup (t.text.toList ++ opening ++ rest.toList) = .error e := by
  obtain ⟨front, plain, segments⟩ := t
  induction segments generalizing front with
  | nil =>
    rw [Template.text, Template.toList_render_nil, expandRest_eq_turn,
      turn_of_fault plain hfault]
    rfl
  | cons s later ih =>
    obtain ⟨hfirst, hlater⟩ := Template.setIn_cons.1 hset
    obtain ⟨value, hvalue⟩ := Option.isSome_iff_exists.1 hfirst
    have hsplit : (Template.text ⟨front, plain, s :: later⟩).toList ++ opening ++ rest.toList =
        front.toList ++ opening ++ (s.name.toList ++ '\x7d' ::
          ((Template.text ⟨s.after, s.plain, later⟩).toList ++ opening ++ rest.toList)) := by
      rw [Template.toList_text]
      simp
    rw [hsplit, expandRest_eq_turn, turn_segment plain s.named hvalue]
    simp only [Except.bind, afterTurn, ih _ s.plain hlater, Except.map]

/-- A text is expanded exactly when it is a template whose variables are set. -/
theorem expand_eq_ok {out : String} :
    expand template lookup = .ok out ↔
      ∃ t : Template, t.SetIn lookup ∧ t.text = template ∧ t.filled lookup = out := by
  constructor
  · intro h
    rcases exists_template template lookup template.toList with
      ⟨t, hset, htext⟩ | ⟨t, rest, e, hset, htext, hfault⟩
    · refine ⟨t, hset, (String.toList_inj.1 htext).symm, ?_⟩
      rw [expand, htext, expandRest_text hset, Except.map, String.ofList_toList] at h
      exact Except.ok.inj h
    · rw [expand, htext, expandRest_fault hset hfault] at h
      cases h
  · rintro ⟨t, hset, rfl, rfl⟩
    rw [expand, expandRest_text hset, Except.map, String.ofList_toList]

/-- The reference that is reported is the first one that is at fault. -/
theorem expand_eq_error {e : Error} :
    expand template lookup = .error e ↔
      ∃ (t : Template) (rest : String), t.SetIn lookup ∧ t.text ++ "$\x7b" ++ rest = template ∧
        Fault template lookup rest e := by
  have hopens (t : Template) (rest : String) :
      (t.text ++ "$\x7b" ++ rest).toList = t.text.toList ++ opening ++ rest.toList := by
    simp [opening]
  constructor
  · intro h
    rcases exists_template template lookup template.toList with
      ⟨t, hset, htext⟩ | ⟨t, rest, e', hset, htext, hfault⟩
    · rw [expand, htext, expandRest_text hset] at h
      cases h
    · refine ⟨t, rest, hset, String.toList_inj.1 ((hopens t rest).trans htext.symm), ?_⟩
      rw [expand, htext, expandRest_fault hset hfault] at h
      cases h
      exact hfault
  · rintro ⟨t, rest, hset, htext, hfault⟩
    rw [expand, ← htext, hopens, htext, expandRest_fault hset hfault]
    rfl

end Result

/-- Expansion follows the grammar of templates, whatever the text and the values of variables are:

* it gives a text exactly when the template can be taken apart and all its variables are set, and
  that text is the template with the values as they are in the place of the references;
* there is no other way to take the template apart;
* otherwise it reports the first reference that is not closed, has no name or has no value, after a
  part of the template that is in order;
* as a loop it has come to that end after one turn for every four characters and one more. -/
theorem expand_grammar (template : String) (lookup : String → Option String) :
    (∀ out, expand template lookup = .ok out ↔
      ∃ t : Template, t.SetIn lookup ∧ t.text = template ∧ t.filled lookup = out) ∧
    (∀ t t' : Template, t.text = template → t'.text = template → t = t') ∧
    (∀ e, expand template lookup = .error e ↔
      ∃ (t : Template) (rest : String), t.SetIn lookup ∧ t.text ++ "$\x7b" ++ rest = template ∧
        Fault template lookup rest e) ∧
    turns template lookup (template.length / 4 + 1) [] template.toList =
      some ((expand template lookup).map String.toList) := by
  refine ⟨fun _ => expand_eq_ok, fun t t' h h' => Template.ext_of_text (h.trans h'.symm),
    fun _ => expand_eq_error, ?_⟩
  rw [turns_eq (by rw [String.length_toList]; omega), expand]
  cases expandRest template lookup template.toList <;> simp [Except.map]

/-- A dollar sign before a reference is text, a value is not looked into, and a name goes up to the
first brace. -/
example :
    expand "$$\x7bA\x7d $\x7bA$\x7bB\x7d\x7d" (fun name =>
      if name = "A" then some "$\x7bB\x7d" else if name = "A$\x7bB" then some "2" else none) =
      .ok "$$\x7bB\x7d 2\x7d" := by
  cbv

end Reference
end LoadRamp
