import LoadRamp.Proofs.Checks
import LoadRamp.Proofs.Resolving

/-!
# Unambiguous scenarios

Outcomes are counted under the scenario, a group and a description, so a list of
groups is a scenario only if a group and a description name one check.  Names are
compared over the whole list, descriptions within one group at a time.

* `firstRepeat_eq_some`: which element of a list is the first that repeats one
  before it.
* `firstOffence_eq_some`: which group is the first that does not go with those
  before it, and what is said of it.
* `make_accepts`: which lists of groups are scenarios, and which error the others
  bring.
-/

namespace LoadRamp

variable {α : Type} [DecidableEq α]

/-- The element that is found repeats one before it or one seen earlier, and no element before it
does. -/
theorem firstRepeat_eq_some {seen list : List α} {a : α} :
    firstRepeat seen list = some a ↔ ∃ front back, list = front ++ a :: back ∧
      firstRepeat seen front = none ∧ (a ∈ front ∨ a ∈ seen) := by
  induction list generalizing seen with
  | nil => simp [firstRepeat]
  | cons b rest ih =>
    by_cases hb : b ∈ seen
    · rw [firstRepeat, if_pos hb, Option.some.injEq]
      constructor
      · rintro rfl
        exact ⟨[], rest, rfl, rfl, .inr hb⟩
      · rintro ⟨front, back, hsplit, hfront, -⟩
        cases front with
        | nil => exact (List.cons.inj hsplit).1
        | cons c front =>
          obtain ⟨rfl, -⟩ := List.cons.inj hsplit
          rw [firstRepeat, if_pos hb] at hfront
          cases hfront
    · rw [firstRepeat, if_neg hb, ih]
      constructor
      · rintro ⟨front, back, rfl, hfront, ha⟩
        refine ⟨b :: front, back, rfl, ?_, ?_⟩
        · rwa [firstRepeat, if_neg hb]
        · rw [List.mem_cons] at ha ⊢
          tauto
      · rintro ⟨front, back, hsplit, hfront, ha⟩
        cases front with
        | nil =>
          obtain ⟨rfl, -⟩ := List.cons.inj hsplit
          exact absurd (ha.resolve_left List.not_mem_nil) hb
        | cons c front =>
          obtain ⟨rfl, rfl⟩ := List.cons.inj hsplit
          rw [firstRepeat, if_neg hb] at hfront
          refine ⟨front, back, rfl, hfront, ?_⟩
          rw [List.mem_cons] at ha ⊢
          tauto

/-- The first element of a list that stands in it before. -/
theorem firstRepeat_nil_eq_some {list : List α} {a : α} :
    firstRepeat [] list = some a ↔
      ∃ front back, list = front ++ a :: back ∧ front.Nodup ∧ a ∈ front := by
  simp [firstRepeat_eq_some, firstRepeat_eq_none]

namespace Scenario

/-- Groups in which a group and a description name one check. -/
structure Unambiguous (groups : List Group) : Prop where
  names : (groups.map Group.name).Nodup
  descriptions : ∀ g ∈ groups, g.descriptions.Nodup

/-- What is wrong with a group that comes after groups of some names: its own name is one of them,
or else one of its descriptions stands in it before. -/
inductive Offends (names : List String) (g : Group) : Error → Prop
  | name (hname : g.name ∈ names) : Offends names g (.repeatedGroup g.name)
  | check {front back : List String} {description : String} (hname : g.name ∉ names)
      (hsplit : g.descriptions = front ++ description :: back) (hfront : front.Nodup)
      (hrepeat : description ∈ front) : Offends names g (.repeatedCheck description g.name)

theorem offends_congr {names names' : List String} {g : Group} {e : Error}
    (h : ∀ name, name ∈ names ↔ name ∈ names') : Offends names g e ↔ Offends names' g e := by
  constructor
  · rintro (hname | ⟨hname, hsplit, hfront, hrepeat⟩)
    · exact .name ((h _).1 hname)
    · exact .check (fun hmem => hname ((h _).2 hmem)) hsplit hfront hrepeat
  · rintro (hname | ⟨hname, hsplit, hfront, hrepeat⟩)
    · exact .name ((h _).2 hname)
    · exact .check (fun hmem => hname ((h _).1 hmem)) hsplit hfront hrepeat

/-- One group is looked at, and the rest with its name as one more. -/
theorem firstOffence_cons (seen : List String) (g : Group) (rest : List Group) :
    firstOffence seen (g :: rest) =
      (firstOffence seen [g]).or (firstOffence (g.name :: seen) rest) := by
  by_cases hname : g.name ∈ seen
  · simp [firstOffence, hname]
  · cases hrepeat : firstRepeat [] g.descriptions <;> simp [firstOffence, hname, hrepeat]

theorem firstOffence_singleton {seen : List String} {g : Group} {e : Error} :
    firstOffence seen [g] = some e ↔ Offends seen g e := by
  by_cases hname : g.name ∈ seen
  · rw [firstOffence, if_pos hname, Option.some.injEq]
    constructor
    · rintro rfl
      exact .name hname
    · rintro (- | ⟨hnew, -, -, -⟩)
      · rfl
      · exact absurd hname hnew
  · rw [firstOffence, if_neg hname]
    constructor
    · intro h
      cases hrepeat : firstRepeat [] g.descriptions with
      | none => simp [hrepeat, firstOffence] at h
      | some description =>
        rw [hrepeat] at h
        cases h
        obtain ⟨front, back, hsplit, hfront, hmem⟩ := firstRepeat_nil_eq_some.1 hrepeat
        exact .check hname hsplit hfront hmem
    · rintro (hold | ⟨-, hsplit, hfront, hmem⟩)
      · exact absurd hold hname
      · rw [firstRepeat_nil_eq_some.2 ⟨_, _, hsplit, hfront, hmem⟩]

/-- The group that is reported is the first one that does not go with the groups before it. -/
theorem firstOffence_eq_some {seen : List String} {groups : List Group} {e : Error} :
    firstOffence seen groups = some e ↔ ∃ front g back, groups = front ++ g :: back ∧
      firstOffence seen front = none ∧ Offends (front.map Group.name ++ seen) g e := by
  induction groups generalizing seen with
  | nil => simp [firstOffence]
  | cons g rest ih =>
    rw [firstOffence_cons, Option.or_eq_some_iff, firstOffence_singleton, ih]
    constructor
    · rintro (hfirst | ⟨hnone, front, g', back, rfl, hfront, hlater⟩)
      · exact ⟨[], g, rest, rfl, rfl, hfirst⟩
      · refine ⟨g :: front, g', back, rfl, ?_, ?_⟩
        · rw [firstOffence_cons, hnone, hfront]
          rfl
        · refine (offends_congr fun name => ?_).1 hlater
          simp [or_left_comm]
    · rintro ⟨front, g', back, hsplit, hfront, hlater⟩
      cases front with
      | nil =>
        obtain ⟨rfl, rfl⟩ := List.cons.inj hsplit
        exact .inl hlater
      | cons first front =>
        obtain ⟨rfl, rfl⟩ := List.cons.inj hsplit
        rw [firstOffence_cons, Option.or_eq_none_iff] at hfront
        refine .inr ⟨hfront.1, front, g', back, rfl, hfront.2, ?_⟩
        refine (offends_congr fun name => ?_).1 hlater
        simp [or_left_comm]

theorem firstOffence_nil_eq_none {groups : List Group} :
    firstOffence [] groups = none ↔ Unambiguous groups := by
  rw [firstOffence_eq_none]
  constructor
  · rintro ⟨hnames, -, hdescriptions⟩
    exact ⟨hnames, hdescriptions⟩
  · rintro ⟨hnames, hdescriptions⟩
    exact ⟨hnames, fun _ _ => List.not_mem_nil, hdescriptions⟩

theorem make_eq_error {name : String} {groups : List Group} {e : Error} :
    make name groups = .error e ↔ (groups = [] ∧ e = .noGroups name) ∨
      (groups ≠ [] ∧ firstOffence [] groups = some e) := by
  unfold make
  split
  · next hnone => simp [hnone, eq_comm]
  · next hsome =>
    split
    · next offence hoffence => simp [hsome, hoffence]
    · next hvalid => simp [hsome, hvalid]

/-- Groups are a scenario exactly when there are some of them, their names differ and within each
group the descriptions differ.  They are kept as they are, and each check of each group has a key
of its own.  Otherwise the first group is reported that does not go with those before it, for its
name if that is repeated and else for the first description that is. -/
theorem make_accepts (name : String) (groups : List Group) :
    ((∃ s, make name groups = .ok s) ↔
      groups ≠ [] ∧ (groups.map Group.name).Nodup ∧ ∀ g ∈ groups, g.descriptions.Nodup) ∧
    (∀ s, make name groups = .ok s → s.name = name ∧ s.groups = groups ∧
      (groups.flatMap fun g => g.checks.map fun check => s.key g check).Nodup ∧
      (groups.flatMap fun g => g.checks.map fun check => s.key g check).length =
        s.checksPerIteration) ∧
    ∀ e, make name groups = .error e ↔ (groups = [] ∧ e = .noGroups name) ∨
      ∃ front g back, groups = front ++ g :: back ∧ Unambiguous front ∧
        Offends (front.map Group.name) g e := by
  refine ⟨?_, fun s hs => ?_, fun e => ?_⟩
  · simp only [make_eq_ok]
    exact exists_scenario name groups
  · obtain ⟨hname, rfl⟩ := make_eq_ok.1 hs
    exact ⟨hname, rfl, s.nodup_keys, s.length_keys⟩
  · rw [make_eq_error, firstOffence_eq_some]
    simp only [firstOffence_nil_eq_none, List.append_nil]
    refine or_congr_right ⟨And.right, fun h => ⟨?_, h⟩⟩
    obtain ⟨front, g, back, rfl, -⟩ := h
    simp

/-- One description in two groups is allowed.  Of two offences the one in the earlier group is
reported, and of two in one group that of its name. -/
theorem make_accepts_offences :
    let check (description : String) : Check := .deciding description fun _ => true
    let group (name : String) (descriptions : List String) : Group :=
      ⟨name, .get, "/book", [], none, descriptions.map check⟩
    (∃ s, make "books" [group "get" ["ok"], group "post" ["ok", "empty"]] = .ok s ∧
      s.groups.map Group.name = ["get", "post"] ∧ s.keys.Nodup) ∧
    make "books" [group "get" ["ok"], group "put" ["ok", "empty", "ok"], group "get" []] =
      .error (.repeatedCheck "ok" "put") ∧
    make "books" [group "get" [], group "get" ["ok", "ok"]] = .error (.repeatedGroup "get") := by
  intro check group
  refine ⟨?_, ?_, ?_⟩
  · let groups := [group "get" ["ok"], group "post" ["ok", "empty"]]
    obtain ⟨haccepted, hkept, -⟩ := make_accepts "books" groups
    obtain ⟨s, hs⟩ := haccepted.2 ⟨List.cons_ne_nil _ _, by decide, by decide⟩
    obtain ⟨-, hgroups, hkeys, -⟩ := hkept s hs
    refine ⟨s, hs, by rw [hgroups]; rfl, ?_⟩
    rw [← hgroups] at hkeys
    exact hkeys
  · obtain ⟨-, -, herror⟩ := make_accepts "books"
      [group "get" ["ok"], group "put" ["ok", "empty", "ok"], group "get" []]
    have hput : Offends ["get"] (group "put" ["ok", "empty", "ok"]) (.repeatedCheck "ok" "put") :=
      @Offends.check _ _ ["ok", "empty"] [] "ok" (by decide) rfl (by decide) List.mem_cons_self
    exact (herror _).2 (.inr ⟨[group "get" ["ok"]], _, _, rfl, ⟨by decide, by decide⟩, hput⟩)
  · obtain ⟨-, -, herror⟩ := make_accepts "books" [group "get" [], group "get" ["ok", "ok"]]
    exact (herror _).2 (.inr ⟨[group "get" []], _, _, rfl, ⟨by decide, by decide⟩,
      .name List.mem_cons_self⟩)

end Scenario
end LoadRamp
