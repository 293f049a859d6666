import LoadRamp.Config.Resolve
import LoadRamp.Proofs.Results
import LoadRamp.Proofs.Table
import Mathlib.Algebra.BigOperators.Group.List.Basic
import Mathlib.Data.List.Infix

/-!
# Which configurations are accepted

Every part of a configuration is resolved by a function of its own, and for each
there is one lemma that says when it has which result (`StageEntry.resolve_eq_ok`,
`CheckEntry.resolve_eq`, `GroupEntry.resolve_eq_ok`, `scheduleOf_eq_ok`,
`scenarioOf_eq_ok`).  Together they say what a whole configuration comes to
(`resolve_eq_ok`), whatever order the parts are looked at in.

* `Config.Means` is what a configuration comes to, part by part.
* `Config.Valid` is what is asked of a configuration, one condition for each check.
* `Config.resolve_accepts`: exactly the valid configurations are accepted, and each
  keeps its meaning.
-/

namespace LoadRamp

namespace Duration

/-- A list of durations has a sum when its nanoseconds fit. -/
theorem sum?_eq_some {durations : List Duration} {total : Duration} :
    sum? durations = some total ↔ (durations.map nanos).sum = total.nanos := by
  have hfold (start : Duration) : durations.foldlM add? start = some total ↔
      start.nanos + (durations.map nanos).sum = total.nanos := by
    induction durations generalizing start with
    | nil =>
      simp only [List.foldlM_nil, List.map_nil, List.sum_nil, Nat.add_zero]
      exact ⟨fun h => congrArg nanos (Option.some.inj h), fun h => congrArg some (ext h)⟩
    | cons d durations ih =>
      rw [List.foldlM_cons, List.map_cons, List.sum_cons, ← Nat.add_assoc]
      cases hadd : start.add? d with
      | none =>
        have := add?_eq_none.1 hadd
        have := total.bounded
        simp only [bind, Option.bind, reduceCtorEq, false_iff]
        omega
      | some next =>
        refine (ih next).trans ?_
        rw [add?_eq_some.1 hadd]
  rw [sum?, hfold, nanos_zero, Nat.zero_add]

end Duration

/-! ## Schedules and scenarios -/

theorem Schedule.make_self (s : Schedule) : make s.stages s.startTarget = .ok s := by
  have hstages : s.stages.isEmpty = false := by
    rw [List.isEmpty_eq_false_iff]
    intro hnone
    have htotal := Duration.sum?_eq_some.1 s.total_eq
    have := s.total_pos
    rw [hnone, List.map_nil, List.map_nil, List.sum_nil] at htotal
    omega
  unfold make
  rw [hstages, if_neg Bool.false_ne_true]
  split
  · next hnone =>
    rw [s.total_eq] at hnone
    cases hnone
  · next total htotal =>
    obtain rfl : s.total = total := Option.some.inj (s.total_eq.symm.trans htotal)
    rw [dif_pos s.total_pos]

/-- A schedule is known from its stages and its start target. -/
theorem Schedule.make_eq_ok {stages : List Stage} {startTarget : Nat} {s : Schedule} :
    make stages startTarget = .ok s ↔ s.stages = stages ∧ s.startTarget = startTarget := by
  constructor
  · intro h
    unfold make at h
    split at h
    · cases h
    · split at h
      · cases h
      · split at h
        · cases h
          exact ⟨rfl, rfl⟩
        · cases h
  · rintro ⟨rfl, rfl⟩
    exact s.make_self

theorem scheduleOf_eq_ok {stages : List Stage} {startTarget : Nat} {s : Schedule} :
    scheduleOf stages startTarget = .ok s ↔
      s.stages = stages ∧ s.startTarget = startTarget := by
  rw [← Schedule.make_eq_ok, scheduleOf]
  cases Schedule.make stages startTarget with
  | ok made => simp
  | error error => cases error <;> simp

/-- Stages make a schedule when their durations add up to something that is a duration. -/
theorem exists_schedule (stages : List Stage) (startTarget : Nat) :
    (∃ s : Schedule, s.stages = stages ∧ s.startTarget = startTarget) ↔
      0 < (stages.map fun stage => stage.duration.nanos).sum ∧
        (stages.map fun stage => stage.duration.nanos).sum < Duration.limit := by
  constructor
  · rintro ⟨s, rfl, -⟩
    have htotal := Duration.sum?_eq_some.1 s.total_eq
    rw [List.map_map] at htotal
    exact ⟨htotal ▸ s.total_pos, htotal ▸ s.total.bounded⟩
  · rintro ⟨hpos, hlimit⟩
    refine ⟨⟨stages, startTarget, ⟨_, hlimit⟩, Duration.sum?_eq_some.2 ?_, hpos⟩, rfl, rfl⟩
    rw [List.map_map]
    rfl

/-- A scenario is known from its name and its groups. -/
theorem Scenario.make_eq_ok {name : String} {groups : List Group} {s : Scenario} :
    make name groups = .ok s ↔ s.name = name ∧ s.groups = groups := by
  constructor
  · intro h
    unfold make at h
    split at h
    · cases h
    · split at h
      · cases h
      · cases h
        exact ⟨rfl, rfl⟩
  · rintro ⟨rfl, rfl⟩
    have hvalid : firstOffence [] s.groups = none :=
      firstOffence_eq_none.2 ⟨s.names_nodup, fun _ _ => List.not_mem_nil, s.descriptions_nodup⟩
    unfold make
    rw [dif_neg s.nonempty]
    split
    · next hoffence =>
      rw [hvalid] at hoffence
      cases hoffence
    · rfl

theorem scenarioOf_eq_ok {name : String} {groups : List Group} {s : Scenario} :
    scenarioOf name groups = .ok s ↔ s.name = name ∧ s.groups = groups := by
  rw [← Scenario.make_eq_ok, scenarioOf]
  cases Scenario.make name groups <;> simp

theorem exists_scenario (name : String) (groups : List Group) :
    (∃ s : Scenario, s.name = name ∧ s.groups = groups) ↔
      groups ≠ [] ∧ (groups.map Group.name).Nodup ∧ ∀ g ∈ groups, g.descriptions.Nodup := by
  constructor
  · rintro ⟨s, -, rfl⟩
    exact ⟨s.nonempty, s.names_nodup, s.descriptions_nodup⟩
  · rintro ⟨hgroups, hnames, hdescriptions⟩
    exact ⟨⟨name, groups, hgroups, hnames, hdescriptions⟩, rfl, rfl⟩

namespace Config

open Ordered (Ascending textBefore)

variable {lookup : String → Option String}

/-! ## Stages -/

/-- The duration of a span, if there is one. -/
def Span.duration? : Span → Option Duration
  | .seconds value => durationOf? value
  | .phrase text => (Duration.Phrase.read text).toOption

theorem secondsOf_eq_ok {field : String} {value : Number.Binary64} {d : Duration} :
    secondsOf field value = .ok d ↔ durationOf? value = some d := by
  unfold secondsOf
  cases durationOf? value <;> simp

theorem Span.resolve_eq_ok {span : Span} {d : Duration} :
    span.resolve = .ok d ↔ span.duration? = some d := by
  cases span with
  | seconds value => rw [resolve, mapError_eq_ok, secondsOf_eq_ok, duration?]
  | phrase text =>
    rw [resolve, duration?]
    cases Duration.Phrase.read text with
    | ok d => simp [Except.toOption]
    | error e => cases e <;> simp [Except.toOption]

theorem natural_eq_ok {field : String} {value : Int} {n : Nat} :
    natural field value = .ok n ↔ value = n := by
  unfold natural
  split
  · rw [Except.ok.injEq]
    omega
  · simp only [reduceCtorEq, false_iff]
    omega

/-- What a stage is that comes from an entry. -/
structure StageEntry.Means (entry : StageEntry) (stage : Stage) : Prop where
  duration : entry.duration.duration? = some stage.duration
  target : entry.target = stage.target

theorem StageEntry.resolve_eq_ok {entry : StageEntry} {stage : Stage} :
    entry.resolve = .ok stage ↔ entry.Means stage := by
  simp only [resolve, bind_eq_ok, Span.resolve_eq_ok, mapError_eq_ok, natural_eq_ok,
    Except.ok.injEq]
  constructor
  · rintro ⟨duration, hduration, target, htarget, rfl⟩
    exact ⟨hduration, htarget⟩
  · rintro ⟨hduration, htarget⟩
    exact ⟨_, hduration, _, htarget, rfl⟩

theorem resolveStages_eq_ok {entries : List StageEntry} {stages : List Stage} :
    resolveStages entries = .ok stages ↔ List.Forall₂ StageEntry.Means entries stages := by
  rw [resolveStages, mapM_eq_ok]
  simp only [mapError_eq_ok, StageEntry.resolve_eq_ok]
  rw [← List.forall₂_map_left_iff (f := Prod.fst), List.zipIdx_map_fst]

/-! ## Checks -/

theorem occursIn_eq (needle text : List Char) :
    occursIn needle text = decide (needle <:+: text) := by
  rw [Bool.eq_iff_iff, decide_eq_true_eq]
  induction text with
  | nil => rw [occursIn, List.isEmpty_iff, List.infix_nil]
  | cons c text ih =>
    rw [occursIn, Bool.or_eq_true, List.isPrefixOf_iff_prefix, ih, List.infix_cons_iff]

/-- How many expectations a check has. -/
def CheckEntry.expectations (entry : CheckEntry) : Nat :=
  [entry.status?.isSome, entry.bodyContains?.isSome, entry.headerPresent?.isSome].count true

/-- The description that a check is known under: the one it is given, or else one that is
derived from its expectation. -/
def CheckEntry.label (entry : CheckEntry) : String :=
  entry.description?.getD <|
    ((entry.status?.map fun status => "is status " ++ Number.Decimal.write status) <|>
      (entry.bodyContains?.map fun needle => "body contains '" ++ needle ++ "'") <|>
      (entry.headerPresent?.map fun header => "has header '" ++ header ++ "'")).getD ""

/-- Whether a response is as a check expects it. -/
def CheckEntry.holds (entry : CheckEntry) (response : Http.Response) : Bool :=
  (entry.status?.all fun status => response.status == status) &&
  (entry.bodyContains?.all fun needle => decide (needle.toList <:+: response.text.toList)) &&
  (entry.headerPresent?.all fun header => (response.header? header).isSome)

/-- A check with one expectation is known under its label and decides whether that holds; any
other is refused. -/
theorem CheckEntry.resolve_eq (entry : CheckEntry) :
    entry.resolve =
      if entry.expectations = 1 then
        .ok ⟨entry.label, fun response => .decided (entry.holds response)⟩
      else .error .expectation := by
  obtain ⟨description?, status?, needle?, header?⟩ := entry
  cases status? <;> cases needle? <;> cases header? <;> cases description? <;>
    simp [resolve, expectations, label, holds, Check.status, Check.deciding, containsCheck,
      headerCheck, Check.withDescription, occursIn_eq, bind, Except.bind]

/-- What a check is that comes from an entry. -/
structure CheckEntry.Means (entry : CheckEntry) (check : Check) : Prop where
  single : entry.expectations = 1
  description : check.description = entry.label
  verdict : ∀ response, check.verdict response = .decided (entry.holds response)

theorem CheckEntry.resolve_eq_ok {entry : CheckEntry} {check : Check} :
    entry.resolve = .ok check ↔ entry.Means check := by
  rw [resolve_eq]
  split
  · next hsingle =>
    constructor
    · rintro ⟨⟩
      exact ⟨hsingle, rfl, fun _ => rfl⟩
    · obtain ⟨description, verdict⟩ := check
      rintro ⟨-, rfl, hverdict⟩
      obtain rfl : verdict = _ := funext hverdict
      rfl
  · next hother =>
    constructor
    · rintro ⟨⟩
    · intro h
      exact absurd h.single hother

/-! ## Groups -/

theorem lower_name_inj {m n : Http.Method} (h : Text.lower m.name = Text.lower n.name) : m = n := by
  have hall : ∀ m ∈ Http.Method.all, ∀ n ∈ Http.Method.all,
      Text.lower m.name = Text.lower n.name → m = n := by decide
  exact hall m (Http.Method.mem_all m) n (Http.Method.mem_all n) h

theorem methodOf_eq_ok {name : String} {method : Http.Method} :
    methodOf name = .ok method ↔ Text.lower method.name = Text.lower name := by
  rw [methodOf, Http.Method.parse?]
  cases hfind : Http.Method.all.find? fun m => Text.sameIgnoringCase m.name name with
  | none =>
    have hnone := List.find?_eq_none.1 hfind method (Http.Method.mem_all method)
    rw [Text.sameIgnoringCase_iff] at hnone
    simp [hnone]
  | some found =>
    have hfound := List.find?_some hfind
    rw [Text.sameIgnoringCase_iff] at hfound
    rw [Except.ok.injEq, ← hfound]
    exact ⟨fun h => h ▸ rfl, fun h => (lower_name_inj h).symm⟩

theorem expand_eq_ok {template value : String} :
    expand lookup template = .ok value ↔ Reference.expand template lookup = .ok value := by
  rw [expand, mapError_eq_ok]

/-- What a group is that comes from an entry: the references in header values are expanded, and
everything else is as it is written. -/
structure GroupEntry.Means (lookup : String → Option String) (entry : GroupEntry) (group : Group) :
    Prop where
  name : group.name = entry.name
  method : Text.lower group.method.name = Text.lower entry.method
  path : group.path = entry.path
  headers : List.Forall₂ (fun written header => header.1 = written.1 ∧
    Reference.expand written.2 lookup = .ok header.2) entry.headers group.headers
  body : group.body? = entry.body?.map Text.Utf8.encode
  checks : List.Forall₂ CheckEntry.Means entry.checks group.checks

theorem GroupEntry.resolve_eq_ok {entry : GroupEntry} {group : Group} :
    entry.resolve lookup = .ok group ↔ entry.Means lookup group := by
  have hheader {written header : String × String} :
      (∃ value, Reference.expand written.2 lookup = .ok value ∧ (written.1, value) = header) ↔
        header.1 = written.1 ∧ Reference.expand written.2 lookup = .ok header.2 := by
    constructor
    · rintro ⟨value, hvalue, rfl⟩
      exact ⟨rfl, hvalue⟩
    · rintro ⟨hname, hvalue⟩
      exact ⟨header.2, hvalue, Prod.ext hname.symm rfl⟩
  simp only [resolve, build, mapError_eq_ok, bind_eq_ok, methodOf_eq_ok, mapM_eq_ok, expand_eq_ok,
    CheckEntry.resolve_eq_ok, Except.ok.injEq, hheader]
  constructor
  · rintro ⟨method, hmethod, headers, hheaders, checks, hchecks, rfl⟩
    exact ⟨rfl, hmethod, rfl, hheaders, rfl, hchecks⟩
  · obtain ⟨name, method, path, headers, body?, checks⟩ := group
    rintro ⟨rfl, hmethod, rfl, hheaders, rfl, hchecks⟩
    exact ⟨method, hmethod, headers, hheaders, checks, hchecks, rfl⟩

/-! ## Whole configurations -/

theorem tickInterval_eq_ok {millis? : Option Nat} {d : Duration} :
    tickInterval millis? = .ok d ↔ millis? ≠ some 0 ∧
      d = (millis?.map Duration.ofMillis).getD (Duration.ofSeconds 1) := by
  cases millis? with
  | none =>
    rw [tickInterval, Option.map_none, Option.getD_none, Except.ok.injEq, Settings.default]
    exact ⟨fun h => ⟨nofun, h.symm⟩, fun h => h.2.symm⟩
  | some millis =>
    rw [tickInterval]
    by_cases hzero : millis = 0
    · subst hzero
      exact ⟨nofun, fun h => absurd rfl h.1⟩
    · rw [if_neg hzero, Except.ok.injEq, Option.map_some, Option.getD_some]
      exact ⟨fun h => ⟨fun hsome => hzero (Option.some.inj hsome), h.symm⟩, fun h => h.2.symm⟩

theorem optional_eq_ok {α β : Type} {f : α → Except ConfigError β} {a? : Option α}
    {b? : Option β} :
    optional f a? = .ok b? ↔ Option.Rel (fun a b => f a = .ok b) a? b? := by
  cases a? with
  | none => cases b? <;> simp [optional]
  | some a => cases hf : f a <;> cases b? <;> simp [optional, hf, Except.map]

/-- What a configuration comes to: its stages and its groups in order, the times that it gives, a
tick of one second and a grace period of half a minute where it gives none, and its base URL with
the references expanded. -/
structure Means (lookup : String → Option String) (c : Config) (r : Resolved) : Prop where
  stages : List.Forall₂ StageEntry.Means c.stages r.schedule.stages
  startTarget : c.startTarget = r.schedule.startTarget
  name : r.scenario.name = c.scenario.name
  groups : List.Forall₂ (GroupEntry.Means lookup) c.scenario.groups r.scenario.groups
  delay : durationOf? c.iterationDelaySeconds = some r.settings.iterationDelay
  tick : c.tickIntervalMillis? ≠ some 0 ∧ r.settings.tickInterval =
    (c.tickIntervalMillis?.map Duration.ofMillis).getD (Duration.ofSeconds 1)
  grace : ∃ grace?, Option.Rel (fun value d => durationOf? value = some d)
      c.gracePeriodSeconds? grace? ∧
    r.settings.gracePeriod = grace?.getD (Duration.ofSeconds 30)
  timeout : Option.Rel (fun value d => durationOf? value = some d)
    c.requestTimeoutSeconds? r.requestTimeout?
  baseUrl : Option.Rel (fun url expanded => Reference.expand url lookup = .ok expanded)
    c.baseUrl? r.baseUrl?

theorem resolve_eq_ok {c : Config} {r : Resolved} :
    resolve lookup c = .ok r ↔ c.Means lookup r := by
  simp only [resolve, bind_eq_ok, mapError_eq_ok, resolveStages_eq_ok, natural_eq_ok,
    scheduleOf_eq_ok, mapM_eq_ok, GroupEntry.resolve_eq_ok, scenarioOf_eq_ok, secondsOf_eq_ok,
    tickInterval_eq_ok, optional_eq_ok, expand_eq_ok, Except.ok.injEq]
  constructor
  · rintro ⟨stages, hstages, startTarget, hstart, schedule, ⟨rfl, rfl⟩, groups, hgroups, scenario,
      ⟨hname, rfl⟩, delay, hdelay, tick, htick, grace?, hgrace, timeout?, htimeout, baseUrl?,
      hbaseUrl, rfl⟩
    exact ⟨hstages, hstart, hname, hgroups, hdelay, htick, ⟨grace?, hgrace, rfl⟩, htimeout,
      hbaseUrl⟩
  · obtain ⟨baseUrl?, schedule, scenario, ⟨delay, tick, grace⟩, timeout?⟩ := r
    rintro ⟨hstages, hstart, hname, hgroups, hdelay, htick, ⟨grace?, hgrace, rfl⟩, htimeout,
      hbaseUrl⟩
    exact ⟨_, hstages, _, hstart, schedule, ⟨rfl, rfl⟩, _, hgroups, scenario, ⟨hname, rfl⟩,
      delay, hdelay, tick, htick, grace?, hgrace, timeout?, htimeout, baseUrl?, hbaseUrl, rfl⟩

/-- What the durations of the stages add up to, in nanoseconds. -/
def totalNanos (c : Config) : Nat :=
  (c.stages.map fun entry => (entry.duration.duration?.map Duration.nanos).getD 0).sum

/-- What has to be true of a configuration, one condition for everything that is checked. -/
structure Valid (lookup : String → Option String) (c : Config) : Prop where
  stages : c.stages ≠ []
  durations : ∀ entry ∈ c.stages, entry.duration.duration?.isSome
  positive : 0 < c.totalNanos
  targets : ∀ entry ∈ c.stages, 0 ≤ entry.target
  startTarget : 0 ≤ c.startTarget
  groups : c.scenario.groups ≠ []
  names : (c.scenario.groups.map GroupEntry.name).Nodup
  methods : ∀ g ∈ c.scenario.groups, ∃ m : Http.Method, Text.lower m.name = Text.lower g.method
  headers : ∀ g ∈ c.scenario.groups, ∀ header ∈ g.headers,
    (Reference.expand header.2 lookup).isOk
  checks : ∀ g ∈ c.scenario.groups, ∀ entry ∈ g.checks, entry.expectations = 1
  labels : ∀ g ∈ c.scenario.groups, (g.checks.map CheckEntry.label).Nodup
  delay : (durationOf? c.iterationDelaySeconds).isSome
  tick : c.tickIntervalMillis? ≠ some 0
  grace : ∀ value ∈ c.gracePeriodSeconds?, (durationOf? value).isSome
  timeout : ∀ value ∈ c.requestTimeoutSeconds?, (durationOf? value).isSome
  baseUrl : ∀ url ∈ c.baseUrl?, (Reference.expand url lookup).isOk

theorem exists_stage {entry : StageEntry} :
    (∃ stage, entry.Means stage) ↔ entry.duration.duration?.isSome ∧ 0 ≤ entry.target := by
  rw [Option.isSome_iff_exists]
  constructor
  · rintro ⟨stage, hduration, htarget⟩
    exact ⟨⟨_, hduration⟩, htarget ▸ Int.natCast_nonneg _⟩
  · rintro ⟨⟨duration, hduration⟩, htarget⟩
    exact ⟨⟨duration, entry.target.toNat⟩, hduration, (Int.toNat_of_nonneg htarget).symm⟩

theorem exists_group {entry : GroupEntry} :
    (∃ group, entry.Means lookup group) ↔
      (∃ m : Http.Method, Text.lower m.name = Text.lower entry.method) ∧
        (∀ header ∈ entry.headers, (Reference.expand header.2 lookup).isOk) ∧
        ∀ check ∈ entry.checks, check.expectations = 1 := by
  have hheader {written : String × String} :
      (∃ header : String × String, header.1 = written.1 ∧
        Reference.expand written.2 lookup = .ok header.2) ↔
        (Reference.expand written.2 lookup).isOk := by
    rw [isOk_iff]
    exact ⟨fun ⟨header, _, h⟩ => ⟨header.2, h⟩, fun ⟨value, h⟩ => ⟨(written.1, value), rfl, h⟩⟩
  have hcheck {check : CheckEntry} :
      (∃ c, check.Means c) ↔ check.expectations = 1 :=
    ⟨fun ⟨_, h⟩ => h.single, fun h => ⟨⟨check.label, fun r => .decided (check.holds r)⟩, h, rfl,
      fun _ => rfl⟩⟩
  simp only [← hheader, ← hcheck, ← exists_forall₂]
  constructor
  · rintro ⟨group, h⟩
    exact ⟨⟨_, h.method⟩, ⟨_, h.headers⟩, ⟨_, h.checks⟩⟩
  · rintro ⟨⟨method, hmethod⟩, ⟨headers, hheaders⟩, ⟨checks, hchecks⟩⟩
    exact ⟨⟨entry.name, method, entry.path, headers, entry.body?.map Text.Utf8.encode, checks⟩,
      rfl, hmethod, rfl, hheaders, rfl, hchecks⟩

theorem totalNanos_eq {c : Config} {stages : List Stage}
    (h : List.Forall₂ StageEntry.Means c.stages stages) :
    c.totalNanos = (stages.map fun stage => stage.duration.nanos).sum := by
  refine congrArg List.sum (map_eq_map_of_forall₂ (fun entry stage hmeans => ?_) h)
  rw [hmeans.duration]
  rfl

theorem names_eq {entries : List GroupEntry} {groups : List Group}
    (h : List.Forall₂ (GroupEntry.Means lookup) entries groups) :
    entries.map GroupEntry.name = groups.map Group.name :=
  map_eq_map_of_forall₂ (fun _ _ hmeans => hmeans.name.symm) h

/-- The descriptions of the checks are their labels. -/
theorem labels_eq {entries : List GroupEntry} {groups : List Group}
    (h : List.Forall₂ (GroupEntry.Means lookup) entries groups) :
    entries.map (fun entry => entry.checks.map CheckEntry.label) =
      groups.map Group.descriptions :=
  map_eq_map_of_forall₂ (fun _ _ hmeans =>
    map_eq_map_of_forall₂ (fun _ _ hcheck => hcheck.description.symm) hmeans.checks) h

/-- A configuration comes to something when it is valid and its durations have a sum. -/
theorem exists_means {c : Config} :
    (∃ r, c.Means lookup r) ↔ c.Valid lookup ∧ c.totalNanos < Duration.limit := by
  constructor
  · rintro ⟨r, h⟩
    have hstages := fun entry hentry =>
      exists_stage.1 (exists_forall₂.1 ⟨_, h.stages⟩ entry hentry)
    have hgroups := fun entry hentry =>
      exists_group.1 (exists_forall₂.1 ⟨_, h.groups⟩ entry hentry)
    obtain ⟨hpos, hlimit⟩ := (exists_schedule _ _).1 ⟨r.schedule, rfl, rfl⟩
    obtain ⟨hsome, hnames, hdescriptions⟩ := (exists_scenario _ _).1 ⟨r.scenario, rfl, rfl⟩
    rw [← totalNanos_eq h.stages] at hpos hlimit
    obtain ⟨grace?, hgrace, -⟩ := h.grace
    refine ⟨?_, hlimit⟩
    exact {
      stages := fun hnone => by rw [totalNanos, hnone] at hpos; exact absurd hpos (by decide)
      durations := fun entry hentry => (hstages entry hentry).1
      positive := hpos
      targets := fun entry hentry => (hstages entry hentry).2
      startTarget := h.startTarget ▸ Int.natCast_nonneg _
      groups := fun hnone => hsome (List.map_eq_nil_iff.1 (by rw [← names_eq h.groups, hnone]; rfl))
      names := names_eq h.groups ▸ hnames
      methods := fun g hg => (hgroups g hg).1
      headers := fun g hg => (hgroups g hg).2.1
      checks := fun g hg => (hgroups g hg).2.2
      labels := by
        rw [← List.forall_mem_map, labels_eq h.groups, List.forall_mem_map]
        exact hdescriptions
      delay := Option.isSome_iff_exists.2 ⟨_, h.delay⟩
      tick := h.tick.1
      grace := fun value hvalue =>
        Option.isSome_iff_exists.2 (exists_rel.1 ⟨grace?, hgrace⟩ value hvalue)
      timeout := fun value hvalue =>
        Option.isSome_iff_exists.2 (exists_rel.1 ⟨_, h.timeout⟩ value hvalue)
      baseUrl := fun url hurl => isOk_iff.2 (exists_rel.1 ⟨_, h.baseUrl⟩ url hurl) }
  · rintro ⟨h, hlimit⟩
    -- The parts come first; the schedule and the scenario can then be made of them, since what
    -- is asked of those is known from the entries (`totalNanos_eq`, `names_eq`, `labels_eq`).
    obtain ⟨stages, hstages⟩ := exists_forall₂.2 fun entry hentry =>
      exists_stage.2 ⟨h.durations entry hentry, h.targets entry hentry⟩
    obtain ⟨groups, hgroups⟩ := exists_forall₂.2 fun g hg =>
      exists_group.2 ⟨h.methods g hg, h.headers g hg, h.checks g hg⟩
    have hsum := totalNanos_eq hstages
    have hsome : groups ≠ [] := by
      rintro rfl
      exact h.groups (List.forall₂_nil_right_iff.1 hgroups)
    have hdescriptions : ∀ group ∈ groups, group.descriptions.Nodup := by
      rw [← List.forall_mem_map, ← labels_eq hgroups, List.forall_mem_map]
      exact h.labels
    obtain ⟨schedule, rfl, hstart⟩ := (exists_schedule stages c.startTarget.toNat).2
      ⟨hsum ▸ h.positive, hsum ▸ hlimit⟩
    obtain ⟨scenario, hname, rfl⟩ := (exists_scenario c.scenario.name groups).2
      ⟨hsome, names_eq hgroups ▸ h.names, hdescriptions⟩
    obtain ⟨delay, hdelay⟩ := Option.isSome_iff_exists.1 h.delay
    obtain ⟨grace?, hgrace⟩ := exists_rel.2 fun value hvalue =>
      Option.isSome_iff_exists.1 (h.grace value hvalue)
    obtain ⟨timeout?, htimeout⟩ := exists_rel.2 fun value hvalue =>
      Option.isSome_iff_exists.1 (h.timeout value hvalue)
    obtain ⟨baseUrl?, hbaseUrl⟩ := exists_rel.2 fun url hurl => isOk_iff.1 (h.baseUrl url hurl)
    exact ⟨⟨baseUrl?, schedule, scenario, ⟨delay, _, _⟩, timeout?⟩, {
      stages := hstages
      startTarget := by rw [hstart, Int.toNat_of_nonneg h.startTarget]
      name := hname
      groups := hgroups
      delay := hdelay
      tick := ⟨h.tick, rfl⟩
      grace := ⟨grace?, hgrace, rfl⟩
      timeout := htimeout
      baseUrl := hbaseUrl }⟩

/-- The headers of a group are those of its entry, in their order. -/
theorem header_names_eq {entries : List GroupEntry} {groups : List Group}
    (h : List.Forall₂ (GroupEntry.Means lookup) entries groups) :
    entries.map (fun entry => entry.headers.map Prod.fst) =
      groups.map (fun group => group.headers.map Prod.fst) :=
  map_eq_map_of_forall₂ (fun _ _ hmeans =>
    map_eq_map_of_forall₂ (fun _ _ hheader => hheader.1.symm) hmeans.headers) h

/-- Headers that are written in the order of their names stay so. -/
theorem ascending_headers {entries : List GroupEntry} {groups : List Group}
    (h : List.Forall₂ (GroupEntry.Means lookup) entries groups)
    (hentries : ∀ entry ∈ entries, Ascending textBefore entry.headers) :
    ∀ group ∈ groups, Ascending textBefore group.headers := by
  have hnames (headers : List (String × String)) : Ascending textBefore headers ↔
      (headers.map Prod.fst).Pairwise fun a b => textBefore a b = true := by
    rw [List.pairwise_map]
    rfl
  simp only [hnames] at hentries ⊢
  rw [← List.forall_mem_map] at hentries ⊢
  rwa [header_names_eq h] at hentries

/-- Exactly the valid configurations are accepted, as long as the durations of their stages have
a sum, and an accepted configuration comes to what it means.  The total of the schedule is then
the sum of the durations, and headers that are written in the order of their names stay so. -/
theorem resolve_accepts (lookup : String → Option String) (c : Config) :
    ((∃ r, resolve lookup c = .ok r) ↔ c.Valid lookup ∧ c.totalNanos < Duration.limit) ∧
    (∀ r, resolve lookup c = .ok r ↔ c.Means lookup r) ∧
    ∀ r, resolve lookup c = .ok r → r.schedule.total.nanos = c.totalNanos ∧
      ((∀ entry ∈ c.scenario.groups, Ascending textBefore entry.headers) →
        ∀ group ∈ r.scenario.groups, Ascending textBefore group.headers) := by
  refine ⟨?_, fun r => resolve_eq_ok, fun r hr => ?_⟩
  · simp only [resolve_eq_ok, exists_means]
  · have h := resolve_eq_ok.1 hr
    have htotal := Duration.sum?_eq_some.1 r.schedule.total_eq
    rw [List.map_map] at htotal
    exact ⟨htotal.symm.trans (totalNanos_eq h.stages).symm, ascending_headers h.groups⟩

/-- A configuration of each kind of part: a given and a derived description, a number and a phrase
for durations, and references in a header, in the base URL and in a body. -/
theorem resolve_accepts_references :
    let lookup := fun name => if name = "T" then some "$\x7bT\x7d" else none
    let c : Config := {
      baseUrl? := some "http://a/$\x7bT\x7d"
      stages := [⟨.phrase "1m 30s", 100⟩, ⟨.seconds (.finite false 30), 0⟩]
      startTarget := 5
      gracePeriodSeconds? := some (.finite false (1 / 2))
      scenario := ⟨"s", [
        { name := "g", method := "post", path := "/$\x7bT\x7d", body? := some "$\x7bT",
          headers := [("Authorization", "Bearer $\x7bT\x7d")],
          checks := [{ status? := some 200 },
            { description? := some "is status 201", bodyContains? := some "x" }] }]⟩ }
    ∃ r, resolve lookup c = .ok r ∧ c.Means lookup r ∧ r.schedule.total.nanos = 120000000000 ∧
      ∀ group ∈ r.scenario.groups, Ascending textBefore group.headers := by
  intro lookup c
  have hall := resolve_accepts lookup c
  have htotal : c.totalNanos = 120000000000 := by decide +kernel
  have hvalid : c.Valid lookup := {
    stages := List.cons_ne_nil _ _
    durations := by decide +kernel
    positive := htotal ▸ by decide
    targets := by decide
    startTarget := by decide
    groups := List.cons_ne_nil _ _
    names := by decide
    methods := fun g hg => ⟨.post, by rw [List.mem_singleton.1 hg]; decide⟩
    headers := by decide +kernel
    checks := by decide
    labels := by decide +kernel
    delay := by decide +kernel
    tick := nofun
    grace := by decide +kernel
    timeout := nofun
    baseUrl := by decide +kernel }
  obtain ⟨r, hr⟩ := hall.1.2 ⟨hvalid, htotal ▸ by decide⟩
  have hascending : ∀ entry ∈ c.scenario.groups, Ascending textBefore entry.headers := by
    intro entry hentry
    rw [List.mem_singleton.1 hentry]
    exact List.pairwise_singleton _ _
  exact ⟨r, hr, (hall.2.1 r).1 hr, htotal ▸ (hall.2.2 r hr).1, (hall.2.2 r hr).2 hascending⟩

end Config
end LoadRamp
