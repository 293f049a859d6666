import LoadRamp.Proofs.Chronicle
import LoadRamp.Proofs.Table
import Mathlib.Data.List.Nodup

/-!
# Conservation of check outcomes

An iteration that is committed hands in one outcome for every check of the
scenario, whatever the replies were, and a ledger has what was handed in and
nothing else.

* `Fits` says of an iteration under way that its outcomes so far are those of the
  groups before the one it waits for.
* `Checked` is the invariant of runs: every iteration under way fits, every tally
  handed in is that of some replies to all groups, and the ledger counts exactly
  the outcomes of those tallies.
* `checks_conserved` reads it off the report.  A discarded iteration hands nothing
  in, so its outcomes cannot count.
-/

namespace LoadRamp

/-- The outcomes that are handed in. -/
def Happening.handed? : Happening → Option Tally
  | .commits _ tally => some tally
  | _ => none

namespace Scenario

variable (s : Scenario)

/-- The outcomes of some groups on the replies to their requests. -/
def outcomesOf (groups : List Group) (replies : List Http.Reply) : List (CheckKey × Outcome) :=
  (groups.zip replies).flatMap fun e => s.outcomes e.1 e.2

/-- The keys of the outcomes of some groups. -/
def keysOf (groups : List Group) : List CheckKey :=
  groups.flatMap fun g => g.checks.map (s.key g)

theorem outcomes_extendTally (tally : Tally) (group : Group) (reply : Http.Reply) :
    (s.extendTally tally group reply).outcomes = tally.outcomes ++ s.outcomes group reply := by
  have hfold (entries : List (CheckKey × Outcome)) (tally : Tally) :
      (entries.foldl (fun t entry => t.record entry.1 entry.2) tally).outcomes =
        tally.outcomes ++ entries := by
    induction entries generalizing tally with
    | nil => simp
    | cons entry rest ih =>
      rw [List.foldl_cons, ih]
      simp [Tally.record]
  cases reply with
  | ok response => exact hfold _ _
  | error error => exact hfold _ _

/-- A reply, a transport error included, gives one outcome to each check of its group. -/
theorem keys_outcomes (group : Group) (reply : Http.Reply) :
    (s.outcomes group reply).map Prod.fst = group.checks.map (s.key group) := by
  simp [outcomes]

theorem keys_outcomesOf {groups : List Group} {replies : List Http.Reply}
    (hlength : replies.length = groups.length) :
    (s.outcomesOf groups replies).map Prod.fst = s.keysOf groups := by
  induction groups generalizing replies with
  | nil => rfl
  | cons group rest ih =>
    obtain ⟨reply, later, rfl⟩ := List.exists_cons_of_length_eq_add_one hlength
    have hlater : (s.outcomesOf rest later).map Prod.fst = s.keysOf rest :=
      ih (Nat.succ.inj hlength)
    show ((s.outcomes group reply) ++ s.outcomesOf rest later).map Prod.fst =
      group.checks.map (s.key group) ++ s.keysOf rest
    rw [List.map_append, hlater, keys_outcomes]

theorem outcomesOf_concat {groups : List Group} {replies : List Http.Reply}
    (hlength : replies.length = groups.length) (group : Group) (reply : Http.Reply) :
    s.outcomesOf (groups ++ [group]) (replies ++ [reply]) =
      s.outcomesOf groups replies ++ s.outcomes group reply := by
  unfold outcomesOf
  rw [List.zip_append hlength.symm, List.flatMap_append]
  simp

theorem length_keys : s.keys.length = s.checksPerIteration := by
  have hfold (groups : List Group) (sum : Nat) :
      groups.foldl (fun sum g => sum + g.checks.length) sum =
        sum + (s.keysOf groups).length := by
    induction groups generalizing sum with
    | nil => rfl
    | cons g rest ih =>
      rw [List.foldl_cons, ih]
      simp [keysOf]
      omega
  unfold checksPerIteration
  rw [hfold, Nat.zero_add]
  rfl

theorem scenario_of_mem_keys {key : CheckKey} (h : key ∈ s.keys) : key.scenario = s.name := by
  obtain ⟨group, _, hgroup⟩ := List.mem_flatMap.1 h
  obtain ⟨check, _, rfl⟩ := List.mem_map.1 hgroup
  rfl

/-- In a scenario a group and a description name one check. -/
theorem nodup_keys : s.keys.Nodup := by
  have hgroups := s.names_nodup
  have hchecks := s.descriptions_nodup
  unfold keys
  generalize s.groups = groups at hgroups hchecks
  induction groups with
  | nil => exact .nil
  | cons g rest ih =>
    obtain ⟨hname, hrest⟩ := List.nodup_cons.1 hgroups
    rw [List.flatMap_cons, List.nodup_append]
    refine ⟨?_, ih hrest fun other hother => hchecks other (List.mem_cons_of_mem _ hother), ?_⟩
    · have hdescriptions := hchecks g List.mem_cons_self
      rw [Group.descriptions, List.Nodup, List.pairwise_map] at hdescriptions
      rw [List.Nodup, List.pairwise_map]
      refine hdescriptions.imp fun hne hkey => hne ?_
      exact congrArg CheckKey.check hkey
    · -- Keys of different groups differ in the name of the group.
      intro a ha b hb hab
      obtain ⟨check, _, rfl⟩ := List.mem_map.1 ha
      obtain ⟨other, hother, hb⟩ := List.mem_flatMap.1 hb
      obtain ⟨check', _, rfl⟩ := List.mem_map.1 hb
      have hgroup : g.name = other.name := congrArg CheckKey.group hab
      exact hname (hgroup ▸ List.mem_map_of_mem hother)

end Scenario

/-- Whether an iteration under way has the outcomes of the groups before the one it waits
for. -/
def Iteration.Fits (s : Scenario) (it : Iteration) : Prop :=
  ∃ (done : List Group) (replies : List Http.Reply),
    s.groups = done ++ it.group :: it.later ∧ replies.length = done.length ∧
      it.tally.outcomes = s.outcomesOf done replies

/-- Whether a tally is that of some replies to all groups of a scenario. -/
def Tally.IsOf (s : Scenario) (tally : Tally) : Prop :=
  ∃ replies : List Http.Reply,
    replies.length = s.groups.length ∧ tally.outcomes = s.outcomesOf s.groups replies

theorem Tally.IsOf.keys_eq {s : Scenario} {tally : Tally} (h : tally.IsOf s) :
    tally.outcomes.map Prod.fst = s.keys := by
  obtain ⟨replies, hlength, houtcomes⟩ := h
  rw [houtcomes, s.keys_outcomesOf hlength]
  rfl

namespace Ledger

/-- What a ledger has counted about checks: a row for each, and how many outcomes passed and
failed. -/
def checkTotals (l : Ledger) : List (CheckKey × CheckCount) × Nat × Nat :=
  (l.checks, l.checksPassed, l.checksFailed)

/-- What there is to count about some outcomes. -/
def totalsOf (outcomes : List (CheckKey × Outcome)) :
    List (CheckKey × CheckCount) × Nat × Nat :=
  (outcomes.foldl addOutcome [], outcomes.countP (·.2.isPassed),
    outcomes.countP fun entry => !entry.2.isPassed)

theorem checkTotals_record (l : Ledger) (timing : Timing) :
    (l.record timing).checkTotals = l.checkTotals := by
  unfold record
  split <;> rfl

/-- A commit adds the outcomes of its tally, and they are counted one by one. -/
theorem checkTotals_commit {l : Ledger} {outcomes : List (CheckKey × Outcome)}
    (htotals : l.checkTotals = totalsOf outcomes) (hopen : l.closed = false) (tally : Tally) :
    (l.commit tally).checkTotals = totalsOf (outcomes ++ tally.outcomes) := by
  simp only [checkTotals, totalsOf, Prod.mk.injEq] at htotals
  obtain ⟨hchecks, hpassed, hfailed⟩ := htotals
  simp only [commit, hopen, Bool.false_eq_true, if_false, checkTotals, totalsOf,
    List.foldl_append, List.countP_append, hchecks, hpassed, hfailed, Tally.passedCount,
    Tally.failedCount]

end Ledger

namespace User

/-- Whether the iteration of a user, if it has one, fits a scenario. -/
def Fits (s : Scenario) (u : User) : Prop := ∀ it, u.phase = .busy it → it.Fits s

section Checked

variable {w : Workload} {u : User} {scene : Scene} {outcome : Scene × User}

theorem Sent.fits {group : Group} {later : List Group} {tally : Tally}
    (h : Sent w u group later tally scene outcome) (done : List Group)
    (replies : List Http.Reply) (hgroups : w.scenario.groups = done ++ group :: later)
    (hlength : replies.length = done.length)
    (houtcomes : tally.outcomes = w.scenario.outcomesOf done replies) :
    outcome.2.Fits w.scenario := by
  intro it hit
  cases h with
  | waits =>
    obtain rfl := User.Phase.busy.inj hit
    exact ⟨done, replies, hgroups, hlength, houtcomes⟩
  | breaks => cases hit

theorem handed_received {user : String} {it : Iteration} {reply : Http.Reply} :
    (it.received w user scene reply).pick Happening.handed? =
      scene.pick Happening.handed? :=
  pick_received (fun _ _ => rfl) (fun _ _ => rfl) fun _ _ => rfl

theorem Sent.handed {group : Group} {later : List Group} {tally : Tally}
    (h : Sent w u group later tally scene outcome) :
    outcome.1.pick Happening.handed? = scene.pick Happening.handed? := by
  have hsends : (scene.note (.sends u.name (group.request w.baseUrl))).pick Happening.handed? =
      scene.pick Happening.handed? := (Scene.pick_note _ _ _).trans (List.append_nil _)
  cases h with
  | waits => exact hsends
  | breaks => exact ((Scene.pick_note _ _ _).trans (List.append_nil _)).trans hsends

/-- Only a user in the middle of an iteration has one that may not fit. -/
theorem fits_of_not_busy {s : Scenario} {u : User} (hidle : ∀ it, u.phase ≠ .busy it) :
    u.Fits s := fun it hit => absurd hit (hidle it)

/-- What a deed hands in: nothing, or the tally of an iteration that has all its replies. -/
inductive Hands (s : Scenario) (before after : Scene) : Prop
  | nothing (hhanded : after.pick Happening.handed? = before.pick Happening.handed?)
      (htotals : after.ledger.checkTotals = before.ledger.checkTotals)
  | one (tally : Tally) (hof : tally.IsOf s)
      (hhanded : after.pick Happening.handed? = before.pick Happening.handed? ++ [tally])
      (htotals : before.ledger.closed = false → ∀ outcomes,
        before.ledger.checkTotals = Ledger.totalsOf outcomes →
          after.ledger.checkTotals = Ledger.totalsOf (outcomes ++ tally.outcomes))

/-- A user whose iteration fits goes on with one that fits, and hands in what fits. -/
theorem Deed.checked (h : Deed w (scene, u) outcome) (hfits : u.Fits w.scenario) :
    outcome.2.Fits w.scenario ∧ Hands w.scenario scene outcome.1 := by
  have hrecord (it : Iteration) (reply : Http.Reply) :
      (it.received w u.name scene reply).ledger.checkTotals = scene.ledger.checkTotals := by
    rw [ledger_received]
    exact Ledger.checkTotals_record _ _
  cases h with
  | begin hphase => exact ⟨hfits, .nothing (Scene.pick_note_none _ rfl) rfl⟩
  | leave hfree htold =>
    refine ⟨fits_of_not_busy ?_, .nothing (Scene.pick_note_none _ rfl) rfl⟩
    intro it hit
    cases hit
  | start hfree htold hgroups hsent =>
    refine ⟨hsent.fits [] [] hgroups rfl rfl, .nothing ?_ ?_⟩
    · exact hsent.handed.trans (Scene.pick_note_none _ rfl)
    · rw [hsent.ledger_eq]
      rfl
  | @advance _ _ it time reply group later _ hbusy harrival hdue hlater hsent =>
    obtain ⟨done, replies, hgroups, hlength, houtcomes⟩ := hfits it hbusy
    refine ⟨?_, .nothing (hsent.handed.trans handed_received) ?_⟩
    · -- The group whose reply has come is done now.
      refine hsent.fits (done ++ [it.group]) (replies ++ [reply]) ?_ ?_ ?_
      · rw [hgroups, hlater, List.append_cons]
      · simp [hlength]
      · rw [Scenario.outcomes_extendTally, houtcomes, Scenario.outcomesOf_concat _ hlength]
    · rw [hsent.ledger_eq, hrecord]
  | @commit _ _ it time reply hbusy harrival hdue hlater =>
    obtain ⟨done, replies, hgroups, hlength, houtcomes⟩ := hfits it hbusy
    refine ⟨fits_of_not_busy ?_, .one (w.scenario.extendTally it.tally it.group reply)
      ⟨replies ++ [reply], ?_, ?_⟩ ?_ ?_⟩
    · intro it hit
      cases hit
    · rw [hgroups, hlater]
      simp [hlength]
    · rw [Scenario.outcomes_extendTally, houtcomes, hgroups, hlater,
        Scenario.outcomesOf_concat _ hlength]
    · rw [Scene.pick_note, Scene.pick_of_history _ (Scene.history_commit _ _), handed_received]
      rfl
    · intro hopen outcomes htotals
      rw [Scene.ledger_note, Scene.ledger_commit]
      refine Ledger.checkTotals_commit ((hrecord it reply).trans htotals) ?_ _
      rw [ledger_received]
      exact (Ledger.closed_record _ _).trans hopen
  | overflow hbusy harrival hdue hover =>
    refine ⟨fits_of_not_busy ?_, .nothing ?_ (Ledger.checkTotals_record _ _)⟩
    · intro it hit
      cases hit
    · exact (Scene.pick_note_none _ rfl).trans (pick_timed fun _ _ => rfl)
  | crash hbusy harrival hdue =>
    refine ⟨fits_of_not_busy ?_, .nothing (Scene.pick_note_none _ rfl) rfl⟩
    intro it hit
    cases hit
  | queue => exact ⟨hfits, .nothing (Scene.pick_of_history _ rfl) rfl⟩

end Checked

/-- An abort leaves no iteration under way, and one that comes too late changes nothing. -/
theorem fits_abort {s : Scenario} {u : User} (hfits : u.Fits s) (scene : Scene) :
    (u.abort scene).2.Fits s := by
  intro it hit
  unfold abort at hit
  split at hit
  · exact hfits it hit
  · cases hit
  · cases hit
  · cases hit

end User

namespace Run

/-- Iterations fit the scenario, so do the tallies handed in, and the ledger has counted
their outcomes. -/
structure Checked (s : Scenario) (r : Run) : Prop where
  fits : ∀ u ∈ r.users, u.Fits s
  handed : ∀ tally ∈ r.scene.pick Happening.handed?, tally.IsOf s
  totals_eq : r.scene.ledger.checkTotals =
    Ledger.totalsOf ((r.scene.pick Happening.handed?).flatMap Tally.outcomes)

variable {s : Scenario}

theorem checked_quiet {r r' : Run} (h : Checked s r) (hfits : ∀ u ∈ r'.users, u.Fits s)
    (hhanded : r'.scene.pick Happening.handed? = r.scene.pick Happening.handed?)
    (htotals : r'.scene.ledger.checkTotals = r.scene.ledger.checkTotals) : Checked s r' where
  fits := hfits
  handed := by
    rw [hhanded]
    exact h.handed
  totals_eq := by
    rw [htotals, hhanded]
    exact h.totals_eq

theorem fits_set {r : Run} (h : Checked s r) {user : Nat} {u : User} (hfits : u.Fits s) :
    ∀ v ∈ r.users.set user u, v.Fits s := forall_mem_set h.fits user hfits

theorem checked_deed {p : Plan} {r : Run} (hroster : Roster r) (hseal : Seal r)
    (h : Checked p.scenario r) {user : Nat} {u : User} {outcome : Scene × User}
    (hu : r.users[user]? = some u) (hdeed : User.Deed p.workload (r.scene, u) outcome) :
    Checked p.scenario (r.update user outcome) := by
  have hfits := h.fits u (List.mem_of_getElem? hu)
  obtain ⟨hafter, hhands⟩ := hdeed.checked hfits
  cases hhands with
  | nothing hhanded htotals => exact checked_quiet h (fits_set h hafter) hhanded htotals
  | one tally hof hhanded htotals =>
    have hgoing : r.lifecycle ≠ .complete := by
      -- In a complete run the user has ended and would have handed nothing in.
      intro hcomplete
      have hended := isEnded_of_complete hroster hseal hcomplete hu
      have hsame := Scene.pick_of_history Happening.handed? (hdeed.of_ended hended).1
      have hlength := congrArg List.length (hhanded.symm.trans hsame)
      simp at hlength
    refine ⟨fits_set h hafter, ?_, ?_⟩
    · intro other hother
      rw [update, hhanded] at hother
      rcases List.mem_append.1 hother with hother | hnew
      · exact h.handed other hother
      · rw [List.mem_singleton.1 hnew]
        exact hof
    · rw [update, hhanded, List.flatMap_append, List.flatMap_singleton]
      exact htotals (hseal.ledger_open hgoing) _ h.totals_eq

theorem checkTotals_settled (p : Plan) (scene : Scene) (u : User) (ending : Ending) :
    (settled p scene u ending).ledger.checkTotals = scene.ledger.checkTotals := by
  rw [ledger_settled]
  split <;> rfl

/-- No move but a commit changes what is counted about checks. -/
theorem checked_move {p : Plan} {r r' : Run} (hroster : Roster r) (hseal : Seal r)
    (hmove : Move p r r') (h : Checked p.scenario r) : Checked p.scenario r' := by
  cases hmove with
  | deed hu hdeed => exact checked_deed hroster hseal h hu hdeed
  | @land user u haborting hu =>
    have hfits := h.fits u (List.mem_of_getElem? hu)
    refine checked_quiet h (fits_set h (User.fits_abort hfits _)) ?_
      (by rw [update, User.ledger_abort])
    show (u.abort r.scene).1.pick Happening.handed? = _
    unfold User.abort
    split
    · rfl
    · exact Scene.pick_note_none _ rfl
    · exact Scene.pick_note_none _ rfl
    · exact Scene.pick_note_none _ rfl
  | lose => exact checked_quiet h h.fits (Scene.pick_note_none _ rfl) rfl
  | joinStopping =>
    exact checked_quiet h h.fits (pick_settled_none _ rfl) (checkTotals_settled _ _ _ _)
  | joinAborting =>
    exact checked_quiet h h.fits (pick_settled_none _ rfl) (checkTotals_settled _ _ _ _)
  | expire => exact checked_quiet h h.fits rfl rfl
  | spawn =>
    refine checked_quiet h ?_ rfl rfl
    intro u hu
    rcases List.mem_append.1 hu with hu | hnew
    · exact h.fits u hu
    · rw [List.mem_singleton.1 hnew]
      exact User.fits_of_not_busy fun _ hit => by cases hit
  | @tell front back user hactive =>
    have hmem : user ∈ r.active := by simp [hactive]
    obtain ⟨u, hu⟩ := hroster.exists_of_active hmem
    have hfits := h.fits u (List.mem_of_getElem? hu)
    rw [tellIn_eq hu]
    refine checked_quiet h (fits_set h ?_) (pick_tell_none _ rfl) ?_
    · intro it hit
      rw [User.phase_tell] at hit
      exact hfits it hit
    · dsimp only
      rw [User.ledger_tell]
  | tick => exact checked_quiet h h.fits (Scene.pick_note_none _ rfl) rfl
  | gauge => exact checked_quiet h h.fits rfl rfl
  | @remark what hgoing hremark =>
    have hnone : what.handed? = none := by
      cases what <;> first | rfl | cases hremark
    exact checked_quiet h h.fits (Scene.pick_note_none _ hnone) rfl
  | wait => exact checked_quiet h h.fits rfl rfl
  | adjust => exact checked_quiet h h.fits rfl rfl
  | breakDown => exact checked_quiet h h.fits rfl rfl
  | drain => exact checked_quiet h h.fits (Scene.pick_note_none _ rfl) rfl
  | finish hdraining hactive hstopping haborting =>
    rw [finish_eq hdraining]
    exact checked_quiet h h.fits (Scene.pick_note_none _ rfl) rfl

theorem checked_start (s : Scenario) : Checked s start where
  fits := by
    intro u hu
    cases hu
  handed := by
    intro tally htally
    cases htally
  totals_eq := rfl

theorem checked_of_reaches {p : Plan} {r : Run} (hr : Reaches p r) : Checked p.scenario r :=
  hr.keeps (checked_start p.scenario)
    fun _ _ hbefore hmove =>
      checked_move (roster_of_reaches hbefore) (seal_of_reaches hbefore) hmove

end Run

/-! ## Reading the report -/

theorem Ledger.rowKeys_report (l : Ledger) :
    l.report.checks.map CheckRow.key = l.checks.map Prod.fst := by
  show (l.checks.map _).map CheckRow.key = _
  rw [List.map_map]
  rfl

namespace Report

variable {report : Report} {scenario group check : String} {row : CheckRow}

/-- The row that is found has the group and the description that were asked for. -/
theorem key_of_check? (hscenario : ∀ row ∈ report.checks, row.key.scenario = scenario)
    (h : report.check? group check = some row) :
    row ∈ report.checks ∧ row.key = ⟨scenario, group, check⟩ := by
  have hmem := List.mem_of_find?_eq_some h
  have hparts := List.find?_some h
  simp only [Bool.and_eq_true, beq_iff_eq] at hparts
  refine ⟨hmem, ?_⟩
  rw [← hscenario row hmem, ← hparts.1, ← hparts.2]

/-- When all rows are of one scenario and no two have the same key, the group and the
description of a check find its row. -/
theorem check?_eq_some_iff (hscenario : ∀ row ∈ report.checks, row.key.scenario = scenario)
    (hnodup : (report.checks.map CheckRow.key).Nodup) :
    report.check? group check = some row ↔
      row ∈ report.checks ∧ row.key = ⟨scenario, group, check⟩ := by
  constructor
  · exact key_of_check? hscenario
  · rintro ⟨hmem, hkey⟩
    have hfound : (report.check? group check).isSome = true := by
      rw [check?, List.find?_isSome]
      exact ⟨row, hmem, by simp [hkey]⟩
    obtain ⟨other, hother⟩ := Option.isSome_iff_exists.1 hfound
    obtain ⟨hotherMem, hotherKey⟩ := key_of_check? hscenario hother
    rw [hother, List.inj_on_of_nodup_map hnodup hotherMem hmem (hotherKey.trans hkey.symm)]

theorem isSome_failureText? : report.failureText?.isSome = true ↔ 0 < report.checksFailed := by
  unfold failureText? hasFailures
  by_cases hpos : 0 < report.checksFailed <;> simp [hpos]

end Report

section Rows

variable {keys : List CheckKey} {handed : List Tally}

/-- Every key occurs once for each tally. -/
theorem count_handed (hkeys : ∀ tally ∈ handed, tally.outcomes.map Prod.fst = keys)
    (key : CheckKey) :
    ((handed.flatMap Tally.outcomes).map Prod.fst).count key =
      handed.length * keys.count key := by
  induction handed with
  | nil => simp
  | cons tally rest ih =>
    have hrest := ih fun other hother => hkeys other (List.mem_cons_of_mem _ hother)
    rw [List.flatMap_cons, List.map_append, List.count_append, hrest,
      hkeys tally List.mem_cons_self, List.length_cons, Nat.succ_mul, Nat.add_comm]

theorem length_handed (hkeys : ∀ tally ∈ handed, tally.outcomes.map Prod.fst = keys) :
    (handed.flatMap Tally.outcomes).length = handed.length * keys.length := by
  induction handed with
  | nil => simp
  | cons tally rest ih =>
    have hrest := ih fun other hother => hkeys other (List.mem_cons_of_mem _ hother)
    have hfirst := congrArg List.length (hkeys tally List.mem_cons_self)
    rw [List.length_map] at hfirst
    rw [List.flatMap_cons, List.length_append, hrest, hfirst, List.length_cons, Nat.succ_mul,
      Nat.add_comm]

theorem countP_passed_add_failed (outcomes : List (CheckKey × Outcome)) :
    outcomes.countP (·.2.isPassed) + outcomes.countP (fun entry => !entry.2.isPassed) =
      outcomes.length := by
  have hnot : (fun entry : CheckKey × Outcome => !entry.2.isPassed) =
      fun entry => decide ¬ entry.2.isPassed = true := by
    funext entry
    cases entry.2.isPassed <;> rfl
  rw [List.length_eq_countP_add_countP (fun entry => entry.2.isPassed), hnot]

/-- The outcomes under a key are those that passed and those that failed. -/
theorem countP_key (outcomes : List (CheckKey × Outcome)) (key : CheckKey) :
    outcomes.countP (fun entry => entry.1 = key && entry.2.isPassed) +
        outcomes.countP (fun entry => entry.1 = key && !entry.2.isPassed) =
      (outcomes.map Prod.fst).count key := by
  induction outcomes with
  | nil => rfl
  | cons entry rest ih =>
    rw [List.map_cons, List.count_cons, List.countP_cons, List.countP_cons, ← ih]
    by_cases hkey : entry.1 = key
    · cases entry.2.isPassed <;> simp [hkey] <;> omega
    · simp [hkey]

variable (hkeys : ∀ tally ∈ handed, tally.outcomes.map Prod.fst = keys) (hnodup : keys.Nodup)

include hkeys hnodup

/-- What is found in the table of the outcomes handed in: a count of all of them for each key,
once there is a tally. -/
theorem find?_handed {key : CheckKey} {count : CheckCount} :
    Ordered.find? key ((handed.flatMap Tally.outcomes).foldl Ledger.addOutcome []) = some count →
      key ∈ keys ∧ count.passed + count.failed = handed.length ∧
        count.failed = (handed.flatMap Tally.outcomes).countP
          (fun entry => entry.1 = key && !entry.2.isPassed) := by
  intro hfind
  obtain ⟨habsent, hpresent⟩ := Ledger.find?_ofOutcomes (handed.flatMap Tally.outcomes) key
  have hcount := count_handed hkeys key
  by_cases hmem : key ∈ (handed.flatMap Tally.outcomes).map Prod.fst
  · obtain ⟨other, hother, hpassed, hfailed⟩ := hpresent hmem
    obtain rfl := Option.some.inj (hfind.symm.trans hother)
    have hpos := List.count_pos_iff.2 hmem
    rw [hcount] at hpos
    have hkey : key ∈ keys := List.count_pos_iff.1 (Nat.pos_of_mul_pos_left hpos)
    refine ⟨hkey, ?_, hfailed⟩
    rw [hpassed, hfailed, countP_key, hcount, hnodup.count, if_pos hkey, Nat.mul_one]
  · rw [habsent hmem] at hfind
    cases hfind

/-- Once there is a tally, the keys of the table are the keys of the scenario. -/
theorem keys_handed (hsome : 0 < handed.length) :
    (((handed.flatMap Tally.outcomes).foldl Ledger.addOutcome []).map Prod.fst).Perm keys := by
  have hascending := Ledger.ascending_addOutcomes .nil (handed.flatMap Tally.outcomes)
  rw [List.perm_ext_iff_of_nodup (hascending.nodup_keys CheckKey.strict_before) hnodup]
  intro key
  obtain ⟨habsent, hpresent⟩ := Ledger.find?_ofOutcomes (handed.flatMap Tally.outcomes) key
  have hcount := count_handed hkeys key
  constructor
  · intro hmem
    -- A key of the table has a count, and only keys that were handed in have one.
    have hfound : Ordered.find? key
        ((handed.flatMap Tally.outcomes).foldl Ledger.addOutcome []) ≠ none :=
      fun hnone => Ordered.find?_eq_none.1 hnone hmem
    obtain ⟨count, hsomeCount⟩ := Option.ne_none_iff_exists'.1 hfound
    exact (find?_handed hkeys hnodup hsomeCount).1
  · intro hkey
    have hpos : 0 < ((handed.flatMap Tally.outcomes).map Prod.fst).count key := by
      rw [hcount, hnodup.count, if_pos hkey, Nat.mul_one]
      exact hsome
    obtain ⟨count, hfind, _⟩ := hpresent (List.count_pos_iff.1 hpos)
    by_contra habsentKey
    rw [Ordered.find?_eq_none.2 habsentKey] at hfind
    cases hfind

/-- A row of the report is an entry of the table, and what is found there at its key. -/
theorem row_of_mem {l : Ledger}
    (hchecks : l.checks = (handed.flatMap Tally.outcomes).foldl Ledger.addOutcome [])
    {row : CheckRow} (hmem : row ∈ l.report.checks) :
    row.key ∈ keys ∧ row.passed + row.failed = handed.length ∧
      row.failed = (handed.flatMap Tally.outcomes).countP
        fun entry => entry.1 = row.key && !entry.2.isPassed := by
  have hascending := Ledger.ascending_addOutcomes .nil (handed.flatMap Tally.outcomes)
  obtain ⟨⟨key, count⟩, hentry, rfl⟩ := List.mem_map.1 hmem
  rw [hchecks] at hentry
  obtain ⟨hkey, hsum, hfailures⟩ := find?_handed hkeys hnodup
    ((hascending.mem_iff_find? CheckKey.strict_before).1 hentry)
  exact ⟨hkey, hsum, hfailures⟩

end Rows

namespace Run

/-- The iterations that are marked as committed are those that handed a tally in. -/
theorem marked_committed (scene : Scene) (failed : Bool) :
    scene.marked (.meets (.committed failed)) =
      (scene.pick Happening.handed?).countP (·.failed == failed) := by
  unfold Scene.marked Scene.pick
  rw [List.map_reverse, List.count_reverse, List.countP_reverse]
  have hskip (mark : Mark) (hmark : mark ≠ .meets (.committed failed)) (marks : List Mark) :
      (mark :: marks).count (.meets (.committed failed)) =
        marks.count (.meets (.committed failed)) := List.count_cons_of_ne hmark
  induction scene.history with
  | nil => rfl
  | cons entry rest ih =>
    rw [List.filterMap_cons, List.filterMap_cons]
    cases entry.what with
    | commits user tally =>
      have hmark : (Happening.commits user tally).mark? =
          some (user, .meets (.committed tally.failed)) := rfl
      have hhanded : (Happening.commits user tally).handed? = some tally := rfl
      rw [hmark, hhanded]
      dsimp only
      rw [List.map_cons, List.count_cons, List.countP_cons, ih]
      cases tally.failed <;> cases failed <;> rfl
    | opens user => exact (hskip .opens nofun _).trans ih
    | breaks user message? => exact (hskip (.meets .broken) nofun _).trans ih
    | aborts user midway =>
      cases midway with
      | true => exact (hskip (.meets .discarded) nofun _).trans ih
      | false => exact ih
    | _ => exact ih

/-- The iterations that are counted are those that handed a tally in. -/
theorem completed_add_failed {r : Run} (h : Seal r) :
    r.scene.ledger.completed + r.scene.ledger.failed =
      (r.scene.pick Happening.handed?).length := by
  rw [h.completed_eq, h.failed_eq, marked_committed, marked_committed,
    List.length_eq_countP_add_countP (fun tally : Tally => tally.failed == false)]
  congr 2
  funext tally
  cases tally.failed <;> rfl

/-- No outcome is lost or counted twice.  The tallies handed in are as many as the iterations
reported, and each has one outcome for every check: that of the check on a reply, or a failure
when the request failed.  All outcomes of these tallies are in the totals of the report; once
there is one, each check of the scenario has one row and nothing else has; each row adds up to
the number of iterations and has the failures of its check; a row is found by its group and
its description; and the checks count as failed exactly when one of those outcomes is a
failure. -/
theorem checks_conserved (p : Plan) (acts : List Act) :
    let r := performAll p start acts
    let report := r.scene.ledger.report
    let handed := r.scene.pick Happening.handed?
    let count := report.completed + report.failed
    count = handed.length ∧
      (∀ tally ∈ handed, tally.IsOf p.scenario ∧ tally.outcomes.map Prod.fst = p.scenario.keys) ∧
      report.checksPassed + report.checksFailed = count * p.scenario.checksPerIteration ∧
      (count = 0 → report.checks = []) ∧
      (0 < count → (report.checks.map CheckRow.key).Perm p.scenario.keys) ∧
      p.scenario.keys.Nodup ∧
      (∀ row ∈ report.checks, row.passed + row.failed = count ∧
        row.failed = (handed.flatMap Tally.outcomes).countP
          fun entry => entry.1 = row.key && !entry.2.isPassed) ∧
      (∀ group check row, report.check? group check = some row ↔
        row ∈ report.checks ∧ row.key = ⟨p.scenario.name, group, check⟩) ∧
      (report.failureText?.isSome = true ↔
        ∃ tally ∈ handed, ∃ entry ∈ tally.outcomes, entry.2.isPassed = false) := by
  intro r report handed count
  have hr : Reaches p r := performAll_reaches p acts
  have hchecked := checked_of_reaches hr
  have hkeys : ∀ tally ∈ handed, tally.outcomes.map Prod.fst = p.scenario.keys :=
    fun tally htally => (hchecked.handed tally htally).keys_eq
  have hnodup := p.scenario.nodup_keys
  have htotals : r.scene.ledger.checkTotals =
      Ledger.totalsOf (handed.flatMap Tally.outcomes) := hchecked.totals_eq
  simp only [Ledger.checkTotals, Ledger.totalsOf, Prod.mk.injEq] at htotals
  obtain ⟨hchecks, hpassed, hfailed⟩ := htotals
  have hcount : count = handed.length := completed_add_failed (seal_of_reaches hr)
  have hrowKeys := r.scene.ledger.rowKeys_report
  have hrow (row : CheckRow) (hmem : row ∈ report.checks) := row_of_mem hkeys hnodup hchecks hmem
  rw [hcount]
  refine ⟨rfl, fun tally htally => ⟨hchecked.handed tally htally, hkeys tally htally⟩, ?_, ?_, ?_,
    hnodup, fun row hmem => (hrow row hmem).2, ?_, ?_⟩
  · show r.scene.ledger.checksPassed + r.scene.ledger.checksFailed = _
    rw [hpassed, hfailed, ← Scenario.length_keys, ← length_handed hkeys]
    exact countP_passed_add_failed _
  · intro hzero
    rw [List.eq_nil_of_length_eq_zero hzero] at hchecks
    exact List.map_eq_nil_iff.2 hchecks
  · intro hsome
    rw [hrowKeys, hchecks]
    exact keys_handed hkeys hnodup hsome
  · intro group check row
    refine Report.check?_eq_some_iff
      (fun row hmem => p.scenario.scenario_of_mem_keys (hrow row hmem).1) ?_
    rw [hrowKeys, hchecks]
    exact (Ledger.ascending_addOutcomes .nil _).nodup_keys CheckKey.strict_before
  · rw [Report.isSome_failureText?]
    show 0 < r.scene.ledger.checksFailed ↔ _
    rw [hfailed, List.countP_pos_iff]
    constructor
    · rintro ⟨entry, hentry, hfailure⟩
      obtain ⟨tally, htally, hmem⟩ := List.mem_flatMap.1 hentry
      exact ⟨tally, htally, entry, hmem, by simpa using hfailure⟩
    · rintro ⟨tally, htally, entry, hmem, hfailure⟩
      exact ⟨entry, List.mem_flatMap.2 ⟨tally, htally, hmem⟩, by simpa using hfailure⟩

end Run
end LoadRamp
