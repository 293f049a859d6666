import LoadRamp.Proofs.Passage
import LoadRamp.Proofs.Totals

/-!
# Requests and iterations

The timing of a request counts as soon as its reply comes, the outcomes of an
iteration only when it is handed in.  Iterations that are cut short or break down
therefore leave more requests in a report than iterations, but never fewer.

* `Scene.Times` says of some timings that there is one for each reply and that the
  table of operations is made from them.
* `Flow` is the invariant of runs: the inequalities of all users together.
* `requests_consistent` reads both off the report.
-/

namespace LoadRamp

/-! ## Timings -/

/-- Whether some timings are those of the replies of a scene, one for each, and make the table of
operations. -/
structure Scene.Times (scene : Scene) (timings : List (String × Measurement)) : Prop where
  operations_eq : scene.ledger.operations = timings.foldl Ledger.addMeasurement []
  answers_eq : scene.answers = timings.map fun t => (t.1, t.2.isError)

section Times

variable {before after : Scene} {timings : List (String × Measurement)}

theorem Scene.Times.ascending (h : before.Times timings) :
    Ordered.Ascending Ordered.textBefore before.ledger.operations := by
  rw [h.operations_eq]
  exact Ordered.ascending_foldl_gather Ordered.strict_textBefore .nil timings

theorem Scene.Times.still (h : before.Times timings)
    (hoperations : after.ledger.operations = before.ledger.operations)
    (hanswers : after.answers = before.answers) : after.Times timings where
  operations_eq := hoperations.trans h.operations_eq
  answers_eq := hanswers.trans h.answers_eq

namespace User

variable {w : Workload} {u : User} {scene : Scene} {outcome : Scene × User}

/-- A reply brings its timing with it. -/
theorem times_timed (h : scene.Times timings) (it : Iteration) (reply : Http.Reply) :
    (it.timed u.name scene reply).Times (timings ++ [(it.group.name,
      ⟨Duration.clamp (scene.clock - it.since), Iteration.isError reply⟩)]) where
  operations_eq := by
    rw [ledger_timed, List.foldl_append, ← h.operations_eq, Scene.recordSince, Ledger.record_eq]
    rfl
  answers_eq := by
    rw [answers_timed, h.answers_eq, List.map_append]
    rfl

theorem times_received (h : scene.Times timings) (it : Iteration) (reply : Http.Reply) :
    (it.received w u.name scene reply).Times (timings ++ [(it.group.name,
      ⟨Duration.clamp (scene.clock - it.since), Iteration.isError reply⟩)]) := by
  refine (times_timed (u := u) h it reply).still ?_ ?_
  · rw [ledger_received, ledger_timed]
  · rw [answers_received, answers_timed]

theorem Deed.times (h : Deed w (scene, u) outcome) (htimes : scene.Times timings) :
    ∃ timings, outcome.1.Times timings := by
  cases h with
  | begin | leave | crash => exact ⟨timings, htimes.still rfl (Scene.pick_note_none _ rfl)⟩
  | start hfree htold hgroups hsent =>
    refine ⟨timings, htimes.still ?_ (hsent.goes.2.1.trans (Scene.pick_note_none _ rfl))⟩
    rw [hsent.ledger_eq, Scene.ledger_note]
  | @advance _ _ it time reply group later _ hbusy harrival hdue hlater hsent =>
    exact ⟨_, (times_received htimes it reply).still (congrArg Ledger.operations hsent.ledger_eq)
      hsent.goes.2.1⟩
  | @commit _ _ it time reply hbusy harrival hdue hlater =>
    exact ⟨_, (times_received htimes it reply).still (Ledger.operations_commit _ _)
      (Scene.pick_note_none _ rfl)⟩
  | @overflow _ _ it time reply =>
    exact ⟨_, (times_timed htimes it reply).still rfl (Scene.pick_note_none _ rfl)⟩
  | queue => exact ⟨timings, htimes.still rfl rfl⟩

end User

end Times

namespace Run

/-- Iterations flow through the groups of a scenario. -/
structure Flow (s : Scenario) (r : Run) : Prop where
  /-- What goes into a group is no less than what goes through it and what waits there. -/
  through : ∀ front g back, s.groups = front ++ g :: back →
    r.scene.answersFor g.name + r.users.countP (User.waitsFor g.name) ≤ r.scene.passed front
  handed : r.scene.tallies.length ≤ r.scene.passed s.groups
  /-- Every failed iteration, also one under way, has had an error that counts. -/
  failing : r.scene.tallies.countP Tally.failed + r.users.countP User.isFailing ≤
    r.scene.ledger.errorsIn (s.groups.map Group.name)
  known : ∀ answer ∈ r.scene.answers, answer.1 ∈ s.groups.map Group.name
  times : ∃ timings, r.scene.Times timings

variable {s : Scenario} {r r' : Run}

/-- What a user does keeps the flow. -/
theorem flow_update (h : Flow s r) {user : Nat} {u : User} {outcome : Scene × User}
    (hu : r.users[user]? = some u) (hfits : u.Fits s) (hgoes : User.Goes s (r.scene, u) outcome)
    (htimes : ∃ timings, outcome.1.Times timings) : Flow s (r.update user outcome) where
  through := by
    intro front g back hsplit
    have hcount := countP_set_add (f := User.waitsFor g.name) (v := outcome.2) hu
    have hthrough := hgoes.through hfits hsplit
    have hbefore := h.through front g back hsplit
    dsimp only [update] at hthrough ⊢
    omega
  handed := by
    have hhanded := hgoes.handed hfits
    have hbefore := h.handed
    dsimp only [update] at hhanded ⊢
    omega
  failing := by
    have hcount := countP_set_add (f := User.isFailing) (v := outcome.2) hu
    have hfailing := hgoes.failing hfits
    have hbefore := h.failing
    dsimp only [update] at hfailing ⊢
    omega
  known := hgoes.known hfits h.known
  times := htimes

/-- The flow is as it was when no reply comes and no user is in an iteration that was in none. -/
theorem flow_quiet (h : Flow s r)
    (hmarks : r'.scene.pick Happening.mark? = r.scene.pick Happening.mark?)
    (hanswers : r'.scene.answers = r.scene.answers)
    (htallies : r'.scene.tallies = r.scene.tallies)
    (husers : ∀ f : User → Bool, (∀ u : User, u.isBusy = false → f u = false) →
      r'.users.countP f = r.users.countP f)
    (hoperations : r'.scene.ledger.operations = r.scene.ledger.operations) : Flow s r' where
  through := by
    intro front g back hsplit
    rw [Scene.answersFor_congr hanswers, Scene.passed_congr (Scene.marked_congr hmarks _) hanswers,
      husers _ fun u hidle => User.waitsFor_of_not_busy hidle _]
    exact h.through front g back hsplit
  handed := by
    rw [htallies, Scene.passed_congr (Scene.marked_congr hmarks _) hanswers]
    exact h.handed
  failing := by
    rw [htallies, husers _ fun u hidle => User.isFailing_of_not_busy hidle]
    exact Nat.le_trans h.failing
      (Ledger.errorsIn_le (fun id => by rw [Ledger.countOf_congr hoperations]) _)
  known := by
    rw [hanswers]
    exact h.known
  times := by
    obtain ⟨timings, htimes⟩ := h.times
    exact ⟨timings, htimes.still hoperations hanswers⟩

theorem flow_move {p : Plan} (hroster : Roster r) (hchecked : Checked p.scenario r)
    (hmove : Move p r r') (h : Flow p.scenario r) : Flow p.scenario r' := by
  obtain ⟨timings, htimes⟩ := h.times
  cases hmove with
  | @deed user u outcome hu hdeed =>
    exact flow_update h hu (hchecked.fits u (List.mem_of_getElem? hu))
      (hdeed.goes htimes.ascending) (hdeed.times htimes)
  | @land user u haborting hu =>
    refine flow_update h hu (hchecked.fits u (List.mem_of_getElem? hu)) (User.goes_abort _ u _) ?_
    exact ⟨timings, htimes.still (by rw [User.ledger_abort]) (User.answers_abort u _)⟩
  | @tell front back user hactive =>
    have hmem : user ∈ r.active := by simp [hactive]
    obtain ⟨u, hu⟩ := hroster.exists_of_active hmem
    rw [tellIn_eq hu]
    have htold := flow_update h hu (hchecked.fits u (List.mem_of_getElem? hu))
      (User.goes_tell _ u r.scene)
      ⟨timings, htimes.still (by rw [User.ledger_tell]) (pick_tell_none _ rfl)⟩
    exact ⟨htold.1, htold.2, htold.3, htold.4, htold.5⟩
  | spawn hrunning =>
    refine flow_quiet h rfl rfl rfl (fun f hf => ?_) rfl
    have hnew : f { name := userName r.users.length, turn := r.scene.waits } = false := hf _ rfl
    rw [spawn, List.countP_append, List.countP_singleton, hnew]
    rfl
  | lose =>
    exact flow_quiet h (Scene.pick_note_none _ rfl) (Scene.pick_note_none _ rfl)
      (Scene.pick_note_none _ rfl) (fun _ _ => rfl) rfl
  | joinStopping =>
    exact flow_quiet h (pick_settled_none _ rfl) (pick_settled_none _ rfl)
      (pick_settled_none _ rfl) (fun _ _ => rfl) (operations_settled _ _ _ _)
  | joinAborting =>
    exact flow_quiet h (pick_settled_none _ rfl) (pick_settled_none _ rfl)
      (pick_settled_none _ rfl) (fun _ _ => rfl) (operations_settled _ _ _ _)
  | tick =>
    exact flow_quiet h (Scene.pick_note_none _ rfl) (Scene.pick_note_none _ rfl)
      (Scene.pick_note_none _ rfl) (fun _ _ => rfl) rfl
  | @remark what hgoing hremark =>
    have hnone : what.mark? = none ∧ what.answered? = none ∧ what.handed? = none := by
      cases what <;> first | exact ⟨rfl, rfl, rfl⟩ | cases hremark
    exact flow_quiet h (Scene.pick_note_none _ hnone.1) (Scene.pick_note_none _ hnone.2.1)
      (Scene.pick_note_none _ hnone.2.2) (fun _ _ => rfl) rfl
  | drain hrunning =>
    exact flow_quiet h (Scene.pick_note_none _ rfl) (Scene.pick_note_none _ rfl)
      (Scene.pick_note_none _ rfl) (fun _ _ => rfl) rfl
  | finish hdraining =>
    rw [finish_eq hdraining]
    exact flow_quiet h (Scene.pick_note_none _ rfl) (Scene.pick_note_none _ rfl)
      (Scene.pick_note_none _ rfl) (fun _ _ => rfl) rfl
  | expire | gauge | wait | adjust | breakDown =>
    exact flow_quiet h rfl rfl rfl (fun _ _ => rfl) rfl

theorem flow_start (s : Scenario) : Flow s start where
  through := by
    intro front g back hsplit
    exact Nat.zero_le _
  handed := Nat.zero_le _
  failing := Nat.zero_le _
  known := nofun
  times := ⟨[], rfl, rfl⟩

theorem flow_of_reaches {p : Plan} (hr : Reaches p r) : Flow p.scenario r :=
  hr.keeps (flow_start p.scenario)
    fun _ _ hbefore hmove =>
      flow_move (roster_of_reaches hbefore) (checked_of_reaches hbefore) hmove

end Run

/-! ## Reading the report -/

namespace Report

/-- The row of an operation. -/
def operation? (r : Report) (id : String) : Option OperationRow :=
  r.operations.find? fun row => row.id = id

/-- The number of requests of an operation, which is zero when the report does not have it. -/
def requests (r : Report) (id : String) : Nat := (r.operation? id).elim 0 OperationRow.count

/-- The number of errors of an operation. -/
def errors (r : Report) (id : String) : Nat := (r.operation? id).elim 0 OperationRow.errors

end Report

/-- The report says of an operation what is counted of it. -/
theorem Ledger.counts_report (l : Ledger) (id : String) :
    l.report.requests id = (l.countOf id).count ∧
      l.report.errors id = (l.countOf id).errors := by
  have hrow : l.report.operation? id = (Ordered.find? id l.operations).map fun o =>
      ⟨id, o.count, o.errors, o.total, o.least?, o.most?⟩ := by
    rw [Report.operation?, report, List.find?_map, Ordered.find?, Option.map_map]
    change Option.map _ (l.operations.find? fun entry => decide (entry.1 = id)) = _
    cases hfind : l.operations.find? fun entry => decide (entry.1 = id) with
    | none => rfl
    | some entry =>
      obtain rfl : entry.1 = id := by simpa using List.find?_some hfind
      rfl
  rw [Report.requests, Report.errors, hrow, countOf]
  cases Ordered.find? id l.operations with
  | none => exact ⟨rfl, rfl⟩
  | some o => exact ⟨rfl, rfl⟩

namespace OperationCount

theorem count_foldl_measure (ms : List Measurement) (o : OperationCount) :
    (ms.foldl measure o).count = o.count + ms.length := by
  induction ms generalizing o with
  | nil => rfl
  | cons m ms ih =>
    rw [List.foldl_cons, ih, count_measure, List.length_cons]
    omega

/-- An error is counted with its request, if at all. -/
theorem errors_foldl_measure (ms : List Measurement) {o : OperationCount}
    (h : o.errors ≤ o.count) : (ms.foldl measure o).errors ≤ (ms.foldl measure o).count := by
  induction ms generalizing o with
  | nil => exact h
  | cons m ms ih =>
    refine ih ?_
    unfold measure add
    split
    · exact Nat.le_succ_of_le h
    · split
      · exact Nat.succ_le_succ h
      · exact Nat.le_succ_of_le h

end OperationCount

namespace Scene.Times

open Ordered

variable {scene : Scene} {timings : List (String × Measurement)}

/-- What a ledger has counted of an operation is what its timings add up to. -/
theorem countOf_eq (h : scene.Times timings) (id : String) :
    scene.ledger.countOf id = (valuesAt id timings).foldl OperationCount.measure {} := by
  have hgathered : find? id scene.ledger.operations =
      if id ∈ timings.map Prod.fst then
        some ((valuesAt id timings).foldl OperationCount.measure {})
      else none := by
    rw [h.operations_eq]
    exact find?_gathered strict_textBefore timings id
  rw [Ledger.countOf, hgathered]
  split
  · rfl
  · next habsent => rw [valuesAt_eq_nil.2 habsent]; rfl

theorem requests_eq (h : scene.Times timings) (id : String) :
    scene.ledger.report.requests id = scene.answersFor id := by
  rw [(Ledger.counts_report _ id).1, h.countOf_eq, OperationCount.count_foldl_measure,
    Scene.answersFor, h.answers_eq, List.countP_map, valuesAt, List.length_map,
    ← List.countP_eq_length_filter]
  exact Nat.zero_add _

theorem errors_le (h : scene.Times timings) (id : String) :
    scene.ledger.report.errors id ≤ scene.ledger.report.requests id := by
  rw [(Ledger.counts_report _ id).1, (Ledger.counts_report _ id).2, h.countOf_eq]
  exact OperationCount.errors_foldl_measure _ (Nat.le_refl 0)

/-- The operations are those that got a reply. -/
theorem mem_operations (h : scene.Times timings) {id : String} :
    id ∈ scene.ledger.report.operations.map OperationRow.id ↔ 0 < scene.answersFor id := by
  have hrows : scene.ledger.report.operations.map OperationRow.id =
      scene.ledger.operations.map Prod.fst := List.map_map
  have hkeys : scene.answers.map Prod.fst = timings.map Prod.fst := by
    rw [h.answers_eq, List.map_map]
    rfl
  have hfound : find? id (timings.foldl Ledger.addMeasurement []) =
      if id ∈ timings.map Prod.fst then
        some ((valuesAt id timings).foldl OperationCount.measure {})
      else none := find?_gathered strict_textBefore timings id
  rw [hrows, ← not_iff_not, ← find?_eq_none, h.operations_eq, hfound, Scene.answersFor,
    List.countP_pos_iff]
  rw [← hkeys]
  simp

/-- No operation comes twice. -/
theorem nodup_operations (h : scene.Times timings) :
    (scene.ledger.report.operations.map OperationRow.id).Nodup := by
  have hrows : scene.ledger.report.operations.map OperationRow.id =
      scene.ledger.operations.map Prod.fst := List.map_map
  rw [hrows]
  exact h.ascending.nodup_keys strict_textBefore

end Scene.Times

namespace Run

variable {s : Scenario} {r : Run}

/-- The numbers of requests fall from the iterations that were started to those that were handed
in. -/
theorem Flow.chain (h : Flow s r) :
    (r.scene.marked .opens :: s.groups.map (fun g => r.scene.answersFor g.name) ++
      [r.scene.tallies.length]).Pairwise (· ≥ ·) := by
  have hfrom (back : List Group) : ∀ front, s.groups = front ++ back →
      (r.scene.passed front :: back.map (fun g => r.scene.answersFor g.name) ++
        [r.scene.tallies.length]).IsChain (· ≥ ·) := by
    induction back with
    | nil =>
      intro front hsplit
      rw [List.append_nil] at hsplit
      have hhanded := hsplit ▸ h.handed
      simpa using hhanded
    | cons g back ih =>
      intro front hsplit
      have hthrough := h.through front g back hsplit
      have hrest := ih (front ++ [g]) (by simp [hsplit])
      rw [Scene.passed_concat] at hrest
      refine List.isChain_cons_cons.2 ⟨?_, hrest⟩
      show r.scene.answersFor g.name ≤ r.scene.passed front
      omega
  exact List.isChain_iff_pairwise.1 (hfrom s.groups [] rfl)

/-- When every iteration that was started was handed in, every group has had a reply in each. -/
theorem Flow.answersFor_eq (h : Flow s r) (hall : r.scene.marked .opens = r.scene.tallies.length)
    {name : String} (hname : name ∈ s.groups.map Group.name) :
    r.scene.answersFor name = r.scene.tallies.length := by
  obtain ⟨g, hg, rfl⟩ := List.mem_map.1 hname
  have hmem : r.scene.answersFor g.name ∈ s.groups.map fun g => r.scene.answersFor g.name :=
    List.mem_map_of_mem hg
  obtain ⟨hupper, hlower⟩ := List.pairwise_cons.1 h.chain
  have hmost := hupper _ (List.mem_append_left _ hmem)
  have hleast := (List.pairwise_append.1 hlower).2.2 _ hmem _ (List.mem_singleton_self _)
  omega

/-- Requests are counted when their replies come and iterations when they are handed in, and the
two never contradict each other, wherever users are cut off.

* The requests of a group are the replies that came for it, in whatever iteration, and there are
  none for anything but a group.
* From the iterations that were started, over the groups in their order, to those that were
  completed or failed the numbers fall.
* No operation has more errors than requests, and no more iterations have failed than there are
  errors.
* In a complete run without an iteration that was discarded or broken off all these numbers are
  the same, and the operations are the groups; there are none when there was no iteration. -/
theorem requests_consistent (p : Plan) (acts : List Act) :
    let r := performAll p start acts
    let report := r.scene.ledger.report
    let finished := report.completed + report.failed
    let names := p.scenario.groups.map Group.name
    (∀ id, report.requests id = r.scene.answersFor id) ∧
      (∀ answer ∈ r.scene.answers, answer.1 ∈ names) ∧
      (r.scene.marked .opens :: names.map report.requests ++ [finished]).Pairwise (· ≥ ·) ∧
      (∀ id, report.errors id ≤ report.requests id) ∧
      report.failed ≤ (names.map report.errors).sum ∧
      (r.lifecycle = .complete → report.discarded = 0 → r.scene.marked (.meets .broken) = 0 →
        (∀ name ∈ names, report.requests name = finished) ∧
          (finished = 0 → report.operations = []) ∧
          (0 < finished → (report.operations.map OperationRow.id).Perm names)) := by
  intro r report finished names
  have hr : Reaches p r := performAll_reaches p acts
  have hflow := flow_of_reaches hr
  have hseal := seal_of_reaches hr
  obtain ⟨timings, htimes⟩ := hflow.times
  have hrequests := htimes.requests_eq
  have hfinished : finished = r.scene.tallies.length := completed_add_failed hseal
  refine ⟨hrequests, hflow.known, ?_, htimes.errors_le, ?_, ?_⟩
  · have hmap : names.map report.requests =
        p.scenario.groups.map fun g => r.scene.answersFor g.name :=
      List.map_map.trans (List.map_congr_left fun g _ => hrequests g.name)
    rw [hfinished, hmap]
    exact hflow.chain
  · have hfailed : report.failed = r.scene.tallies.countP Tally.failed := by
      refine hseal.failed_eq.trans
        ((marked_committed _ _).trans (List.countP_congr fun tally _ => ?_))
      simp
    have herrors : names.map report.errors =
        names.map fun id => (r.scene.ledger.countOf id).errors :=
      List.map_congr_left fun id _ => (Ledger.counts_report _ id).2
    rw [hfailed, herrors]
    exact Nat.le_of_add_right_le hflow.failing
  · intro hcomplete hdiscarded hbroken
    have hall : r.scene.marked .opens = r.scene.tallies.length := by
      have hbalance := balance_of_complete (roster_of_reaches hr) hseal (accounts_of_reaches hr)
        hcomplete
      change report.completed + report.failed + report.discarded +
        r.scene.marked (.meets .broken) = r.scene.marked .opens at hbalance
      omega
    have heach : ∀ name ∈ names, r.scene.answersFor name = finished := fun name hname =>
      (hflow.answersFor_eq hall hname).trans hfinished.symm
    have hgroup (id : String) (hid : 0 < r.scene.answersFor id) : id ∈ names := by
      obtain ⟨answer, hanswer, hsame⟩ := List.countP_pos_iff.1 hid
      exact of_decide_eq_true hsame ▸ hflow.known answer hanswer
    refine ⟨fun name hname => (hrequests name).trans (heach name hname), fun hzero => ?_,
      fun hsome => ?_⟩
    · have hnone : report.operations.map OperationRow.id = [] := by
        refine List.eq_nil_iff_forall_not_mem.2 fun id hid => ?_
        have hpos := htimes.mem_operations.1 hid
        have hzero' := heach id (hgroup id hpos)
        omega
      exact List.map_eq_nil_iff.1 hnone
    · refine (List.perm_ext_iff_of_nodup htimes.nodup_operations p.scenario.names_nodup).2
        fun id => htimes.mem_operations.trans ⟨hgroup id, fun hname => ?_⟩
      rw [heach id hname]
      exact hsome

/-- A run whose schedule wants no users starts no iteration, and its report has no operations. -/
theorem not_requests_consistent :
    ¬ ∀ (p : Plan) (acts : List Act),
      let r := performAll p start acts
      let report := r.scene.ledger.report
      r.lifecycle = .complete → report.discarded = 0 → r.scene.marked (.meets .broken) = 0 →
        (report.operations.map OperationRow.id).Perm (p.scenario.groups.map Group.name) := by
  intro h
  let p : Plan :=
    { schedule := ⟨[⟨Duration.ofSeconds 3, 0⟩], 0, Duration.ofSeconds 3, by decide +kernel,
        by decide +kernel⟩
      scenario := browsing
      baseUrl := "http://localhost"
      transport := fun _ _ => .never
      settings := ⟨Duration.zero, Duration.ofSeconds 1, Duration.ofSeconds 3⟩
      tick_pos := by decide +kernel }
  let acts : List Act := [.tick, .wait 3000000000, .tick]
  have hcomplete : (performAll p start acts).lifecycle = .complete := by decide +kernel
  have hdiscarded : (performAll p start acts).scene.ledger.report.discarded = 0 := by
    decide +kernel
  have hbroken : (performAll p start acts).scene.marked (.meets .broken) = 0 := by
    decide +kernel
  have hnone : (performAll p start acts).scene.ledger.report.operations.map OperationRow.id =
      [] := by decide +kernel
  have hnames := h p acts hcomplete hdiscarded hbroken
  rw [hnone] at hnames
  cases hnames.nil_eq

end Run
end LoadRamp
