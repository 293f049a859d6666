import LoadRamp.Proofs.Room

/-!
# From group to group

An iteration goes through the groups of its scenario, one reply after the other.

* `Scene.passed` is the number of iterations that got through some groups, and
  `Ledger.errorsIn` the number of errors that are counted of them.
* `Goes` is what a user does to these numbers and to the tallies that are handed in, and
  `Deed.goes` that it does nothing else.
* `Goes.through`, `Goes.handed` and `Goes.failing` are the inequalities that this keeps.
  What goes into a group goes through it or waits there, unless it is given up; what is
  handed in has got through all groups; and what fails has had an error.
-/

namespace LoadRamp

/-- The group whose request got a reply, and whether the reply is an error. -/
def Happening.answered? : Happening → Option (String × Bool)
  | .answered _ group isError => some (group, isError)
  | _ => none

namespace Scene

/-- The replies that came, in order. -/
abbrev answers (s : Scene) : List (String × Bool) := s.pick Happening.answered?

/-- The tallies that were handed in, in order. -/
abbrev tallies (s : Scene) : List Tally := s.pick Happening.handed?

/-- The number of replies to requests of a group. -/
def answersFor (s : Scene) (group : String) : Nat := s.answers.countP (·.1 = group)

/-- The number of iterations that got through some groups of a scenario, the first ones.  Every
iteration that was opened got through none. -/
def passed (s : Scene) (done : List Group) : Nat :=
  done.getLast?.elim (s.marked .opens) fun group => s.answersFor group.name

@[simp] theorem passed_nil (s : Scene) : s.passed [] = s.marked .opens := rfl

@[simp] theorem passed_concat (s : Scene) (done : List Group) (group : Group) :
    s.passed (done ++ [group]) = s.answersFor group.name := by
  rw [passed, List.getLast?_concat, Option.elim_some]

theorem marked_note {s : Scene} {what : Happening} {mark : Mark}
    (hother : what.mark?.map Prod.snd ≠ some mark) :
    (s.note what).marked mark = s.marked mark := by
  unfold marked
  rw [pick_note, List.map_append, List.count_append, Nat.add_eq_left]
  cases hwhat : what.mark? with
  | none => rfl
  | some entry =>
    rw [hwhat] at hother
    exact List.count_singleton.trans (if_neg (by simpa using hother))

section Passed

variable {before after : Scene}

theorem answersFor_congr (h : after.answers = before.answers) (group : String) :
    after.answersFor group = before.answersFor group := by
  rw [answersFor, h, answersFor]

theorem answersFor_concat {name : String} {isError : Bool}
    (h : after.answers = before.answers ++ [(name, isError)]) (group : String) :
    after.answersFor group = before.answersFor group + if name = group then 1 else 0 := by
  rw [answersFor, answersFor, h, List.countP_append, List.countP_singleton]
  simp

theorem passed_congr (hopens : after.marked .opens = before.marked .opens)
    (hanswers : after.answers = before.answers) (done : List Group) :
    after.passed done = before.passed done := by
  unfold passed
  cases done.getLast? with
  | none => exact hopens
  | some group => exact answersFor_congr hanswers group.name

theorem passed_le (hopens : before.marked .opens ≤ after.marked .opens)
    (hanswers : ∀ group, before.answersFor group ≤ after.answersFor group) (done : List Group) :
    before.passed done ≤ after.passed done := by
  unfold passed
  cases done.getLast? with
  | none => exact hopens
  | some group => exact hanswers group.name

theorem passed_le_of_opened (hopens : after.marked .opens = before.marked .opens + 1)
    (hanswers : after.answers = before.answers) (done : List Group) :
    before.passed done ≤ after.passed done :=
  passed_le (Nat.le.intro hopens.symm)
    (fun group => Nat.le_of_eq (answersFor_congr hanswers group).symm) done

theorem passed_le_of_answered {name : String} {isError : Bool}
    (hopens : after.marked .opens = before.marked .opens)
    (hanswers : after.answers = before.answers ++ [(name, isError)]) (done : List Group) :
    before.passed done ≤ after.passed done :=
  passed_le (Nat.le_of_eq hopens.symm)
    (fun group => Nat.le.intro (answersFor_concat hanswers group).symm) done

end Passed

end Scene

namespace Ledger

/-- The errors that are counted of some operations. -/
def errorsIn (l : Ledger) (names : List String) : Nat :=
  (names.map fun id => (l.countOf id).errors).sum

section Errors

variable {l l' : Ledger} {names : List String}

theorem errorsIn_le (h : ∀ id, (l.countOf id).errors ≤ (l'.countOf id).errors)
    (names : List String) : l.errorsIn names ≤ l'.errorsIn names := by
  induction names with
  | nil => exact Nat.le_refl _
  | cons id rest ih => exact Nat.add_le_add (h id) ih

/-- One more error of an operation is one more of all. -/
theorem errorsIn_add_le {name : String} {isError : Bool} (hname : name ∈ names)
    (h : ∀ id, (l.countOf id).errors + (if name = id ∧ isError = true then 1 else 0) ≤
      (l'.countOf id).errors) :
    l.errorsIn names + (if isError = true then 1 else 0) ≤ l'.errorsIn names := by
  have hmore (id : String) : (l.countOf id).errors ≤ (l'.countOf id).errors :=
    Nat.le_of_add_right_le (h id)
  induction names with
  | nil => cases hname
  | cons first rest ih =>
    have hfirst := h first
    simp only [errorsIn, List.map_cons, List.sum_cons] at ih ⊢
    rcases List.mem_cons.1 hname with rfl | hlater
    · have hrest := errorsIn_le hmore rest
      simp only [errorsIn, true_and] at hrest hfirst
      omega
    · have hrest := ih hlater
      have hsame := hmore first
      omega

end Errors

end Ledger

namespace Scenario

variable {s : Scenario} {front front' back back' : List Group} {g g' : Group}

theorem name_not_mem_front (h : s.groups = front ++ g :: back) : ∀ f ∈ front, f.name ≠ g.name := by
  have hnodup := s.names_nodup
  rw [h, List.map_append, List.map_cons, List.nodup_append] at hnodup
  intro f hf
  exact hnodup.2.2 f.name (List.mem_map_of_mem hf) g.name List.mem_cons_self

/-- Where a group stands in a scenario is known from its name. -/
theorem split_unique (h : s.groups = front ++ g :: back) (h' : s.groups = front' ++ g' :: back')
    (hname : g.name = g'.name) : front = front' ∧ g = g' ∧ back = back' := by
  rcases List.append_eq_append_iff.1 (h.symm.trans h') with
    ⟨between, hfront, hrest⟩ | ⟨between, hfront, hrest⟩
  · cases between with
    | nil =>
      rw [List.append_nil] at hfront
      obtain ⟨rfl, rfl⟩ := List.cons.inj hrest
      exact ⟨hfront.symm, rfl, rfl⟩
    | cons first rest =>
      obtain ⟨rfl, -⟩ := List.cons.inj hrest
      exact absurd hname (name_not_mem_front h' g (by simp [hfront]))
  · cases between with
    | nil =>
      rw [List.append_nil] at hfront
      obtain ⟨rfl, rfl⟩ := List.cons.inj hrest
      exact ⟨hfront, rfl, rfl⟩
    | cons first rest =>
      obtain ⟨rfl, -⟩ := List.cons.inj hrest
      exact absurd hname.symm (name_not_mem_front h g' (by simp [hfront]))

end Scenario

namespace User

/-- Whether a user waits for the reply to a request of a group. -/
def waitsFor (group : String) (u : User) : Bool :=
  match u.phase with
  | .busy it => it.group.name = group
  | _ => false

/-- Whether a user is in an iteration that has had an error. -/
def isFailing (u : User) : Bool :=
  match u.phase with
  | .busy it => it.tally.failed
  | _ => false

theorem waitsFor_of_not_busy {u : User} (hidle : u.isBusy = false) (group : String) :
    u.waitsFor group = false := by
  unfold isBusy at hidle
  unfold waitsFor
  split at hidle <;> simp_all

theorem isFailing_of_not_busy {u : User} (hidle : u.isBusy = false) : u.isFailing = false := by
  unfold isBusy at hidle
  unfold isFailing
  split at hidle <;> simp_all

/-- What a user does to the iterations that are opened, the replies that come, the errors that are
counted and the tallies that are handed in. -/
inductive Goes (s : Scenario) (before after : Scene × User) : Prop
  /-- Nothing, but it may give its iteration up. -/
  | rests (hopens : after.1.marked .opens = before.1.marked .opens)
      (hanswers : after.1.answers = before.1.answers)
      (htallies : after.1.tallies = before.1.tallies)
      (herrors : ∀ id, (before.1.ledger.countOf id).errors ≤ (after.1.ledger.countOf id).errors)
      (hafter : after.2.phase = before.2.phase ∨ after.2.isBusy = false)
  /-- It opens an iteration and waits for the first reply, if it does not break down at once. -/
  | opens {group : Group} {later : List Group} (hgroups : s.groups = group :: later)
      (hidle : before.2.isBusy = false)
      (hopens : after.1.marked .opens = before.1.marked .opens + 1)
      (hanswers : after.1.answers = before.1.answers)
      (htallies : after.1.tallies = before.1.tallies)
      (herrors : ∀ id, (before.1.ledger.countOf id).errors ≤ (after.1.ledger.countOf id).errors)
      (hafter : ∀ it, after.2.phase = .busy it → it.group = group ∧ it.tally.failed = false)
  /-- It takes a reply and waits for the next one, if it does not break down at once. -/
  | advances {it : Iteration} {reply : Http.Reply} {group : Group} {later : List Group}
      (hbusy : before.2.phase = .busy it) (hlater : it.later = group :: later)
      (hopens : after.1.marked .opens = before.1.marked .opens)
      (hanswers : after.1.answers =
        before.1.answers ++ [(it.group.name, Iteration.isError reply)])
      (htallies : after.1.tallies = before.1.tallies)
      (herrors : ∀ id, (before.1.ledger.countOf id).errors +
          (if it.group.name = id ∧ Iteration.isError reply = true then 1 else 0) ≤
        (after.1.ledger.countOf id).errors)
      (hafter : ∀ it', after.2.phase = .busy it' →
        it'.group = group ∧ it'.tally.failed = (it.tally.failed || Iteration.isError reply))
  /-- It takes the last reply and hands its tally in. -/
  | commits {it : Iteration} {reply : Http.Reply} {tally : Tally}
      (hbusy : before.2.phase = .busy it) (hlater : it.later = [])
      (hopens : after.1.marked .opens = before.1.marked .opens)
      (hanswers : after.1.answers =
        before.1.answers ++ [(it.group.name, Iteration.isError reply)])
      (htallies : after.1.tallies = before.1.tallies ++ [tally])
      (hfailed : tally.failed = (it.tally.failed || Iteration.isError reply))
      (herrors : ∀ id, (before.1.ledger.countOf id).errors +
          (if it.group.name = id ∧ Iteration.isError reply = true then 1 else 0) ≤
        (after.1.ledger.countOf id).errors)
      (hafter : after.2.isBusy = false)
  /-- It takes a reply and breaks down over its timing. -/
  | overflows {it : Iteration} {reply : Http.Reply} (hbusy : before.2.phase = .busy it)
      (hopens : after.1.marked .opens = before.1.marked .opens)
      (hanswers : after.1.answers =
        before.1.answers ++ [(it.group.name, Iteration.isError reply)])
      (htallies : after.1.tallies = before.1.tallies)
      (herrors : ∀ id, (before.1.ledger.countOf id).errors ≤ (after.1.ledger.countOf id).errors)
      (hafter : after.2.isBusy = false)

section Goes

variable {w : Workload} {u : User} {scene : Scene} {outcome : Scene × User}

theorem failed_extendTally (s : Scenario) (tally : Tally) (group : Group) (reply : Http.Reply) :
    (s.extendTally tally group reply).failed = (tally.failed || Iteration.isError reply) := by
  have hfold (entries : List (CheckKey × Outcome)) (tally : Tally) :
      (entries.foldl (fun t entry => t.record entry.1 entry.2) tally).failed = tally.failed := by
    induction entries generalizing tally with
    | nil => rfl
    | cons entry rest ih => exact ih _
  cases reply with
  | ok response => exact (hfold _ _).trans (Bool.or_false _).symm
  | error error => exact (Bool.or_true _).symm

theorem answers_timed {it : Iteration} {reply : Http.Reply} :
    (it.timed u.name scene reply).answers =
      scene.answers ++ [(it.group.name, Iteration.isError reply)] :=
  Scene.pick_note _ _ _

theorem answers_received {it : Iteration} {reply : Http.Reply} :
    (it.received w u.name scene reply).answers =
      scene.answers ++ [(it.group.name, Iteration.isError reply)] := by
  have hremarks : ∀ what ∈ Iteration.remarks w u.name it.group reply, what.answered? = none := by
    intro what hwhat
    rcases mem_remarks hwhat with ⟨error, rfl⟩ | ⟨key, reason, rfl⟩
    · rfl
    · rfl
  rw [Iteration.received, Scene.answers, Scene.pick_noteAll _ hremarks]
  exact answers_timed

/-- A reply that is an error counts as one, unless its timing does not fit. -/
theorem errors_recorded (hascending : Ordered.Ascending Ordered.textBefore scene.ledger.operations)
    (it : Iteration) (reply : Http.Reply) (id : String) :
    let after := (scene.recordSince it.group.name it.since (Iteration.isError reply)).ledger
    (scene.ledger.countOf id).errors ≤ (after.countOf id).errors ∧
      (it.overflows scene reply = false →
        (scene.ledger.countOf id).errors +
            (if it.group.name = id ∧ Iteration.isError reply = true then 1 else 0) ≤
          (after.countOf id).errors) := by
  intro after
  have hcount : after.countOf id = if it.group.name = id then
      (scene.ledger.countOf id).add (Duration.clamp (scene.clock - it.since))
        (Iteration.isError reply)
      else scene.ledger.countOf id := Ledger.countOf_record hascending _ _ _ _
  rw [hcount]
  split
  · next hsame =>
    refine ⟨OperationCount.le_errors_add _ _ _, fun hfits => ?_⟩
    have htotal : ((scene.ledger.countOf id).total.add?
        (Duration.clamp (scene.clock - it.since))) ≠ none := by
      intro hnone
      have hover : it.overflows scene reply = true := Ledger.overflows_iff.2 (hsame ▸ hnone)
      cases hfits.symm.trans hover
    obtain ⟨total, htotal⟩ := Option.ne_none_iff_exists'.1 htotal
    rw [OperationCount.errors_add _ _ _ htotal]
    simp [hsame]
  · next hother =>
    rw [if_neg fun hboth => hother hboth.1]
    exact ⟨Nat.le_refl _, fun _ => Nat.le_refl _⟩

/-- A request that is sent opens nothing, and no reply has come yet. -/
theorem Sent.goes {group : Group} {later : List Group} {tally : Tally}
    (h : Sent w u group later tally scene outcome) :
    outcome.1.marked .opens = scene.marked .opens ∧ outcome.1.answers = scene.answers ∧
      outcome.1.tallies = scene.tallies ∧
        ∀ it, outcome.2.phase = .busy it → it.group = group ∧ it.tally = tally := by
  have hsends {α : Type} {f : Happening → Option α} (request : Http.Request)
      (hnone : f (.sends u.name request) = none) :
      (scene.note (.sends u.name request)).countRequest.pick f = scene.pick f :=
    Scene.pick_note_none f hnone
  refine ⟨?_, ?_, h.handed, ?_⟩
  · cases h with
    | waits => exact Scene.marked_congr (hsends _ rfl) _
    | breaks =>
      refine @Scene.marked_of_pick scene _ u.name [.meets .broken] ?_ .opens
      rw [Scene.pick_note, hsends _ rfl]
      rfl
  · cases h with
    | waits => exact hsends _ rfl
    | breaks => exact (Scene.pick_note_none _ rfl).trans (hsends _ rfl)
  · intro it hit
    cases h with
    | waits =>
      obtain rfl := Phase.busy.inj hit
      exact ⟨rfl, rfl⟩
    | breaks => cases hit

/-- A user that says something about other things goes on as it was, or gives up. -/
theorem goes_note {s : Scenario} {v : User} {what : Happening}
    (hmark : what.mark?.map Prod.snd ≠ some .opens) (hanswered : what.answered? = none)
    (hhanded : what.handed? = none) (hafter : v.phase = u.phase ∨ v.isBusy = false) :
    Goes s (scene, u) (scene.note what, v) :=
  .rests (Scene.marked_note hmark) (Scene.pick_note_none _ hanswered)
    (Scene.pick_note_none _ hhanded) (fun _ => Nat.le_refl _) hafter

theorem Deed.goes (h : Deed w (scene, u) outcome)
    (hascending : Ordered.Ascending Ordered.textBefore scene.ledger.operations) :
    Goes w.scenario (scene, u) outcome := by
  cases h with
  | begin hphase => exact goes_note nofun rfl rfl (.inl rfl)
  | leave hfree htold => exact goes_note nofun rfl rfl (.inr rfl)
  | start hfree htold hgroups hsent =>
    obtain ⟨hopens, hanswers, htallies, hafter⟩ := hsent.goes
    refine .opens hgroups (isBusy_of_free hfree) (hopens.trans ?_)
      (hanswers.trans (Scene.pick_note_none _ rfl)) (htallies.trans (Scene.pick_note_none _ rfl))
      (fun id => ?_) fun it hit => ?_
    · exact @Scene.marked_of_pick _ _ u.name [.opens] (Scene.pick_note _ _ _) .opens
    · rw [hsent.ledger_eq, Scene.ledger_note]
    · obtain ⟨hgroup, htally⟩ := hafter it hit
      exact ⟨hgroup, congrArg Tally.failed htally⟩
  | @advance _ _ it time reply group later _ hbusy harrival hdue hlater hsent hfits =>
    obtain ⟨hopens, hanswers, htallies, hafter⟩ := hsent.goes
    refine .advances hbusy hlater (hopens.trans (Scene.marked_congr marks_received _))
      (hanswers.trans answers_received) (htallies.trans handed_received) (fun id => ?_)
      fun it' hit => ?_
    · rw [hsent.ledger_eq, ledger_received]
      exact (errors_recorded hascending it reply id).2 hfits
    · obtain ⟨hgroup, htally⟩ := hafter it' hit
      exact ⟨hgroup, htally ▸ failed_extendTally _ _ _ _⟩
  | @commit _ _ it time reply hbusy harrival hdue hlater hfits =>
    have hcommit {α : Type} {f : Happening → Option α} :
        ((it.received w u.name scene reply).commit
          (w.scenario.extendTally it.tally it.group reply)).pick f =
        (it.received w u.name scene reply).pick f := Scene.pick_of_history _ rfl
    refine .commits hbusy hlater ?_ ?_ ?_
      (failed_extendTally w.scenario it.tally it.group reply) (fun id => ?_) rfl
    · refine @Scene.marked_of_pick scene _ u.name
        [.meets (.committed (w.scenario.extendTally it.tally it.group reply).failed)] ?_ .opens
      rw [Scene.pick_note, hcommit, marks_received]
      rfl
    · exact (Scene.pick_note_none _ rfl).trans (hcommit.trans answers_received)
    · rw [Scene.tallies, Scene.pick_note, hcommit, handed_received]
      rfl
    · rw [Scene.ledger_note, Scene.ledger_commit,
        Ledger.countOf_congr (Ledger.operations_commit _ _), ledger_received]
      exact (errors_recorded hascending it reply id).2 hfits
  | @overflow _ _ it time reply hbusy =>
    refine .overflows hbusy ?_ ((Scene.pick_note_none _ rfl).trans answers_timed)
      ((Scene.pick_note_none _ rfl).trans (pick_timed fun _ _ => rfl))
      (fun id => (errors_recorded hascending it reply id).1) rfl
    have hbreaks : (Happening.breaks u.name (some Notice.overflow.text)).mark?.map Prod.snd ≠
        some .opens := nofun
    exact (Scene.marked_note hbreaks).trans
      (Scene.marked_congr (pick_timed fun _ _ => rfl) _)
  | crash hbusy harrival hdue => exact goes_note nofun rfl rfl (.inr rfl)
  | queue => exact .rests rfl rfl rfl (fun _ => Nat.le_refl _) (.inl rfl)

/-- An abort opens nothing and takes no reply. -/
theorem goes_abort (s : Scenario) (u : User) (scene : Scene) :
    Goes s (scene, u) (u.abort scene) := by
  unfold abort
  cases u.phase with
  | ended ending => exact .rests rfl rfl rfl (fun _ => Nat.le_refl _) (.inl rfl)
  | busy it => exact goes_note nofun rfl rfl (.inr rfl)
  | ready | resting => exact goes_note nofun rfl rfl (.inr rfl)

theorem answers_abort (u : User) (scene : Scene) : (u.abort scene).1.answers = scene.answers := by
  unfold abort
  cases u.phase with
  | ended ending => rfl
  | busy it => exact Scene.pick_note_none _ rfl
  | ready | resting => exact Scene.pick_note_none _ rfl

/-- A word to stop changes nothing about an iteration. -/
theorem goes_tell (s : Scenario) (u : User) (scene : Scene) : Goes s (scene, u) (u.tell scene) :=
  .rests (Scene.marked_congr (Run.pick_tell_none _ rfl) _) (Run.pick_tell_none _ rfl)
    (Run.pick_tell_none _ rfl) (fun id => by rw [ledger_tell]) (.inl (phase_tell u scene))

end Goes

section Flow

variable {s : Scenario} {before after : Scene × User}

theorem waitsFor_eq {u : User} {it : Iteration} (hbusy : u.phase = .busy it) (group : String) :
    u.waitsFor group = decide (it.group.name = group) := by
  rw [waitsFor, hbusy]

theorem isFailing_eq {u : User} {it : Iteration} (hbusy : u.phase = .busy it) :
    u.isFailing = it.tally.failed := by
  rw [isFailing, hbusy]

/-- What a user waits for after it has rested, it waited for before. -/
theorem waitsFor_of_rested {u v : User} (h : v.phase = u.phase ∨ v.isBusy = false)
    {group : String} (hwaits : v.waitsFor group = true) : u.waitsFor group = true := by
  rcases h with hsame | hidle
  · rw [waitsFor, hsame] at hwaits
    exact hwaits
  · rw [waitsFor_of_not_busy hidle] at hwaits
    cases hwaits

/-- A user that waits for a group has an iteration there. -/
theorem exists_of_waitsFor {u : User} {group : String} (hwaits : u.waitsFor group = true) :
    ∃ it, u.phase = .busy it ∧ it.group.name = group := by
  unfold waitsFor at hwaits
  split at hwaits
  · next it hbusy => exact ⟨it, hbusy, of_decide_eq_true hwaits⟩
  · cases hwaits

/-- An iteration that is over with a reply does not wait any more. -/
theorem through_of_answered {it : Iteration} {isError : Bool} (hbusy : before.2.phase = .busy it)
    (hopens : after.1.marked .opens = before.1.marked .opens)
    (hanswers : after.1.answers = before.1.answers ++ [(it.group.name, isError)])
    (hafter : after.2.isBusy = false) (front : List Group) (group : String) :
    after.1.answersFor group + before.1.passed front +
        (if after.2.waitsFor group then 1 else 0) ≤
      before.1.answersFor group + after.1.passed front +
        if before.2.waitsFor group then 1 else 0 := by
  have hmore := Scene.passed_le_of_answered hopens hanswers front
  rw [waitsFor_eq hbusy, waitsFor_of_not_busy hafter, Scene.answersFor_concat hanswers]
  simp only [decide_eq_true_eq, Bool.false_eq_true, if_false]
  omega

/-- What goes into a group goes through it or waits there, unless it is given up. -/
theorem Goes.through (h : Goes s before after) (hfits : before.2.Fits s)
    {front back : List Group} {g : Group} (hsplit : s.groups = front ++ g :: back) :
    after.1.answersFor g.name + before.1.passed front +
        (if after.2.waitsFor g.name then 1 else 0) ≤
      before.1.answersFor g.name + after.1.passed front +
        if before.2.waitsFor g.name then 1 else 0 := by
  cases h with
  | rests hopens hanswers htallies herrors hafter =>
    have hwaits : after.2.waitsFor g.name = true → before.2.waitsFor g.name = true :=
      waitsFor_of_rested hafter
    rw [Scene.answersFor_congr hanswers, Scene.passed_congr hopens hanswers]
    split
    · next hwaiting => rw [if_pos (hwaits hwaiting)]
    · omega
  | @opens group later hgroups hidle hopens hanswers htallies herrors hafter =>
    have hmore := Scene.passed_le_of_opened hopens hanswers front
    rw [Scene.answersFor_congr hanswers, waitsFor_of_not_busy hidle]
    split
    · next hwaiting =>
      -- The iteration waits for the first group, into which it goes by being opened.
      obtain ⟨it, hit, hname⟩ := exists_of_waitsFor hwaiting
      rw [(hafter it hit).1] at hname
      have hfirst : s.groups = [] ++ group :: later := hgroups
      obtain ⟨rfl, -, -⟩ := Scenario.split_unique hsplit hfirst hname.symm
      rw [Scene.passed_nil, Scene.passed_nil, hopens]
      simp only [Bool.false_eq_true, if_false]
      omega
    · simp only [Bool.false_eq_true, if_false]
      omega
  | @advances it reply group later hbusy hlater hopens hanswers htallies herrors hafter =>
    have hanswersFor := Scene.answersFor_concat hanswers
    have hmore := Scene.passed_le_of_answered hopens hanswers front
    have hnext : (if after.2.waitsFor g.name then 1 else 0) + before.1.passed front ≤
        after.1.passed front := by
      split
      · next hwaiting =>
        -- The next group is behind the one whose reply has come.
        obtain ⟨it', hit', hname⟩ := exists_of_waitsFor hwaiting
        rw [(hafter it' hit').1] at hname
        obtain ⟨done, replies, hgroups, -, -⟩ := hfits it hbusy
        rw [hlater, List.append_cons] at hgroups
        obtain ⟨rfl, -, -⟩ := Scenario.split_unique hsplit hgroups hname.symm
        rw [Scene.passed_concat, Scene.passed_concat, hanswersFor, if_pos rfl]
        omega
      · omega
    rw [waitsFor_eq hbusy, hanswersFor]
    simp only [decide_eq_true_eq]
    omega
  | commits hbusy hlater hopens hanswers htallies hfailed herrors hafter =>
    exact through_of_answered hbusy hopens hanswers hafter front g.name
  | overflows hbusy hopens hanswers htallies herrors hafter =>
    exact through_of_answered hbusy hopens hanswers hafter front g.name

/-- Whatever is handed in has got through all groups. -/
theorem Goes.handed (h : Goes s before after) (hfits : before.2.Fits s) :
    after.1.tallies.length + before.1.passed s.groups ≤
      before.1.tallies.length + after.1.passed s.groups := by
  cases h with
  | rests hopens hanswers htallies herrors hafter =>
    rw [htallies, Scene.passed_congr hopens hanswers]
  | opens hgroups hidle hopens hanswers htallies herrors hafter =>
    have hmore := Scene.passed_le_of_opened hopens hanswers s.groups
    rw [htallies]
    omega
  | advances hbusy hlater hopens hanswers htallies | overflows hbusy hopens hanswers htallies =>
    have hmore := Scene.passed_le_of_answered hopens hanswers s.groups
    rw [htallies]
    omega
  | @commits it reply tally hbusy hlater hopens hanswers htallies hfailed herrors hafter =>
    obtain ⟨done, replies, hgroups, -, -⟩ := hfits it hbusy
    rw [htallies, hgroups, hlater, Scene.passed_concat, Scene.passed_concat,
      Scene.answersFor_concat hanswers, if_pos rfl, List.length_append, List.length_singleton]
    omega

theorem name_mem_of_busy {u : User} (hfits : u.Fits s) {it : Iteration}
    (hbusy : u.phase = .busy it) : it.group.name ∈ s.groups.map Group.name := by
  obtain ⟨done, replies, hgroups, -, -⟩ := hfits it hbusy
  rw [hgroups]
  exact List.mem_map_of_mem (by simp)

/-- Whatever fails has had an error that counts. -/
theorem Goes.failing (h : Goes s before after) (hfits : before.2.Fits s) :
    let names := s.groups.map Group.name
    after.1.tallies.countP Tally.failed + before.1.ledger.errorsIn names +
        (if after.2.isFailing then 1 else 0) ≤
      before.1.tallies.countP Tally.failed + after.1.ledger.errorsIn names +
        if before.2.isFailing then 1 else 0 := by
  intro names
  cases h with
  | rests hopens hanswers htallies herrors hafter =>
    have hmore := Ledger.errorsIn_le herrors names
    have hless : after.2.isFailing = true → before.2.isFailing = true := by
      rcases hafter with hsame | hidle
      · rw [isFailing, hsame]
        exact id
      · rw [isFailing_of_not_busy hidle]
        exact nofun
    rw [htallies]
    split
    · next hfailing =>
      rw [if_pos (hless hfailing)]
      omega
    · omega
  | opens hgroups hidle hopens hanswers htallies herrors hafter =>
    have hmore := Ledger.errorsIn_le herrors names
    have hnone : after.2.isFailing = false := by
      unfold isFailing
      split
      · next it hit => exact (hafter it hit).2
      · rfl
    rw [htallies, hnone, isFailing_of_not_busy hidle]
    simp only [Bool.false_eq_true, if_false]
    omega
  | @advances it reply group later hbusy hlater hopens hanswers htallies herrors hafter =>
    have hmore := Ledger.errorsIn_add_le (name_mem_of_busy hfits hbusy) herrors
    have hless : after.2.isFailing = true →
        (it.tally.failed || Iteration.isError reply) = true := by
      intro hfailing
      unfold isFailing at hfailing
      split at hfailing
      · next it' hit' => exact (hafter it' hit').2 ▸ hfailing
      · cases hfailing
    rw [htallies, isFailing_eq hbusy]
    change _ + before.1.ledger.errorsIn names + _ ≤ _
    change before.1.ledger.errorsIn names + _ ≤ after.1.ledger.errorsIn names at hmore
    split
    · next hfailing =>
      rcases Bool.or_eq_true_iff.1 (hless hfailing) with hbefore | hnow
      · rw [if_pos hbefore]
        omega
      · rw [if_pos hnow] at hmore
        omega
    · omega
  | @commits it reply tally hbusy hlater hopens hanswers htallies hfailed herrors hafter =>
    have hmore := Ledger.errorsIn_add_le (name_mem_of_busy hfits hbusy) herrors
    change before.1.ledger.errorsIn names + _ ≤ after.1.ledger.errorsIn names at hmore
    rw [htallies, isFailing_eq hbusy, isFailing_of_not_busy hafter, List.countP_append,
      List.countP_singleton, hfailed]
    cases it.tally.failed <;> cases herror : Iteration.isError reply <;>
      simp [herror] at hmore ⊢ <;> omega
  | overflows hbusy hopens hanswers htallies herrors hafter =>
    have hmore := Ledger.errorsIn_le herrors names
    rw [htallies, isFailing_of_not_busy hafter]
    simp only [Bool.false_eq_true, if_false]
    omega

/-- A reply is one to a request of the scenario. -/
theorem Goes.known (h : Goes s before after) (hfits : before.2.Fits s)
    (hknown : ∀ answer ∈ before.1.answers, answer.1 ∈ s.groups.map Group.name) :
    ∀ answer ∈ after.1.answers, answer.1 ∈ s.groups.map Group.name := by
  have hone {it : Iteration} {isError : Bool} (hbusy : before.2.phase = .busy it)
      (hanswers : after.1.answers = before.1.answers ++ [(it.group.name, isError)]) :
      ∀ answer ∈ after.1.answers, answer.1 ∈ s.groups.map Group.name := by
    intro answer hanswer
    rw [hanswers] at hanswer
    rcases List.mem_append.1 hanswer with hold | hnew
    · exact hknown answer hold
    · rw [List.mem_singleton.1 hnew]
      exact name_mem_of_busy hfits hbusy
  cases h with
  | rests hopens hanswers => rwa [hanswers]
  | opens hgroups hidle hopens hanswers => rwa [hanswers]
  | advances hbusy hlater hopens hanswers => exact hone hbusy hanswers
  | commits hbusy hlater hopens hanswers => exact hone hbusy hanswers
  | overflows hbusy hopens hanswers => exact hone hbusy hanswers

end Flow

end User

end LoadRamp
