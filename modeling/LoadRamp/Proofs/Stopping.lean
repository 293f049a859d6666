import LoadRamp.Proofs.Room
import LoadRamp.Solo

/-!
# What the word to stop does to a user

A user on its own, whose requests are all answered, is told to stop at some moment
and goes on in any way after it.

* `Deed.opens_of_told`: no iteration is opened after the word, whatever breaks down.
* `Solo.Sound` is the invariant of a user that requests do not break down: it is steady as
  long as the time that passed is a duration.  `User.marked_opens` and `User.finished` read
  the numbers of a steady user off its course.
* `User.stepsLeft` is the number of steps that a user told to stop still takes.
  `User.stepsLeft_step` says that each step that is due is one of them, and
  `User.stepsLeft_step_lt` that there are fewer left after it even if it breaks the user down.
* `User.PauseEnds` lists the ways in which a pause comes to its end, of which there
  are two when the word to stop and the end of the pause come at once.
* `stop_finishes` puts them together, for every list of acts before the word and
  every list of acts after it.
-/

namespace LoadRamp

namespace Workload

variable (w : Workload)

theorem countP_rounds (p : Doing → Bool) (n : Nat) :
    (w.rounds n).countP p = n * w.round.countP p := by
  induction n with
  | zero => exact (Nat.zero_mul _).symm
  | succ n ih => rw [rounds_succ, List.countP_append, ih, Nat.succ_mul]

theorem countP_sends {p : Doing → Bool} (hp : ∀ request, p (.sends request) = false)
    (requests : List Http.Request) : (requests.map Doing.sends).countP p = 0 := by
  rw [List.countP_map, List.countP_eq_zero]
  exact fun request _ => by simp [hp]

/-- There is one opening in a round, and one commit. -/
theorem countP_round :
    w.round.countP Doing.isOpening = 1 ∧ w.round.countP Doing.isCommit = 1 := by
  constructor
  · rw [round, List.cons_append, List.countP_cons, List.countP_append,
      countP_sends fun _ => rfl]
    rfl
  · rw [round, List.cons_append, List.countP_cons, List.countP_append,
      countP_sends fun _ => rfl]
    rfl

theorem filterMap_sends (requests : List Http.Request) :
    (requests.map Doing.sends).filterMap Doing.request? = requests := by
  rw [List.filterMap_map]
  exact List.filterMap_some

theorem filterMap_rounds (n : Nat) :
    (w.rounds n).filterMap Doing.request? =
      (List.replicate n (w.requests w.scenario.groups)).flatten := by
  induction n with
  | zero => rfl
  | succ n ih =>
    have hround : w.round.filterMap Doing.request? = w.requests w.scenario.groups := by
      rw [round, List.filterMap_append, List.filterMap_cons]
      simp only [Doing.request?, filterMap_sends]
      exact List.append_nil _
    rw [rounds_succ, List.filterMap_append, ih, hround, List.replicate_succ',
      List.flatten_append, List.flatten_singleton]

end Workload

namespace Scene

variable (s : Scene)

theorem countP_pick {α : Type} (f : Happening → Option α) (p : α → Bool) :
    (s.pick f).countP p = s.history.countP fun e => (f e.what).any p := by
  rw [pick, List.countP_reverse, List.countP_filterMap]
  refine List.countP_congr fun e _ => ?_
  cases f e.what <;> simp

theorem marked_opens_eq : s.marked .opens = (s.pick Happening.doing?).countP Doing.isOpening := by
  rw [marked, List.count, List.countP_map, countP_pick, countP_pick]
  refine List.countP_congr fun e _ => ?_
  cases e.what with
  | aborts user midway => cases midway <;> simp [Happening.mark?, Happening.doing?]
  | _ => simp [Happening.mark?, Happening.doing?, Doing.isOpening]

theorem length_handed_eq :
    (s.pick Happening.handed?).length = (s.pick Happening.doing?).countP Doing.isCommit := by
  rw [← List.countP_true, countP_pick, countP_pick]
  refine List.countP_congr fun e _ => ?_
  cases e.what <;> simp [Happening.handed?, Happening.doing?, Doing.isCommit]

theorem requests_eq :
    s.requests.map Prod.snd = (s.pick Happening.doing?).filterMap Doing.request? := by
  rw [requests, pick, ← List.filterMap_reverse, List.map_filterMap, List.filterMap_filterMap]
  refine congrArg (fun f => List.filterMap f s.history.reverse) (funext fun e => ?_)
  cases e.what <;> rfl

end Scene

namespace User

section Steady

variable {w : Workload} {scene : Scene} {u : User}

/-- A steady user has opened the iterations that it has committed, and the one under way. -/
theorem marked_opens (h : Steady w (scene, u)) : scene.marked .opens = u.opened := by
  obtain ⟨hopening, -⟩ := w.countP_round
  rw [Scene.marked_opens_eq, h.course_eq, opened, course, List.countP_append,
    Workload.countP_rounds, hopening, Nat.mul_one, isBusy]
  congr 1
  split
  · next it hphase =>
    rw [hphase, List.countP_cons, Workload.countP_sends fun _ => rfl]
    rfl
  · next hphase =>
    rw [hphase]
    rfl
  · next hbusy _ =>
    split
    · next it hphase => exact absurd hphase (hbusy it)
    · rfl

theorem course_of_finished (hfinished : u.ending? = some .finished) :
    u.course w = w.rounds u.committed ++ [.ends u.committed] := by
  unfold ending? at hfinished
  unfold course
  split at hfinished
  · next hphase =>
    obtain rfl := Option.some.inj hfinished
    rw [hphase]
  · cases hfinished

/-- The requests of a user that has finished are those of its iterations, all of them and in
their order, and it has handed in as many tallies. -/
theorem finished (h : Steady w (scene, u)) (hfinished : u.ending? = some .finished) :
    scene.requests.map Prod.snd =
        (List.replicate u.committed (w.requests w.scenario.groups)).flatten ∧
      (scene.pick Happening.handed?).length = u.committed := by
  have hcourse := h.course_eq.trans (course_of_finished hfinished)
  obtain ⟨-, hcommit⟩ := w.countP_round
  constructor
  · rw [Scene.requests_eq, hcourse, List.filterMap_append, Workload.filterMap_rounds]
    exact List.append_nil _
  · rw [Scene.length_handed_eq, hcourse, List.countP_append, Workload.countP_rounds, hcommit,
      Nat.mul_one]
    rfl

end Steady

/-- The number of steps that a user takes once it is told to stop. -/
def stepsLeft (u : User) : Nat :=
  match u.phase with
  | .ready | .resting _ => 1
  | .busy it => it.later.length + 1
  | .ended _ => 0

/-- How a pause comes to its end: by time, after which the user looks for the word to stop as
before every iteration, or by that word. -/
inductive PauseEnds (w : Workload) (u : User) (scene : Scene) : Scene × User → Prop
  | byTime {wakes : Nat} (hphase : u.phase = .resting wakes) (hover : wakes ≤ scene.clock) :
      PauseEnds w u scene (u.next w scene)
  | byWord {wakes : Nat} (hphase : u.phase = .resting wakes) (htold : u.told = true) :
      PauseEnds w u scene (u.finish scene)

/-- Whichever way a pause ends, what comes of it is the same. -/
theorem PauseEnds.eq_step {w : Workload} {u : User} {scene : Scene} {outcome : Scene × User}
    (h : PauseEnds w u scene outcome) : outcome = u.step w scene := by
  cases h with
  | byTime hphase hover => simp [step, hphase, hover]
  | @byWord wakes hphase htold =>
    by_cases hover : wakes ≤ scene.clock
    · simp [step, hphase, hover, next_of_told htold]
    · simp [step, hphase, hover, htold]

section Opens

variable {w : Workload} {u : User} {scene : Scene} {outcome : Scene × User}

/-- An iteration is opened once. -/
theorem count_unsettled_le (u : User) : u.unsettled.count .opens ≤ 1 := by
  unfold unsettled
  split <;> decide

/-- Nor is it opened again while it is under way. -/
theorem Deed.opens_of_busy (h : Deed w (scene, u) outcome) {it : Iteration}
    (hbusy : u.phase = .busy it) : outcome.1.marked .opens = scene.marked .opens := by
  obtain ⟨new, hmarks, hsettles⟩ := h.marks
  rw [Scene.marked_of_pick hmarks]
  cases hsettles with
  | goesOn hunsettled =>
    dsimp only at hunsettled
    have honce := outcome.2.count_unsettled_le
    rw [hunsettled, unsettled_of_busy hbusy, List.singleton_append, List.count_cons_self] at honce
    omega
  | commits => rfl

/-- A user that was told to stop opens no iteration. -/
theorem Deed.opens_of_told (h : Deed w (scene, u) outcome) (htold : u.told = true) :
    outcome.1.marked .opens = scene.marked .opens := by
  have hgoing := h
  cases h with
  | begin | leave => exact Scene.marked_congr (Scene.pick_note_none _ rfl) _
  | start hfree hnot => exact absurd htold (by simp [hnot])
  | advance hbusy | commit hbusy | overflow hbusy | crash hbusy =>
    exact hgoing.opens_of_busy hbusy
  | queue => rfl

end Opens

section Told

variable {w : Workload} {u : User}

theorem stepsLeft_finish (scene : Scene) : (u.finish scene).2.stepsLeft = 0 := rfl

/-- A request that breaks nobody down leaves the groups after its own. -/
theorem stepsLeft_send (hcalm : w.transport.IsCalm) (scene : Scene) (tally : Tally)
    (group : Group) (later : List Group) :
    (u.proceed w (Iteration.send w u.name scene tally group later)).2.stepsLeft =
      later.length + 1 := by
  unfold Iteration.send
  dsimp only
  split
  · next message? hanswer => exact absurd hanswer ((hcalm _ _).1 message?)
  · rfl
  · rfl
  · rfl

/-- Every step that is due is one of those left, and no other step is. -/
theorem stepsLeft_step (hcalm : w.transport.IsCalm) {scene : Scene} (hroom : u.HasRoom scene)
    (hunharmed : u.Unharmed) (htold : u.told = true) :
    (u.step w scene).2.stepsLeft + (if u.isDue scene.clock then 1 else 0) = u.stepsLeft := by
  unfold step isDue
  cases hphase : u.phase with
  | ready =>
    have hleft : u.stepsLeft = 1 := by rw [stepsLeft, hphase]
    rw [hleft, next_of_told htold, stepsLeft_finish]
    rfl
  | busy it =>
    dsimp only
    split
    · next hdue =>
      obtain ⟨arrival, harrival, htime⟩ := Iteration.isDue_iff.1 hdue
      obtain ⟨reply, hreply⟩ := reply_of_unharmed hunharmed hphase harrival
      have hleft : u.stepsLeft = it.later.length + 1 := by rw [stepsLeft, hphase]
      rw [Iteration.resume_of_due harrival htime, hreply, hleft, Iteration.take,
        Iteration.receive_of_fits (hroom it reply hphase)]
      cases hlater : it.later with
      | nil => simp [Iteration.goOn, proceed, htold, stepsLeft_finish]
      | cons group later => rw [Iteration.goOn, stepsLeft_send hcalm]; rfl
    · rfl
  | resting wakes =>
    dsimp only
    have hleft : u.stepsLeft = 1 := by rw [stepsLeft, hphase]
    rw [hleft, htold]
    by_cases hover : wakes ≤ scene.clock
    · simp [hover, next_of_told htold, stepsLeft_finish]
    · simp [hover, stepsLeft_finish]
  | ended ending => rfl

/-- A request leaves no more than the groups from its own on. -/
theorem stepsLeft_send_le (scene : Scene) (tally : Tally) (group : Group) (later : List Group) :
    (u.proceed w (Iteration.send w u.name scene tally group later)).2.stepsLeft ≤
      later.length + 1 := by
  unfold Iteration.send
  dsimp only
  split
  · exact Nat.zero_le _
  · exact Nat.le_refl _
  · exact Nat.le_refl _
  · exact Nat.le_refl _

/-- Every step that is due takes a user that was told to stop nearer to its end, also one that
breaks it down. -/
theorem stepsLeft_step_lt (htold : u.told = true) {scene : Scene}
    (hdue : u.isDue scene.clock = true) : (u.step w scene).2.stepsLeft < u.stepsLeft := by
  unfold isDue at hdue
  unfold step
  cases hphase : u.phase with
  | ready =>
    have hleft : u.stepsLeft = 1 := by rw [stepsLeft, hphase]
    rw [hleft, next_of_told htold, stepsLeft_finish]
    exact Nat.one_pos
  | busy it =>
    rw [hphase] at hdue
    have hleft : u.stepsLeft = it.later.length + 1 := by rw [stepsLeft, hphase]
    obtain ⟨⟨time, news⟩, harrival, htime⟩ := Iteration.isDue_iff.1 hdue
    dsimp only
    rw [if_pos hdue, Iteration.resume_of_due harrival htime, hleft]
    cases news with
    | crash message? => exact Nat.succ_pos _
    | reply reply =>
      rw [Iteration.take]
      cases hover : it.overflows scene reply with
      | true =>
        rw [Iteration.receive_of_overflows hover]
        exact Nat.succ_pos _
      | false =>
        rw [Iteration.receive_of_fits hover]
        cases hlater : it.later with
        | nil => simp [Iteration.goOn, proceed, htold, stepsLeft_finish]
        | cons group later => exact Nat.lt_succ_of_le (stepsLeft_send_le _ _ _ _)
  | resting wakes =>
    have hleft : u.stepsLeft = 1 := by rw [stepsLeft, hphase]
    rw [hleft]
    dsimp only
    rw [next_of_told htold, if_pos htold, ite_self, stepsLeft_finish]
    exact Nat.one_pos
  | ended ending =>
    rw [hphase] at hdue
    cases hdue

/-- A user that was told to stop and has not ended is due once its reply, if it waits for one,
has come. -/
theorem isDue_of_told (hawaits : u.Awaits) (htold : u.told = true) (hgoing : u.ending? = none) :
    (∀ clock, u.isDue clock = true) ∨
      ∃ time, u.wakes? = some time ∧ ∀ clock, time ≤ clock → u.isDue clock = true := by
  unfold isDue wakes?
  cases hphase : u.phase with
  | ready => exact .inl fun _ => rfl
  | resting wakes => exact .inl fun _ => by simp [htold]
  | ended ending => simp [ending?, hphase] at hgoing
  | busy it =>
    obtain ⟨arrival, harrival⟩ := Option.ne_none_iff_exists'.1 (hawaits it hphase)
    refine .inr ⟨arrival.time, by simp [harrival], fun clock hclock => ?_⟩
    exact Iteration.isDue_iff.2 ⟨arrival, harrival, hclock⟩

end Told

end User

namespace Solo

open User

variable {w : Workload}

/-! ## What acts keep -/

section Keeps

variable {P : Scene × User → Prop}
  (hdeed : ∀ before after, Deed w before after → P before → P after)
  (htell : ∀ scene u, P (scene, u) → P (User.tell u scene))
  (hwait : ∀ scene u time, P (scene, u) → P (scene.waitUntil time, u))

include hdeed htell hwait

theorem perform_keeps {s : Solo} (h : P (s.scene, s.user)) (act : Act) :
    P ((s.perform w act).scene, (s.perform w act).user) := by
  cases act with
  | wait time => exact hwait _ _ time h
  | tell =>
    cases htold : s.user.told with
    | true =>
      have hsame : s.perform w .tell = s := by simp [perform, htold]
      rw [hsame]
      exact h
    | false =>
      have hheard : s.perform w .tell = ⟨(s.user.tell s.scene).1, (s.user.tell s.scene).2⟩ := by
        simp [perform, htold]
      rw [hheard]
      exact htell _ _ h
  | step =>
    have hchain := User.step_deeds w s.user s.scene
    change P (s.user.step w s.scene)
    generalize s.user.step w s.scene = outcome at hchain
    induction hchain with
    | refl => exact h
    | tail _ hstep ih => exact hdeed _ _ hstep ih

/-- What every deed and every word to stop keeps, and time has no part in, every list of acts
keeps. -/
theorem performAll_keeps {s : Solo} (h : P (s.scene, s.user)) (acts : List Act) :
    P ((performAll w s acts).scene, (performAll w s acts).user) := by
  induction acts generalizing s with
  | nil => exact h
  | cons act rest ih => exact ih (perform_keeps hdeed htell hwait h act)

end Keeps

/-- A user that is steady as long as the time that passed is a duration. -/
structure Sound (w : Workload) (state : Scene × User) : Prop where
  roomy : Roomy state
  steady : state.1.clock < Duration.limit → Steady w state

theorem sound_performAll (hcalm : w.transport.IsCalm) {s : Solo}
    (h : Sound w (s.scene, s.user)) (acts : List Act) :
    Sound w ((performAll w s acts).scene, (performAll w s acts).user) := by
  refine performAll_keeps (P := Sound w) ?_ ?_ ?_ h acts
  · intro before after hdeed h
    refine ⟨h.roomy.of_spends (hdeed.spends h.roomy.ascending), fun hfits => ?_⟩
    rw [hdeed.atOnce.1] at hfits
    exact hdeed.steady hcalm (h.roomy.hasRoom hfits) (h.steady hfits)
  · intro scene u h
    refine ⟨h.roomy.of_spends (spends_tell h.roomy.ascending), fun hfits => ?_⟩
    rw [clock_tell] at hfits
    exact steady_tell (h.steady hfits)
  · intro scene u time h
    refine ⟨⟨h.roomy.ascending, fun id => ?_⟩, fun hfits => ?_⟩
    · exact Nat.le_trans (h.roomy.total_le id) (u.rested_mono (Nat.le_max_left _ _))
    · have hsteady := h.steady (Nat.lt_of_le_of_lt (Nat.le_max_left _ _) hfits)
      exact ⟨hsteady.unharmed, hsteady.ending_cases, hsteady.fits, hsteady.course_eq,
        hsteady.isOpen, hsteady.counted, hsteady.handed⟩

theorem awaits_performAll (hreplies : w.transport.Replies) {s : Solo} (h : s.user.Awaits)
    (acts : List Act) : (performAll w s acts).user.Awaits :=
  performAll_keeps (P := fun state => state.2.Awaits)
    (fun _ _ hdeed => hdeed.awaits hreplies)
    (fun scene u h => by simpa only [Awaits, phase_tell] using h) (fun _ _ _ h => h) h acts

theorem clock_le_performAll (s : Solo) (acts : List Act) :
    s.scene.clock ≤ (performAll w s acts).scene.clock :=
  performAll_keeps (P := fun state => s.scene.clock ≤ state.1.clock)
    (fun _ _ hdeed h => hdeed.atOnce.1 ▸ h) (fun scene u h => (clock_tell u scene).symm ▸ h)
    (fun _ _ _ h => Nat.le_trans h (Nat.le_max_left _ _)) (Nat.le_refl _) acts

/-- A user that was told to stop opens no iteration, whatever it does. -/
theorem opens_performAll {s : Solo} (htold : s.user.told = true) (acts : List Act) :
    (performAll w s acts).user.told = true ∧
      (performAll w s acts).scene.marked .opens = s.scene.marked .opens :=
  performAll_keeps
    (P := fun state => state.2.told = true ∧ state.1.marked .opens = s.scene.marked .opens)
    (fun _ _ hdeed h =>
      ⟨hdeed.told_eq.trans h.1, (hdeed.opens_of_told h.1).trans h.2⟩)
    (fun scene u h =>
      ⟨told_tell u scene, (Scene.marked_congr (Run.pick_tell_none _ rfl) _).trans h.2⟩)
    (fun _ _ _ h => h) ⟨htold, rfl⟩ acts

/-- What the word to stop does, whether it is the first one or not. -/
theorem heeds_tell (s : Solo) :
    (s.perform w .tell).user.told = true ∧
      (s.perform w .tell).scene.marked .opens = s.scene.marked .opens ∧
      (s.perform w .tell).user.stepsLeft = s.user.stepsLeft := by
  unfold perform
  dsimp only
  split
  · next htold => exact ⟨htold, rfl, rfl⟩
  · refine ⟨told_tell s.user s.scene, Scene.marked_congr (Run.pick_tell_none _ rfl) _, ?_⟩
    simp only [stepsLeft, phase_tell]

/-- The steps of a list of acts that are due when they are taken. -/
def dueSteps (w : Workload) (s : Solo) : List Act → Nat
  | [] => 0
  | act :: rest =>
    (if act = .step ∧ s.user.isDue s.scene.clock then 1 else 0) + dueSteps w (s.perform w act) rest

theorem stepsLeft_performAll (hcalm : w.transport.IsCalm) {s : Solo}
    (h : Sound w (s.scene, s.user)) (htold : s.user.told = true) (acts : List Act)
    (hfits : (performAll w s acts).scene.clock < Duration.limit) :
    (performAll w s acts).user.stepsLeft + dueSteps w s acts = s.user.stepsLeft := by
  induction acts generalizing s with
  | nil => rfl
  | cons act rest ih =>
    have hnow : s.scene.clock < Duration.limit :=
      Nat.lt_of_le_of_lt (clock_le_performAll s (act :: rest)) hfits
    have hleft := ih (s := s.perform w act) (sound_performAll hcalm h [act])
      (opens_performAll htold [act]).1 hfits
    have hone : (s.perform w act).user.stepsLeft +
        (if act = .step ∧ s.user.isDue s.scene.clock then 1 else 0) = s.user.stepsLeft := by
      cases act with
      | step =>
        simp only [true_and]
        exact stepsLeft_step hcalm (h.roomy.hasRoom hnow) (h.steady hnow).unharmed htold
      | wait time => rfl
      | tell => simp [perform, htold]
    change (performAll w (s.perform w act) rest).user.stepsLeft + (_ + _) = _
    omega

/-! ## The end of a user that was told to stop -/

theorem isEnded_of_stepsLeft {u : User} (hleft : u.stepsLeft = 0) : u.isEnded = true := by
  unfold stepsLeft at hleft
  split at hleft
  · cases hleft
  · cases hleft
  · cases hleft
  · next ending hphase => simp [isEnded, ending?, hphase]

/-- A user that was told to stop takes its step as soon as it is due. -/
theorem play_step {s : Solo} (htold : s.user.told = true) (hgoing : s.user.isEnded = false)
    (hdue : s.user.isDue s.scene.clock = true) (acts : Nat) :
    play w .never (acts + 1) s = play w .never acts (s.perform w .step) := by
  simp [play, nextAct?, htold, hgoing, hdue]

/-- Until then it waits. -/
theorem play_wait {s : Solo} (htold : s.user.told = true) (hgoing : s.user.isEnded = false)
    (hdue : s.user.isDue s.scene.clock = false) {time : Nat} (hwakes : s.user.wakes? = some time)
    (acts : Nat) :
    play w .never (acts + 1) s = play w .never acts (s.perform w (.wait time)) := by
  simp [play, nextAct?, nextInstant?, htold, hgoing, hdue, hwakes]

/-- Played on, a user that was told to stop comes to its end. -/
theorem exists_play_ended (hreplies : w.transport.Replies) {s : Solo}
    (htold : s.user.told = true) (hawaits : s.user.Awaits) :
    ∃ acts, (play w .never acts s).user.isEnded = true := by
  -- Induction on the steps left: the next one is due at once, or after one wait.
  induction hleft : s.user.stepsLeft using Nat.strongRecOn generalizing s with
  | ind left ih =>
    cases hgoing : s.user.isEnded with
    | true => exact ⟨0, hgoing⟩
    | false =>
      -- What a step comes to once it is due.
      have hstep {t : Solo} (httold : t.user.told = true) (hta : t.user.Awaits)
          (htleft : t.user.stepsLeft = left) (hdue : t.user.isDue t.scene.clock = true) :
          ∃ acts, (play w .never acts (t.perform w .step)).user.isEnded = true := by
        have hless : (t.perform w .step).user.stepsLeft < t.user.stepsLeft :=
          stepsLeft_step_lt httold hdue
        exact ih _ (htleft ▸ hless) (opens_performAll httold [.step]).1
          (awaits_performAll hreplies hta [.step]) rfl
      have hopen : s.user.ending? = none := by simpa [isEnded] using hgoing
      cases hdue : s.user.isDue s.scene.clock with
      | true =>
        obtain ⟨acts, hended⟩ := hstep htold hawaits hleft hdue
        exact ⟨acts + 1, by rw [play_step htold hgoing hdue]; exact hended⟩
      | false =>
        rcases isDue_of_told hawaits htold hopen with hnow | ⟨time, hwakes, hlater⟩
        · rw [hnow] at hdue
          cases hdue
        · have hthen : s.user.isDue (s.scene.waitUntil time).clock = true :=
            hlater _ (Nat.le_max_right _ _)
          obtain ⟨acts, hended⟩ := hstep (t := s.perform w (.wait time)) htold hawaits hleft hthen
          refine ⟨acts + 2, ?_⟩
          rw [play_wait htold hgoing hdue hwakes]
          rw [play_step (s := s.perform w (.wait time)) htold hgoing hthen]
          exact hended

theorem sound_ready (w : Workload) (name : String) :
    Sound w ((ready name).scene, (ready name).user) where
  roomy := ⟨.nil, fun _ => Nat.le_refl _⟩
  steady := fun _ =>
    { unharmed := trivial
      ending_cases := .inl rfl
      fits := fits_of_not_busy fun _ hit => by cases hit
      course_eq := rfl
      isOpen := rfl
      counted := rfl
      handed := nofun }

/-- Without a step of the user no iteration is opened. -/
theorem opens_of_no_step {s : Solo} {acts : List Act} (hnone : .step ∉ acts) :
    (performAll w s acts).scene.marked .opens = s.scene.marked .opens := by
  induction acts generalizing s with
  | nil => rfl
  | cons act rest ih =>
    have hrest := ih (s := s.perform w act) fun hmem => hnone (List.mem_cons_of_mem _ hmem)
    refine hrest.trans ?_
    cases act with
    | step => exact absurd List.mem_cons_self hnone
    | wait time => rfl
    | tell => exact (heeds_tell s).2.1

/-- A user that is told to stop, at whatever moment, starts no iteration after that and finishes
the one under way.  When every request gets a reply after a while, and whatever comes before the
word and after it:

* it never opens an iteration again, and it has opened none if it has not taken a step before;
* when it has ended, it has ended by itself; it has done all its iterations in full, one after
  the other, and their number is the one it says, the one of tallies handed in and the one
  that the ledger has counted;
* each step that is due takes it one step nearer to its end, and played on it gets there;
* when its pause is over and the word has come, it does not matter which of the two it sees.

What is said of its steps and of its end asks that the time that passed is a duration, as it is
on every clock: a user whose response times add up to more breaks down. -/
theorem stop_finishes (w : Workload) (name : String) (hreplies : w.transport.Replies)
    (before after : List Act) :
    let s := performAll w (ready name) before
    let t := performAll w (s.perform w .tell) after
    let k := s.scene.marked .opens
    t.scene.marked .opens = k ∧ (.step ∉ before → k = 0) ∧
      (t.scene.clock < Duration.limit →
        (∀ ending, t.user.ending? = some ending →
          ending = .finished ∧ t.user.committed = k ∧
            t.scene.pick Happening.doing? = w.rounds k ++ [.ends k] ∧
            t.scene.requests.map Prod.snd =
              (List.replicate k (w.requests w.scenario.groups)).flatten ∧
            t.scene.requests.length = k * w.scenario.groups.length ∧
            (t.scene.pick Happening.handed?).length = k ∧
            (∀ tally ∈ t.scene.pick Happening.handed?, tally.IsOf w.scenario) ∧
            t.scene.ledger.completed + t.scene.ledger.failed = k) ∧
          t.user.stepsLeft + dueSteps w (s.perform w .tell) after = s.user.stepsLeft) ∧
      (∃ acts, (play w .never acts t).user.isEnded = true) ∧
      ∀ outcome, t.user.PauseEnds w t.scene outcome → outcome = t.user.step w t.scene := by
  intro s t k
  have hcalm := hreplies.isCalm
  have hs : Sound w (s.scene, s.user) := sound_performAll hcalm (sound_ready w name) before
  obtain ⟨htold, hsame, hleft⟩ := heeds_tell (w := w) s
  have hheard : Sound w ((s.perform w .tell).scene, (s.perform w .tell).user) :=
    sound_performAll hcalm hs [.tell]
  have ht : Sound w (t.scene, t.user) := sound_performAll hcalm hheard after
  obtain ⟨htold', hopens⟩ := opens_performAll (w := w) htold after
  have hready : (ready name).user.Awaits := fun _ hit => by cases hit
  have hawaits : t.user.Awaits :=
    awaits_performAll hreplies (awaits_performAll hreplies
      (awaits_performAll hreplies hready before) [.tell]) after
  refine ⟨hopens.trans hsame, fun hnone => opens_of_no_step hnone, fun hfits => ⟨?_, ?_⟩,
    exists_play_ended hreplies htold' hawaits, fun _ h => h.eq_step⟩
  · intro ending hending
    have ht := ht.steady hfits
    have hfinished : t.user.ending? = some .finished :=
      ht.ending_cases.resolve_left fun hnone => by cases hending.symm.trans hnone
    obtain ⟨hrequests, hhanded⟩ := User.finished ht hfinished
    have hcommitted : t.user.committed = k := by
      have hopened : t.scene.marked .opens = t.user.opened := marked_opens ht
      rw [opened, isBusy_of_ended hending] at hopened
      exact hopened.symm.trans (hopens.trans hsame)
    rw [hcommitted] at hrequests hhanded
    refine ⟨Option.some.inj (hending.symm.trans hfinished), hcommitted, ?_, hrequests, ?_,
      hhanded, ht.handed, ht.counted.trans hcommitted⟩
    · rw [ht.course_eq, course_of_finished hfinished, hcommitted]
    · rw [← List.length_map (f := Prod.snd), hrequests, List.length_flatten, List.map_replicate,
        List.sum_replicate_nat, Workload.requests, List.length_map]
  · exact (stepsLeft_performAll hcalm hheard htold after hfits).trans hleft

/-- A user with two groups that is told to stop while it waits for its first reply: it sends the
second request all the same, commits its iteration and ends. -/
theorem stop_finishes_midway :
    let scenario : Scenario :=
      ⟨"browse", [⟨"list", .get, "/books", [], none, []⟩, ⟨"buy", .post, "/orders", [], none, []⟩],
        by simp, by simp, by simp [Group.descriptions]⟩
    let w : Workload :=
      { scenario, baseUrl := "http://localhost", transport := Transport.disconnected,
        delay := Duration.zero }
    let t := performAll w ((performAll w (ready "vu-0") [.step]).perform w .tell) [.step, .step]
    w.transport.Replies ∧ t.scene.clock < Duration.limit ∧
      t.user.ending? = some .finished ∧ t.user.committed = 1 ∧
      t.scene.marked .opens = 1 ∧ t.scene.requests.length = 2 ∧
      t.scene.ledger.completed + t.scene.ledger.failed = 1 := by
  intro scenario w
  have hreplies : w.transport.Replies := fun _ _ => ⟨_, _, rfl⟩
  have hone : (performAll w (ready "vu-0") [.step]).scene.marked .opens = 1 := by decide +kernel
  have hall := stop_finishes w "vu-0" hreplies [.step] [.step, .step]
  dsimp only at hall ⊢
  -- From here on the run has a name, and only the kernel evaluates it.
  generalize ht : performAll w ((performAll w (ready "vu-0") [.step]).perform w .tell)
    [.step, .step] = t at hall ⊢
  have hfits : t.scene.clock < Duration.limit := by
    subst ht
    decide +kernel
  have hfinished : t.user.ending? = some .finished := by
    subst ht
    decide +kernel
  rw [hone] at hall
  obtain ⟨hopens, -, hended, -⟩ := hall
  obtain ⟨-, hcommitted, -, -, hlength, -, -, hcounted⟩ := (hended hfits).1 _ hfinished
  exact ⟨hreplies, hfits, hfinished, hcommitted, hopens, hlength, hcounted⟩

end Solo
end LoadRamp
