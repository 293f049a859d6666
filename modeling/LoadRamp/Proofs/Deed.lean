import LoadRamp.Proofs.History
import LoadRamp.User
import Mathlib.Logic.Relation

/-!
# What a user does by itself

`User.step` takes a user from one wait to the next and does several things on
the way.  This module takes a step apart into deeds, each of which changes the
scene and the user in one way only:

* `Sent` is what sending the request of a group comes to: the user waits for a
  reply or breaks down at once;
* `Deed` lists the deeds with everything that makes them possible;
* `step_deeds` says that every step is a chain of deeds, so that what each deed
  keeps is kept by every step, in a run as well as for a user on its own.
-/

namespace LoadRamp

/-- The news of an answer that are on their way from an instant on. -/
def Answer.arrival? (clock : Nat) : Answer → Option Arrival
  | .crash _ | .never => none
  | .reply delay message => some ⟨clock + delay.nanos, .reply message⟩
  | .crashLater delay message? => some ⟨clock + delay.nanos, .crash message?⟩

namespace Iteration

/-- Whether the timing of a reply that has come breaks its user down. -/
def overflows (it : Iteration) (scene : Scene) (reply : Http.Reply) : Bool :=
  scene.ledger.overflows (scene.timingSince it.group.name it.since (isError reply))

/-- The scene once a reply has come and its timing counts. -/
def timed (user : String) (scene : Scene) (it : Iteration) (reply : Http.Reply) : Scene :=
  (scene.recordSince it.group.name it.since (isError reply)).note
    (.answered user it.group.name (isError reply))

/-- The scene once it is noted, too, what is wrong with the reply. -/
def received (w : Workload) (user : String) (scene : Scene) (it : Iteration)
    (reply : Http.Reply) : Scene :=
  (timed user scene it reply).noteAll (remarks w user it.group reply)

section Receive

variable {w : Workload} {user : String} {scene : Scene} {it : Iteration} {reply : Http.Reply}

theorem receive_of_fits (hfits : it.overflows scene reply = false) :
    receive w user scene it reply =
      goOn w user (received w user scene it reply)
        (w.scenario.extendTally it.tally it.group reply) it.later := by
  unfold receive
  unfold overflows at hfits
  simp only [hfits, Bool.false_eq_true, if_false]
  rfl

theorem receive_of_overflows (hover : it.overflows scene reply = true) :
    receive w user scene it reply =
      ((timed user scene it reply).note (.breaks user (some Notice.overflow.text)),
        .broken (some Notice.overflow.text)) := by
  unfold receive
  unfold overflows at hover
  simp only [hover, if_true]
  rfl

end Receive

theorem isDue_iff {it : Iteration} {clock : Nat} :
    it.isDue clock = true ↔ ∃ arrival, it.arrival? = some arrival ∧ arrival.time ≤ clock := by
  unfold isDue
  split
  · next harrival => simp [harrival]
  · next arrival harrival => simp [harrival]

theorem resume_of_due {w : Workload} {user : String} {scene : Scene} {it : Iteration}
    {arrival : Arrival} (harrival : it.arrival? = some arrival)
    (hdue : arrival.time ≤ scene.clock) :
    it.resume w user scene = it.take w user scene arrival.news := by
  simp [resume, harrival, hdue]

end Iteration

namespace User

/-- Whether a user is in no iteration and has not ended. -/
def isFree (u : User) : Bool :=
  match u.phase with
  | .ready | .resting _ => true
  | .busy _ | .ended _ => false

/-- What sending the request of a group comes to. -/
inductive Sent (w : Workload) (u : User) (group : Group) (later : List Group) (tally : Tally)
    (scene : Scene) : Scene × User → Prop
  /-- The user waits for the reply. -/
  | waits
      (hanswer : ∀ message?,
        w.transport (scene.sent + 1) (group.request w.baseUrl) ≠ .crash message?) :
      Sent w u group later tally scene
        ((scene.note (.sends u.name (group.request w.baseUrl))).countRequest,
          { u with
            phase := .busy ⟨group, later, tally, scene.clock,
              (w.transport (scene.sent + 1) (group.request w.baseUrl)).arrival? scene.clock⟩ })
  /-- The user breaks down. -/
  | breaks {message? : Option String}
      (hanswer : w.transport (scene.sent + 1) (group.request w.baseUrl) = .crash message?) :
      Sent w u group later tally scene
        (((scene.note (.sends u.name (group.request w.baseUrl))).countRequest).note
            (.breaks u.name message?),
          { u with phase := .ended (.crashed message?) })

/-- A deed of a user: what it does to the scene and to itself. -/
inductive Deed (w : Workload) : Scene × User → Scene × User → Prop
  /-- It takes its first step. -/
  | begin {scene : Scene} {u : User} (hphase : u.phase = .ready) :
      Deed w (scene, u) (scene.note (.begins u.name), u)
  /-- It was told to stop and does so. -/
  | leave {scene : Scene} {u : User} (hfree : u.isFree = true) (htold : u.told = true) :
      Deed w (scene, u) (u.finish scene)
  /-- It starts an iteration. -/
  | start {scene : Scene} {u : User} {group : Group} {later : List Group}
      {outcome : Scene × User} (hfree : u.isFree = true) (htold : u.told = false)
      (hgroups : w.scenario.groups = group :: later)
      (hsent : Sent w u group later Tally.empty (scene.note (.opens u.name)) outcome) :
      Deed w (scene, u) outcome
  /-- It takes a reply whose timing fits and goes on with the next group. -/
  | advance {scene : Scene} {u : User} {it : Iteration} {time : Nat} {reply : Http.Reply}
      {group : Group} {later : List Group} {outcome : Scene × User}
      (hbusy : u.phase = .busy it) (harrival : it.arrival? = some ⟨time, .reply reply⟩)
      (hdue : time ≤ scene.clock) (hlater : it.later = group :: later)
      (hsent : Sent w u group later (w.scenario.extendTally it.tally it.group reply)
        (Iteration.received w u.name scene it reply) outcome)
      (hfits : it.overflows scene reply = false) :
      Deed w (scene, u) outcome
  /-- It takes the last reply, whose timing fits, and hands its outcomes in. -/
  | commit {scene : Scene} {u : User} {it : Iteration} {time : Nat} {reply : Http.Reply}
      (hbusy : u.phase = .busy it) (harrival : it.arrival? = some ⟨time, .reply reply⟩)
      (hdue : time ≤ scene.clock) (hlater : it.later = [])
      (hfits : it.overflows scene reply = false) :
      Deed w (scene, u)
        (((Iteration.received w u.name scene it reply).commit
            (w.scenario.extendTally it.tally it.group reply)).note
          (.commits u.name (w.scenario.extendTally it.tally it.group reply)),
          { u with
            committed := u.committed + 1
            phase := .resting
              ((Iteration.received w u.name scene it reply).clock + w.delay.nanos) })
  /-- It takes a reply and breaks down over its timing. -/
  | overflow {scene : Scene} {u : User} {it : Iteration} {time : Nat} {reply : Http.Reply}
      (hbusy : u.phase = .busy it) (harrival : it.arrival? = some ⟨time, .reply reply⟩)
      (hdue : time ≤ scene.clock) (hover : it.overflows scene reply = true) :
      Deed w (scene, u)
        ((Iteration.timed u.name scene it reply).note
            (.breaks u.name (some Notice.overflow.text)),
          { u with phase := .ended (.crashed (some Notice.overflow.text)) })
  /-- It breaks down while it waits for a reply. -/
  | crash {scene : Scene} {u : User} {it : Iteration} {time : Nat} {message? : Option String}
      (hbusy : u.phase = .busy it) (harrival : it.arrival? = some ⟨time, .crash message?⟩)
      (hdue : time ≤ scene.clock) :
      Deed w (scene, u)
        (scene.note (.breaks u.name message?), { u with phase := .ended (.crashed message?) })
  /-- It begins to wait. -/
  | queue {scene : Scene} {u : User} :
      Deed w (scene, u) (scene.countWait, { u with turn := scene.waits })

/-- One deed after the other. -/
abbrev Deeds (w : Workload) : Scene × User → Scene × User → Prop :=
  Relation.ReflTransGen (Deed w)

/-- Sending a request is a deed of its own, after which the user begins to wait. -/
theorem proceed_send_deeds {w : Workload} {u : User} {scene first : Scene} {tally : Tally}
    {group : Group} {later : List Group}
    (hdeed : ∀ outcome, Sent w u group later tally scene outcome → Deed w (first, u) outcome) :
    Deeds w (first, u) (u.proceed w (Iteration.send w u.name scene tally group later)) := by
  have hwaits (harmless : ∀ message?,
      w.transport (scene.sent + 1) (group.request w.baseUrl) ≠ .crash message?) :=
    (Relation.ReflTransGen.single (hdeed _ (.waits harmless))).tail .queue
  -- In every case but a breakdown the user waits, if need be for ever.
  unfold Iteration.send
  dsimp only
  split
  · next message? hanswer => exact .single (hdeed _ (.breaks hanswer))
  · next hanswer =>
    change w.transport (scene.sent + 1) _ = _ at hanswer
    have hchain := hwaits (by simp [hanswer])
    rw [hanswer] at hchain
    exact hchain
  · next delay reply hanswer =>
    change w.transport (scene.sent + 1) _ = _ at hanswer
    have hchain := hwaits (by simp [hanswer])
    rw [hanswer] at hchain
    exact hchain
  · next delay message? hanswer =>
    change w.transport (scene.sent + 1) _ = _ at hanswer
    have hchain := hwaits (by simp [hanswer])
    rw [hanswer] at hchain
    exact hchain

/-- Between two iterations a user starts the next one, or ends if it was told to. -/
theorem next_deeds (w : Workload) (u : User) (scene : Scene) (hfree : u.isFree = true) :
    Deeds w (scene, u) (u.next w scene) := by
  unfold next
  cases htold : u.told with
  | true => exact .single (.leave hfree htold)
  | false =>
    obtain ⟨group, later, hgroups⟩ := List.exists_cons_of_ne_nil w.scenario.nonempty
    simp only [Bool.false_eq_true, if_false, Iteration.start, hgroups, Iteration.goOn]
    exact proceed_send_deeds fun _ hsent => .start hfree htold hgroups hsent

/-- In an iteration a user takes a reply and goes on, or breaks down. -/
theorem take_deeds (w : Workload) (u : User) (scene : Scene) {it : Iteration} {arrival : Arrival}
    (hbusy : u.phase = .busy it) (harrival : it.arrival? = some arrival)
    (hdue : arrival.time ≤ scene.clock) :
    Deeds w (scene, u) (u.proceed w (it.take w u.name scene arrival.news)) := by
  obtain ⟨time, news⟩ := arrival
  cases news with
  | crash message? => exact .single (.crash hbusy harrival hdue)
  | reply reply =>
    rw [Iteration.take]
    cases hover : it.overflows scene reply with
    | true =>
      rw [Iteration.receive_of_overflows hover]
      exact .single (.overflow hbusy harrival hdue hover)
    | false =>
      rw [Iteration.receive_of_fits hover]
      cases hlater : it.later with
      | cons group later =>
        simp only [Iteration.goOn]
        exact proceed_send_deeds fun _ hsent =>
          .advance hbusy harrival hdue hlater hsent hover
      | nil =>
        simp only [Iteration.goOn, proceed]
        have hcommit := Relation.ReflTransGen.single
          (Deed.commit (w := w) hbusy harrival hdue hlater hover)
        -- The user that was told to stop rests for no time at all.
        split
        · next htold => exact hcommit.tail (.leave rfl htold)
        · exact hcommit.tail .queue

/-- Every step of a user is a chain of deeds. -/
theorem step_deeds (w : Workload) (u : User) (scene : Scene) :
    Deeds w (scene, u) (u.step w scene) := by
  unfold step
  cases hphase : u.phase with
  | ready =>
    exact (next_deeds w u _ (by simp [isFree, hphase])).head (.begin hphase)
  | busy it =>
    dsimp only
    split
    · next hit =>
      obtain ⟨arrival, harrival, hdue⟩ := Iteration.isDue_iff.1 hit
      rw [Iteration.resume_of_due harrival hdue]
      exact take_deeds w u scene hphase harrival hdue
    · exact .refl
  | resting wakes =>
    have hfree : u.isFree = true := by simp [isFree, hphase]
    -- When the pause is over and the word to stop is there too, `next` sees the latter.
    by_cases hwake : wakes ≤ scene.clock
    · simp only [hwake, if_true]
      exact next_deeds w u scene hfree
    · simp only [hwake, if_false]
      split
      · next htold => exact .single (.leave hfree htold)
      · exact .refl
  | ended ending => exact .refl

/-! ## What every deed keeps -/

/-- A remark about a reply says that the request or one of the checks failed. -/
theorem mem_remarks {w : Workload} {user : String} {group : Group} {reply : Http.Reply}
    {what : Happening} (hwhat : what ∈ Iteration.remarks w user group reply) :
    (∃ error, what = .requestFailed user group.name error) ∨
      ∃ key reason, what = .checkFailed user key reason := by
  cases reply with
  | error error =>
    rw [Iteration.remarks, List.mem_singleton] at hwhat
    exact .inl ⟨error, hwhat⟩
  | ok response =>
    obtain ⟨entry, _, hentry⟩ := List.mem_filterMap.1 hwhat
    split at hentry
    · cases hentry
    · next reason _ =>
      obtain rfl := Option.some.inj hentry
      exact .inr ⟨entry.1, reason, rfl⟩

/-- Of what is read off a history a timing concerns nothing but replies. -/
theorem pick_timed {α : Type} {f : Happening → Option α} {user : String} {scene : Scene}
    {it : Iteration} {reply : Http.Reply}
    (hanswered : ∀ group isError, f (.answered user group isError) = none) :
    (it.timed user scene reply).pick f = scene.pick f :=
  (Scene.pick_note_none _ (hanswered _ _)).trans (Scene.pick_of_history _ rfl)

/-- What is read off a history is as before a reply, unless it is about replies. -/
theorem pick_received {α : Type} {f : Happening → Option α} {w : Workload} {user : String}
    {scene : Scene} {it : Iteration} {reply : Http.Reply}
    (hanswered : ∀ group isError, f (.answered user group isError) = none)
    (hrequest : ∀ group error, f (.requestFailed user group error) = none)
    (hcheck : ∀ key reason, f (.checkFailed user key reason) = none) :
    (it.received w user scene reply).pick f = scene.pick f := by
  have hremarks : ∀ what ∈ Iteration.remarks w user it.group reply, f what = none := by
    intro what hwhat
    rcases mem_remarks hwhat with ⟨error, rfl⟩ | ⟨key, reason, rfl⟩
    · exact hrequest _ _
    · exact hcheck _ _
  rw [Iteration.received, Scene.pick_noteAll _ hremarks, pick_timed hanswered]

theorem continues_timed {user : String} {scene : Scene} {it : Iteration} {reply : Http.Reply} :
    scene.Continues user (it.timed user scene reply) :=
  (Scene.Continues.of_history rfl).note rfl

theorem continues_received {w : Workload} {user : String} {scene : Scene} {it : Iteration}
    {reply : Http.Reply} : scene.Continues user (it.received w user scene reply) := by
  refine continues_timed.noteAll fun what hwhat => ?_
  rcases mem_remarks hwhat with ⟨error, rfl⟩ | ⟨key, reason, rfl⟩
  · rfl
  · rfl

section Kept

variable {w : Workload} {u : User} {scene : Scene} {outcome : Scene × User}

section Sent

variable {group : Group} {later : List Group} {tally : Tally}

theorem Sent.continues (h : Sent w u group later tally scene outcome) :
    scene.Continues u.name outcome.1 := by
  have hsends (request : Http.Request) :
      scene.Continues u.name (scene.note (.sends u.name request)).countRequest :=
    (Scene.Continues.of_history rfl).note rfl
  cases h with
  | waits => exact hsends _
  | breaks => exact (hsends _).note rfl

theorem Sent.ledger_eq (h : Sent w u group later tally scene outcome) :
    outcome.1.ledger = scene.ledger := by
  cases h <;> rfl

theorem Sent.name_eq (h : Sent w u group later tally scene outcome) :
    outcome.2.name = u.name := by
  cases h <;> rfl

theorem Sent.told_eq (h : Sent w u group later tally scene outcome) :
    outcome.2.told = u.told := by
  cases h <;> rfl

theorem Sent.ending_cases (h : Sent w u group later tally scene outcome) :
    outcome.2.ending? = none ∨ ∃ message?, outcome.2.ending? = some (.crashed message?) := by
  cases h with
  | waits => exact .inl rfl
  | breaks => exact .inr ⟨_, rfl⟩

end Sent

theorem ending?_of_free (hfree : u.isFree = true) : u.ending? = none := by
  unfold isFree at hfree
  unfold ending?
  split at hfree <;> simp_all

theorem ending?_of_busy {it : Iteration} (hbusy : u.phase = .busy it) : u.ending? = none := by
  simp [ending?, hbusy]

/-- A deed adds nothing to the history but doings of its user. -/
theorem Deed.continues (h : Deed w (scene, u) outcome) : scene.Continues u.name outcome.1 := by
  have hsame : scene.Continues u.name scene := .of_history rfl
  cases h with
  | begin => exact hsame.note rfl
  | leave => exact hsame.note rfl
  | start hfree htold hgroups hsent => exact (hsame.note rfl).trans hsent.continues
  | advance hbusy harrival hdue hlater hsent => exact continues_received.trans hsent.continues
  | commit => exact (continues_received.trans (.of_history rfl)).note rfl
  | overflow => exact continues_timed.note rfl
  | crash => exact hsame.note rfl
  | queue => exact hsame

theorem Deed.name_eq (h : Deed w (scene, u) outcome) : outcome.2.name = u.name := by
  cases h with
  | start hfree htold hgroups hsent => exact hsent.name_eq
  | advance hbusy harrival hdue hlater hsent => exact hsent.name_eq
  | _ => rfl

theorem Deed.told_eq (h : Deed w (scene, u) outcome) : outcome.2.told = u.told := by
  cases h with
  | start hfree htold hgroups hsent => exact hsent.told_eq
  | advance hbusy harrival hdue hlater hsent => exact hsent.told_eq
  | _ => rfl

/-- A user does not abort itself, ends once and finishes only when it was told to. -/
theorem Deed.ending_cases (h : Deed w (scene, u) outcome) :
    outcome.2.ending? = u.ending? ∨
      u.ending? = none ∧
        (u.told = true ∧ outcome.2.ending? = some .finished ∨
          ∃ message?, outcome.2.ending? = some (.crashed message?)) := by
  cases h with
  | begin => exact .inl rfl
  | leave hfree htold => exact .inr ⟨ending?_of_free hfree, .inl ⟨htold, rfl⟩⟩
  | start hfree htold hgroups hsent =>
    rw [ending?_of_free hfree]
    exact hsent.ending_cases.imp_right fun hcrashed => ⟨rfl, .inr hcrashed⟩
  | advance hbusy harrival hdue hlater hsent =>
    rw [ending?_of_busy hbusy]
    exact hsent.ending_cases.imp_right fun hcrashed => ⟨rfl, .inr hcrashed⟩
  | commit hbusy harrival hdue hlater =>
    rw [ending?_of_busy hbusy]
    exact .inl rfl
  | overflow hbusy | crash hbusy => exact .inr ⟨ending?_of_busy hbusy, .inr ⟨_, rfl⟩⟩
  | queue => exact .inl rfl

@[simp] theorem ledger_timed {user : String} {it : Iteration} {reply : Http.Reply} :
    (it.timed user scene reply).ledger =
      (scene.recordSince it.group.name it.since (Iteration.isError reply)).ledger := rfl

@[simp] theorem ledger_received {user : String} {it : Iteration} {reply : Http.Reply} :
    (it.received w user scene reply).ledger =
      (scene.recordSince it.group.name it.since (Iteration.isError reply)).ledger := by
  simp [Iteration.received]

/-- No user closes the ledger. -/
theorem Deed.closed_eq (h : Deed w (scene, u) outcome) :
    outcome.1.ledger.closed = scene.ledger.closed := by
  cases h with
  | start hfree htold hgroups hsent => rw [hsent.ledger_eq, Scene.ledger_note]
  | advance hbusy harrival hdue hlater hsent =>
    rw [hsent.ledger_eq, ledger_received]
    exact Ledger.closed_record _ _
  | commit hbusy harrival hdue hlater =>
    rw [Scene.ledger_note, Scene.ledger_commit, Ledger.closed_commit, ledger_received]
    exact Ledger.closed_record _ _
  | overflow hbusy harrival hdue hover =>
    rw [Scene.ledger_note, ledger_timed]
    exact Ledger.closed_record _ _
  | _ => rfl

/-- A user that has ended does nothing more. -/
theorem Deed.of_ended (hended : u.isEnded = true) (h : Deed w (scene, u) outcome) :
    outcome.1.history = scene.history ∧ outcome.1.ledger = scene.ledger ∧
      outcome.2.phase = u.phase := by
  have hnotFree (hfree : u.isFree = true) : False := by
    simp [isEnded, ending?_of_free hfree] at hended
  have hnotBusy {it : Iteration} (hbusy : u.phase = .busy it) : False := by
    simp [isEnded, ending?_of_busy hbusy] at hended
  cases h with
  | begin hphase => simp [isEnded, ending?, hphase] at hended
  | leave hfree => exact (hnotFree hfree).elim
  | start hfree => exact (hnotFree hfree).elim
  | advance hbusy => exact (hnotBusy hbusy).elim
  | commit hbusy => exact (hnotBusy hbusy).elim
  | overflow hbusy | crash hbusy => exact (hnotBusy hbusy).elim
  | queue => exact ⟨rfl, rfl, rfl⟩

end Kept

/-! ## Marks -/

/-- The marks of the iteration that a user has opened and not committed. -/
def unsettled (u : User) : List Mark :=
  match u.phase with
  | .busy _ => [.opens]
  | .ended (.crashed _) => [.opens, .meets .broken]
  | .ended (.aborted true) => [.opens, .meets .discarded]
  | _ => []

/-- What new marks of a user do to it and to what is counted: either they belong to the
iteration that is not committed, or they commit it. -/
inductive Settles (before after : Ledger × User) : List Mark → Prop
  | goesOn {new : List Mark} (hunsettled : after.2.unsettled = before.2.unsettled ++ new)
      (hcommitted : after.2.committed = before.2.committed)
      (hcounts : after.1.completed = before.1.completed ∧ after.1.failed = before.1.failed) :
      Settles before after new
  | commits {failed : Bool} (hbefore : before.2.unsettled = [.opens])
      (hafter : after.2.unsettled = [])
      (hcommitted : after.2.committed = before.2.committed + 1)
      (hcounts : before.1.closed = false →
        after.1.completed = before.1.completed + (if failed then 0 else 1) ∧
          after.1.failed = before.1.failed + (if failed then 1 else 0)) :
      Settles before after [.meets (.committed failed)]

theorem marks_received {w : Workload} {user : String} {scene : Scene} {it : Iteration}
    {reply : Http.Reply} :
    (it.received w user scene reply).pick Happening.mark? = scene.pick Happening.mark? :=
  pick_received (fun _ _ => rfl) (fun _ _ => rfl) fun _ _ => rfl

theorem unsettled_of_free {u : User} (hfree : u.isFree = true) : u.unsettled = [] := by
  unfold isFree at hfree
  unfold unsettled
  split at hfree <;> simp_all

theorem unsettled_of_busy {u : User} {it : Iteration} (hbusy : u.phase = .busy it) :
    u.unsettled = [.opens] := by
  simp [unsettled, hbusy]

section Marks

variable {w : Workload} {u : User} {scene : Scene} {outcome : Scene × User}

/-- A request that is sent in an iteration leaves the iteration open, or breaks it. -/
theorem Sent.marks {group : Group} {later : List Group} {tally : Tally}
    (h : Sent w u group later tally scene outcome) :
    ∃ new : List Mark, outcome.1.pick Happening.mark? =
        scene.pick Happening.mark? ++ new.map (Prod.mk u.name) ∧
      outcome.2.unsettled = .opens :: new ∧ outcome.2.committed = u.committed := by
  cases h with
  | waits =>
    refine ⟨[], ?_, rfl, rfl⟩
    exact Scene.pick_note _ scene (.sends u.name (group.request w.baseUrl))
  | breaks =>
    refine ⟨[.meets .broken], ?_, rfl, rfl⟩
    rw [Scene.pick_note]
    exact congrArg (· ++ _) ((Scene.pick_note _ scene (.sends u.name
      (group.request w.baseUrl))).trans (List.append_nil _))

/-- The marks of a deed are those of its user, and they fit what it was doing. -/
theorem Deed.marks (h : Deed w (scene, u) outcome) :
    ∃ new : List Mark, outcome.1.pick Happening.mark? =
        scene.pick Happening.mark? ++ new.map (Prod.mk u.name) ∧
      Settles (scene.ledger, u) (outcome.1.ledger, outcome.2) new := by
  cases h with
  | begin hphase =>
    exact ⟨[], Scene.pick_note _ _ _, .goesOn (List.append_nil _).symm rfl ⟨rfl, rfl⟩⟩
  | leave hfree htold =>
    refine ⟨[], Scene.pick_note _ _ _, .goesOn ?_ rfl ⟨rfl, rfl⟩⟩
    rw [unsettled_of_free hfree]
    rfl
  | start hfree htold hgroups hsent =>
    obtain ⟨new, hmarks, hunsettled, hcommitted⟩ := hsent.marks
    refine ⟨.opens :: new, ?_, .goesOn ?_ hcommitted ?_⟩
    · rw [hmarks, Scene.pick_note, List.append_assoc]
      rfl
    · rw [unsettled_of_free hfree, hunsettled]
      rfl
    · rw [hsent.ledger_eq]
      exact ⟨rfl, rfl⟩
  | advance hbusy harrival hdue hlater hsent =>
    obtain ⟨new, hmarks, hunsettled, hcommitted⟩ := hsent.marks
    refine ⟨new, ?_, .goesOn ?_ hcommitted ?_⟩
    · rw [hmarks, marks_received]
    · rw [unsettled_of_busy hbusy, hunsettled]
      rfl
    · rw [hsent.ledger_eq, ledger_received]
      exact ⟨(Ledger.counts_record _ _).1, (Ledger.counts_record _ _).2.1⟩
  | @commit _ _ it time reply hbusy harrival hdue hlater =>
    refine ⟨[.meets (.committed (w.scenario.extendTally it.tally it.group reply).failed)], ?_,
      .commits (unsettled_of_busy hbusy) rfl rfl ?_⟩
    · rw [Scene.pick_note, Scene.pick_of_history _ (Scene.history_commit _ _), marks_received]
      rfl
    · intro hopen
      have hrecord := Ledger.counts_record scene.ledger
        (scene.timingSince it.group.name it.since (Iteration.isError reply))
      rw [← hrecord.1, ← hrecord.2.1, Scene.ledger_note, Scene.ledger_commit, ledger_received]
      exact Ledger.counts_commit _ ((Ledger.closed_record _ _).trans hopen)
  | @overflow _ _ it time reply hbusy harrival hdue hover =>
    have hcounts := Ledger.counts_record scene.ledger
      (scene.timingSince it.group.name it.since (Iteration.isError reply))
    refine ⟨[.meets .broken], ?_, .goesOn ?_ rfl ⟨hcounts.1, hcounts.2.1⟩⟩
    · rw [Scene.pick_note, pick_timed fun _ _ => rfl]
      rfl
    · rw [unsettled_of_busy hbusy]
      rfl
  | crash hbusy harrival hdue =>
    refine ⟨[.meets .broken], Scene.pick_note _ _ _, .goesOn ?_ rfl ⟨rfl, rfl⟩⟩
    rw [unsettled_of_busy hbusy]
    rfl
  | queue =>
    exact ⟨[], (Scene.pick_of_history _ rfl).trans (List.append_nil _).symm,
      .goesOn (List.append_nil _).symm rfl ⟨rfl, rfl⟩⟩

/-- No user discards an iteration by itself. -/
theorem Deed.discarded_eq (h : Deed w (scene, u) outcome) :
    outcome.1.ledger.discarded = scene.ledger.discarded := by
  cases h with
  | start hfree htold hgroups hsent => rw [hsent.ledger_eq, Scene.ledger_note]
  | advance hbusy harrival hdue hlater hsent =>
    rw [hsent.ledger_eq, ledger_received]
    exact (Ledger.counts_record _ _).2.2
  | commit hbusy harrival hdue hlater =>
    rw [Scene.ledger_note, Scene.ledger_commit, Ledger.discarded_commit, ledger_received]
    exact (Ledger.counts_record _ _).2.2
  | overflow hbusy harrival hdue hover =>
    rw [Scene.ledger_note, ledger_timed]
    exact (Ledger.counts_record _ _).2.2
  | _ => rfl

end Marks

/-! ## Words to stop and aborts -/

section Abort

variable (u : User) (scene : Scene)

@[simp] theorem name_tell : (u.tell scene).2.name = u.name := by
  unfold tell
  split <;> rfl

@[simp] theorem told_tell : (u.tell scene).2.told = true := by
  unfold tell
  split <;> rfl

@[simp] theorem phase_tell : (u.tell scene).2.phase = u.phase := by
  unfold tell
  split <;> rfl

@[simp] theorem committed_tell : (u.tell scene).2.committed = u.committed := by
  unfold tell
  split <;> rfl

@[simp] theorem history_tell :
    (u.tell scene).1.history = ⟨scene.clock, .tells u.name⟩ :: scene.history := by
  unfold tell
  split <;> rfl

@[simp] theorem ledger_tell : (u.tell scene).1.ledger = scene.ledger := by
  unfold tell
  split <;> rfl

theorem continues_abort : scene.Continues u.name (u.abort scene).1 := by
  have hsame : scene.Continues u.name scene := .of_history rfl
  unfold abort
  split
  · exact hsame
  · exact hsame.note rfl
  · exact hsame.note rfl
  · exact hsame.note rfl

@[simp] theorem name_abort : (u.abort scene).2.name = u.name := by
  unfold abort
  split <;> rfl

@[simp] theorem told_abort : (u.abort scene).2.told = u.told := by
  unfold abort
  split <;> rfl

@[simp] theorem ledger_abort : (u.abort scene).1.ledger = scene.ledger := by
  unfold abort
  split <;> rfl

theorem isEnded_abort : (u.abort scene).2.isEnded = true := by
  unfold abort
  split
  · next ending hphase => simp [isEnded, ending?, hphase]
  · rfl
  · rfl
  · rfl

/-- An abort cuts an open iteration short, and there is nothing else for it to cut. -/
theorem marks_abort :
    ∃ new : List Mark, (u.abort scene).1.pick Happening.mark? =
        scene.pick Happening.mark? ++ new.map (Prod.mk u.name) ∧
      Settles (scene.ledger, u) ((u.abort scene).1.ledger, (u.abort scene).2) new := by
  have hquiet : (scene.note (.aborts u.name false)).pick Happening.mark? =
      scene.pick Happening.mark? ++ List.map (Prod.mk u.name) [] := Scene.pick_note _ _ _
  unfold abort
  split
  · exact ⟨[], (List.append_nil _).symm, .goesOn (List.append_nil _).symm rfl ⟨rfl, rfl⟩⟩
  · next it hphase =>
    refine ⟨[.meets .discarded], Scene.pick_note _ _ _, .goesOn ?_ rfl ⟨rfl, rfl⟩⟩
    rw [unsettled_of_busy hphase]
    rfl
  · next hphase => exact ⟨[], hquiet, .goesOn (by simp [unsettled, hphase]) rfl ⟨rfl, rfl⟩⟩
  · next wakes hphase => exact ⟨[], hquiet, .goesOn (by simp [unsettled, hphase]) rfl ⟨rfl, rfl⟩⟩

@[simp] theorem unsettled_tell : (u.tell scene).2.unsettled = u.unsettled := by
  simp only [unsettled, phase_tell]

end Abort

end User
end LoadRamp
