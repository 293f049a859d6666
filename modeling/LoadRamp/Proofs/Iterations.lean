import LoadRamp.Proofs.Passage

/-!
# One iteration

An iteration that gets a reply to each of its requests, from its start to its end.

* `Exchange` is a request of a group with the reply that comes to it after a while.
* `Ledger.fits` says of timings that there is room for each of them when it comes.
* `await_exchange` is one turn of the iteration and `await_overspent` its last one if there is no
  room; `await_exchanges` are some turns, up to the scene that they lead to and its tally.
* `doings_exchanged`, `answers_exchanged`, `ledger_exchanged` and `sent_exchanged` say what one
  exchange leaves behind, and by induction what all of them do.
* `Check.Judged` is what a check makes of a reply, said without its reasons being computed.
* `run_commits` puts the requests, the timings and the tally together.
-/

namespace LoadRamp

namespace Scene

theorem sent_noteAll (s : Scene) (happenings : List Happening) :
    (s.noteAll happenings).sent = s.sent := by
  induction happenings generalizing s with
  | nil => rfl
  | cons what rest ih => exact ih (s.note what)

end Scene

/-- Whether there is room for each of some timings when it comes. -/
def Ledger.fits (l : Ledger) : List Timing → Bool
  | [] => true
  | timing :: rest => !l.overflows timing && (l.record timing).fits rest

/-- If there is not, then some first one is to blame. -/
theorem Ledger.exists_overflow {l : Ledger} {timings : List Timing} (h : l.fits timings = false) :
    ∃ before timing rest, timings = before ++ timing :: rest ∧ l.fits before = true ∧
      (before.foldl record l).overflows timing = true := by
  induction timings generalizing l with
  | nil => cases h
  | cons timing rest ih =>
    cases hover : l.overflows timing with
    | true => exact ⟨[], timing, rest, rfl, rfl, hover⟩
    | false =>
      have hrest : (l.record timing).fits rest = false := by simpa [fits, hover] using h
      obtain ⟨before, other, later, rfl, hbefore, hother⟩ := ih hrest
      refine ⟨timing :: before, other, later, rfl, ?_, hother⟩
      rw [fits, hover, hbefore]
      rfl

/-- Timings change nothing but what is counted of operations. -/
theorem Ledger.rest_foldl_record (l : Ledger) (timings : List Timing) :
    (timings.foldl record l).closed = l.closed ∧
      (timings.foldl record l).completed = l.completed ∧
      (timings.foldl record l).failed = l.failed := by
  induction timings generalizing l with
  | nil => exact ⟨rfl, rfl, rfl⟩
  | cons timing rest ih =>
    obtain ⟨hcompleted, hfailed, -⟩ := counts_record l timing
    rw [List.foldl_cons, ← closed_record l timing, ← hcompleted, ← hfailed]
    exact ih _

/-- Whether a check has that outcome on a reply. -/
inductive Check.Judged (check : Check) : Http.Reply → Outcome → Prop
  /-- The assertion holds. -/
  | passes {response : Http.Response} (hholds : check.verdict response = .decided true) :
      Judged check (.ok response) .passed
  /-- The assertion does not hold, reports an error or breaks down. -/
  | fails {response : Http.Response} {reason : String}
      (hfails : check.verdict response ≠ .decided true)
      (hreason : check.evaluate response = .failed reason) :
      Judged check (.ok response) (.failed reason)
  /-- There is no response. -/
  | unanswered (error : Http.TransportError) :
      Judged check (.error error) (.failed ("transport error: " ++ error.message))

theorem Check.evaluate_of_holds {check : Check} {response : Http.Response}
    (hholds : check.verdict response = .decided true) : check.evaluate response = .passed := by
  rw [evaluate, hholds]

theorem Check.exists_reason {check : Check} {response : Http.Response}
    (hfails : check.verdict response ≠ .decided true) :
    ∃ reason, check.evaluate response = .failed reason := by
  unfold evaluate
  split
  · next hholds => exact absurd hholds hfails
  · exact ⟨_, rfl⟩
  · exact ⟨_, rfl⟩
  · exact ⟨_, rfl⟩

/-- Every check comes to some outcome on every reply, whatever its assertion does. -/
theorem Scenario.judged_outcome (check : Check) (reply : Http.Reply) :
    check.Judged reply (Scenario.outcome check reply) := by
  cases reply with
  | error error => exact .unanswered error
  | ok response =>
    show check.Judged (.ok response) (check.evaluate response)
    by_cases hholds : check.verdict response = .decided true
    · rw [Check.evaluate_of_holds hholds]
      exact .passes hholds
    · obtain ⟨reason, hreason⟩ := Check.exists_reason hholds
      rw [hreason]
      exact .fails hholds hreason

/-- The request of a group and what comes of it. -/
structure Exchange where
  group : Group
  delay : Duration
  reply : Http.Reply

namespace Exchange

def timing (e : Exchange) : Timing := ⟨e.group.name, some e.delay, Iteration.isError e.reply⟩

/-- The outcomes of the checks of the group. -/
def outcomes (s : Scenario) (e : Exchange) : List (CheckKey × Outcome) :=
  e.group.checks.map fun check =>
    (⟨s.name, e.group.name, check.description⟩, Scenario.outcome check e.reply)

end Exchange

/-- Whether the requests after the first `sent` ones lead to some exchanges. -/
def Workload.Gets (w : Workload) (sent : Nat) (exchanges : List Exchange) : Prop :=
  ∀ i e, exchanges[i]? = some e →
    w.transport (sent + i + 1) (e.group.request w.baseUrl) = .reply e.delay e.reply

theorem Workload.Gets.head {w : Workload} {sent : Nat} {e : Exchange} {rest : List Exchange}
    (h : w.Gets sent (e :: rest)) :
    w.transport (sent + 1) (e.group.request w.baseUrl) = .reply e.delay e.reply :=
  h 0 e rfl

theorem Workload.Gets.tail {w : Workload} {sent : Nat} {e : Exchange} {rest : List Exchange}
    (h : w.Gets sent (e :: rest)) : w.Gets (sent + 1) rest := by
  intro i other hother
  rw [Nat.add_right_comm sent 1 i]
  exact h (i + 1) other hother

/-- Those that lead to some exchanges lead to the first of them, too. -/
theorem Workload.Gets.append {w : Workload} {sent : Nat} {before rest : List Exchange}
    (h : w.Gets sent (before ++ rest)) :
    w.Gets sent before ∧ w.Gets (sent + before.length) rest := by
  induction before generalizing sent with
  | nil => exact ⟨nofun, h⟩
  | cons e before ih =>
    obtain ⟨hbefore, hrest⟩ := ih h.tail
    refine ⟨fun i other hother => ?_, ?_⟩
    · cases i with
      | zero => exact h 0 other hother
      | succ i => exact h (i + 1) other ((List.getElem?_append_left
          (List.getElem?_eq_some_iff.1 hother).1).trans hother)
    · rw [List.length_cons, Nat.add_comm before.length 1, ← Nat.add_assoc]
      exact hrest

/-- The transport that gives some replies one after the other, and then none. -/
def Transport.scripted (exchanges : List Exchange) : Transport := fun ordinal _ =>
  (exchanges[ordinal - 1]?).elim .never fun e => .reply e.delay e.reply

theorem Workload.gets_scripted {w : Workload} {exchanges : List Exchange}
    (hscripted : w.transport = .scripted exchanges) : w.Gets 0 exchanges := by
  intro i e he
  rw [hscripted, Transport.scripted, Nat.zero_add, Nat.add_sub_cancel, he, Option.elim_some]

namespace Iteration

section Run

variable (w : Workload) (user : String)

/-- The scene when the reply to a request has come. -/
def awaited (scene : Scene) (e : Exchange) : Scene :=
  (scene.note (.sends user (e.group.request w.baseUrl))).countRequest.waitUntil
    (scene.clock + e.delay.nanos)

/-- The scene after an exchange: the request was sent, and its reply has just been taken. -/
def exchanged (scene : Scene) (e : Exchange) : Scene :=
  received w user (awaited w user scene e) ⟨e.group, [], .empty, scene.clock, none⟩ e.reply

/-- The scene after an exchange for whose timing there is no room. -/
def overspent (scene : Scene) (e : Exchange) : Scene :=
  (timed user (awaited w user scene e) ⟨e.group, [], .empty, scene.clock, none⟩ e.reply).note
    (.breaks user (some Notice.overflow.text))

/-- The scene after some exchanges. -/
def exchangedAll (scene : Scene) (exchanges : List Exchange) : Scene :=
  exchanges.foldl (exchanged w user) scene

/-- The tally after some exchanges. -/
def tallied (s : Scenario) (tally : Tally) (exchanges : List Exchange) : Tally :=
  exchanges.foldl (fun t e => s.extendTally t e.group e.reply) tally

/-! ## The course of the iteration -/

variable {w : Workload} {user : String} {scene : Scene}

/-- The reply is taken as soon as it has come, so the timing is that of the reply. -/
theorem timingSince_awaited (e : Exchange) :
    (awaited w user scene e).timingSince e.group.name scene.clock (isError e.reply) =
      e.timing := by
  have helapsed : max scene.clock (scene.clock + e.delay.nanos) - scene.clock = e.delay.nanos := by
    omega
  have hclamp : Duration.clamp e.delay.nanos = e.delay :=
    Duration.ext (Duration.nanos_clamp e.delay.bounded)
  show (⟨e.group.name,
    some (Duration.clamp (max scene.clock (scene.clock + e.delay.nanos) - scene.clock)), _⟩ :
      Timing) = _
  rw [helapsed, hclamp]
  rfl

/-- One turn, up to its reply: the request of a group is sent and its reply awaited. -/
theorem await_send {e : Exchange} {tally : Tally} {later : List Group} (replies : Nat)
    (hanswer : w.transport (scene.sent + 1) (e.group.request w.baseUrl) =
      .reply e.delay e.reply) :
    ∃ it : Iteration, it.group = e.group ∧ it.later = later ∧ it.tally = tally ∧
      it.since = scene.clock ∧
      await w user (replies + 1) (goOn w user scene tally (e.group :: later)) =
        await w user replies (receive w user (awaited w user scene e) it e.reply) := by
  have hsend : goOn w user scene tally (e.group :: later) =
      ((scene.note (.sends user (e.group.request w.baseUrl))).countRequest,
        .waiting ⟨e.group, later, tally, scene.clock,
          some ⟨scene.clock + e.delay.nanos, .reply e.reply⟩⟩) := by
    show send w user scene tally e.group later = _
    unfold send
    dsimp only
    rw [show (scene.note (.sends user (e.group.request w.baseUrl))).countRequest.sent =
      scene.sent + 1 from rfl, hanswer]
    rfl
  refine ⟨⟨e.group, later, tally, scene.clock,
    some ⟨scene.clock + e.delay.nanos, .reply e.reply⟩⟩, rfl, rfl, rfl, rfl, ?_⟩
  rw [hsend, await]
  dsimp only
  rw [resume_of_due rfl (Nat.le_max_right _ _)]
  rfl

/-- One turn: the reply is taken. -/
theorem await_exchange {e : Exchange} {tally : Tally} {later : List Group} (replies : Nat)
    (hanswer : w.transport (scene.sent + 1) (e.group.request w.baseUrl) =
      .reply e.delay e.reply) (hfits : scene.ledger.overflows e.timing = false) :
    await w user (replies + 1) (goOn w user scene tally (e.group :: later)) =
      await w user replies
        (goOn w user (exchanged w user scene e)
          (w.scenario.extendTally tally e.group e.reply) later) := by
  obtain ⟨⟨group, later, tally, since, arrival?⟩, rfl, rfl, rfl, rfl, hawait⟩ :=
    @await_send w user scene e tally later replies hanswer
  rw [hawait, receive_of_fits]
  · rfl
  · rw [overflows, timingSince_awaited]
    exact hfits

/-- The last turn if there is no room for its timing. -/
theorem await_overspent {e : Exchange} {tally : Tally} {later : List Group} (replies : Nat)
    (hanswer : w.transport (scene.sent + 1) (e.group.request w.baseUrl) =
      .reply e.delay e.reply) (hover : scene.ledger.overflows e.timing = true) :
    await w user (replies + 1) (goOn w user scene tally (e.group :: later)) =
      (overspent w user scene e, .broken (some Notice.overflow.text)) := by
  obtain ⟨⟨group, later, tally, since, arrival?⟩, rfl, rfl, rfl, rfl, hawait⟩ :=
    @await_send w user scene e tally later replies hanswer
  rw [hawait, receive_of_overflows]
  · cases replies <;> rfl
  · rw [overflows, timingSince_awaited]
    exact hover

/-! ## What the exchanges leave behind -/

section Effects

variable (w : Workload) (user : String) (scene : Scene) (e : Exchange)

theorem sent_exchanged : (exchanged w user scene e).sent = scene.sent + 1 := Scene.sent_noteAll _ _

theorem doings_exchanged :
    (exchanged w user scene e).pick Happening.doing? =
      scene.pick Happening.doing? ++ [.sends (e.group.request w.baseUrl)] :=
  User.doings_received.trans (Scene.pick_note _ _ _)

theorem answers_exchanged :
    (exchanged w user scene e).answers = scene.answers ++ [(e.group.name, isError e.reply)] := by
  have hsent : (scene.note (.sends user (e.group.request w.baseUrl))).answers = scene.answers :=
    Scene.pick_note_none _ rfl
  refine (@User.answers_received w { name := user } _ _ _).trans ?_
  exact congrArg (· ++ [(e.group.name, isError e.reply)]) hsent

theorem tallies_exchanged : (exchanged w user scene e).tallies = scene.tallies :=
  User.handed_received.trans (Scene.pick_note_none _ rfl)

theorem ledger_exchanged :
    (exchanged w user scene e).ledger = scene.ledger.record e.timing := by
  refine User.ledger_received.trans ?_
  rw [Scene.recordSince, timingSince_awaited]
  rfl

theorem doings_overspent :
    (overspent w user scene e).pick Happening.doing? =
      scene.pick Happening.doing? ++ [.sends (e.group.request w.baseUrl)] :=
  (Scene.pick_note_none _ rfl).trans
    ((User.pick_timed fun _ _ => rfl).trans (Scene.pick_note _ _ _))

theorem answers_overspent :
    (overspent w user scene e).answers = scene.answers ++ [(e.group.name, isError e.reply)] := by
  have hsent : (awaited w user scene e).answers = scene.answers := Scene.pick_note_none _ rfl
  refine (Scene.pick_note_none _ rfl).trans ?_
  refine (@User.answers_timed { name := user } _ _ _).trans ?_
  exact congrArg (· ++ [(e.group.name, isError e.reply)]) hsent

theorem tallies_overspent : (overspent w user scene e).tallies = scene.tallies :=
  (Scene.pick_note_none _ rfl).trans
    ((User.pick_timed fun _ _ => rfl).trans (Scene.pick_note_none _ rfl))

theorem ledger_overspent :
    (overspent w user scene e).ledger = scene.ledger.record e.timing := by
  rw [overspent, Scene.ledger_note, User.ledger_timed, Scene.recordSince, timingSince_awaited]
  rfl

variable (exchanges : List Exchange)

theorem sent_exchangedAll :
    (exchangedAll w user scene exchanges).sent = scene.sent + exchanges.length := by
  induction exchanges generalizing scene with
  | nil => rfl
  | cons e rest ih =>
    show (exchangedAll w user (exchanged w user scene e) rest).sent = _
    rw [ih, sent_exchanged, List.length_cons]
    omega

theorem doings_exchangedAll :
    (exchangedAll w user scene exchanges).pick Happening.doing? =
      scene.pick Happening.doing? ++ (w.requests (exchanges.map Exchange.group)).map .sends := by
  induction exchanges generalizing scene with
  | nil => exact (List.append_nil _).symm
  | cons e rest ih =>
    show (exchangedAll w user (exchanged w user scene e) rest).pick Happening.doing? = _
    rw [ih, doings_exchanged, List.append_assoc]
    rfl

theorem answers_exchangedAll :
    (exchangedAll w user scene exchanges).answers =
      scene.answers ++ exchanges.map fun e => (e.group.name, isError e.reply) := by
  induction exchanges generalizing scene with
  | nil => exact (List.append_nil _).symm
  | cons e rest ih =>
    show (exchangedAll w user (exchanged w user scene e) rest).answers = _
    rw [ih, answers_exchanged, List.append_assoc]
    rfl

theorem tallies_exchangedAll : (exchangedAll w user scene exchanges).tallies = scene.tallies := by
  induction exchanges generalizing scene with
  | nil => rfl
  | cons e rest ih => exact (ih _).trans (tallies_exchanged w user scene e)

theorem ledger_exchangedAll :
    (exchangedAll w user scene exchanges).ledger =
      (exchanges.map Exchange.timing).foldl Ledger.record scene.ledger := by
  induction exchanges generalizing scene with
  | nil => rfl
  | cons e rest ih =>
    show (exchangedAll w user (exchanged w user scene e) rest).ledger = _
    rw [ih, ledger_exchanged]
    rfl

end Effects

/-! ## All turns -/

/-- Some turns for whose timings there is room. -/
theorem await_exchanges {exchanges : List Exchange} (tally : Tally) (later : List Group)
    (replies : Nat) (hgets : w.Gets scene.sent exchanges)
    (hfits : scene.ledger.fits (exchanges.map Exchange.timing) = true) :
    await w user (exchanges.length + replies)
        (goOn w user scene tally (exchanges.map Exchange.group ++ later)) =
      await w user replies
        (goOn w user (exchangedAll w user scene exchanges) (tallied w.scenario tally exchanges)
          later) := by
  induction exchanges generalizing scene tally with
  | nil => rw [List.length_nil, Nat.zero_add]; rfl
  | cons e rest ih =>
    rw [List.map_cons, Ledger.fits, Bool.and_eq_true, Bool.not_eq_true'] at hfits
    rw [List.length_cons, Nat.add_right_comm, List.map_cons, List.cons_append,
      await_exchange _ hgets.head hfits.1]
    refine ih _ ?_ ?_
    · rw [sent_exchanged]
      exact hgets.tail
    · rw [ledger_exchanged]
      exact hfits.2

/-- An iteration with room for its timings is over when the last reply has come. -/
theorem run_of_fits {exchanges : List Exchange}
    (hgroups : exchanges.map Exchange.group = w.scenario.groups)
    (hgets : w.Gets scene.sent exchanges)
    (hfits : scene.ledger.fits (exchanges.map Exchange.timing) = true) :
    run w user scene =
      goOn w user (exchangedAll w user (scene.note (.opens user)) exchanges)
        (tallied w.scenario .empty exchanges) [] := by
  have hawait :=
    @await_exchanges w user (scene.note (.opens user)) exchanges .empty [] 0 hgets hfits
  rw [List.append_nil, hgroups, Nat.add_zero, ← exchanges.length_map, hgroups] at hawait
  exact hawait

/-- Without room for one of them it is over when that one has come. -/
theorem run_of_overflows {before rest : List Exchange} {e : Exchange}
    (hgroups : (before ++ e :: rest).map Exchange.group = w.scenario.groups)
    (hgets : w.Gets scene.sent (before ++ e :: rest))
    (hfits : scene.ledger.fits (before.map Exchange.timing) = true)
    (hover : ((before.map Exchange.timing).foldl Ledger.record scene.ledger).overflows e.timing =
      true) :
    run w user scene =
      (overspent w user (exchangedAll w user (scene.note (.opens user)) before) e,
        .broken (some Notice.overflow.text)) := by
  obtain ⟨hbefore, hrest⟩ := hgets.append
  have hawait := @await_exchanges w user (scene.note (.opens user)) before .empty
    ((e :: rest).map Exchange.group) (rest.length + 1) hbefore hfits
  have hlength : w.scenario.groups.length = before.length + (rest.length + 1) := by
    rw [← hgroups, List.length_map, List.length_append, List.length_cons]
  rw [← List.map_append, hgroups, ← hlength] at hawait
  refine hawait.trans (await_overspent _ ?_ ?_)
  · rw [sent_exchangedAll]
    exact hrest.head
  · rw [ledger_exchangedAll]
    exact hover

/-! ## The tally -/

section Tally

variable (s : Scenario) (tally : Tally) (exchanges : List Exchange)

theorem outcomes_tallied :
    (tallied s tally exchanges).outcomes =
      tally.outcomes ++ exchanges.flatMap fun e => e.outcomes s := by
  induction exchanges generalizing tally with
  | nil => exact (List.append_nil _).symm
  | cons e rest ih =>
    show (tallied s (s.extendTally tally e.group e.reply) rest).outcomes = _
    rw [ih, Scenario.outcomes_extendTally, List.append_assoc]
    rfl

theorem failed_tallied :
    (tallied s tally exchanges).failed =
      (tally.failed || exchanges.any fun e => isError e.reply) := by
  induction exchanges generalizing tally with
  | nil => exact (Bool.or_false _).symm
  | cons e rest ih =>
    show (tallied s (s.extendTally tally e.group e.reply) rest).failed = _
    rw [ih, User.failed_extendTally, List.any_cons, Bool.or_assoc]

end Tally

theorem isError_iff {reply : Http.Reply} :
    isError reply = true ↔ ∃ error, reply = .error error := by
  cases reply with
  | ok response => exact iff_of_false Bool.false_ne_true (by rintro ⟨error, herror⟩; cases herror)
  | error error => exact iff_of_true rfl ⟨error, rfl⟩

end Run

end Iteration
end LoadRamp
