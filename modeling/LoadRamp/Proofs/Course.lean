import LoadRamp.Proofs.Accounts
import LoadRamp.Proofs.Checks

/-!
# The course of a user

A user that nothing breaks down does its iterations one after the other, and each
of them in full: it opens the iteration, sends the requests of all groups in their
order and hands its outcomes in.

* `Transport.IsCalm` says that no request breaks its user down, and
  `Transport.Replies` that every request gets a reply.
* `User.HasRoom` says that no reply breaks its user down over the total of its timings.
* `Doing` is what a history says of these things, and `User.course` is the list of
  them that a user must have done, given where it stands.
* `User.Steady` says that it has done just that, and `Deed.steady` that every deed
  keeps it so.
-/

namespace LoadRamp

/-- Whether no request ever breaks down the user that sends it. -/
def Transport.IsCalm (t : Transport) : Prop :=
  ∀ ordinal request, (∀ message?, t ordinal request ≠ .crash message?) ∧
    ∀ delay message?, t ordinal request ≠ .crashLater delay message?

/-- Whether every request gets a reply after a while. -/
def Transport.Replies (t : Transport) : Prop :=
  ∀ ordinal request, ∃ delay reply, t ordinal request = .reply delay reply

theorem Transport.Replies.isCalm {t : Transport} (h : t.Replies) : t.IsCalm := by
  intro ordinal request
  obtain ⟨delay, reply, hanswer⟩ := h ordinal request
  rw [hanswer]
  exact ⟨nofun, nofun⟩

/-- What a user does about its iterations. -/
inductive Doing
  | opens
  | sends (request : Http.Request)
  | commits
  | ends (iterations : Nat)

namespace Doing

def request? : Doing → Option Http.Request
  | .sends request => some request
  | _ => none

def isOpening : Doing → Bool
  | .opens => true
  | _ => false

def isCommit : Doing → Bool
  | .commits => true
  | _ => false

end Doing

def Happening.doing? : Happening → Option Doing
  | .opens _ => some .opens
  | .sends _ request => some (.sends request)
  | .commits _ _ => some .commits
  | .ends _ iterations => some (.ends iterations)
  | _ => none

namespace Workload

variable (w : Workload)

/-- The requests of some groups. -/
def requests (groups : List Group) : List Http.Request :=
  groups.map fun group => group.request w.baseUrl

/-- What a user does in an iteration, from its start to its end. -/
def round : List Doing :=
  .opens :: (w.requests w.scenario.groups).map .sends ++ [.commits]

/-- What a user does in some iterations. -/
def rounds (n : Nat) : List Doing := (List.replicate n w.round).flatten

theorem rounds_succ (n : Nat) : w.rounds (n + 1) = w.rounds n ++ w.round := by
  rw [rounds, List.replicate_succ', List.flatten_append, List.flatten_singleton]
  rfl

end Workload

/-- The groups of a scenario whose requests an iteration has sent. -/
def Iteration.reached (s : Scenario) (it : Iteration) : List Group :=
  s.groups.take (s.groups.length - it.later.length)

theorem Iteration.reached_eq {s : Scenario} {it : Iteration} {front : List Group}
    (hgroups : s.groups = front ++ it.later) : it.reached s = front := by
  rw [reached, hgroups, List.length_append, Nat.add_sub_cancel]
  exact List.take_left

namespace User

/-- The iterations that a user has opened. -/
def opened (u : User) : Nat := u.committed + if u.isBusy then 1 else 0

/-- What a user must have done, given where it stands. -/
def course (w : Workload) (u : User) : List Doing :=
  w.rounds u.committed ++
    match u.phase with
    | .busy it => .opens :: (w.requests (it.reached w.scenario)).map .sends
    | .ended .finished => [.ends u.committed]
    | _ => []

/-- Whether a user has not broken down, and no breakdown is on its way to it. -/
def Unharmed (u : User) : Prop :=
  match u.phase with
  | .busy it => ∀ arrival, it.arrival? = some arrival → ∃ reply, arrival.news = .reply reply
  | .ended (.crashed _) => False
  | _ => True

/-- Whether there is room in a ledger for the timing of the reply that a user waits for. -/
def HasRoom (u : User) (scene : Scene) : Prop :=
  ∀ it reply, u.phase = .busy it → it.overflows scene reply = false

/-- Whether a reply is on its way to a user that waits for one. -/
def Awaits (u : User) : Prop := ∀ it, u.phase = .busy it → it.arrival? ≠ none

theorem course_of_free {w : Workload} {u : User} (hfree : u.isFree = true) :
    u.course w = w.rounds u.committed := by
  unfold isFree at hfree
  unfold course
  split at hfree <;> simp_all

theorem course_of_busy {w : Workload} {u : User} {it : Iteration} (hbusy : u.phase = .busy it) :
    u.course w = w.rounds u.committed ++
      .opens :: (w.requests (it.reached w.scenario)).map .sends := by
  rw [course, hbusy]

theorem reply_of_unharmed {u : User} {it : Iteration} {arrival : Arrival} (h : u.Unharmed)
    (hbusy : u.phase = .busy it) (harrival : it.arrival? = some arrival) :
    ∃ reply, arrival.news = .reply reply := by
  rw [Unharmed, hbusy] at h
  exact h arrival harrival

section Sent

variable {w : Workload} {u : User} {scene : Scene} {outcome : Scene × User} {group : Group}
  {later : List Group} {tally : Tally}

/-- A request that breaks nobody down leaves its user waiting. -/
theorem Sent.calm (hcalm : w.transport.IsCalm)
    (h : Sent w u group later tally scene outcome) :
    outcome.2.Unharmed ∧ outcome.2.opened = u.committed + 1 ∧
      ∀ front, w.scenario.groups = front ++ later →
        outcome.1.pick Happening.doing? =
            scene.pick Happening.doing? ++ [.sends (group.request w.baseUrl)] ∧
          outcome.2.course w =
            w.rounds u.committed ++ .opens :: (w.requests front).map .sends := by
  cases h with
  | breaks hanswer => exact absurd hanswer ((hcalm _ _).1 _)
  | waits hanswer =>
    refine ⟨?_, rfl, fun front hgroups => ⟨?_, ?_⟩⟩
    · intro arrival harrival
      cases hreply : w.transport (scene.sent + 1) (group.request w.baseUrl) with
      | crash message? => exact absurd hreply (hanswer message?)
      | never => rw [hreply] at harrival; cases harrival
      | reply delay reply =>
        rw [hreply] at harrival
        obtain rfl := Option.some.inj harrival
        exact ⟨reply, rfl⟩
      | crashLater delay message? => exact absurd hreply ((hcalm _ _).2 _ _)
    · exact Scene.pick_note _ scene (.sends u.name (group.request w.baseUrl))
    · rw [course_of_busy rfl, Iteration.reached_eq hgroups]

theorem Sent.awaits (hreplies : w.transport.Replies)
    (h : Sent w u group later tally scene outcome) : outcome.2.Awaits := by
  intro it hit
  cases h with
  | waits hanswer =>
    obtain rfl := Phase.busy.inj hit
    obtain ⟨delay, reply, hreply⟩ := hreplies (scene.sent + 1) (group.request w.baseUrl)
    simp [hreply, Answer.arrival?]
  | breaks hanswer => cases hit

end Sent

section Deed

variable {w : Workload} {u : User} {scene : Scene} {outcome : Scene × User}

theorem Deed.unharmed (hcalm : w.transport.IsCalm) (hroom : u.HasRoom scene)
    (h : Deed w (scene, u) outcome) (hunharmed : u.Unharmed) : outcome.2.Unharmed := by
  cases h with
  | begin => exact hunharmed
  | leave => exact trivial
  | start hfree htold hgroups hsent => exact (hsent.calm hcalm).1
  | advance hbusy harrival hdue hlater hsent => exact (hsent.calm hcalm).1
  | commit => exact trivial
  | overflow hbusy harrival hdue hover => cases (hroom _ _ hbusy).symm.trans hover
  | crash hbusy harrival hdue =>
    obtain ⟨reply, hreply⟩ := reply_of_unharmed hunharmed hbusy harrival
    cases hreply
  | queue => exact hunharmed

theorem Deed.awaits (hreplies : w.transport.Replies) (h : Deed w (scene, u) outcome)
    (hawaits : u.Awaits) : outcome.2.Awaits := by
  cases h with
  | start hfree htold hgroups hsent => exact hsent.awaits hreplies
  | advance hbusy harrival hdue hlater hsent => exact hsent.awaits hreplies
  | begin | queue => exact hawaits
  | leave | commit | overflow | crash => exact fun _ hit => by cases hit

theorem doings_received {user : String} {it : Iteration} {reply : Http.Reply} :
    (it.received w user scene reply).pick Happening.doing? = scene.pick Happening.doing? :=
  pick_received (fun _ _ => rfl) (fun _ _ => rfl) fun _ _ => rfl

/-- What a user does next is what comes next in its course. -/
theorem Deed.course_eq (hcalm : w.transport.IsCalm) (hroom : u.HasRoom scene)
    (h : Deed w (scene, u) outcome) (hunharmed : u.Unharmed) (hfits : u.Fits w.scenario)
    (hcourse : scene.pick Happening.doing? = u.course w) :
    outcome.1.pick Happening.doing? = outcome.2.course w := by
  cases h with
  | begin => exact (Scene.pick_note_none _ rfl).trans hcourse
  | leave hfree htold =>
    rw [course_of_free hfree] at hcourse
    exact (Scene.pick_note _ _ _).trans (congrArg (· ++ [Doing.ends u.committed]) hcourse)
  | @start _ _ group later _ hfree htold hgroups hsent =>
    obtain ⟨-, -, hnext⟩ := hsent.calm hcalm
    obtain ⟨hpick, hafter⟩ := hnext [group] hgroups
    rw [hpick, hafter, Scene.pick_note, hcourse, course_of_free hfree, List.append_assoc]
    rfl
  | @advance _ _ it time reply group later _ hbusy harrival hdue hlater hsent =>
    obtain ⟨done, replies, hgroups, -, -⟩ := hfits it hbusy
    have hreached : w.scenario.groups = (done ++ [it.group]) ++ it.later := by
      rw [hgroups, List.append_assoc]
      rfl
    have hreached' : w.scenario.groups = (done ++ [it.group] ++ [group]) ++ later := by
      rw [hreached, hlater, List.append_assoc _ [group]]
      rfl
    obtain ⟨-, -, hnext⟩ := hsent.calm hcalm
    obtain ⟨hpick, hafter⟩ := hnext _ hreached'
    rw [hpick, hafter, doings_received, hcourse, course_of_busy hbusy,
      Iteration.reached_eq hreached]
    simp [Workload.requests]
  | @commit _ _ it time reply hbusy harrival hdue hlater =>
    obtain ⟨done, replies, hgroups, -, -⟩ := hfits it hbusy
    have hreached : it.reached w.scenario = w.scenario.groups := by
      refine Iteration.reached_eq ?_
      rw [hlater, List.append_nil]
    rw [Scene.pick_note, Scene.pick_of_history _ (Scene.history_commit _ _), doings_received,
      hcourse, course_of_busy hbusy, hreached]
    refine Eq.trans ?_ (course_of_free rfl).symm
    rw [Workload.rounds_succ, List.append_assoc]
    rfl
  | overflow hbusy harrival hdue hover => cases (hroom _ _ hbusy).symm.trans hover
  | crash hbusy harrival hdue =>
    obtain ⟨reply, hreply⟩ := reply_of_unharmed hunharmed hbusy harrival
    cases hreply
  | queue => exact hcourse

end Deed

/-- A user on its own that has done what it must have done, and nothing else. -/
structure Steady (w : Workload) (state : Scene × User) : Prop where
  unharmed : state.2.Unharmed
  ending_cases : state.2.ending? = none ∨ state.2.ending? = some .finished
  fits : state.2.Fits w.scenario
  course_eq : state.1.pick Happening.doing? = state.2.course w
  isOpen : state.1.ledger.closed = false
  counted : state.1.ledger.completed + state.1.ledger.failed = state.2.committed
  handed : ∀ tally ∈ state.1.pick Happening.handed?, tally.IsOf w.scenario

/-- Every deed of a steady user is the next one of its course. -/
theorem Deed.steady {w : Workload} {before after : Scene × User} (hcalm : w.transport.IsCalm)
    (hroom : before.2.HasRoom before.1) (h : Deed w before after) (hsteady : Steady w before) :
    Steady w after := by
  obtain ⟨scene, u⟩ := before
  have hunharmed := h.unharmed hcalm hroom hsteady.unharmed
  obtain ⟨hfits, hhands⟩ := h.checked hsteady.fits
  refine ⟨hunharmed, ?_, hfits,
    h.course_eq hcalm hroom hsteady.unharmed hsteady.fits hsteady.course_eq,
    h.closed_eq.trans hsteady.isOpen, ?_, ?_⟩
  · rcases h.ending_cases with hsame | ⟨-, ⟨-, hfinished⟩ | ⟨message?, hcrashed⟩⟩
    · rw [hsame]
      exact hsteady.ending_cases
    · exact .inr hfinished
    · -- No breakdown was on its way.
      unfold ending? at hcrashed
      split at hcrashed
      · next ending hphase =>
        obtain rfl := Option.some.inj hcrashed
        rw [Unharmed, hphase] at hunharmed
        exact hunharmed.elim
      · cases hcrashed
  · obtain ⟨new, -, hsettles⟩ := h.marks
    have hcounted := hsteady.counted
    cases hsettles with
    | goesOn hunsettled hcommitted hcounts =>
      dsimp only at hcommitted hcounts hcounted
      rw [hcommitted, hcounts.1, hcounts.2, hcounted]
    | @commits failed hbefore hafter hcommitted hcounts =>
      obtain ⟨hcompleted, hfailed⟩ := hcounts hsteady.isOpen
      dsimp only at hcommitted hcompleted hfailed hcounted
      rw [hcommitted, hcompleted, hfailed, ← hcounted]
      cases failed
      · exact Nat.add_right_comm _ 1 _
      · rfl
  · cases hhands with
    | nothing hhanded =>
      rw [hhanded]
      exact hsteady.handed
    | one tally hof hhanded =>
      intro other hother
      rw [hhanded] at hother
      rcases List.mem_append.1 hother with hold | hnew
      · exact hsteady.handed other hold
      · rw [List.mem_singleton.1 hnew]
        exact hof

/-! ## Words to stop and aborts -/

theorem unharmed_abort {u : User} (h : u.Unharmed) (scene : Scene) :
    (u.abort scene).2.Unharmed := by
  unfold abort
  split
  · exact h
  · exact trivial
  · exact trivial
  · exact trivial

theorem unharmed_tell {u : User} (h : u.Unharmed) (scene : Scene) :
    (u.tell scene).2.Unharmed := by
  unfold Unharmed
  rw [phase_tell]
  exact h

/-- A word to stop says nothing about iterations. -/
theorem steady_tell {w : Workload} {scene : Scene} {u : User} (h : Steady w (scene, u)) :
    Steady w (u.tell scene) where
  unharmed := unharmed_tell h.unharmed scene
  ending_cases := by simpa only [ending?, phase_tell] using h.ending_cases
  fits := by simpa only [Fits, phase_tell] using h.fits
  course_eq := by
    have hcourse : (u.tell scene).2.course w = u.course w := by
      simp only [course, phase_tell, committed_tell]
    rw [hcourse, ← h.course_eq]
    exact Run.pick_tell_none _ rfl
  isOpen := by rw [ledger_tell]; exact h.isOpen
  counted := by rw [ledger_tell, committed_tell]; exact h.counted
  handed := by
    rw [Run.pick_tell_none Happening.handed? rfl]
    exact h.handed

end User
end LoadRamp
