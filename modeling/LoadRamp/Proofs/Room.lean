import LoadRamp.Proofs.Course
import LoadRamp.Proofs.Punctual

/-!
# Room for timings

A reply whose timing does not fit into the total of its operation breaks its user down.
That takes longer than anybody waits: a user has one request under way at a time, so what
it adds to a total is no more than the time that has passed.

* `Ledger.countOf` is what a ledger has counted of an operation.
* `User.rested` is the time for whose waits a user has accounted, and `Spends` says that
  the totals grow by no more than that.  `Deed.spends`: every deed is of this kind.
* `User.Roomy` is the invariant of a user on its own and `Run.Roomy` that of runs.  Their
  `hasRoom` is what they are good for: there is room as long as the time that passed, once for
  each user, is a duration.
-/

namespace LoadRamp

open Ordered

/-! ## What is counted of an operation -/

theorem Duration.nanos_clamp_le (nanos : Nat) : (clamp nanos).nanos ≤ nanos := by
  unfold clamp
  split
  · exact Nat.le_refl _
  · dsimp only
    omega

namespace OperationCount

variable (o : OperationCount) (elapsed : Duration) (isError : Bool)

theorem total_add_le : (o.add elapsed isError).total.nanos ≤ o.total.nanos + elapsed.nanos := by
  unfold add
  split
  · exact Nat.le_add_right _ _
  · next total htotal =>
    have hsum := Duration.add?_eq_some.1 htotal
    split <;> exact Nat.le_of_eq hsum.symm

/-- An error counts if its timing fits. -/
theorem errors_add {total : Duration} (hfits : o.total.add? elapsed = some total) :
    (o.add elapsed isError).errors = o.errors + if isError then 1 else 0 := by
  unfold add
  rw [hfits]
  cases isError <;> rfl

theorem le_errors_add : o.errors ≤ (o.add elapsed isError).errors := by
  unfold add
  split
  · exact Nat.le_refl _
  · split
    · exact Nat.le_succ _
    · exact Nat.le_refl _

end OperationCount

namespace Ledger

/-- What a ledger has counted of an operation. -/
def countOf (l : Ledger) (id : String) : OperationCount := (find? id l.operations).getD {}

theorem countOf_congr {l l' : Ledger} (h : l'.operations = l.operations) (id : String) :
    l'.countOf id = l.countOf id := by
  rw [countOf, h, countOf]

theorem operations_commit (l : Ledger) (tally : Tally) :
    (l.commit tally).operations = l.operations := by
  unfold commit
  split <;> rfl

theorem ascending_record {l : Ledger} (h : Ascending textBefore l.operations) (t : Timing) :
    Ascending textBefore (l.record t).operations := by
  unfold record
  split
  · exact h
  · exact ascending_alter strict_textBefore h

theorem countOf_record {l : Ledger} (h : Ascending textBefore l.operations) (id other : String)
    (elapsed : Duration) (isError : Bool) :
    (l.record ⟨id, some elapsed, isError⟩).countOf other =
      if id = other then (l.countOf other).add elapsed isError else l.countOf other := by
  have hfind : find? other (l.record ⟨id, some elapsed, isError⟩).operations =
      if id = other then some (((find? id l.operations).getD {}).add elapsed isError)
      else find? other l.operations := find?_alter strict_textBefore h other
  rw [countOf, hfind, countOf]
  split
  · next hsame => rw [hsame]; rfl
  · rfl

/-- A timing breaks its user down when it does not fit. -/
theorem overflows_iff {l : Ledger} {id : String} {elapsed : Duration} {isError : Bool} :
    l.overflows ⟨id, some elapsed, isError⟩ = true ↔
      (l.countOf id).total.add? elapsed = none := by
  unfold overflows recordNotice? countOf
  simp [Option.isNone_iff_eq_none]

end Ledger

theorem Run.operations_settled (p : Plan) (scene : Scene) (u : User) (ending : Ending) :
    (settled p scene u ending).ledger.operations = scene.ledger.operations := by
  rw [ledger_settled]
  split <;> rfl

/-! ## What a user adds to the totals -/

namespace User

/-- The time for whose waits a user has accounted: up to now, or to the beginning of the wait
that is under way. -/
def rested (clock : Nat) (u : User) : Nat :=
  match u.phase with
  | .busy it => min it.since clock
  | _ => clock

theorem rested_le (clock : Nat) (u : User) : u.rested clock ≤ clock := by
  unfold rested
  split
  · exact Nat.min_le_right _ _
  · exact Nat.le_refl _

theorem rested_mono {clock later : Nat} (hle : clock ≤ later) (u : User) :
    u.rested clock ≤ u.rested later := by
  unfold rested
  split
  · omega
  · exact hle

theorem rested_of_not_busy {u : User} (hidle : u.isBusy = false) (clock : Nat) :
    u.rested clock = clock := by
  unfold isBusy at hidle
  unfold rested
  split at hidle <;> simp_all

theorem rested_of_busy {u : User} {it : Iteration} (hbusy : u.phase = .busy it) (clock : Nat) :
    u.rested clock = min it.since clock := by
  rw [rested, hbusy]

theorem rested_congr {u v : User} (hphase : v.phase = u.phase) (clock : Nat) :
    v.rested clock = u.rested clock := by
  rw [rested, hphase, rested]

theorem isBusy_of_free {u : User} (hfree : u.isFree = true) : u.isBusy = false := by
  unfold isFree at hfree
  unfold isBusy
  split at hfree <;> simp_all

/-- What lies between a user and what becomes of it adds no more to any total than to the time
for whose waits the user has accounted. -/
structure Spends (before after : Scene × User) : Prop where
  ascending : Ascending textBefore after.1.ledger.operations
  total_le : ∀ id, (after.1.ledger.countOf id).total.nanos + before.2.rested before.1.clock ≤
    (before.1.ledger.countOf id).total.nanos + after.2.rested after.1.clock

section Deed

variable {w : Workload} {u : User} {scene : Scene} {outcome : Scene × User}

/-- What records no timing spends nothing. -/
theorem spends_of_operations {before after : Scene × User}
    (h : Ascending textBefore before.1.ledger.operations)
    (hoperations : after.1.ledger.operations = before.1.ledger.operations)
    (hrested : before.2.rested before.1.clock ≤ after.2.rested after.1.clock) :
    Spends before after where
  ascending := hoperations ▸ h
  total_le := by
    intro id
    rw [Ledger.countOf_congr hoperations]
    exact Nat.add_le_add_left hrested _

/-- Whoever sends a request has accounted for all time before. -/
theorem Sent.rested {group : Group} {later : List Group} {tally : Tally}
    (h : Sent w u group later tally scene outcome) :
    outcome.1.clock = scene.clock ∧ outcome.2.rested outcome.1.clock = scene.clock := by
  cases h with
  | waits => exact ⟨rfl, Nat.min_self _⟩
  | breaks => exact ⟨rfl, rfl⟩

/-- The timing of a reply is accounted for by the wait for it. -/
theorem spends_timed (h : Ascending textBefore scene.ledger.operations) {it : Iteration}
    (hbusy : u.phase = .busy it) {reply : Http.Reply} {after : Scene × User}
    (hoperations : after.1.ledger.operations = (it.timed u.name scene reply).ledger.operations)
    (hrested : after.2.rested after.1.clock = scene.clock) : Spends (scene, u) after where
  ascending := by
    rw [hoperations]
    exact Ledger.ascending_record h _
  total_le := by
    intro id
    have hclamp := Duration.nanos_clamp_le (scene.clock - it.since)
    have htotal := (scene.ledger.countOf it.group.name).total_add_le
      (Duration.clamp (scene.clock - it.since)) (Iteration.isError reply)
    dsimp only
    rw [Ledger.countOf_congr hoperations, hrested, rested_of_busy hbusy, ledger_timed,
      Scene.recordSince, Scene.timingSince, Ledger.countOf_record h]
    split
    · next hsame =>
      subst hsame
      omega
    · omega

theorem Deed.spends (h : Deed w (scene, u) outcome)
    (hascending : Ascending textBefore scene.ledger.operations) : Spends (scene, u) outcome := by
  cases h with
  | begin | queue => exact spends_of_operations hascending rfl (Nat.le_refl _)
  | leave | crash => exact spends_of_operations hascending rfl (rested_le _ _)
  | start hfree htold hgroups hsent =>
    refine spends_of_operations hascending (congrArg Ledger.operations hsent.ledger_eq) ?_
    rw [hsent.rested.2]
    exact rested_le _ _
  | @advance _ _ it time reply group later _ hbusy harrival hdue hlater hsent =>
    have htimed : outcome.1.ledger.operations =
        (it.timed u.name scene reply).ledger.operations := by
      rw [hsent.ledger_eq, ledger_received, ledger_timed]
    exact spends_timed hascending hbusy htimed (hsent.rested.2.trans clock_received)
  | @commit _ _ it time reply hbusy =>
    have htimed : ((it.received w u.name scene reply).commit
        (w.scenario.extendTally it.tally it.group reply)).ledger.operations =
          (it.timed u.name scene reply).ledger.operations := by
      rw [Scene.ledger_commit, Ledger.operations_commit, ledger_received, ledger_timed]
    exact spends_timed hascending hbusy htimed clock_received
  | overflow hbusy => exact spends_timed hascending hbusy rfl rfl

theorem spends_abort (hascending : Ascending textBefore scene.ledger.operations) :
    Spends (scene, u) (u.abort scene) := by
  refine spends_of_operations hascending (by rw [ledger_abort]) ?_
  obtain ⟨ending, hending⟩ := Option.isSome_iff_exists.1 (isEnded_abort u scene)
  rw [rested_of_not_busy (isBusy_of_ended hending), (abort_follows u scene).atOnce.1]
  exact rested_le _ _

theorem spends_tell (hascending : Ascending textBefore scene.ledger.operations) :
    Spends (scene, u) (u.tell scene) := by
  refine spends_of_operations hascending (by rw [ledger_tell]) ?_
  rw [rested_congr (phase_tell u scene), clock_tell]

end Deed

/-- There is room if the total of every operation, with the wait that is under way, is a
duration. -/
theorem hasRoom_of_total {scene : Scene} {u : User}
    (h : ∀ id, (scene.ledger.countOf id).total.nanos + (scene.clock - u.rested scene.clock) <
      Duration.limit) : u.HasRoom scene := by
  intro it reply hbusy
  have hclamp := Duration.nanos_clamp_le (scene.clock - it.since)
  have htotal := h it.group.name
  rw [rested_of_busy hbusy] at htotal
  rw [Bool.eq_false_iff]
  intro hover
  have hsum := Duration.add?_eq_none.1 (Ledger.overflows_iff.1 hover)
  omega

/-- The totals of all operations are accounted for by the only user that there is. -/
structure Roomy (state : Scene × User) : Prop where
  ascending : Ascending textBefore state.1.ledger.operations
  total_le : ∀ id, (state.1.ledger.countOf id).total.nanos ≤ state.2.rested state.1.clock

theorem Roomy.of_spends {before after : Scene × User} (h : Roomy before)
    (hspends : Spends before after) : Roomy after where
  ascending := hspends.ascending
  total_le := by
    intro id
    have hbefore := h.total_le id
    have hmore := hspends.total_le id
    omega

theorem Roomy.hasRoom {state : Scene × User} (h : Roomy state)
    (hfits : state.1.clock < Duration.limit) : state.2.HasRoom state.1 := by
  refine hasRoom_of_total fun id => ?_
  have htotal := h.total_le id
  have hrested := state.2.rested_le state.1.clock
  omega

end User

/-! ## Runs -/

namespace Run

/-- The sum over some users when one of them changes. -/
theorem sum_set_add {f : User → Nat} {users : List User} {user : Nat} {u : User} (v : User)
    (hu : users[user]? = some u) :
    ((users.set user v).map f).sum + f u = (users.map f).sum + f v := by
  induction users generalizing user with
  | nil => cases hu
  | cons first rest ih =>
    cases user with
    | zero =>
      obtain rfl := Option.some.inj hu
      simp only [List.set_cons_zero, List.map_cons, List.sum_cons]
      omega
    | succ user =>
      have hrest := @ih user hu
      simp only [List.set_cons_succ, List.map_cons, List.sum_cons]
      omega

theorem sum_rested_le (clock : Nat) (users : List User) :
    (users.map (User.rested clock)).sum ≤ users.length * clock := by
  induction users with
  | nil => exact Nat.zero_le _
  | cons u rest ih =>
    have hone := u.rested_le clock
    rw [List.map_cons, List.sum_cons, List.length_cons, Nat.succ_mul]
    omega

theorem sum_rested_mono {clock later : Nat} (hle : clock ≤ later) (users : List User) :
    (users.map (User.rested clock)).sum ≤ (users.map (User.rested later)).sum := by
  induction users with
  | nil => exact Nat.le_refl _
  | cons u rest ih =>
    have hone := u.rested_mono hle
    rw [List.map_cons, List.map_cons, List.sum_cons, List.sum_cons]
    omega

/-- The totals of all operations are accounted for by the users. -/
structure Roomy (r : Run) : Prop where
  ascending : Ascending textBefore r.scene.ledger.operations
  total_le : ∀ id, (r.scene.ledger.countOf id).total.nanos ≤
    (r.users.map (User.rested r.scene.clock)).sum

variable {r r' : Run}

theorem roomy_update (h : Roomy r) {user : Nat} {u : User} {outcome : Scene × User}
    (hu : r.users[user]? = some u) (hspends : User.Spends (r.scene, u) outcome)
    (hclock : outcome.1.clock = r.scene.clock) : Roomy (r.update user outcome) where
  ascending := hspends.ascending
  total_le := by
    intro id
    have hsum := sum_set_add (f := User.rested r.scene.clock) outcome.2 hu
    have hbefore := h.total_le id
    have hone := hspends.total_le id
    simp only [update, hclock] at hone ⊢
    omega

/-- There is as much room as before when nothing is recorded. -/
theorem roomy_quiet (h : Roomy r)
    (hoperations : r'.scene.ledger.operations = r.scene.ledger.operations)
    (husers : (r.users.map (User.rested r.scene.clock)).sum ≤
      (r'.users.map (User.rested r'.scene.clock)).sum) : Roomy r' where
  ascending := hoperations ▸ h.ascending
  total_le := by
    intro id
    rw [Ledger.countOf_congr hoperations]
    exact Nat.le_trans (h.total_le id) husers

theorem roomy_move {p : Plan} (hroster : Roster r) (hmove : Move p r r') (h : Roomy r) :
    Roomy r' := by
  have hsettled (u : User) (ending : Ending) :
      (r.users.map (User.rested r.scene.clock)).sum ≤
        (r.users.map (User.rested (settled p r.scene u ending).clock)).sum := by
    rw [clock_settled]
  cases hmove with
  | deed hu hdeed => exact roomy_update h hu (hdeed.spends h.ascending) hdeed.atOnce.1
  | @land user u haborting hu =>
    exact roomy_update h hu (User.spends_abort h.ascending) (User.abort_follows u _).atOnce.1
  | @tell front back user hactive =>
    have hmem : user ∈ r.active := by simp [hactive]
    obtain ⟨u, hu⟩ := hroster.exists_of_active hmem
    have htold := roomy_update h hu (User.spends_tell h.ascending) (User.clock_tell u r.scene)
    rw [tellIn_eq hu]
    exact ⟨htold.1, htold.2⟩
  | joinStopping => exact roomy_quiet h (operations_settled _ _ _ _) (hsettled _ _)
  | joinAborting => exact roomy_quiet h (operations_settled _ _ _ _) (hsettled _ _)
  | spawn =>
    refine roomy_quiet h rfl ?_
    rw [spawn, List.map_append, List.sum_append]
    exact Nat.le_add_right _ _
  | wait time => exact roomy_quiet h rfl (sum_rested_mono (Nat.le_max_left _ _) _)
  | finish hdraining =>
    rw [finish_eq hdraining]
    exact roomy_quiet h rfl (Nat.le_refl _)
  | _ => exact roomy_quiet h rfl (Nat.le_refl _)

/-- Users never go. -/
theorem Move.length_users_le {p : Plan} (hroster : Roster r) (hmove : Move p r r') :
    r.users.length ≤ r'.users.length := by
  cases hmove with
  | deed => exact Nat.le_of_eq List.length_set.symm
  | land => exact Nat.le_of_eq List.length_set.symm
  | @tell front back user hactive =>
    have hmem : user ∈ r.active := by simp [hactive]
    obtain ⟨u, hu⟩ := hroster.exists_of_active hmem
    rw [tellIn_eq hu]
    exact Nat.le_of_eq List.length_set.symm
  | spawn => exact List.length_append ▸ Nat.le_add_right _ _
  | finish hdraining => exact finish_eq hdraining ▸ Nat.le_refl _
  | _ => exact Nat.le_refl _

/-- There was as much room before. -/
theorem Move.fits {p : Plan} (hroster : Roster r) (hmove : Move p r r')
    (hfits : r'.users.length * r'.scene.clock < Duration.limit) :
    r.users.length * r.scene.clock < Duration.limit := by
  obtain ⟨entries, hgrows⟩ := hmove.grows hroster
  exact Nat.lt_of_le_of_lt (Nat.mul_le_mul (hmove.length_users_le hroster) hgrows.clock_le) hfits

theorem roomy_of_reaches {p : Plan} (hr : Reaches p r) : Roomy r :=
  hr.keeps ⟨.nil, fun _ => Nat.le_refl _⟩
    fun _ _ hbefore hmove => roomy_move (roster_of_reaches hbefore) hmove

/-- No reply breaks its user down while the time that passed, once for each user, is a
duration. -/
theorem Roomy.hasRoom (h : Roomy r) {user : Nat} {u : User} (hu : r.users[user]? = some u)
    (hfits : r.users.length * r.scene.clock < Duration.limit) : u.HasRoom r.scene := by
  refine User.hasRoom_of_total fun id => ?_
  -- The sum as if the user had accounted for its wait, too.
  have hsum := sum_set_add (f := User.rested r.scene.clock) { u with phase := .ready } hu
  have hmost := sum_rested_le r.scene.clock (r.users.set user { u with phase := .ready })
  have hidle : User.rested r.scene.clock { u with phase := .ready } = r.scene.clock := rfl
  have htotal := h.total_le id
  have hown := u.rested_le r.scene.clock
  rw [List.length_set] at hmost
  omega

end Run
end LoadRamp
