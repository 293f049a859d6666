import LoadRamp.Proofs.Endings
import LoadRamp.Proofs.Handles
import Mathlib.Data.List.Induction

/-!
# Users heed their own signals

A user knows of the word to stop only by its signal, and a signal stops its listener also when
its handle is gone.  So a handle that is given up too early would look like a word to stop.

* `Run.signal` is the signal of a user: who holds its handle is seen from the lists of the run,
  and how often it was raised from the history.
* `Run.stops_signal` says that the signal of a user stops it just when the user was told,
  as long as the user is not joined.
* `Run.handleHearing` is a run whose users look at their signals; `performHearing_eq` says that
  it is the same run.
* `Run.EndsLate` is about those who finish: each was told before.

`users_finish_only_when_told` puts them together for every list of acts.  An active user was not
told, so its task never returns: there it can only break down.
-/

namespace LoadRamp

/-- The end of a user that was given up. -/
def Happening.lost? : Happening → Option Ending
  | .lost _ _ ending => some ending
  | _ => none

theorem Happening.lost?_of_doer {what : Happening} {user : String}
    (h : what.doer? = some user) : what.lost? = none := by
  cases what <;> first | rfl | cases h

theorem Happening.lost?_of_remark {what : Happening} (h : what.isRemark = true) :
    what.lost? = none := by
  cases what <;> first | rfl | cases h

/-- Whether an end is a breakdown. -/
def Ending.IsCrash (ending : Ending) : Prop := ∃ message?, ending = .crashed message?

namespace User

variable {w : Workload}

/-- A user never tells itself to stop. -/
theorem told_step (u : User) (scene : Scene) : (u.step w scene).2.told = u.told := by
  have hdeeds := step_deeds w u scene
  generalize u.step w scene = outcome at hdeeds
  induction hdeeds with
  | refl => rfl
  | tail _ hlast ih => exact hlast.told_eq.trans ih

theorem step_of_ended {u : User} (hended : u.isEnded = true) (scene : Scene) :
    u.step w scene = (scene, u) := by
  unfold isEnded ending? at hended
  unfold step
  split at hended
  · next hphase => rw [hphase]
  · cases hended

end User

namespace Run

/-! ## Signals -/

/-- The users whose handles the run holds.  A handle goes with the number of its user from list
to list, and is given up when the user is joined. -/
def held (r : Run) : List Nat := r.active ++ r.stopping.map Stopping.user ++ r.aborting

/-- The signal of a user.  It is raised by the word to stop and by nothing else. -/
def signal (r : Run) (user : Nat) : Signal where
  raised := decide (userName user ∈ r.scene.pick Happening.told?)
  version := (r.scene.pick Happening.told?).count (userName user)
  handles := r.held.count user

/-- The step of a user that looks at its signal instead of being told.  Its listener was made
with the signal, before anything was raised. -/
def hear (p : Plan) (r : Run) (user : Nat) (u : User) : Scene × User :=
  let outcome := { u with told := (r.signal user).stops 0 }.step p.workload r.scene
  (outcome.1, { outcome.2 with told := u.told })

/-- What an act does to a run that has not broken down and whose users look at their signals. -/
def handleHearing (p : Plan) (r : Run) : Act → Run
  | .step user =>
    match r.users[user]? with
    | none => r
    | some u => { r.update user (r.hear p user u) with latest? := some user }
  | act => r.handle p act

/-- What an act does to a run whose users look at their signals. -/
def performHearing (p : Plan) (r : Run) (act : Act) : Run :=
  if r.broken then r else r.handleHearing p act

/-- What a list of acts does to it. -/
def performAllHearing (p : Plan) (r : Run) (acts : List Act) : Run :=
  acts.foldl (performHearing p) r

section Signal

variable {r : Run} {user : Nat} {u : User}

theorem raised_signal (hchronicle : Chronicle r) (user : Nat) :
    (r.signal user).raised = r.isTold user := by
  rw [signal, Bool.eq_iff_iff, decide_eq_true_iff, hchronicle.mem_told_iff]

/-- The handle of every user is held once, until the user is joined. -/
theorem handles_signal (hroster : Roster r) (hu : r.users[user]? = some u) :
    (r.signal user).handles = if user ∈ r.joined then 0 else 1 := by
  have hplaces : user ∈ r.places :=
    hroster.places_perm.mem_iff.2 (List.mem_range.2 (List.getElem?_eq_some_iff.1 hu).1)
  obtain ⟨hheld, -, hapart⟩ : r.held.Nodup ∧ r.joined.Nodup ∧ _ :=
    List.nodup_append.1 hroster.nodup
  split
  · next hjoined =>
    exact List.count_eq_zero.2 fun hmem => hapart user hmem user hjoined rfl
  · next hmissing =>
    exact List.count_eq_one_of_mem hheld ((List.mem_append.1 hplaces).resolve_right hmissing)

/-- A user that is not joined has to stop when it was told, and not before. -/
theorem stops_signal (hroster : Roster r) (hchronicle : Chronicle r)
    (hu : r.users[user]? = some u) (hmissing : user ∉ r.joined) (seen : Nat) :
    (r.signal user).stops seen = u.told := by
  have hheld : (r.signal user).abandoned = false := by
    rw [Signal.abandoned, handles_signal hroster hu, if_neg hmissing]
    rfl
  rw [Signal.stops_eq, hheld, Bool.or_false, raised_signal hchronicle, isTold_of_getElem? hu]

/-- The signal says what the user would be told. -/
theorem hear_eq (p : Plan) (hroster : Roster r) (hchronicle : Chronicle r)
    (hu : r.users[user]? = some u) : r.hear p user u = u.step p.workload r.scene := by
  by_cases hjoined : user ∈ r.joined
  · -- The handle is gone, but so is the user.
    have hended := (hroster.placed user u hu).ended hjoined
    have hlooking (told : Bool) : { u with told := told }.isEnded = true := hended
    rw [hear, User.step_of_ended (hlooking _), User.step_of_ended hended]
  · have htold := User.told_step (w := p.workload) u r.scene
    rw [hear, stops_signal hroster hchronicle hu hjoined]
    exact Prod.ext rfl (congrArg
      (fun told => { (u.step p.workload r.scene).2 with told := told }) htold.symm)

theorem performHearing_eq {p : Plan} (hr : Reaches p r) (act : Act) :
    r.performHearing p act = r.perform p act := by
  refine ite_congr rfl (fun _ => rfl) fun _ => ?_
  cases act with
  | step user =>
    rw [handleHearing, handle]
    cases hu : r.users[user]? with
    | none => rfl
    | some u =>
      dsimp only
      rw [hear_eq p (roster_of_reaches hr) (chronicle_of_reaches hr) hu]
  | _ => rfl

theorem performAllHearing_eq (p : Plan) (acts : List Act) :
    performAllHearing p start acts = performAll p start acts := by
  induction acts using List.reverseRecOn with
  | nil => rfl
  | append_singleton before act ih =>
    rw [performAllHearing, performAll, List.foldl_append, List.foldl_append]
    change (performAllHearing p start before).performHearing p act = _
    rw [ih]
    exact performHearing_eq (performAll_reaches p before) act

end Signal

/-! ## Those who finish -/

section Finish

variable {p : Plan} {r r' : Run}

/-- Whoever finishes in a move was told before it. -/
theorem Move.told_of_finished (hmove : Move p r r') {user : Nat} (hgoing : r.ending? user = none)
    (hfinished : r'.ending? user = some .finished) : r.isTold user = true := by
  have hstill (hsame : r'.ending? user = r.ending? user) : False := by
    rw [hsame, hgoing] at hfinished
    cases hfinished
  cases hmove with
  | @deed mover u outcome hu hdeed =>
    obtain rfl := eq_of_ending?_update hgoing hfinished
    rw [ending?_update_self hu] at hfinished
    rw [Run.ending?, hu] at hgoing
    rw [isTold_of_getElem? hu]
    rcases hdeed.ending_cases with hsame | ⟨-, ⟨htold, -⟩ | ⟨message?, hcrashed⟩⟩
    · cases hgoing.symm.trans (hsame.symm.trans hfinished)
    · exact htold
    · cases hcrashed.symm.trans hfinished
  | @land mover u haborting hu =>
    obtain rfl := eq_of_ending?_update hgoing hfinished
    rw [ending?_update_self hu] at hfinished
    rw [Run.ending?, hu] at hgoing
    obtain ⟨midway, habort⟩ := User.abort_of_going hgoing r.scene
    rw [habort] at hfinished
    cases hfinished
  | spawn => exact (hstill (ending?_spawn r user)).elim
  | tell => exact (hstill (ending?_tellIn _ _ user)).elim
  | finish hdraining =>
    rw [finish_eq hdraining] at hstill
    exact (hstill (ending?_of_users rfl user)).elim
  | _ => exact (hstill (ending?_of_users rfl user)).elim

/-- A user that was told has the word to stop on record. -/
theorem exists_toldAt (hchronicle : Chronicle r) {user : Nat} (htold : r.isTold user = true) :
    ∃ told, r.ToldAt user told := by
  rw [← hchronicle.mem_told_iff, Scene.pick, List.mem_reverse, List.mem_filterMap] at htold
  obtain ⟨⟨told, what⟩, he, hwhat⟩ := htold
  obtain rfl : what = .tells (userName user) := by
    unfold Happening.told? at hwhat
    split at hwhat <;> simp_all
  exact ⟨told, he⟩

/-- Every end by which a user finishes has the word to stop before it on record. -/
def EndsLate (r : Run) : Prop :=
  ∀ e earlier user iterations, e :: earlier <:+ r.scene.history →
    e.what = .ends user iterations → ∃ told, ⟨told, .tells user⟩ ∈ earlier ∧ told ≤ e.time

theorem endsLate_move (hr : Reaches p r) (hmove : Move p r r') (h : EndsLate r) :
    EndsLate r' := by
  intro e earlier name iterations hsuffix hends
  obtain ⟨entries, hgrows⟩ := hmove.grows (roster_of_reaches hr)
  rw [hgrows.history_eq] at hsuffix
  rcases suffix_cases hsuffix with hold | ⟨hnew, hold⟩
  · exact h e earlier name iterations hold hends
  · have hending : e.what.ending? = some (name, .finished) := by rw [hends]; rfl
    obtain ⟨user, rfl, hgoing, hafter, -⟩ := hgrows.ends e hnew name _ hending
    obtain ⟨told, htold⟩ :=
      exists_toldAt (chronicle_of_reaches hr) (hmove.told_of_finished hgoing hafter)
    refine ⟨told, hold _ htold, ?_⟩
    rw [hgrows.time_eq e hnew]
    exact (grace_of_reaches hr).times_le _ htold

theorem endsLate_of_reaches (hr : Reaches p r) : EndsLate r := by
  refine hr.keeps ?_ fun _ _ hbefore hmove => endsLate_move hbefore hmove
  intro e earlier user iterations hsuffix hends
  obtain rfl := List.mem_singleton.1 (hsuffix.subset List.mem_cons_self)
  cases hends

/-- A user that has finished was told. -/
theorem told_of_finished (hr : Reaches p r) {user : Nat}
    (hfinished : r.ending? user = some .finished) : r.isTold user = true := by
  obtain ⟨time, what, he, hwhat⟩ := exists_endsAt hr hfinished
  obtain ⟨iterations, rfl⟩ : ∃ iterations, what = .ends (userName user) iterations := by
    unfold Happening.ending? at hwhat
    split at hwhat <;> simp_all
  obtain ⟨later, earlier, hsplit⟩ := List.append_of_mem he
  obtain ⟨told, htold, -⟩ := endsLate_of_reaches hr _ earlier _ _ ⟨later, hsplit.symm⟩ rfl
  have hmem : (⟨told, .tells (userName user)⟩ : Entry) ∈ r.scene.history := by
    rw [hsplit]
    exact List.mem_append_right _ (List.mem_cons_of_mem _ htold)
  exact isTold_of_toldAt (chronicle_of_reaches hr) hmem

end Finish

/-! ## Active users -/

section Active

variable {p : Plan} {r r' : Run}

/-- An active user that has ended broke down: it was neither told to stop nor aborted. -/
theorem isCrash_of_active (hr : Reaches p r) {user : Nat} (hactive : user ∈ r.active) {u : User}
    (hu : r.users[user]? = some u) {ending : Ending} (hending : u.ending? = some ending) :
    ending.IsCrash := by
  have hroster := roster_of_reaches hr
  have hplaced := hroster.placed user u hu
  cases ending with
  | crashed message? => exact ⟨message?, rfl⟩
  | finished =>
    have hfinished : r.ending? user = some .finished := by
      rw [Run.ending?, hu]
      exact hending
    have htold := told_of_finished hr hfinished
    rw [isTold_of_getElem? hu, hplaced.untold hactive] at htold
    cases htold
  | aborted midway =>
    -- Whoever was aborted has left the active users.
    have hnodup := hroster.nodup
    rw [places, List.append_assoc, List.append_assoc] at hnodup
    have hapart := (List.nodup_append.1 hnodup).2.2 user hactive user
    rcases hplaced.aborted midway hending with haborting | hjoined
    · exact absurd rfl (hapart (by simp [haborting]))
    · exact absurd rfl (hapart (by simp [hjoined]))

/-- Whoever is given up has broken down. -/
theorem lost_move (hr : Reaches p r) (hmove : Move p r r')
    (h : ∀ ending ∈ r.scene.pick Happening.lost?, ending.IsCrash) :
    ∀ ending ∈ r'.scene.pick Happening.lost?, ending.IsCrash := by
  have hsame (hpick : r'.scene.pick Happening.lost? = r.scene.pick Happening.lost?) :
      ∀ ending ∈ r'.scene.pick Happening.lost?, ending.IsCrash := by rwa [hpick]
  cases hmove with
  | deed hu hdeed => exact hsame (hdeed.continues.pick_eq fun _ => Happening.lost?_of_doer)
  | @land user u haborting hu =>
    exact hsame ((User.continues_abort u r.scene).pick_eq fun _ => Happening.lost?_of_doer)
  | @lose front back user u ending hactive hu hending =>
    intro other hother
    change other ∈ (r.scene.note _).pick Happening.lost? at hother
    rw [Scene.pick_note] at hother
    rcases List.mem_append.1 hother with hold | hnew
    · exact h other hold
    · obtain rfl := List.mem_singleton.1 hnew
      exact isCrash_of_active hr (by simp [hactive]) hu hending
  | joinStopping => exact hsame (pick_settled_none _ rfl)
  | joinAborting => exact hsame (pick_settled_none _ rfl)
  | @tell front back user hactive =>
    have hmem : user ∈ r.active := by simp [hactive]
    obtain ⟨u, hu⟩ := (roster_of_reaches hr).exists_of_active hmem
    refine hsame ?_
    rw [tellIn_eq hu]
    exact pick_tell_none _ rfl
  | tick => exact hsame (Scene.pick_note_none _ rfl)
  | remark hgoing hremark =>
    exact hsame (Scene.pick_note_none _ (Happening.lost?_of_remark hremark))
  | drain => exact hsame (Scene.pick_note_none _ rfl)
  | finish hdraining =>
    rw [finish_eq hdraining]
    rw [finish_eq hdraining] at hsame
    exact hsame (Scene.pick_note_none _ rfl)
  | _ => exact h

theorem lost_of_reaches (hr : Reaches p r) :
    ∀ ending ∈ r.scene.pick Happening.lost?, ending.IsCrash :=
  hr.keeps (P := fun r => ∀ ending ∈ r.scene.pick Happening.lost?, ending.IsCrash) nofun
    fun _ _ hbefore hmove => lost_move hbefore hmove

end Active

end Run
end LoadRamp
