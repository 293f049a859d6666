import LoadRamp.Proofs.Grace
import LoadRamp.Proofs.Room

/-!
# Iterations that are over in time

A user that is told to stop in the middle of an iteration has the grace period for
the rest of it.

* `Run.InTime` says of a history that no such iteration took longer.
* `inTime_of_prompt` has this from the replies alone: users take their steps as soon
  as they can, and those that were told to stop get their replies soon enough.
* `grace_honoured` has everything about the grace period, whatever the history.
-/

namespace LoadRamp

/-- Whether a user waits for no reply, or for one that comes before an instant. -/
def User.repliedBefore (time : Nat) (u : User) : Bool :=
  match u.phase with
  | .busy it => it.arrival?.any fun arrival => decide (arrival.time < time)
  | _ => true

theorem User.lt_of_repliedBefore {clock time : Nat} {u : User} (htimely : u.Timely clock)
    (hbusy : u.isBusy = true) (h : u.repliedBefore time = true) : clock < time := by
  unfold isBusy at hbusy
  unfold repliedBefore at h
  split at hbusy
  · next it hphase =>
    rw [hphase] at h
    obtain ⟨arrival, harrival, hearly⟩ := (Option.any_eq_true _ _).1 h
    have hlate : clock ≤ arrival.time := htimely _ (by simp [wakes?, hphase, harrival])
    exact Nat.lt_of_le_of_lt hlate (of_decide_eq_true hearly)
  · cases hbusy

namespace Run

/-- Whether an iteration was over in time, if one happening is its end and an earlier one told
its user to stop. -/
def isInTime (grace : Duration) (later earlier : Entry) : Bool :=
  match earlier.what, later.what.mark? with
  | .tells user, some (other, .meets _) =>
    user != other || decide (later.time < earlier.time + grace.nanos)
  | _, _ => true

/-- Whether every iteration that was under way when its user was told to stop, and is over, was
over within the grace period.  The latest happening comes first in a history. -/
def InTime (p : Plan) (r : Run) : Prop :=
  r.scene.history.Pairwise fun later earlier => isInTime p.settings.gracePeriod later earlier

instance (p : Plan) (r : Run) : Decidable (InTime p r) :=
  inferInstanceAs (Decidable (List.Pairwise _ _))

/-- Whether every user that was told to stop waits for no reply, or for one that comes within the
grace period. -/
def isPrompt (p : Plan) (r : Run) : Bool :=
  r.scene.history.all fun e => r.users.all fun u =>
    e.what != .tells u.name || u.repliedBefore (e.time + p.settings.gracePeriod.nanos)

/-- Whether it is so at every moment. -/
def isPromptAll (p : Plan) : Run → List Act → Bool
  | r, [] => r.isPrompt p
  | r, act :: rest => r.isPrompt p && isPromptAll p (r.perform p act) rest

/-! ## Replies within the grace period -/

/-- A history that goes on by what is over in time. -/
theorem inTime_append {p : Plan} {r r' : Run} (h : InTime p r) {entries : List Entry}
    (hhistory : r'.scene.history = entries ++ r.scene.history)
    (hends : ∀ later ∈ entries, ∀ earlier ∈ entries ++ r.scene.history,
      isInTime p.settings.gracePeriod later earlier = true) : InTime p r' := by
  rw [InTime, hhistory, List.pairwise_append]
  refine ⟨List.pairwise_of_forall_mem_list fun later hlater earlier hearlier => ?_, h,
    fun later hlater earlier hearlier => ?_⟩
  · exact hends later hlater earlier (List.mem_append_left _ hearlier)
  · exact hends later hlater earlier (List.mem_append_right _ hearlier)

theorem isInTime_of_untold {grace : Duration} {later earlier : Entry}
    (hnone : earlier.what.told? = none) : isInTime grace later earlier = true := by
  unfold isInTime
  split
  · next user _ _ htells _ =>
    rw [htells] at hnone
    cases hnone
  · rfl

theorem isInTime_of_unmarked {grace : Duration} {later earlier : Entry}
    (hnone : later.what.mark? = none) : isInTime grace later earlier = true := by
  unfold isInTime
  rw [hnone]
  split <;> simp_all

theorem told_of_toldAt {r : Run} (hchronicle : Chronicle r) {user told : Nat} {u : User}
    (htold : r.ToldAt user told) (hu : r.users[user]? = some u) : u.told = true := by
  rw [← isTold_of_getElem? hu]
  exact isTold_of_toldAt hchronicle htold

/-- A user that was told to stop and is in an iteration has time left. -/
theorem clock_lt_of_prompt {p : Plan} {r : Run} (hprompt : r.isPrompt p = true) {u : User}
    (hu : u ∈ r.users) (htimely : u.Timely r.scene.clock) {e : Entry} (he : e ∈ r.scene.history)
    (htells : e.what = .tells u.name) (hbusy : u.isBusy = true) :
    r.scene.clock < e.time + p.settings.gracePeriod.nanos := by
  have hreplied := List.all_eq_true.1 (List.all_eq_true.1 hprompt e he) u hu
  rw [htells, bne_self_eq_false, Bool.false_or] at hreplied
  exact User.lt_of_repliedBefore htimely hbusy hreplied

/-- An iteration that ends while its user has time left is over in time. -/
theorem inTime_turn {p : Plan} {r r' : Run} (hr : Reaches p r) (hprompt : r.isPrompt p = true)
    (htimely : ∀ u ∈ r.users, u.Timely r.scene.clock) (h : InTime p r) {act : Act}
    (hturn : Turn r act r') : InTime p r' := by
  cases hturn with
  | still hstill =>
    obtain ⟨-, entries, hhistory, hall⟩ := hstill.atOnce
    exact inTime_append h hhistory fun later hlater _ _ =>
      isInTime_of_unmarked (hall later hlater).2
  | @user _ _ user u outcome hu hfollows hscene husers =>
    obtain ⟨-, entries, hhistory, hall⟩ := hfollows.atOnce
    have hmem := List.mem_of_getElem? hu
    have hname := ((roster_of_reaches hr).placed user u hu).name_eq
    refine inTime_append h (hscene ▸ hhistory) fun later hlater earlier hearlier => ?_
    obtain ⟨htime, -, hends⟩ := hall later hlater
    rcases List.mem_append.1 hearlier with hnew | hold
    · exact isInTime_of_untold (hall earlier hnew).2.1
    unfold isInTime
    split
    · next name other fate htells hmark =>
      obtain ⟨rfl, hbusy⟩ := hends other fate hmark
      by_cases hother : name = u.name
      · subst hother
        have htold : r.ToldAt user earlier.time := by
          rw [ToldAt, ← hname, ← htells]
          exact hold
        have hheard := told_of_toldAt (chronicle_of_reaches hr) htold hu
        have hlt := clock_lt_of_prompt hprompt hmem (htimely u hmem) hold htells (hbusy hheard)
        simp [htime, hlt]
      · simp [hother]
    · rfl
  | wait hscene husers =>
    rw [InTime, hscene]
    exact h

/-- If users take their steps as soon as they can, and those that were told to stop get their
replies within the grace period, then their iterations are over in time. -/
theorem inTime_of_prompt {p : Plan} {acts : List Act}
    (hpunctual : isPunctualAll p start acts = true) (hprompt : isPromptAll p start acts = true) :
    InTime p (performAll p start acts) := by
  -- Induction on the acts to come, from any moment that others have led to.
  suffices hall : ∀ (before : List Act) (r : Run), r = performAll p start before →
      (∀ u ∈ r.users, u.Timely r.scene.clock) → InTime p r → isPunctualAll p r acts = true →
      isPromptAll p r acts = true → InTime p (performAll p r acts) by
    have husers : start.users = [] := rfl
    have hhistory : start.scene.history = [⟨0, .becomes .idle .running⟩] := rfl
    refine hall [] start rfl ?_ ?_ hpunctual hprompt
    · exact fun u hu => absurd (husers ▸ hu) List.not_mem_nil
    · rw [InTime, hhistory]
      exact List.pairwise_singleton _ _
  clear hpunctual hprompt
  induction acts with
  | nil => exact fun _ _ _ _ h _ _ => h
  | cons act rest ih =>
    intro before r hr htimely h hpunctual hprompt
    obtain ⟨hact, hpunctual⟩ := Bool.and_eq_true_iff.1 hpunctual
    obtain ⟨hnow, hprompt⟩ := Bool.and_eq_true_iff.1 hprompt
    have hreaches : Reaches p r := hr ▸ performAll_reaches p before
    have hturn := perform_turn p r act
    refine ih (before ++ [act]) (r.perform p act) ?_ (hturn.timely htimely hact)
      (inTime_turn hreaches hnow htimely h hturn) hpunctual hprompt
    rw [hr, performAll, performAll, List.foldl_append]
    rfl

/-! ## What becomes of the iterations of a run -/

theorem marked_eq_zero {scene : Scene} {mark : Mark}
    (hnone : ∀ e ∈ scene.history, ∀ user, e.what.mark? ≠ some (user, mark)) :
    scene.marked mark = 0 := by
  rw [Scene.marked, List.count_eq_zero]
  intro hmem
  obtain ⟨⟨user, _⟩, hpicked, rfl⟩ := List.mem_map.1 hmem
  obtain ⟨e, he, hmark⟩ := List.mem_filterMap.1 (List.mem_reverse.1 hpicked)
  exact hnone e he user hmark

/-- No iteration that is over in time is cut short. -/
theorem discarded_of_inTime {p : Plan} {r : Run} (h : Grace p r) (hinTime : InTime p r) :
    r.scene.marked (.meets .discarded) = 0 := by
  refine marked_eq_zero fun e he user hmark => ?_
  have haborts : e.what = .aborts user true := by
    unfold Happening.mark? at hmark
    split at hmark <;> simp_all
  obtain ⟨later, earlier, hsplit⟩ := List.append_of_mem he
  obtain ⟨told, htold, hlate⟩ := h.aborts_late e earlier user true ⟨later, hsplit.symm⟩ haborts
  rw [InTime, hsplit, List.pairwise_append, List.pairwise_cons] at hinTime
  have hearly := hinTime.2.1.1 _ htold
  simp only [isInTime, hmark, bne_self_eq_false, Bool.false_or, decide_eq_true_eq] at hearly
  omega

/-- No breakdown is on its way to any user of a calm run with room for its timings. -/
theorem unharmed_of_reaches {p : Plan} (hcalm : p.transport.IsCalm) {r : Run}
    (hr : Reaches p r) (hfits : r.users.length * r.scene.clock < Duration.limit) :
    ∀ u ∈ r.users, u.Unharmed := by
  refine hr.keeps (P := fun r => r.users.length * r.scene.clock < Duration.limit →
    ∀ u ∈ r.users, u.Unharmed) (fun _ _ hu => absurd hu List.not_mem_nil) ?_ hfits
  intro r r' hbefore hmove ih hfits
  have hroster := roster_of_reaches hbefore
  have hthen := hmove.fits hroster hfits
  have h := ih hthen
  cases hmove with
  | @deed user u outcome hu hdeed =>
    have hroom := (roomy_of_reaches hbefore).hasRoom hu hthen
    exact forall_mem_set h user (hdeed.unharmed hcalm hroom (h u (List.mem_of_getElem? hu)))
  | @land user u haborting hu =>
    exact forall_mem_set h user (User.unharmed_abort (h u (List.mem_of_getElem? hu)) r.scene)
  | spawn hrunning =>
    intro u hu
    rcases List.mem_append.1 hu with hold | hnew
    · exact h u hold
    · rw [List.mem_singleton.1 hnew]
      trivial
  | @tell front back user hactive =>
    have hmem : user ∈ r.active := by simp [hactive]
    obtain ⟨u, hu⟩ := hroster.exists_of_active hmem
    rw [tellIn_eq hu]
    exact forall_mem_set h user (User.unharmed_tell (h u (List.mem_of_getElem? hu)) r.scene)
  | finish hdraining => rw [finish_eq hdraining]; exact h
  | _ => exact h

/-- No iteration of such a run is broken off. -/
theorem broken_of_calm {p : Plan} (hcalm : p.transport.IsCalm) {r : Run} (hr : Reaches p r)
    (hfits : r.users.length * r.scene.clock < Duration.limit) :
    r.scene.marked (.meets .broken) = 0 := by
  refine marked_eq_zero fun e he name hmark => ?_
  obtain ⟨user, huser, hname⟩ := (accounts_of_reaches hr).owned (name, .meets .broken)
    (List.mem_reverse.2 (List.mem_filterMap.2 ⟨e, he, hmark⟩))
  obtain ⟨message?, hbreaks⟩ : ∃ message?, e.what = .breaks name message? := by
    unfold Happening.mark? at hmark
    split at hmark <;> simp_all
  have hending : r.ending? user = some (.crashed message?) :=
    (grace_of_reaches hr).ended e he user _ (by rw [hbreaks, ← hname]; rfl)
  obtain ⟨u, hu, hcrashed⟩ := Option.bind_eq_some_iff.1 hending
  have hunharmed := unharmed_of_reaches hcalm hr hfits u (List.mem_of_getElem? hu)
  unfold User.ending? at hcrashed
  split at hcrashed
  · next ending hphase =>
    obtain rfl := Option.some.inj hcrashed
    rw [User.Unharmed, hphase] at hunharmed
    exact hunharmed
  · cases hcrashed

end Run
end LoadRamp
