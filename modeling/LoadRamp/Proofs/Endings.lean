import LoadRamp.Proofs.Grace

/-!
# The ends on record

What has come to its end is in the history, with the instant at which it did.

* `Run.EndsAt` and `Run.CompletesAt` read the end of a user, and the completion of the
  run, off a history.
* `exists_endsAt` is the converse of what `Grace` says of ends: every user that has ended
  has its end on record.  `completesAt_iff` is the same for the run.
* `Run.Extends` is what a chain of moves adds, put together from what each move adds.
-/

namespace LoadRamp

/-- Whether a happening is the completion of a run. -/
def Happening.completes? : Happening → Option Unit
  | .becomes .draining .complete => some ()
  | _ => none

theorem Happening.completes?_of_doer {what : Happening} {user : String}
    (h : what.doer? = some user) : what.completes? = none := by
  cases what <;> first | rfl | cases h

theorem Happening.completes?_of_remark {what : Happening} (h : what.isRemark = true) :
    what.completes? = none := by
  cases what <;> first | rfl | cases h

theorem Happening.completes?_eq_some {what : Happening} (h : what.completes? = some ()) :
    what = .becomes .draining .complete := by
  unfold completes? at h
  split at h
  · rfl
  · cases h

namespace User

variable {w : Workload} {u : User} {scene : Scene} {outcome : Scene × User}

theorem Sent.exists_ending {group : Group} {later : List Group} {tally : Tally} {ending : Ending}
    (h : Sent w u group later tally scene outcome) (hending : outcome.2.ending? = some ending) :
    ∃ e ∈ outcome.1.history, e.what.ending? = some (u.name, ending) := by
  cases h with
  | waits => cases hending
  | breaks =>
    obtain rfl := Option.some.inj hending
    exact ⟨_, List.mem_cons_self, rfl⟩

/-- The deed with which a user comes to its end is on record. -/
theorem Deed.exists_ending {ending : Ending} (h : Deed w (scene, u) outcome)
    (hgoing : u.ending? = none) (hending : outcome.2.ending? = some ending) :
    ∃ e ∈ outcome.1.history, e.what.ending? = some (u.name, ending) := by
  cases h with
  | begin => cases hgoing.symm.trans hending
  | leave =>
    obtain rfl := Option.some.inj hending
    exact ⟨_, List.mem_cons_self, rfl⟩
  | start hfree htold hgroups hsent => exact hsent.exists_ending hending
  | advance hbusy harrival hdue hlater hsent => exact hsent.exists_ending hending
  | commit => cases hending
  | overflow | crash =>
    obtain rfl := Option.some.inj hending
    exact ⟨_, List.mem_cons_self, rfl⟩
  | queue => cases hgoing.symm.trans hending

/-- An abort is the end of a user that has not ended before. -/
theorem abort_of_going (hgoing : u.ending? = none) (scene : Scene) :
    ∃ midway, u.abort scene =
      (scene.note (.aborts u.name midway), { u with phase := .ended (.aborted midway) }) := by
  unfold abort
  cases hphase : u.phase with
  | ended ending =>
    rw [ending?, hphase] at hgoing
    cases hgoing
  | busy it => exact ⟨true, rfl⟩
  | ready => exact ⟨false, rfl⟩
  | resting wakes => exact ⟨false, rfl⟩

end User

namespace Run

/-- Whether a user has come to its end at an instant, and how. -/
def EndsAt (r : Run) (user : Nat) (ending : Ending) (time : Nat) : Prop :=
  ∃ what : Happening, ⟨time, what⟩ ∈ r.scene.history ∧
    what.ending? = some (userName user, ending)

/-- Whether a run was complete at an instant. -/
def CompletesAt (r : Run) (time : Nat) : Prop :=
  ⟨time, .becomes .draining .complete⟩ ∈ r.scene.history

/-! ## Every end is on record -/

section Update

variable {r : Run} {user other : Nat} {outcome : Scene × User}

theorem ending?_update_of_ne (hother : other ≠ user) :
    (r.update user outcome).ending? other = r.ending? other := by
  simp [Run.ending?, update, List.getElem?_set_ne (Ne.symm hother)]

/-- When one user changes, only that one can have come to its end. -/
theorem eq_of_ending?_update {ending : Ending} (hgoing : r.ending? other = none)
    (hending : (r.update user outcome).ending? other = some ending) : other = user := by
  by_contra hother
  rw [ending?_update_of_ne hother, hgoing] at hending
  cases hending

end Update

/-- Where no user moves, none comes to its end. -/
theorem ending?_of_users {r r' : Run} (husers : r'.users = r.users) (user : Nat) :
    r'.ending? user = r.ending? user := by
  rw [Run.ending?, husers, Run.ending?]

/-- A user that was only just started has not ended. -/
theorem ending?_spawn (r : Run) (user : Nat) : r.spawn.ending? user = r.ending? user := by
  simp only [Run.ending?, spawn, List.getElem?_append]
  split
  · rfl
  · next hlength =>
    rw [List.getElem?_eq_none (Nat.not_lt.1 hlength), List.getElem?_singleton]
    split <;> rfl

/-- Nobody comes to its end by being told to. -/
theorem ending?_tellIn (state : Scene × List User) (user other : Nat) :
    (tellIn state user).2[other]?.bind User.ending? = state.2[other]?.bind User.ending? := by
  cases hu : state.2[user]? with
  | none => simp only [tellIn, hu]
  | some u =>
    have hlength := (List.getElem?_eq_some_iff.1 hu).1
    rw [tellIn_eq hu]
    by_cases hsame : other = user
    · subst hsame
      rw [List.getElem?_set_self hlength, hu]
      exact User.ending?_tell u state.1
    · rw [List.getElem?_set_ne (Ne.symm hsame)]

/-- Whoever comes to its end in a move has its end on record. -/
theorem Move.exists_ending {p : Plan} {r r' : Run} (hroster : Roster r) (hmove : Move p r r')
    {user : Nat} {ending : Ending} (hgoing : r.ending? user = none)
    (hending : r'.ending? user = some ending) :
    ∃ e ∈ r'.scene.history, e.what.ending? = some (userName user, ending) := by
  have hstill (hsame : r'.ending? user = r.ending? user) : False := by
    rw [hsame, hgoing] at hending
    cases hending
  cases hmove with
  | @deed mover u outcome hu hdeed =>
    obtain rfl := eq_of_ending?_update hgoing hending
    rw [ending?_update_self hu] at hending
    rw [Run.ending?, hu] at hgoing
    rw [← (hroster.placed user u hu).name_eq]
    exact hdeed.exists_ending hgoing hending
  | @land mover u haborting hu =>
    obtain rfl := eq_of_ending?_update hgoing hending
    rw [ending?_update_self hu] at hending
    rw [Run.ending?, hu] at hgoing
    rw [← (hroster.placed user u hu).name_eq]
    obtain ⟨midway, habort⟩ := User.abort_of_going hgoing r.scene
    rw [habort] at hending ⊢
    obtain rfl := Option.some.inj hending
    exact ⟨_, List.mem_cons_self, rfl⟩
  | spawn => exact (hstill (ending?_spawn r user)).elim
  | tell => exact (hstill (ending?_tellIn _ _ user)).elim
  | finish hdraining =>
    rw [finish_eq hdraining] at hstill
    exact (hstill (ending?_of_users rfl user)).elim
  | _ => exact (hstill (ending?_of_users rfl user)).elim

/-- Every user that has ended has its end on record. -/
theorem exists_endsAt {p : Plan} {r : Run} (hr : Reaches p r) {user : Nat} {ending : Ending}
    (hending : r.ending? user = some ending) : ∃ time, r.EndsAt user ending time := by
  suffices hall : ∀ user ending, r.ending? user = some ending →
      ∃ e ∈ r.scene.history, e.what.ending? = some (userName user, ending) by
    obtain ⟨e, he, hwhat⟩ := hall user ending hending
    exact ⟨e.time, e.what, he, hwhat⟩
  clear hending
  refine hr.keeps (P := fun r => ∀ user ending, r.ending? user = some ending →
      ∃ e ∈ r.scene.history, e.what.ending? = some (userName user, ending)) ?_ ?_
  · intro user ending hending
    rw [Run.ending?, getElem?_start] at hending
    cases hending
  · intro r r' hbefore hmove h user ending hending
    have hroster := roster_of_reaches hbefore
    cases hgoing : r.ending? user with
    | none => exact hmove.exists_ending hroster hgoing hending
    | some earlier =>
      -- The end was there before, and a move takes nothing off a history.
      obtain ⟨entries, hgrows⟩ := hmove.grows hroster
      obtain rfl := Option.some.inj ((hgrows.final user earlier hgoing).symm.trans hending)
      obtain ⟨e, he, hwhat⟩ := h user earlier hgoing
      exact ⟨e, mem_history_of_grows hgrows he, hwhat⟩

/-! ## Completion is on record -/

/-- What a move adds says that the run is complete just when it is. -/
theorem completes_move {p : Plan} {r r' : Run} (hroster : Roster r) (hmove : Move p r r')
    (h : r.scene.pick Happening.completes? = if r.lifecycle = .complete then [()] else []) :
    r'.scene.pick Happening.completes? = if r'.lifecycle = .complete then [()] else [] := by
  cases hmove with
  | deed hu hdeed =>
    exact (hdeed.continues.pick_eq fun _ => Happening.completes?_of_doer).trans h
  | @land user u haborting hu =>
    exact ((User.continues_abort u r.scene).pick_eq fun _ => Happening.completes?_of_doer).trans h
  | joinStopping => exact (pick_settled_none _ rfl).trans h
  | joinAborting => exact (pick_settled_none _ rfl).trans h
  | @tell front back user hactive =>
    have hmem : user ∈ r.active := by simp [hactive]
    obtain ⟨u, hu⟩ := hroster.exists_of_active hmem
    rw [tellIn_eq hu]
    exact (pick_tell_none _ rfl).trans h
  | lose => exact (Scene.pick_note_none _ rfl).trans h
  | tick => exact (Scene.pick_note_none _ rfl).trans h
  | remark hgoing hremark =>
    exact (Scene.pick_note_none _ (Happening.completes?_of_remark hremark)).trans h
  | drain hrunning =>
    rw [hrunning] at h
    exact (Scene.pick_note_none _ rfl).trans h
  | finish hdraining =>
    rw [hdraining] at h
    rw [finish_eq hdraining]
    exact (Scene.pick_note _ r.scene _).trans (congrArg (· ++ [()]) h)
  | _ => exact h

theorem completes_of_reaches {p : Plan} {r : Run} (hr : Reaches p r) :
    r.scene.pick Happening.completes? = if r.lifecycle = .complete then [()] else [] :=
  hr.keeps (P := fun r => r.scene.pick Happening.completes? =
      if r.lifecycle = .complete then [()] else []) rfl
    fun _ _ hbefore hmove => completes_move (roster_of_reaches hbefore) hmove

/-- A run is complete when its completion is on record. -/
theorem completesAt_iff {p : Plan} {r : Run} (hr : Reaches p r) :
    (∃ time, r.CompletesAt time) ↔ r.lifecycle = .complete := by
  have hpick := completes_of_reaches hr
  constructor
  · rintro ⟨time, htime⟩
    have hmem : () ∈ r.scene.pick Happening.completes? :=
      List.mem_reverse.2 (List.mem_filterMap.2 ⟨_, htime, rfl⟩)
    by_contra hgoing
    rw [hpick, if_neg hgoing] at hmem
    cases hmem
  · intro hcomplete
    rw [if_pos hcomplete] at hpick
    have hmem : () ∈ r.scene.pick Happening.completes? := hpick ▸ List.mem_singleton_self _
    obtain ⟨⟨time, what⟩, he, hwhat⟩ := List.mem_filterMap.1 (List.mem_reverse.1 hmem)
    obtain rfl : what = .becomes .draining .complete := Happening.completes?_eq_some hwhat
    exact ⟨time, he⟩

/-- A run is completed once. -/
theorem completesAt_unique {p : Plan} {r : Run} (hr : Reaches p r) {a b : Nat}
    (ha : r.CompletesAt a) (hb : r.CompletesAt b) : a = b := by
  have hpick := completes_of_reaches hr
  rw [if_pos ((completesAt_iff hr).1 ⟨a, ha⟩), Scene.pick, List.reverse_eq_iff] at hpick
  by_contra hother
  obtain ⟨later, earlier, hsplit⟩ := List.append_of_mem ha
  have hrest : (⟨b, .becomes .draining .complete⟩ : Entry) ∈ later ++ earlier := by
    rw [CompletesAt, hsplit] at hb
    simpa [Ne.symm hother] using hb
  -- The other entry would be a second one of its kind.
  have hmore : 0 < ((later ++ earlier).filterMap fun e => e.what.completes?).length :=
    List.length_pos_of_mem (List.mem_filterMap.2 ⟨_, hrest, rfl⟩)
  have hone : Happening.completes? (.becomes .draining .complete) = some () := rfl
  have hlength := congrArg List.length hpick
  rw [hsplit, List.filterMap_append, List.filterMap_cons, hone] at hlength
  simp only [List.filterMap_append, List.length_append, List.length_cons, List.length_reverse,
    List.length_nil] at hlength hmore
  omega

/-! ## What a chain of moves adds -/

/-- What lies between a moment of a run and a later one: the history goes on with what happens
meanwhile, and only those that have not ended come to their end. -/
structure Extends (before after : Run) : Prop where
  clock_le : before.scene.clock ≤ after.scene.clock
  kept : ∀ e ∈ before.scene.history, e ∈ after.scene.history
  times : ∀ e ∈ after.scene.history,
    e ∈ before.scene.history ∨ before.scene.clock ≤ e.time ∧ e.time ≤ after.scene.clock
  ends : ∀ user ending time, after.EndsAt user ending time →
    before.EndsAt user ending time ∨
      before.scene.clock ≤ time ∧ time ≤ after.scene.clock ∧ before.ending? user = none ∧
        after.ending? user = some ending
  final : ∀ user ending, before.ending? user = some ending → after.ending? user = some ending

namespace Extends

variable {before middle after : Run}

theorem refl (r : Run) : Extends r r :=
  ⟨Nat.le_refl _, fun _ he => he, fun _ he => .inl he, fun _ _ _ he => .inl he,
    fun _ _ hending => hending⟩

theorem ending?_eq_none (h : Extends before after) {user : Nat}
    (hgoing : after.ending? user = none) : before.ending? user = none := by
  rw [Option.eq_none_iff_forall_ne_some] at hgoing ⊢
  exact fun ending hending => hgoing ending (h.final user ending hending)

theorem trans (h : Extends before middle) (hlast : Extends middle after) :
    Extends before after where
  clock_le := Nat.le_trans h.clock_le hlast.clock_le
  kept := fun e he => hlast.kept e (h.kept e he)
  times := by
    intro e he
    rcases hlast.times e he with hold | ⟨hfrom, hto⟩
    · refine (h.times e hold).imp_right fun ⟨hfrom, hto⟩ => ⟨hfrom, ?_⟩
      exact Nat.le_trans hto hlast.clock_le
    · exact .inr ⟨Nat.le_trans h.clock_le hfrom, hto⟩
  ends := by
    intro user ending time hend
    rcases hlast.ends user ending time hend with hold | ⟨hfrom, hto, hgoing, hended⟩
    · refine (h.ends user ending time hold).imp_right fun ⟨hfrom, hto, hgoing, hended⟩ => ?_
      exact ⟨hfrom, Nat.le_trans hto hlast.clock_le, hgoing, hlast.final user ending hended⟩
    · exact .inr ⟨Nat.le_trans h.clock_le hfrom, hto, h.ending?_eq_none hgoing, hended⟩
  final := fun user ending hending => hlast.final user ending (h.final user ending hending)

theorem toldAt (h : Extends before after) {user told : Nat} (htold : before.ToldAt user told) :
    after.ToldAt user told := h.kept _ htold

theorem endsAt (h : Extends before after) {user : Nat} {ending : Ending} {time : Nat}
    (hend : before.EndsAt user ending time) : after.EndsAt user ending time := by
  obtain ⟨what, he, hwhat⟩ := hend
  exact ⟨what, h.kept _ he, hwhat⟩

theorem isEnded (h : Extends before after) {user : Nat} (hended : before.isEnded user = true) :
    after.isEnded user = true := by
  obtain ⟨ending, hending⟩ := Option.isSome_iff_exists.1 hended
  rw [Run.isEnded, h.final user ending hending]
  rfl

end Extends

theorem Grows.extends {r r' : Run} {entries : List Entry} (h : Grows r r' entries) :
    Extends r r' where
  clock_le := h.clock_le
  kept := fun _ he => mem_history_of_grows h he
  times := by
    intro e he
    rw [h.history_eq] at he
    rcases List.mem_append.1 he with hnew | hold
    · exact .inr ⟨Nat.le_of_eq (h.time_eq e hnew).symm, h.time_eq e hnew ▸ h.clock_le⟩
    · exact .inl hold
  ends := by
    rintro user ending time ⟨what, he, hwhat⟩
    rw [h.history_eq] at he
    rcases List.mem_append.1 he with hnew | hold
    · obtain ⟨other, hname, hgoing, hended, -⟩ := h.ends _ hnew _ ending hwhat
      obtain rfl := userName_injective hname
      have htime : time = r.scene.clock := h.time_eq _ hnew
      exact .inr ⟨Nat.le_of_eq htime.symm, htime ▸ h.clock_le, hgoing, hended⟩
    · exact .inl ⟨what, hold, hwhat⟩
  final := h.final

/-- What a chain of moves adds. -/
theorem Moves.extends {p : Plan} {r r' : Run} (hr : Reaches p r) (hmoves : Moves p r r') :
    Extends r r' := by
  induction hmoves with
  | refl => exact .refl r
  | tail hbefore hmove ih =>
    obtain ⟨entries, hgrows⟩ := hmove.grows (roster_of_reaches (hr.trans hbefore))
    exact ih.trans hgrows.extends

end Run
end LoadRamp
