import LoadRamp.Proofs.Chronicle
import LoadRamp.Proofs.Instants
import Mathlib.Data.List.Nodup
import Mathlib.Data.List.Pairwise

/-!
# The grace period

A user that is told to stop has the grace period to come to its end, and is aborted
only after that.

* `Grace` is the invariant.  The deadline of a stopping user is one grace period
  after it was told, the deadlines ascend, and whoever is aborted had no end before
  its deadline.
* `grace_move` is the step: only a word to stop adds a deadline, and only a deadline
  that is over leads to an abort.
* `grace_of_reaches` is the run, and `not_aborted_of_ended` what it means for a user
  that comes to its end in time.
-/

namespace LoadRamp
namespace Run

/-- Whether a user was told to stop at an instant. -/
def ToldAt (r : Run) (user : Nat) (told : Nat) : Prop :=
  ⟨told, .tells (userName user)⟩ ∈ r.scene.history

/-- Deadlines and aborts are one grace period after the word to stop, or later. -/
structure Grace (p : Plan) (r : Run) : Prop where
  times_le : ∀ e ∈ r.scene.history, e.time ≤ r.scene.clock
  /-- The history has the ends of users as they are. -/
  ended : ∀ e ∈ r.scene.history, ∀ user ending,
    e.what.ending? = some (userName user, ending) → r.ending? user = some ending
  aborts_late : ∀ e earlier user midway, e :: earlier <:+ r.scene.history →
    e.what = .aborts user midway →
      ∃ told, ⟨told, .tells user⟩ ∈ earlier ∧ told + p.settings.gracePeriod.nanos ≤ e.time
  sorted : r.stopping.Pairwise fun a b => a.deadline ≤ b.deadline
  deadline_eq : ∀ s ∈ r.stopping, ∃ told,
    r.ToldAt s.user told ∧ s.deadline = told + p.settings.gracePeriod.nanos
  aborting_late : ∀ user ∈ r.aborting, ∃ told,
    r.ToldAt user told ∧ told + p.settings.gracePeriod.nanos ≤ r.scene.clock ∧
      ∀ e ∈ r.scene.history, ∀ ending, e.what.ending? = some (userName user, ending) →
        told + p.settings.gracePeriod.nanos ≤ e.time

section Grows

variable {p : Plan} {r r' : Run} {entries : List Entry}

theorem mem_history_of_grows (hgrows : Grows r r' entries) {e : Entry}
    (he : e ∈ r.scene.history) : e ∈ r'.scene.history := by
  rw [hgrows.history_eq]
  exact List.mem_append_right _ he

/-- A suffix of a longer history begins in what is new, or is one of the history before. -/
theorem suffix_cases {e : Entry} {earlier new old : List Entry}
    (h : e :: earlier <:+ new ++ old) :
    e :: earlier <:+ old ∨ e ∈ new ∧ ∀ e' ∈ old, e' ∈ earlier := by
  induction new with
  | nil => exact .inl h
  | cons first rest ih =>
    rcases List.suffix_cons_iff.1 h with hall | hlater
    · obtain ⟨rfl, rfl⟩ := List.cons.inj hall
      exact .inr ⟨List.mem_cons_self, fun e' he' => List.mem_append_right _ he'⟩
    · exact (ih hlater).imp_right fun ⟨hmem, hold⟩ => ⟨List.mem_cons_of_mem _ hmem, hold⟩

theorem times_le_grows (hgrows : Grows r r' entries) (h : Grace p r) :
    ∀ e ∈ r'.scene.history, e.time ≤ r'.scene.clock := by
  intro e he
  rw [hgrows.history_eq] at he
  rcases List.mem_append.1 he with hnew | hold
  · rw [hgrows.time_eq e hnew]
    exact hgrows.clock_le
  · exact Nat.le_trans (h.times_le e hold) hgrows.clock_le

theorem ended_grows (hgrows : Grows r r' entries) (h : Grace p r) :
    ∀ e ∈ r'.scene.history, ∀ user ending,
      e.what.ending? = some (userName user, ending) → r'.ending? user = some ending := by
  intro e he user ending hending
  rw [hgrows.history_eq] at he
  rcases List.mem_append.1 he with hnew | hold
  · obtain ⟨other, hname, -, hafter, -⟩ := hgrows.ends e hnew _ ending hending
    rw [userName_injective hname]
    exact hafter
  · exact hgrows.final user ending (h.ended e hold user ending hending)

theorem aborts_late_grows (hgrows : Grows r r' entries) (h : Grace p r) :
    ∀ e earlier user midway, e :: earlier <:+ r'.scene.history → e.what = .aborts user midway →
      ∃ told, ⟨told, .tells user⟩ ∈ earlier ∧
        told + p.settings.gracePeriod.nanos ≤ e.time := by
  intro e earlier name midway hsuffix haborts
  rw [hgrows.history_eq] at hsuffix
  rcases suffix_cases hsuffix with hold | ⟨hnew, hold⟩
  · exact h.aborts_late e earlier name midway hold haborts
  · have hending : e.what.ending? = some (name, .aborted midway) := by rw [haborts]; rfl
    obtain ⟨user, rfl, -, -, haborting⟩ := hgrows.ends e hnew name _ hending
    obtain ⟨told, htold, hlate, -⟩ := h.aborting_late user (haborting midway rfl)
    rw [hgrows.time_eq e hnew]
    exact ⟨told, hold _ htold, hlate⟩

/-- A user that is aborted goes on having had its time. -/
theorem aborting_late_grows (hgrows : Grows r r' entries) (h : Grace p r) {user : Nat}
    (haborting : user ∈ r.aborting) :
    ∃ told, r'.ToldAt user told ∧ told + p.settings.gracePeriod.nanos ≤ r'.scene.clock ∧
      ∀ e ∈ r'.scene.history, ∀ ending, e.what.ending? = some (userName user, ending) →
        told + p.settings.gracePeriod.nanos ≤ e.time := by
  obtain ⟨told, htold, hlate, hends⟩ := h.aborting_late user haborting
  refine ⟨told, mem_history_of_grows hgrows htold,
    Nat.le_trans hlate hgrows.clock_le, ?_⟩
  intro e he ending hending
  rw [hgrows.history_eq] at he
  rcases List.mem_append.1 he with hnew | hold
  · rw [hgrows.time_eq e hnew]
    exact hlate
  · exact hends e hold ending hending

/-- No new deadlines, and nobody else is aborted. -/
theorem grace_grows (hgrows : Grows r r' entries) (h : Grace p r)
    (hstopping : r'.stopping.Sublist r.stopping) (haborting : r'.aborting ⊆ r.aborting) :
    Grace p r' where
  times_le := times_le_grows hgrows h
  ended := ended_grows hgrows h
  aborts_late := aborts_late_grows hgrows h
  sorted := h.sorted.sublist hstopping
  deadline_eq := by
    intro s hs
    obtain ⟨told, htold, hdeadline⟩ := h.deadline_eq s (hstopping.subset hs)
    exact ⟨told, mem_history_of_grows hgrows htold, hdeadline⟩
  aborting_late := fun user huser => aborting_late_grows hgrows h (haborting huser)

end Grows

/-- A deadline that is over leads to an abort: its user has had its time and has not ended. -/
theorem grace_expire {p : Plan} {r : Run} (h : Grace p r) {front back : List Stopping}
    {s : Stopping} (hstopping : r.stopping = front ++ s :: back)
    (hgoing : r.isEnded s.user = false) (hlate : s.deadline ≤ r.scene.clock) :
    Grace p { r with stopping := front ++ back, aborting := r.aborting ++ [s.user] } where
  times_le := h.times_le
  ended := h.ended
  aborts_late := h.aborts_late
  sorted := by
    refine h.sorted.sublist ?_
    rw [hstopping]
    exact (List.sublist_cons_self s back).append_left front
  deadline_eq := by
    intro other hother
    refine h.deadline_eq other ?_
    rw [hstopping]
    rcases List.mem_append.1 hother with hfront | hback
    · exact List.mem_append_left _ hfront
    · exact List.mem_append_right _ (List.mem_cons_of_mem _ hback)
  aborting_late := by
    intro user huser
    rcases List.mem_append.1 huser with hold | hnew
    · exact h.aborting_late user hold
    · obtain rfl := List.mem_singleton.1 hnew
      obtain ⟨told, htold, hdeadline⟩ := h.deadline_eq s (by simp [hstopping])
      refine ⟨told, htold, hdeadline ▸ hlate, ?_⟩
      -- The user has not ended, so no end of it is in the history.
      intro e he ending hending
      simp [isEnded, h.ended e he s.user ending hending] at hgoing

/-- The deadline of a user that is told now is the last of all. -/
theorem grace_tell {p : Plan} {r : Run} (hroster : Roster r) (h : Grace p r)
    {front back : List Nat} {user : Nat} (hactive : r.active = front ++ user :: back)
    {r' : Run} {entries : List Entry} (hgrows : Grows r r' entries)
    (hscene : r'.scene = (tellIn (r.scene, r.users) user).1)
    (hstopping : r'.stopping =
      r.stopping ++ [⟨user, r.scene.clock + p.settings.gracePeriod.nanos⟩])
    (haborting : r'.aborting = r.aborting) : Grace p r' where
  times_le := times_le_grows hgrows h
  ended := ended_grows hgrows h
  aborts_late := aborts_late_grows hgrows h
  sorted := by
    rw [hstopping, List.pairwise_append]
    refine ⟨h.sorted, List.pairwise_singleton _ _, ?_⟩
    intro a ha b hb
    rw [List.mem_singleton.1 hb]
    -- Whoever is stopping was told before now.
    obtain ⟨told, htold, hdeadline⟩ := h.deadline_eq a ha
    rw [hdeadline]
    exact Nat.add_le_add_right (h.times_le _ htold) _
  deadline_eq := by
    intro s hs
    rw [hstopping] at hs
    rcases List.mem_append.1 hs with hold | hnew
    · obtain ⟨told, htold, hdeadline⟩ := h.deadline_eq s hold
      exact ⟨told, mem_history_of_grows hgrows htold, hdeadline⟩
    · rw [List.mem_singleton.1 hnew]
      have hmem : user ∈ r.active := by simp [hactive]
      obtain ⟨u, hu⟩ := hroster.exists_of_active hmem
      refine ⟨r.scene.clock, ?_, rfl⟩
      rw [ToldAt, hscene, tellIn_eq hu, User.history_tell, (hroster.placed user u hu).name_eq]
      exact List.mem_cons_self
  aborting_late := by
    intro other hother
    rw [haborting] at hother
    exact aborting_late_grows hgrows h hother

theorem grace_move {p : Plan} {r r' : Run} (hroster : Roster r) (hmove : Move p r r')
    (h : Grace p r) : Grace p r' := by
  obtain ⟨entries, hgrows⟩ := hmove.grows hroster
  cases hmove with
  | expire hstopping hgoing hlate => exact grace_expire h hstopping hgoing hlate
  | tell hactive => exact grace_tell hroster h hactive hgrows rfl rfl rfl
  | joinStopping hstopping =>
    refine grace_grows hgrows h ?_ (List.Subset.refl _)
    rw [hstopping]
    exact (List.sublist_cons_self _ _).append_left _
  | joinAborting haborting =>
    refine grace_grows hgrows h (List.Sublist.refl _) ?_
    rw [haborting]
    exact ((List.sublist_cons_self _ _).append_left _).subset
  | finish hdraining =>
    rw [finish_eq hdraining] at hgrows ⊢
    exact grace_grows hgrows h (List.Sublist.refl _) (List.Subset.refl _)
  | _ => exact grace_grows hgrows h (List.Sublist.refl _) (List.Subset.refl _)

theorem grace_start (p : Plan) : Grace p start := by
  have hhistory : start.scene.history = [⟨0, .becomes .idle .running⟩] := rfl
  refine ⟨?_, ?_, ?_, .nil, nofun, nofun⟩
  · intro e he
    rw [hhistory, List.mem_singleton] at he
    exact Nat.le_of_eq (congrArg Entry.time he)
  · intro e he user ending hending
    rw [hhistory, List.mem_singleton] at he
    rw [he] at hending
    cases hending
  · intro e earlier user midway hsuffix haborts
    have he : e ∈ start.scene.history := hsuffix.subset List.mem_cons_self
    rw [hhistory, List.mem_singleton] at he
    rw [he] at haborts
    cases haborts

theorem grace_of_reaches {p : Plan} {r : Run} (hr : Reaches p r) : Grace p r :=
  hr.keeps (grace_start p)
    fun _ _ hbefore hmove => grace_move (roster_of_reaches hbefore) hmove

/-! ## The end of users -/

/-- The history has the word to stop only of users that have heard it. -/
theorem isTold_of_toldAt {r : Run} (hchronicle : Chronicle r) {user told : Nat}
    (htold : r.ToldAt user told) : r.isTold user = true := by
  refine (hchronicle.mem_told_iff user).1 ?_
  exact List.mem_reverse.2 (List.mem_filterMap.2 ⟨_, htold, rfl⟩)

/-- A user is told to stop once. -/
theorem toldAt_unique {r : Run} (hchronicle : Chronicle r) {user a b : Nat}
    (ha : r.ToldAt user a) (hb : r.ToldAt user b) : a = b := by
  obtain ⟨told, hpick, hnodup, -⟩ := hchronicle.told_eq
  have honce : (r.scene.history.filterMap fun e => e.what.told?).Nodup := by
    have hpicked := hnodup.map (f := userName) fun _ _ => userName_injective
    rw [← hpick, Scene.pick, List.nodup_reverse] at hpicked
    exact hpicked
  rw [List.Nodup, List.pairwise_filterMap] at honce
  have hapart : r.scene.history.Pairwise fun e e' =>
      ¬ (e.what = .tells (userName user) ∧ e'.what = .tells (userName user)) := by
    refine honce.imp fun {e e'} hne hboth => ?_
    exact hne _ (by rw [hboth.1]; rfl) _ (by rw [hboth.2]; rfl) rfl
  have : Std.Symm fun e e' : Entry =>
      ¬ (e.what = .tells (userName user) ∧ e'.what = .tells (userName user)) :=
    ⟨fun _ _ hne hboth => hne hboth.symm⟩
  by_contra hother
  exact hapart.forall ha hb (fun hsame => hother (Entry.mk.inj hsame).1) ⟨rfl, rfl⟩

/-- A user that has ended before its deadline has ended by itself and is not aborted. -/
theorem not_aborted_of_ended {p : Plan} {r : Run} (hchronicle : Chronicle r) (h : Grace p r)
    {user told : Nat} (htold : r.ToldAt user told) {e : Entry} (he : e ∈ r.scene.history)
    {ending : Ending} (hending : e.what.ending? = some (userName user, ending))
    (hearly : e.time < told + p.settings.gracePeriod.nanos) :
    r.ending? user = some ending ∧ (∀ midway, ending ≠ .aborted midway) ∧
      user ∉ r.aborting ∧
      ∀ other ∈ r.scene.history, ∀ midway, other.what ≠ .aborts (userName user) midway := by
  have hfinal := h.ended e he user ending hending
  have hself : ∀ midway, ending ≠ .aborted midway := by
    rintro midway rfl
    have haborts : e.what = .aborts (userName user) midway := by
      unfold Happening.ending? at hending
      split at hending <;> simp_all
    obtain ⟨earlier, hsuffix⟩ : ∃ earlier, e :: earlier <:+ r.scene.history := by
      obtain ⟨later, earlier, hsplit⟩ := List.append_of_mem he
      exact ⟨earlier, later, hsplit.symm⟩
    obtain ⟨told', htold', hlate⟩ := h.aborts_late e earlier _ midway hsuffix haborts
    have hsame := toldAt_unique hchronicle htold
      (hsuffix.subset (List.mem_cons_of_mem _ htold'))
    omega
  refine ⟨hfinal, hself, ?_, ?_⟩
  · intro haborting
    obtain ⟨told', htold', -, hends⟩ := h.aborting_late user haborting
    have hlate := hends e he ending hending
    have hsame := toldAt_unique hchronicle htold htold'
    omega
  · intro other hother midway haborts
    have haborted := h.ended other hother user (.aborted midway) (by rw [haborts]; rfl)
    exact hself midway (Option.some.inj (hfinal.symm.trans haborted))

end Run
end LoadRamp
