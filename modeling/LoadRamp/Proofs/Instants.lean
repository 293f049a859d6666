import LoadRamp.Proofs.Roster

/-!
# When things happen

A history is told instant by instant: what a move adds to it happens at the instant
at which the clock stands, and the clock never goes back.

* `Scene.AtOnce` relates two scenes when what lies between them happened at one
  instant.
* `Happening.ending?` is the end of a user that a happening is.  A user ends once,
  and by an abort only if it was aborted.
* `Run.Grows` says what a move adds to a history and to the ends of users, and
  `Move.grows` that every move adds no more.
* `Run.endless_of_broken`: a run breaks down only when no grace period ends any more.
-/

namespace LoadRamp

/-- The user that comes to its end in a happening, and how. -/
def Happening.ending? : Happening → Option (String × Ending)
  | .ends user _ => some (user, .finished)
  | .breaks user message? => some (user, .crashed message?)
  | .aborts user midway => some (user, .aborted midway)
  | _ => none

namespace Scene

/-- Whether a scene comes from an earlier one by some happenings of a kind, all of them at the
instant of the earlier one. -/
def AtOnce (kind : Happening → Prop) (before after : Scene) : Prop :=
  after.clock = before.clock ∧ ∃ entries : List Entry,
    after.history = entries ++ before.history ∧
      ∀ e ∈ entries, e.time = before.clock ∧ kind e.what

namespace AtOnce

variable {kind : Happening → Prop} {before after : Scene}

theorem of_history (hclock : after.clock = before.clock)
    (hhistory : after.history = before.history) : AtOnce kind before after :=
  ⟨hclock, [], hhistory, nofun⟩

theorem trans {last : Scene} (h : AtOnce kind before after) (hlast : AtOnce kind after last) :
    AtOnce kind before last := by
  obtain ⟨hclock, entries, hentries, hall⟩ := h
  obtain ⟨hclock', newer, hnewer, hallNewer⟩ := hlast
  refine ⟨hclock'.trans hclock, newer ++ entries, ?_, ?_⟩
  · rw [hnewer, hentries, List.append_assoc]
  · intro e he
    rcases List.mem_append.1 he with he | he
    · obtain ⟨htime, hkind⟩ := hallNewer e he
      exact ⟨htime.trans hclock, hkind⟩
    · exact hall e he

theorem note (h : AtOnce kind before after) {what : Happening} (hkind : kind what) :
    AtOnce kind before (after.note what) := by
  refine h.trans ⟨rfl, [⟨after.clock, what⟩], rfl, ?_⟩
  intro e he
  rw [List.mem_singleton.1 he]
  exact ⟨rfl, hkind⟩

theorem noteAll (h : AtOnce kind before after) {happenings : List Happening}
    (hkind : ∀ what ∈ happenings, kind what) :
    AtOnce kind before (after.noteAll happenings) := by
  induction happenings generalizing after with
  | nil => exact h
  | cons what rest ih =>
    exact ih (h.note (hkind what List.mem_cons_self))
      fun other hother => hkind other (List.mem_cons_of_mem _ hother)

end AtOnce
end Scene

namespace User

variable {w : Workload} {u : User} {scene : Scene} {outcome : Scene × User}

/-- Whether a happening is no end of a user, or the end to which a user has come by itself. -/
def EndsAs (u v : User) (what : Happening) : Prop :=
  ∀ name ending, what.ending? = some (name, ending) →
    name = u.name ∧ u.ending? = none ∧ v.ending? = some ending ∧
      ∀ midway, ending ≠ .aborted midway

theorem endsAs_of_none {u v : User} {what : Happening} (hnone : what.ending? = none) :
    EndsAs u v what := fun _ _ hending => by cases hnone.symm.trans hending

section Reply

variable {kind : Happening → Prop} {user : String} {it : Iteration} {reply : Http.Reply}

theorem atOnce_timed
    (hkind : ∀ what : Happening, what.ending? = none → what.told? = none → what.mark? = none →
      kind what) : Scene.AtOnce kind scene (it.timed user scene reply) :=
  (Scene.AtOnce.of_history rfl rfl).note (hkind _ rfl rfl rfl)

/-- What is said of a reply is no end of its user or of an iteration, and no word to stop. -/
theorem atOnce_received
    (hkind : ∀ what : Happening, what.ending? = none → what.told? = none → what.mark? = none →
      kind what) : Scene.AtOnce kind scene (it.received w user scene reply) := by
  refine (atOnce_timed hkind).noteAll fun what hwhat => ?_
  rcases mem_remarks hwhat with ⟨error, rfl⟩ | ⟨key, reason, rfl⟩
  · exact hkind _ rfl rfl rfl
  · exact hkind _ rfl rfl rfl

end Reply

theorem Sent.atOnce {group : Group} {later : List Group} {tally : Tally}
    (hgoing : u.ending? = none) (h : Sent w u group later tally scene outcome) :
    Scene.AtOnce (EndsAs u outcome.2) scene outcome.1 := by
  have hsame (v : User) : Scene.AtOnce (EndsAs u v) scene scene := .of_history rfl rfl
  cases h with
  | waits => exact (hsame _).note (endsAs_of_none rfl)
  | breaks =>
    refine (((hsame _).note (endsAs_of_none rfl)).trans (.of_history rfl rfl)).note ?_
    rintro name ending hending
    obtain ⟨rfl, rfl⟩ := Prod.mk.inj (Option.some.inj hending)
    exact ⟨rfl, hgoing, rfl, nofun⟩

/-- A deed happens at one instant, and if it is the end of its user, then not by an abort. -/
theorem Deed.atOnce (h : Deed w (scene, u) outcome) :
    Scene.AtOnce (EndsAs u outcome.2) scene outcome.1 := by
  have hsame (v : User) : Scene.AtOnce (EndsAs u v) scene scene := .of_history rfl rfl
  have hreceived (v : User) (it : Iteration) (reply : Http.Reply) :
      Scene.AtOnce (EndsAs u v) scene (it.received w u.name scene reply) :=
    atOnce_received fun _ hnone _ _ => endsAs_of_none hnone
  cases h with
  | begin => exact (hsame _).note (endsAs_of_none rfl)
  | leave hfree =>
    refine (hsame _).note ?_
    rintro name ending hending
    obtain ⟨rfl, rfl⟩ := Prod.mk.inj (Option.some.inj hending)
    exact ⟨rfl, ending?_of_free hfree, rfl, nofun⟩
  | start hfree htold hgroups hsent =>
    exact ((hsame _).note (endsAs_of_none rfl)).trans (hsent.atOnce (ending?_of_free hfree))
  | advance hbusy harrival hdue hlater hsent =>
    exact (hreceived _ _ _).trans (hsent.atOnce (ending?_of_busy hbusy))
  | commit =>
    exact ((hreceived _ _ _).trans (.of_history rfl rfl)).note (endsAs_of_none rfl)
  | overflow hbusy =>
    refine (atOnce_timed fun _ hnone _ _ => endsAs_of_none hnone).note ?_
    rintro name ending hending
    obtain ⟨rfl, rfl⟩ := Prod.mk.inj (Option.some.inj hending)
    exact ⟨rfl, ending?_of_busy hbusy, rfl, nofun⟩
  | crash hbusy =>
    refine (hsame _).note ?_
    rintro name ending hending
    obtain ⟨rfl, rfl⟩ := Prod.mk.inj (Option.some.inj hending)
    exact ⟨rfl, ending?_of_busy hbusy, rfl, nofun⟩
  | queue => exact hsame _

/-- The end of a user is final. -/
theorem Deed.ending?_eq {ending : Ending} (h : Deed w (scene, u) outcome)
    (hending : u.ending? = some ending) : outcome.2.ending? = some ending := by
  have hphase := (h.of_ended (by simp [isEnded, hending])).2.2
  unfold ending? at hending ⊢
  rw [hphase]
  exact hending

theorem ending?_abort {ending : Ending} (hending : u.ending? = some ending) (scene : Scene) :
    (u.abort scene).2.ending? = some ending := by
  unfold ending? at hending
  split at hending
  · next e hphase =>
    simp only [abort, hphase, ending?]
    exact hending
  · cases hending

/-- An abort that takes effect is the end of its user, unless the user has ended before. -/
theorem abort_cases (u : User) (scene : Scene) :
    (u.abort scene).1 = scene ∨ ∃ midway, u.ending? = none ∧
      (u.abort scene).1 = scene.note (.aborts u.name midway) ∧
        (u.abort scene).2.ending? = some (.aborted midway) := by
  unfold abort ending?
  cases u.phase with
  | ended ending => exact .inl rfl
  | busy it => exact .inr ⟨true, rfl, rfl, rfl⟩
  | ready | resting => exact .inr ⟨false, rfl, rfl, rfl⟩

@[simp] theorem clock_tell (u : User) (scene : Scene) :
    (u.tell scene).1.clock = scene.clock := by
  unfold tell
  split <;> rfl

@[simp] theorem ending?_tell (u : User) (scene : Scene) :
    (u.tell scene).2.ending? = u.ending? := by
  simp only [ending?, phase_tell]

end User

namespace Run

/-- What the happenings of a run from one moment to a later one add: they happen at the instant
of the earlier moment, each end of a user among them is final, and those who end by an abort
were aborted before. -/
structure Grows (before after : Run) (entries : List Entry) : Prop where
  history_eq : after.scene.history = entries ++ before.scene.history
  clock_le : before.scene.clock ≤ after.scene.clock
  time_eq : ∀ e ∈ entries, e.time = before.scene.clock
  ends : ∀ e ∈ entries, ∀ name ending, e.what.ending? = some (name, ending) →
    ∃ user, name = userName user ∧ before.ending? user = none ∧
      after.ending? user = some ending ∧ ∀ midway, ending = .aborted midway →
        user ∈ before.aborting
  final : ∀ user ending, before.ending? user = some ending → after.ending? user = some ending

section Grows

variable {r r' : Run}

/-- What changes no user and no history adds nothing. -/
theorem grows_still (hhistory : r'.scene.history = r.scene.history)
    (hclock : r.scene.clock ≤ r'.scene.clock) (husers : r'.users = r.users) :
    Grows r r' [] where
  history_eq := hhistory
  clock_le := hclock
  time_eq := nofun
  ends := nofun
  final := by
    intro user ending hending
    rw [Run.ending?, husers]
    exact hending

theorem grows_note {what : Happening}
    (hhistory : r'.scene.history = ⟨r.scene.clock, what⟩ :: r.scene.history)
    (hclock : r'.scene.clock = r.scene.clock) (husers : r'.users = r.users)
    (hnone : what.ending? = none) : Grows r r' [⟨r.scene.clock, what⟩] where
  history_eq := hhistory
  clock_le := Nat.le_of_eq hclock.symm
  time_eq := by
    intro e he
    rw [List.mem_singleton.1 he]
  ends := by
    intro e he name ending hending
    rw [List.mem_singleton.1 he] at hending
    cases hnone.symm.trans hending
  final := by
    intro user ending hending
    rw [Run.ending?, husers]
    exact hending

/-- When one user changes, the ends of all others are as they were. -/
theorem ending?_update {user : Nat} {u : User} {outcome : Scene × User}
    (hu : r.users[user]? = some u)
    (hfinal : ∀ ending, u.ending? = some ending → outcome.2.ending? = some ending)
    {other : Nat} {ending : Ending} (hending : r.ending? other = some ending) :
    (r.update user outcome).ending? other = some ending := by
  have hlength := (List.getElem?_eq_some_iff.1 hu).1
  by_cases hsame : other = user
  · subst hsame
    rw [Run.ending?, hu] at hending
    simpa [Run.ending?, update, hlength] using hfinal ending hending
  · simpa [Run.ending?, update, List.getElem?_set_ne (Ne.symm hsame)] using hending

theorem ending?_update_self {user : Nat} {u : User} (hu : r.users[user]? = some u)
    (outcome : Scene × User) : (r.update user outcome).ending? user = outcome.2.ending? := by
  have hlength := (List.getElem?_eq_some_iff.1 hu).1
  simp [Run.ending?, update, hlength]

end Grows

/-- What a move adds. -/
theorem Move.grows {p : Plan} {r r' : Run} (hroster : Roster r) (hmove : Move p r r') :
    ∃ entries, Grows r r' entries := by
  cases hmove with
  | @deed user u outcome hu hdeed =>
    obtain ⟨hclock, entries, hhistory, hall⟩ := hdeed.atOnce
    refine ⟨entries, hhistory, Nat.le_of_eq hclock.symm, fun e he => (hall e he).1, ?_, ?_⟩
    · intro e he name ending hending
      obtain ⟨hname, hgoing, hafter, hself⟩ := (hall e he).2 name ending hending
      refine ⟨user, hname.trans (hroster.placed user u hu).name_eq, ?_, ?_, ?_⟩
      · rw [Run.ending?, hu]
        exact hgoing
      · rw [ending?_update_self hu]
        exact hafter
      · exact fun midway haborted => absurd haborted (hself midway)
    · exact fun other ending => ending?_update hu fun _ => hdeed.ending?_eq
  | @land user u haborting hu =>
    have hfinal (other : Nat) (ending : Ending) :
        r.ending? other = some ending →
          (r.update user (u.abort r.scene)).ending? other = some ending :=
      ending?_update hu fun _ hending => User.ending?_abort hending r.scene
    rcases User.abort_cases u r.scene with hsame | ⟨midway, hgoing, hscene, hafter⟩
    · refine ⟨[], ?_, ?_, nofun, nofun, hfinal⟩
      · exact congrArg Scene.history hsame
      · exact Nat.le_of_eq (congrArg Scene.clock hsame).symm
    · refine ⟨[⟨r.scene.clock, .aborts u.name midway⟩], ?_, ?_, ?_, ?_, hfinal⟩
      · exact congrArg Scene.history hscene
      · exact Nat.le_of_eq (congrArg Scene.clock hscene).symm
      · intro e he
        rw [List.mem_singleton.1 he]
      · intro e he name ending hending
        rw [List.mem_singleton.1 he] at hending
        obtain ⟨rfl, rfl⟩ := Prod.mk.inj (Option.some.inj hending)
        refine ⟨user, (hroster.placed user u hu).name_eq, ?_, ?_, fun _ _ => haborting⟩
        · rw [Run.ending?, hu]
          exact hgoing
        · rw [ending?_update_self hu]
          exact hafter
  | lose => exact ⟨_, grows_note rfl rfl rfl rfl⟩
  | joinStopping => exact ⟨_, grows_note (history_settled _ _ _ _) (clock_settled _ _ _ _) rfl rfl⟩
  | joinAborting => exact ⟨_, grows_note (history_settled _ _ _ _) (clock_settled _ _ _ _) rfl rfl⟩
  | expire => exact ⟨_, grows_still rfl (Nat.le_refl _) rfl⟩
  | spawn hrunning =>
    refine ⟨[], rfl, Nat.le_refl _, nofun, nofun, ?_⟩
    intro user ending hending
    obtain ⟨u, hu, -⟩ := Option.bind_eq_some_iff.1 hending
    have hlength := (List.getElem?_eq_some_iff.1 hu).1
    rw [Run.ending?, Run.spawn, List.getElem?_append_left hlength]
    exact hending
  | @tell front back user hactive =>
    have hmem : user ∈ r.active := by simp [hactive]
    obtain ⟨u, hu⟩ := hroster.exists_of_active hmem
    rw [tellIn_eq hu]
    refine ⟨[⟨r.scene.clock, .tells u.name⟩], User.history_tell u r.scene, ?_, ?_, ?_, ?_⟩
    · exact Nat.le_of_eq (User.clock_tell u r.scene).symm
    · intro e he
      rw [List.mem_singleton.1 he]
    · intro e he name ending hending
      rw [List.mem_singleton.1 he] at hending
      cases hending
    · intro other ending
      have hsame (ending : Ending) :
          u.ending? = some ending → (u.tell r.scene).2.ending? = some ending := by
        rw [User.ending?_tell]
        exact id
      exact ending?_update hu hsame
  | tick => exact ⟨_, grows_note rfl rfl rfl rfl⟩
  | gauge => exact ⟨_, grows_still rfl (Nat.le_refl _) rfl⟩
  | @remark what hgoing hremark =>
    have hnone : what.ending? = none := by
      cases what <;> first | rfl | cases hremark
    exact ⟨_, grows_note rfl rfl rfl hnone⟩
  | wait time => exact ⟨_, grows_still rfl (Nat.le_max_left _ _) rfl⟩
  | adjust => exact ⟨_, grows_still rfl (Nat.le_refl _) rfl⟩
  | breakDown => exact ⟨_, grows_still rfl (Nat.le_refl _) rfl⟩
  | drain => exact ⟨_, grows_note rfl rfl rfl rfl⟩
  | finish hdraining =>
    rw [finish_eq hdraining]
    exact ⟨_, grows_note rfl rfl rfl rfl⟩

/-! ## Breaking down -/

/-- A run breaks down when somebody is to stop whose grace period has no end. -/
theorem Move.broken_cases {p : Plan} {r r' : Run} (hmove : Move p r r')
    (hbroken : r'.broken = true) :
    (r.broken = true ∧ (r'.lifecycle = .complete → r.lifecycle = .complete)) ∨
      (p.deadline? r.scene.clock = none ∧ r'.lifecycle = .running) := by
  cases hmove with
  | breakDown hrunning hendless => exact .inr ⟨hendless, hrunning⟩
  | drain hrunning => exact .inl ⟨hbroken, nofun⟩
  | finish hdraining hactive hstopping haborting hwhole =>
    rw [finish_eq hdraining] at hbroken
    cases hwhole.symm.trans hbroken
  | _ => exact .inl ⟨hbroken, id⟩

/-- A run that has broken down is at an instant at which no grace period has an end, and is not
complete. -/
theorem endless_of_broken {p : Plan} {r : Run} (hr : Reaches p r) (hbroken : r.broken = true) :
    p.deadline? r.scene.clock = none ∧ r.lifecycle ≠ .complete := by
  refine hr.keeps (P := fun r => r.broken = true →
    p.deadline? r.scene.clock = none ∧ r.lifecycle ≠ .complete) nofun ?_ hbroken
  intro r r' hbefore hmove ih hbroken
  obtain ⟨entries, hgrows⟩ := hmove.grows (roster_of_reaches hbefore)
  rcases hmove.broken_cases hbroken with ⟨hearlier, hcomplete⟩ | ⟨hendless, hrunning⟩
  · obtain ⟨hendless, hgoing⟩ := ih hearlier
    exact ⟨Plan.deadline?_eq_none_of_le hendless hgrows.clock_le, fun h => hgoing (hcomplete h)⟩
  · refine ⟨Plan.deadline?_eq_none_of_le hendless hgrows.clock_le, ?_⟩
    rw [hrunning]
    exact nofun

/-- A run that is complete has not broken down. -/
theorem whole_of_complete {p : Plan} {r : Run} (hr : Reaches p r)
    (hcomplete : r.lifecycle = .complete) : r.broken = false := by
  rw [Bool.eq_false_iff]
  exact fun hbroken => (endless_of_broken hr hbroken).2 hcomplete

/-- A scenario of one group without checks. -/
def browsing : Scenario :=
  ⟨"browse", [⟨"read", .get, "/books/1", [], none, []⟩], by simp, by simp,
    by simp [Group.descriptions]⟩

end Run
end LoadRamp
