import LoadRamp.Proofs.Roster

/-!
# What a run has on record

The history and the ledger of a run agree with the places of its users.

* `Chronicle` says that the users that were told to stop, and those whose end was
  noticed, are the same in the history as in the run, each of them once.
* `Seal` says that a run which is complete has no user left, that its completion
  and nothing else closes the ledger, and that the ledger has counted every
  iteration that was handed in.
* `users_partitioned` puts them together with the places of users, for every list
  of acts.
-/

namespace LoadRamp
namespace Run

/-- Whether a user was told to stop. -/
def isTold (r : Run) (user : Nat) : Bool := r.users[user]?.any User.told

theorem isTold_of_getElem? {r : Run} {user : Nat} {u : User} (hu : r.users[user]? = some u) :
    r.isTold user = u.told := by
  simp [isTold, hu]

/-- The history has the same users told, and the same ones noticed, as the run. -/
structure Chronicle (r : Run) : Prop where
  noticed_eq : r.scene.pick Happening.noticed? = r.joined.map userName
  told_eq : ∃ told : List Nat, r.scene.pick Happening.told? = told.map userName ∧
    told.Nodup ∧ ∀ user, user ∈ told ↔ r.isTold user = true

/-- The word to stop is in the history of just those users that were told. -/
theorem Chronicle.mem_told_iff {r : Run} (h : Chronicle r) (user : Nat) :
    userName user ∈ r.scene.pick Happening.told? ↔ r.isTold user = true := by
  obtain ⟨told, hpick, -, hmem⟩ := h.told_eq
  rw [hpick, List.mem_map, ← hmem]
  constructor
  · rintro ⟨other, hother, hname⟩
    exact userName_injective hname ▸ hother
  · exact fun htold => ⟨user, htold, rfl⟩

/-- A chronicle that goes on when nobody is told and nobody noticed. -/
theorem chronicle_quiet {r r' : Run} (h : Chronicle r)
    (hnoticed : r'.scene.pick Happening.noticed? = r.scene.pick Happening.noticed?)
    (hjoined : r'.joined = r.joined)
    (htold : r'.scene.pick Happening.told? = r.scene.pick Happening.told?)
    (husers : ∀ user, r'.isTold user = r.isTold user) : Chronicle r' where
  noticed_eq := by rw [hnoticed, hjoined, h.noticed_eq]
  told_eq := by
    obtain ⟨told, hpick, hnodup, hmem⟩ := h.told_eq
    refine ⟨told, htold.trans hpick, hnodup, fun user => ?_⟩
    rw [husers]
    exact hmem user

/-- A user in the place of one that was told as much is told as much. -/
theorem isTold_update {r : Run} {user : Nat} {u : User} {outcome : Scene × User}
    (hu : r.users[user]? = some u) (htold : outcome.2.told = u.told) (other : Nat) :
    (r.update user outcome).isTold other = r.isTold other := by
  have hlength := (List.getElem?_eq_some_iff.1 hu).1
  by_cases hsame : other = user
  · subst hsame
    rw [isTold_of_getElem? hu, ← htold]
    exact isTold_of_getElem? (by simp [update, hlength])
  · simp only [isTold, update, List.getElem?_set_ne (Ne.symm hsame)]

/-- A user that is joined is noticed by its name. -/
theorem chronicle_joined {r r' : Run} (h : Chronicle r) {user : Nat}
    (hnoticed : r'.scene.pick Happening.noticed? =
      r.scene.pick Happening.noticed? ++ [userName user])
    (hjoined : r'.joined = r.joined ++ [user])
    (htold : r'.scene.pick Happening.told? = r.scene.pick Happening.told?)
    (husers : r'.users = r.users) : Chronicle r' where
  noticed_eq := by rw [hnoticed, hjoined, h.noticed_eq, List.map_append, List.map_singleton]
  told_eq := by
    obtain ⟨told, hpick, hnodup, hmem⟩ := h.told_eq
    refine ⟨told, htold.trans hpick, hnodup, fun user => ?_⟩
    have hsame : r'.isTold user = r.isTold user := by rw [isTold, husers, isTold]
    rw [hsame]
    exact hmem user

theorem chronicle_tell {p : Plan} {r : Run} (hroster : Roster r) (h : Chronicle r)
    {front back : List Nat} {user : Nat} (hactive : r.active = front ++ user :: back) :
    Chronicle
      { r with
        scene := (tellIn (r.scene, r.users) user).1
        users := (tellIn (r.scene, r.users) user).2
        active := front ++ back
        stopping := r.stopping ++ [⟨user, r.scene.clock + p.settings.gracePeriod.nanos⟩] } := by
  have hmem : user ∈ r.active := by simp [hactive]
  obtain ⟨u, hu⟩ := hroster.exists_of_active hmem
  have hplaced := hroster.placed user u hu
  rw [tellIn_eq hu]
  refine ⟨(pick_tell _ r.scene u).trans ?_, ?_⟩
  · rw [h.noticed_eq]
    exact List.append_nil _
  · obtain ⟨told, hpick, hnodup, htold⟩ := h.told_eq
    -- An active user was not told before, so it is told once.
    have hnew : user ∉ told := by
      rw [htold, isTold_of_getElem? hu, hplaced.untold hmem]
      exact Bool.false_ne_true
    refine ⟨told ++ [user], (pick_tell _ r.scene u).trans ?_, ?_, fun other => ?_⟩
    · rw [hpick, hplaced.name_eq, List.map_append, List.map_singleton]
      rfl
    · rw [List.nodup_append]
      refine ⟨hnodup, List.pairwise_singleton _ _, ?_⟩
      intro a ha b hb hab
      rw [List.mem_singleton.1 hb] at hab
      exact hnew (hab ▸ ha)
    · have hlength := (List.getElem?_eq_some_iff.1 hu).1
      rw [List.mem_append, List.mem_singleton, htold]
      by_cases hsame : other = user
      · subst hsame
        simp [isTold, hlength]
      · simp [isTold, hsame, List.getElem?_set_ne (Ne.symm hsame)]

/-- What a move adds to the chronicle is in both of its parts. -/
theorem chronicle_move {p : Plan} {r r' : Run} (hroster : Roster r) (hmove : Move p r r')
    (h : Chronicle r) : Chronicle r' := by
  have hcontinues {name : String} {scene : Scene} (hcontinues : r.scene.Continues name scene) :
      scene.pick Happening.noticed? = r.scene.pick Happening.noticed? ∧
        scene.pick Happening.told? = r.scene.pick Happening.told? :=
    ⟨hcontinues.pick_eq fun _ => Happening.noticed?_of_doer,
      hcontinues.pick_eq fun _ => Happening.told?_of_doer⟩
  cases hmove with
  | deed hu hdeed =>
    exact chronicle_quiet h (hcontinues hdeed.continues).1 rfl (hcontinues hdeed.continues).2
      (isTold_update hu hdeed.told_eq)
  | @land user u haborting hu =>
    have hadded := hcontinues (User.continues_abort u r.scene)
    exact chronicle_quiet h hadded.1 rfl hadded.2 (isTold_update hu (User.told_abort _ _))
  | lose hactive hu hending =>
    refine chronicle_joined h ?_ rfl (Scene.pick_note_none _ rfl) rfl
    rw [← (hroster.placed _ _ hu).name_eq]
    exact Scene.pick_note _ _ _
  | joinStopping hstopping hu hending =>
    refine chronicle_joined h ?_ rfl (pick_settled_none _ rfl) rfl
    rw [← (hroster.placed _ _ hu).name_eq]
    exact pick_settled _ _ _ _ _
  | joinAborting haborting hu hending =>
    refine chronicle_joined h ?_ rfl (pick_settled_none _ rfl) rfl
    rw [← (hroster.placed _ _ hu).name_eq]
    exact pick_settled _ _ _ _ _
  | expire => exact chronicle_quiet h rfl rfl rfl fun _ => rfl
  | spawn hrunning =>
    refine chronicle_quiet h rfl rfl rfl fun user => ?_
    simp only [isTold, spawn, List.getElem?_append]
    split
    · rfl
    · next hlength =>
      -- The new user was not told yet, and nobody was before it.
      rw [List.getElem?_eq_none (Nat.not_lt.1 hlength), List.getElem?_singleton]
      split <;> rfl
  | tell hactive => exact chronicle_tell hroster h hactive
  | tick hrunning =>
    exact chronicle_quiet h (Scene.pick_note_none _ rfl) rfl (Scene.pick_note_none _ rfl)
      fun _ => rfl
  | gauge => exact chronicle_quiet h rfl rfl rfl fun _ => rfl
  | remark hgoing hremark =>
    obtain ⟨htold, hnoticed, _⟩ := Happening.kinds_of_remark hremark
    exact chronicle_quiet h (Scene.pick_note_none _ hnoticed) rfl (Scene.pick_note_none _ htold)
      fun _ => rfl
  | wait => exact chronicle_quiet h rfl rfl rfl fun _ => rfl
  | adjust => exact chronicle_quiet h rfl rfl rfl fun _ => rfl
  | breakDown => exact chronicle_quiet h rfl rfl rfl fun _ => rfl
  | drain hrunning =>
    exact chronicle_quiet h (Scene.pick_note_none _ rfl) rfl (Scene.pick_note_none _ rfl)
      fun _ => rfl
  | finish hdraining hactive hstopping haborting =>
    rw [finish_eq hdraining]
    exact chronicle_quiet h (Scene.pick_note_none _ rfl) rfl (Scene.pick_note_none _ rfl)
      fun _ => rfl

theorem chronicle_of_reaches {p : Plan} {r : Run} (hr : Reaches p r) : Chronicle r :=
  hr.keeps ⟨rfl, [], rfl, .nil, fun _ => ⟨nofun, nofun⟩⟩
    fun _ _ hbefore hmove => chronicle_move (roster_of_reaches hbefore) hmove

/-! ## The ledger -/

/-- A complete run has nobody left, only completion closes the ledger, and what was handed
in was counted. -/
structure Seal (r : Run) : Prop where
  closed_iff : r.scene.ledger.closed = true ↔ r.lifecycle = .complete
  empty : r.lifecycle = .complete → r.active = [] ∧ r.stopping = [] ∧ r.aborting = []
  completed_eq : r.scene.ledger.completed = r.scene.marked (.meets (.committed false))
  failed_eq : r.scene.ledger.failed = r.scene.marked (.meets (.committed true))

/-- In a run that is complete every user is joined. -/
theorem joined_perm_of_complete {r : Run} (hroster : Roster r) (hseal : Seal r)
    (hcomplete : r.lifecycle = .complete) : r.joined.Perm (List.range r.users.length) := by
  obtain ⟨hactive, hstopping, haborting⟩ := hseal.empty hcomplete
  have hperm := hroster.places_perm
  rw [places, hactive, hstopping, haborting] at hperm
  exact hperm

/-- So every user has ended. -/
theorem isEnded_of_complete {r : Run} (hroster : Roster r) (hseal : Seal r)
    (hcomplete : r.lifecycle = .complete) {user : Nat} {u : User}
    (hu : r.users[user]? = some u) : u.isEnded = true := by
  have hlength := (List.getElem?_eq_some_iff.1 hu).1
  have hjoined := (joined_perm_of_complete hroster hseal hcomplete).mem_iff.2
    (List.mem_range.2 hlength)
  exact (hroster.placed user u hu).ended hjoined

/-- A commit is no part of an iteration that is not committed. -/
theorem count_committed_unsettled (u : User) (failed : Bool) :
    u.unsettled.count (.meets (.committed failed)) = 0 := by
  unfold User.unsettled
  split <;> rfl

/-- The ledger of a run that goes on is open. -/
theorem Seal.ledger_open {r : Run} (h : Seal r) (hgoing : r.lifecycle ≠ .complete) :
    r.scene.ledger.closed = false := by
  rw [Bool.eq_false_iff]
  exact fun hclosed => hgoing (h.closed_iff.1 hclosed)

/-- Marks that settle what a user does are counted as they are made. -/
theorem counts_of_settles {before after : Ledger × User} {new : List Mark}
    (h : User.Settles before after new) (hopen : before.1.closed = false) :
    after.1.completed = before.1.completed + new.count (.meets (.committed false)) ∧
      after.1.failed = before.1.failed + new.count (.meets (.committed true)) := by
  cases h with
  | goesOn hunsettled hcommitted hcounts =>
    have hnone (failed : Bool) : new.count (.meets (.committed failed)) = 0 := by
      have hcount := count_committed_unsettled after.2 failed
      rw [hunsettled, List.count_append] at hcount
      omega
    rw [hnone, hnone]
    exact hcounts
  | @commits failed hbefore hafter hcommitted hcounts =>
    obtain ⟨hcompleted, hfailed⟩ := hcounts hopen
    rw [hcompleted, hfailed]
    cases failed <;> exact ⟨rfl, rfl⟩

/-- A seal that goes on when no iteration is handed in. -/
theorem seal_quiet {r r' : Run} (h : Seal r)
    (hmarks : r'.scene.pick Happening.mark? = r.scene.pick Happening.mark?)
    (hcounts : r'.scene.ledger.completed = r.scene.ledger.completed ∧
      r'.scene.ledger.failed = r.scene.ledger.failed)
    (hclosed : r'.scene.ledger.closed = true ↔ r'.lifecycle = .complete)
    (hempty : r'.lifecycle = .complete →
      r'.active = [] ∧ r'.stopping = [] ∧ r'.aborting = []) : Seal r' where
  closed_iff := hclosed
  empty := hempty
  completed_eq := by rw [hcounts.1, Scene.marked_congr hmarks, h.completed_eq]
  failed_eq := by rw [hcounts.2, Scene.marked_congr hmarks, h.failed_eq]

/-- As long as a run goes on, what a user makes of an iteration is counted. -/
theorem seal_update {r : Run} (h : Seal r) (hgoing : r.lifecycle ≠ .complete) {user : Nat}
    {u : User} {outcome : Scene × User} {new : List Mark}
    (hmarks : outcome.1.pick Happening.mark? =
      r.scene.pick Happening.mark? ++ new.map (Prod.mk u.name))
    (hsettles : User.Settles (r.scene.ledger, u) (outcome.1.ledger, outcome.2) new)
    (hclosed : outcome.1.ledger.closed = r.scene.ledger.closed) :
    Seal (r.update user outcome) := by
  obtain ⟨hcompleted, hfailed⟩ := counts_of_settles hsettles (h.ledger_open hgoing)
  refine ⟨?_, h.empty, ?_, ?_⟩
  · show outcome.1.ledger.closed = true ↔ r.lifecycle = .complete
    rw [hclosed]
    exact h.closed_iff
  · show outcome.1.ledger.completed = outcome.1.marked _
    rw [Scene.marked_of_pick hmarks, ← h.completed_eq]
    exact hcompleted
  · show outcome.1.ledger.failed = outcome.1.marked _
    rw [Scene.marked_of_pick hmarks, ← h.failed_eq]
    exact hfailed

theorem seal_deed {p : Plan} {r : Run} (hroster : Roster r) (h : Seal r) {user : Nat} {u : User}
    {outcome : Scene × User} (hu : r.users[user]? = some u)
    (hdeed : User.Deed p.workload (r.scene, u) outcome) : Seal (r.update user outcome) := by
  by_cases hcomplete : r.lifecycle = .complete
  · -- The user has ended with all the others, so it does nothing.
    obtain ⟨hhistory, hledger, _⟩ := hdeed.of_ended (isEnded_of_complete hroster h hcomplete hu)
    refine seal_quiet h (Scene.pick_of_history _ hhistory) ?_ ?_ h.empty
    · show outcome.1.ledger.completed = _ ∧ outcome.1.ledger.failed = _
      rw [hledger]
      exact ⟨rfl, rfl⟩
    · show outcome.1.ledger.closed = true ↔ r.lifecycle = .complete
      rw [hledger]
      exact h.closed_iff
  · obtain ⟨new, hmarks, hsettles⟩ := hdeed.marks
    exact seal_update h hcomplete hmarks hsettles hdeed.closed_eq

theorem ledger_settled (p : Plan) (scene : Scene) (u : User) (ending : Ending) :
    (settled p scene u ending).ledger =
      if ending = .aborted true then scene.ledger.discard else scene.ledger := by
  unfold settled
  split
  · rfl
  · next hother => rw [if_neg hother, Scene.ledger_note]

/-- The end of a user hands nothing in. -/
theorem counts_settled (p : Plan) (scene : Scene) (u : User) (ending : Ending) :
    ((settled p scene u ending).ledger.completed = scene.ledger.completed ∧
      (settled p scene u ending).ledger.failed = scene.ledger.failed) ∧
      (settled p scene u ending).ledger.closed = scene.ledger.closed := by
  rw [ledger_settled]
  split <;> exact ⟨⟨rfl, rfl⟩, rfl⟩

theorem seal_move {p : Plan} {r r' : Run} (hroster : Roster r) (hmove : Move p r r')
    (h : Seal r) : Seal r' := by
  have hcounts (u : User) (ending : Ending) := counts_settled p r.scene u ending
  cases hmove with
  | deed hu hdeed => exact seal_deed hroster h hu hdeed
  | @land user u haborting hu =>
    obtain ⟨new, hmarks, hsettles⟩ := User.marks_abort u r.scene
    have hgoing : r.lifecycle ≠ .complete := fun hcomplete => by
      rw [(h.empty hcomplete).2.2] at haborting
      cases haborting
    exact seal_update h hgoing hmarks hsettles (by rw [User.ledger_abort])
  | lose hactive hu hending =>
    refine seal_quiet h (Scene.pick_note_none _ rfl) ⟨rfl, rfl⟩ h.closed_iff fun hcomplete => ?_
    simp [(h.empty hcomplete).1] at hactive
  | @joinStopping front back s u ending hstopping hu hending =>
    refine seal_quiet h (pick_settled_none _ rfl) (hcounts u ending).1 ?_ fun hcomplete => ?_
    · rw [(hcounts u ending).2]
      exact h.closed_iff
    · simp [(h.empty hcomplete).2.1] at hstopping
  | expire hstopping hgoing hlate =>
    refine seal_quiet h rfl ⟨rfl, rfl⟩ h.closed_iff fun hcomplete => ?_
    simp [(h.empty hcomplete).2.1] at hstopping
  | @joinAborting front back user u ending haborting hu hending =>
    refine seal_quiet h (pick_settled_none _ rfl) (hcounts u ending).1 ?_ fun hcomplete => ?_
    · rw [(hcounts u ending).2]
      exact h.closed_iff
    · simp [(h.empty hcomplete).2.2] at haborting
  | spawn hrunning =>
    refine seal_quiet h rfl ⟨rfl, rfl⟩ h.closed_iff fun hcomplete => ?_
    exact absurd (hrunning.symm.trans hcomplete) nofun
  | @tell front back user hactive =>
    have hmem : user ∈ r.active := by simp [hactive]
    obtain ⟨u, hu⟩ := hroster.exists_of_active hmem
    rw [tellIn_eq hu]
    refine seal_quiet h (pick_tell_none _ rfl) ?_ ?_ fun hcomplete => ?_
    · dsimp only
      rw [User.ledger_tell]
      exact ⟨rfl, rfl⟩
    · dsimp only
      rw [User.ledger_tell]
      exact h.closed_iff
    · simp [(h.empty hcomplete).1] at hactive
  | tick hrunning =>
    exact seal_quiet h (Scene.pick_note_none _ rfl) ⟨rfl, rfl⟩ h.closed_iff h.empty
  | gauge => exact seal_quiet h rfl ⟨rfl, rfl⟩ h.closed_iff h.empty
  | remark hgoing hremark =>
    obtain ⟨_, _, _, hmark⟩ := Happening.kinds_of_remark hremark
    exact seal_quiet h (Scene.pick_note_none _ hmark) ⟨rfl, rfl⟩ h.closed_iff h.empty
  | wait => exact seal_quiet h rfl ⟨rfl, rfl⟩ h.closed_iff h.empty
  | adjust => exact seal_quiet h rfl ⟨rfl, rfl⟩ h.closed_iff h.empty
  | breakDown => exact seal_quiet h rfl ⟨rfl, rfl⟩ h.closed_iff h.empty
  | drain hrunning =>
    refine seal_quiet h (Scene.pick_note_none _ rfl) ⟨rfl, rfl⟩ ?_ nofun
    -- A run under way is not complete, and neither is one that drains.
    show r.scene.ledger.closed = true ↔ Lifecycle.draining = .complete
    rw [h.closed_iff, hrunning]
    exact ⟨nofun, nofun⟩
  | finish hdraining hactive hstopping haborting =>
    rw [finish_eq hdraining]
    exact seal_quiet h (Scene.pick_note_none _ rfl) ⟨rfl, rfl⟩ ⟨fun _ => rfl, fun _ => rfl⟩
      fun _ => ⟨hactive, hstopping, haborting⟩

theorem seal_of_reaches {p : Plan} {r : Run} (hr : Reaches p r) : Seal r :=
  hr.keeps ⟨⟨nofun, nofun⟩, nofun, rfl, rfl⟩
    fun _ _ hbefore hmove => seal_move (roster_of_reaches hbefore) hmove

/-! ## After the end -/

/-- A complete run records nothing more. -/
theorem record_move_of_complete {p : Plan} {r r' : Run} (hroster : Roster r) (hseal : Seal r)
    (hcomplete : r.lifecycle = .complete) (hmove : Move p r r') :
    r'.scene.ledger = r.scene.ledger ∧ r'.scene.history = r.scene.history ∧
      r'.lifecycle = .complete := by
  obtain ⟨hactive, hstopping, haborting⟩ := hseal.empty hcomplete
  cases hmove with
  | deed hu hdeed =>
    have hended := isEnded_of_complete hroster hseal hcomplete hu
    obtain ⟨hhistory, hledger, _⟩ := hdeed.of_ended hended
    exact ⟨hledger, hhistory, hcomplete⟩
  | land hmem => simp [haborting] at hmem
  | lose hsplit => simp [hactive] at hsplit
  | joinStopping hsplit => simp [hstopping] at hsplit
  | expire hsplit => simp [hstopping] at hsplit
  | joinAborting hsplit => simp [haborting] at hsplit
  | spawn hrunning => simp [hcomplete] at hrunning
  | tell hsplit => simp [hactive] at hsplit
  | tick hrunning => simp [hcomplete] at hrunning
  | gauge hrunning => simp [hcomplete] at hrunning
  | remark hgoing => exact absurd hcomplete hgoing
  | wait => exact ⟨rfl, rfl, hcomplete⟩
  | adjust => exact ⟨rfl, rfl, hcomplete⟩
  | breakDown hrunning => simp [hcomplete] at hrunning
  | drain hrunning => simp [hcomplete] at hrunning
  | finish hdraining => simp [hcomplete] at hdraining

theorem record_of_complete {p : Plan} {r r' : Run} (hr : Reaches p r)
    (hcomplete : r.lifecycle = .complete) (hmoves : Moves p r r') :
    r'.scene.ledger = r.scene.ledger ∧ r'.scene.history = r.scene.history ∧
      r'.lifecycle = .complete := by
  induction hmoves with
  | refl => exact ⟨rfl, rfl, hcomplete⟩
  | tail hbefore hlast ih =>
    obtain ⟨hledger, hhistory, hstill⟩ := ih
    have hreached := Relation.ReflTransGen.trans hr hbefore
    obtain ⟨hledger', hhistory', hstill'⟩ := record_move_of_complete
      (roster_of_reaches hreached) (seal_of_reaches hreached) hstill hlast
    exact ⟨hledger'.trans hledger, hhistory'.trans hhistory, hstill'⟩

/-- No acts add anything to the record of a complete run. -/
theorem record_performAll_of_complete {p : Plan} (acts more : List Act)
    (hcomplete : (performAll p start acts).lifecycle = .complete) :
    (performAll p (performAll p start acts) more).scene.ledger =
        (performAll p start acts).scene.ledger ∧
      (performAll p (performAll p start acts) more).scene.history =
        (performAll p start acts).scene.history := by
  have hmoves := performAll_moves (p := p) more (performAll p start acts)
    fun _ hdraining => absurd (hcomplete.symm.trans hdraining) nofun
  obtain ⟨hledger, hhistory, _⟩ :=
    record_of_complete (performAll_reaches p acts) hcomplete hmoves
  exact ⟨hledger, hhistory⟩

/-- No user is lost, duplicated or left running, whatever happens in whatever order.  The
users of the four lists are the users that were started, each once, and the history has
noticed the end of those that are joined, each once.  Active users were not told to stop;
stopping and aborted ones were.  The ledger is closed exactly when the run is complete: then
all users are joined and have ended, what they handed in was counted, and nothing that
happens later is recorded. -/
theorem users_partitioned (p : Plan) (acts : List Act) :
    let r := performAll p start acts
    r.places.Perm (List.range r.users.length) ∧
      (∀ user u, r.users[user]? = some u → u.name = userName user) ∧
      r.scene.pick Happening.noticed? = r.joined.map userName ∧
      (∀ user ∈ r.active,
        r.isTold user = false ∧ userName user ∉ r.scene.pick Happening.told?) ∧
      (∀ user ∈ r.stopping.map Stopping.user ++ r.aborting,
        r.isTold user = true ∧ userName user ∈ r.scene.pick Happening.told?) ∧
      r.scene.ledger.completed = r.scene.marked (.meets (.committed false)) ∧
      r.scene.ledger.failed = r.scene.marked (.meets (.committed true)) ∧
      (r.scene.ledger.closed = true ↔ r.lifecycle = .complete) ∧
      (r.lifecycle = .complete →
        r.active = [] ∧ r.stopping = [] ∧ r.aborting = [] ∧
          r.joined.Perm (List.range r.users.length) ∧ (∀ u ∈ r.users, u.isEnded = true) ∧
          ∀ more : List Act,
            (performAll p r more).scene.ledger = r.scene.ledger ∧
              (performAll p r more).scene.history = r.scene.history) := by
  intro r
  have hr : Reaches p r := performAll_reaches p acts
  have hroster := roster_of_reaches hr
  have hchronicle := chronicle_of_reaches hr
  have hseal := seal_of_reaches hr
  obtain ⟨told, hpick, _, htold⟩ := hchronicle.told_eq
  have hheard (user : Nat) :
      userName user ∈ r.scene.pick Happening.told? ↔ r.isTold user = true := by
    rw [hpick, List.mem_map, ← htold]
    constructor
    · rintro ⟨other, hother, hname⟩
      exact userName_injective hname ▸ hother
    · exact fun hmem => ⟨user, hmem, rfl⟩
  refine ⟨hroster.places_perm, fun user u hu => (hroster.placed user u hu).name_eq,
    hchronicle.noticed_eq, ?_, ?_, hseal.completed_eq, hseal.failed_eq, hseal.closed_iff, ?_⟩
  · intro user hactive
    obtain ⟨u, hu⟩ := hroster.exists_of_active hactive
    have huntold : r.isTold user = false := by
      rw [isTold_of_getElem? hu]
      exact (hroster.placed user u hu).untold hactive
    refine ⟨huntold, fun hmem => ?_⟩
    rw [(hheard user).1 hmem] at huntold
    cases huntold
  · intro user hmem
    have hplaces : user ∈ r.places := by
      rcases List.mem_append.1 hmem with hstopping | haborting
      · exact mem_places.2 (.inr (.inl hstopping))
      · exact mem_places.2 (.inr (.inr (.inl haborting)))
    obtain ⟨u, hu⟩ := hroster.exists_of_mem hplaces
    have hplaced := hroster.placed user u hu
    have htoldUser : r.isTold user = true := by
      rw [isTold_of_getElem? hu]
      rcases List.mem_append.1 hmem with hstopping | haborting
      · exact hplaced.told_stopping hstopping
      · exact hplaced.told_aborting haborting
    exact ⟨htoldUser, (hheard user).2 htoldUser⟩
  · intro hcomplete
    obtain ⟨hactive, hstopping, haborting⟩ := hseal.empty hcomplete
    refine ⟨hactive, hstopping, haborting, joined_perm_of_complete hroster hseal hcomplete, ?_,
      fun more => record_performAll_of_complete acts more hcomplete⟩
    intro u hu
    obtain ⟨user, hget⟩ := List.mem_iff_getElem?.1 hu
    exact isEnded_of_complete hroster hseal hcomplete hget

end Run
end LoadRamp
