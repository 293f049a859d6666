import LoadRamp.Proofs.Chronicle

/-!
# Accounts of iterations

Every iteration that a user starts comes to one end: it is committed, it is cut
short by an abort, or its user breaks down in it.

* `Run.story` is what a history says about the iterations of one user.
* `Accounts` is the invariant.  The story of a user is a list of iterations that
  were opened and committed, followed by what it has not settled; users have
  stories and nobody else has; and the numbers of marks add up.
* `iterations_accounted` draws the balance: what a complete run reports as
  completed, failed or discarded, with what was lost to breakdowns, is what was
  started.

The discarded iterations are counted when their users are joined and not when
the abort takes effect, so before the end the ledger may be behind the history.
-/

namespace LoadRamp

namespace User

/-- Whether a user is in the middle of an iteration. -/
def isBusy (u : User) : Bool :=
  match u.phase with
  | .busy _ => true
  | _ => false

theorem isBusy_of_busy {u : User} {it : Iteration} (hphase : u.phase = .busy it) :
    u.isBusy = true := by
  rw [isBusy, hphase]

theorem isBusy_of_ended {u : User} {ending : Ending} (hending : u.ending? = some ending) :
    u.isBusy = false := by
  unfold ending? at hending
  unfold isBusy
  split at hending <;> simp_all

/-- Whether an abort cut an iteration of a user short. -/
def wasCut (u : User) : Bool :=
  match u.phase with
  | .ended (.aborted true) => true
  | _ => false

theorem wasCut_iff {u : User} : u.wasCut = true ↔ u.ending? = some (.aborted true) := by
  unfold wasCut ending?
  constructor
  · split <;> simp_all
  · split <;> simp_all

theorem count_discarded_unsettled (u : User) :
    u.unsettled.count (.meets .discarded) = if u.wasCut then 1 else 0 := by
  unfold unsettled wasCut
  split <;> simp_all

theorem count_opens_unsettled (u : User) :
    u.unsettled.count .opens =
      u.unsettled.count (.meets .broken) + u.unsettled.count (.meets .discarded) +
        if u.isBusy then 1 else 0 := by
  unfold unsettled isBusy
  split <;> simp_all

/-- The marks of a deed or an abort keep the books of its user: each is an iteration opened,
one closed, or both. -/
theorem Settles.balance {before after : Ledger × User} {new : List Mark}
    (h : Settles before after new) :
    new.count .opens + (if before.2.isBusy then 1 else 0) =
        new.count (.meets (.committed false)) + new.count (.meets (.committed true)) +
          new.count (.meets .broken) + new.count (.meets .discarded) +
          (if after.2.isBusy then 1 else 0) ∧
      new.count (.meets .discarded) + (if before.2.wasCut then 1 else 0) =
        if after.2.wasCut then 1 else 0 := by
  have hopens := count_opens_unsettled before.2
  have hopens' := count_opens_unsettled after.2
  have hcut := count_discarded_unsettled before.2
  have hcut' := count_discarded_unsettled after.2
  cases h with
  | goesOn hunsettled hcommitted hcounts =>
    have hnone (failed : Bool) : new.count (.meets (.committed failed)) = 0 := by
      have hcount := Run.count_committed_unsettled after.2 failed
      rw [hunsettled, List.count_append] at hcount
      omega
    rw [hunsettled] at hopens' hcut'
    simp only [List.count_append] at hopens' hcut'
    rw [hnone, hnone]
    omega
  | @commits failed hbefore hafter hcommitted hcounts =>
    -- The user was busy with the iteration that it commits, and is free after that.
    rw [hbefore] at hopens hcut
    rw [hafter] at hopens' hcut'
    change 1 = 0 + 0 + _ at hopens
    change 0 = 0 + 0 + _ at hopens'
    change 0 = _ at hcut hcut'
    have hnew : [Mark.meets (.committed failed)].count .opens = 0 ∧
        [Mark.meets (.committed failed)].count (.meets (.committed false)) +
          [Mark.meets (.committed failed)].count (.meets (.committed true)) = 1 ∧
        [Mark.meets (.committed failed)].count (.meets .broken) = 0 ∧
        [Mark.meets (.committed failed)].count (.meets .discarded) = 0 := by
      cases failed <;> exact ⟨rfl, rfl, rfl, rfl⟩
    omega

end User

namespace Run

/-- What a history says about the iterations of a user. -/
def story (r : Run) (user : Nat) : List Mark :=
  ((r.scene.pick Happening.mark?).filter (·.1 = userName user)).map Prod.snd

/-- The marks of an iteration that came to an end. -/
def marksOf (fate : Fate) : List Mark := [.opens, .meets fate]

/-- The books of a run. -/
structure Accounts (r : Run) : Prop where
  owned : ∀ mark ∈ r.scene.pick Happening.mark?,
    ∃ user < r.users.length, mark.1 = userName user
  story_eq : ∀ user u, r.users[user]? = some u → ∃ outcomes : List Bool,
    outcomes.length = u.committed ∧
      r.story user = (outcomes.map Fate.committed).flatMap marksOf ++ u.unsettled
  balance : r.scene.marked .opens =
    r.scene.marked (.meets (.committed false)) + r.scene.marked (.meets (.committed true)) +
      r.scene.marked (.meets .broken) + r.scene.marked (.meets .discarded) +
      r.users.countP User.isBusy
  cut_eq : r.scene.marked (.meets .discarded) = r.users.countP User.wasCut
  discarded_eq : r.scene.ledger.discarded =
    r.joined.countP fun user => r.users[user]?.any User.wasCut

theorem story_of_pick {r r' : Run} {new : List Mark} {user : Nat}
    (h : r'.scene.pick Happening.mark? =
      r.scene.pick Happening.mark? ++ new.map (Prod.mk (userName user))) (other : Nat) :
    r'.story other = r.story other ++ if other = user then new else [] := by
  unfold story
  rw [h, List.filter_append, List.map_append]
  congr 1
  split
  · next hsame =>
    subst hsame
    rw [List.filter_eq_self.2 (by simp), List.map_map]
    exact List.map_id _
  · next hother =>
    have hnone : ∀ mark ∈ new.map (Prod.mk (userName user)),
        ¬ decide (mark.1 = userName other) = true := by
      intro mark hmark
      obtain ⟨m, _, rfl⟩ := List.mem_map.1 hmark
      simpa using fun hname => hother (userName_injective hname).symm
    rw [List.filter_eq_nil_iff.2 hnone]
    rfl

theorem story_congr {r r' : Run}
    (h : r'.scene.pick Happening.mark? = r.scene.pick Happening.mark?) (user : Nat) :
    r'.story user = r.story user := by
  unfold story
  rw [h]

/-- A count of users when one of them changes. -/
theorem countP_set_add {f : User → Bool} {users : List User} {user : Nat} {u v : User}
    (hu : users[user]? = some u) :
    (users.set user v).countP f + (if f u then 1 else 0) =
      users.countP f + if f v then 1 else 0 := by
  obtain ⟨hlength, hget⟩ := List.getElem?_eq_some_iff.1 hu
  have hpos : (if f u then 1 else 0) ≤ users.countP f := by
    split
    · next hf => exact List.countP_pos_iff.2 ⟨u, hget ▸ List.getElem_mem hlength, hf⟩
    · exact Nat.zero_le _
  rw [List.countP_set hlength, hget]
  omega

/-- What a user does, or what an abort does to it, keeps the books.  An abort of a user that
is joined would come too late to be counted, so `hcut` rules it out. -/
theorem accounts_update {r : Run} (hroster : Roster r) (h : Accounts r) {user : Nat} {u : User}
    {outcome : Scene × User} {new : List Mark} (hu : r.users[user]? = some u)
    (hmarks : outcome.1.pick Happening.mark? =
      r.scene.pick Happening.mark? ++ new.map (Prod.mk u.name))
    (hsettles : User.Settles (r.scene.ledger, u) (outcome.1.ledger, outcome.2) new)
    (hdiscarded : outcome.1.ledger.discarded = r.scene.ledger.discarded)
    (hcut : user ∈ r.joined → outcome.2.wasCut = u.wasCut) :
    Accounts (r.update user outcome) := by
  have hlength := (List.getElem?_eq_some_iff.1 hu).1
  have hname := (hroster.placed user u hu).name_eq
  rw [hname] at hmarks
  have hmarked := Scene.marked_of_pick hmarks
  obtain ⟨hbalance, hcutBalance⟩ := hsettles.balance
  dsimp only at hbalance hcutBalance
  refine ⟨?_, ?_, ?_, ?_, ?_⟩
  · intro mark hmark
    rw [update, hmarks] at hmark
    rw [update, List.length_set]
    rcases List.mem_append.1 hmark with hmark | hmark
    · exact h.owned mark hmark
    · obtain ⟨m, _, rfl⟩ := List.mem_map.1 hmark
      exact ⟨user, hlength, rfl⟩
  · intro other v hv
    have hstory := @story_of_pick r (r.update user outcome) new user hmarks other
    rcases getElem?_set_cases hv with ⟨rfl, rfl⟩ | ⟨hother, hv⟩
    · rw [if_pos rfl] at hstory
      obtain ⟨outcomes, houtcomes, heq⟩ := h.story_eq other u hu
      cases hsettles with
      | goesOn hunsettled hcommitted hcounts =>
        refine ⟨outcomes, houtcomes.trans hcommitted.symm, ?_⟩
        rw [hstory, heq, List.append_assoc, ← hunsettled]
      | @commits failed hbefore hafter hcommitted hcounts =>
        refine ⟨outcomes ++ [failed], ?_, ?_⟩
        · rw [List.length_append, houtcomes]
          exact hcommitted.symm
        · dsimp only at hbefore hafter
          rw [hstory, heq, hbefore, hafter]
          simp [marksOf]
    · rw [if_neg hother, List.append_nil] at hstory
      rw [hstory]
      exact h.story_eq other v hv
  · -- The number of users in the middle of an iteration changes as the marks say.
    have hbusy := countP_set_add (f := User.isBusy) (v := outcome.2) hu
    have hbefore := h.balance
    simp only [update, hmarked]
    omega
  · have hcuts := countP_set_add (f := User.wasCut) (v := outcome.2) hu
    have hbefore := h.cut_eq
    simp only [update, hmarked]
    omega
  · show outcome.1.ledger.discarded = _
    rw [hdiscarded, h.discarded_eq]
    -- What is joined already does not change, by `hcut` for the user itself.
    apply List.countP_congr
    intro other hother
    by_cases hsame : other = user
    · subst hsame
      have hset : (r.users.set other outcome.2)[other]? = some outcome.2 :=
        List.getElem?_set_self hlength
      simp only [update, hset, hu, Option.any_some, hcut hother]
    · simp [update, List.getElem?_set_ne (Ne.symm hsame)]

/-- The books are kept as they are when no user changes and nothing is marked. -/
theorem accounts_quiet {r r' : Run} (h : Accounts r)
    (hmarks : r'.scene.pick Happening.mark? = r.scene.pick Happening.mark?)
    (husers : r'.users = r.users)
    (hdiscarded : r'.scene.ledger.discarded =
      r'.joined.countP fun user => r.users[user]?.any User.wasCut) : Accounts r' where
  owned := by
    rw [hmarks, husers]
    exact h.owned
  story_eq := by
    intro user u hu
    rw [husers] at hu
    rw [story_congr hmarks]
    exact h.story_eq user u hu
  balance := by
    rw [husers]
    simp only [Scene.marked_congr hmarks]
    exact h.balance
  cut_eq := by
    rw [husers, Scene.marked_congr hmarks]
    exact h.cut_eq
  discarded_eq := by
    rw [husers]
    exact hdiscarded

/-- An iteration that was cut short is discarded when its user is joined, and no other is. -/
theorem discarded_joined {p : Plan} {r : Run} (h : Accounts r) {user : Nat} {u : User}
    {ending : Ending} (hu : r.users[user]? = some u) (hending : u.ending? = some ending) :
    (settled p r.scene u ending).ledger.discarded =
      (r.joined ++ [user]).countP fun user => r.users[user]?.any User.wasCut := by
  have hcut : u.wasCut = decide (ending = .aborted true) := by
    rw [Bool.eq_iff_iff, User.wasCut_iff, hending, decide_eq_true_iff, Option.some.injEq]
  rw [List.countP_append, ← h.discarded_eq, ledger_settled]
  simp only [List.countP_singleton, hu, Option.any_some, hcut, decide_eq_true_eq]
  split <;> rfl

/-- A user that is lost was not aborted, since it was active to the end. -/
theorem wasCut_of_active {r : Run} (hroster : Roster r) {front back : List Nat} {user : Nat}
    {u : User} (hactive : r.active = front ++ user :: back) (hu : r.users[user]? = some u) :
    u.wasCut = false := by
  rw [Bool.eq_false_iff]
  intro hcut
  have hmem : user ∈ r.active := by simp [hactive]
  have hnodup := hroster.nodup
  simp only [places, List.append_assoc] at hnodup
  have hdisjoint := (List.nodup_append.1 hnodup).2.2 user hmem user
  rcases (hroster.placed user u hu).aborted true (User.wasCut_iff.1 hcut) with hwhere | hwhere
  · exact hdisjoint (by simp [hwhere]) rfl
  · exact hdisjoint (by simp [hwhere]) rfl

/-- A user that is started has no story yet. -/
theorem accounts_spawn {r : Run} (hroster : Roster r) (h : Accounts r) : Accounts r.spawn := by
  have hjoined : ∀ user ∈ r.joined, user < r.users.length := fun user huser =>
    List.mem_range.1 (hroster.places_perm.mem_iff.1 (mem_places.2 (.inr (.inr (.inr huser)))))
  have hmarked (mark : Mark) : r.scene.countWait.marked mark = r.scene.marked mark := rfl
  refine ⟨?_, ?_, ?_, ?_, ?_⟩
  · intro mark hmark
    obtain ⟨user, huser, hname⟩ := h.owned mark hmark
    exact ⟨user, by simp [spawn]; omega, hname⟩
  · intro user u hu
    have hstory : r.spawn.story user = r.story user := story_congr rfl user
    rw [hstory]
    simp only [spawn, List.getElem?_append] at hu
    split at hu
    · exact h.story_eq user u hu
    · next hlength =>
      rw [List.getElem?_singleton] at hu
      split at hu
      · obtain rfl := Option.some.inj hu
        -- All marks have an owner among the users before, and names are not shared.
        have hnone : ∀ mark ∈ r.scene.pick Happening.mark?,
            ¬ decide (mark.1 = userName user) = true := by
          intro mark hmark hname
          obtain ⟨owner, howner, hmarkName⟩ := h.owned mark hmark
          have hsame := userName_injective (hmarkName.symm.trans (of_decide_eq_true hname))
          omega
        refine ⟨[], rfl, ?_⟩
        rw [story, List.filter_eq_nil_iff.2 hnone]
        rfl
      · cases hu
  · simpa [spawn, hmarked, User.isBusy] using h.balance
  · simpa [spawn, hmarked, User.wasCut] using h.cut_eq
  · show r.scene.ledger.discarded = _
    rw [h.discarded_eq]
    apply List.countP_congr
    intro user huser
    simp only [spawn, List.getElem?_append_left (hjoined user huser)]

/-- The word to stop is no end of an iteration. -/
theorem accounts_tell {p : Plan} {r : Run} (hroster : Roster r) (h : Accounts r)
    {front back : List Nat} {user : Nat} (hactive : r.active = front ++ user :: back) :
    Accounts
      { r with
        scene := (tellIn (r.scene, r.users) user).1
        users := (tellIn (r.scene, r.users) user).2
        active := front ++ back
        stopping := r.stopping ++ [⟨user, r.scene.clock + p.settings.gracePeriod.nanos⟩] } := by
  have hmem : user ∈ r.active := by simp [hactive]
  obtain ⟨u, hu⟩ := hroster.exists_of_active hmem
  have hsettles : User.Settles (r.scene.ledger, u)
      ((u.tell r.scene).1.ledger, (u.tell r.scene).2) [] := by
    refine .goesOn ?_ (User.committed_tell u r.scene) ?_
    · dsimp only
      rw [User.unsettled_tell, List.append_nil]
    · dsimp only
      rw [User.ledger_tell]
      exact ⟨rfl, rfl⟩
  have htold := accounts_update hroster h hu
    (pick_tell _ _ _) hsettles (by rw [User.ledger_tell])
    fun _ => by simp only [User.wasCut, User.phase_tell]
  rw [tellIn_eq hu]
  exact ⟨htold.1, htold.2, htold.3, htold.4, htold.5⟩

/-- Every move keeps the books. -/
theorem accounts_move {p : Plan} {r r' : Run} (hroster : Roster r) (hmove : Move p r r')
    (h : Accounts r) : Accounts r' := by
  cases hmove with
  | @deed user u outcome hu hdeed =>
    obtain ⟨new, hmarks, hsettles⟩ := hdeed.marks
    refine accounts_update hroster h hu hmarks hsettles hdeed.discarded_eq fun hjoined => ?_
    have hphase := (hdeed.of_ended ((hroster.placed user u hu).ended hjoined)).2.2
    simp only [User.wasCut, hphase]
  | @land user u haborting hu =>
    obtain ⟨new, hmarks, hsettles⟩ := User.marks_abort u r.scene
    refine accounts_update hroster h hu hmarks hsettles (by rw [User.ledger_abort])
      fun hjoined => ?_
    -- An aborted user is not joined yet, so its iteration was not counted.
    have hnodup := hroster.nodup
    exact absurd rfl ((List.nodup_append.1 hnodup).2.2 user (by simp [haborting]) user hjoined)
  | @lose front back user u ending hactive hu hending =>
    refine accounts_quiet h (Scene.pick_note_none _ rfl) rfl ?_
    show r.scene.ledger.discarded = _
    rw [h.discarded_eq, List.countP_append, List.countP_singleton, hu, Option.any_some,
      wasCut_of_active hroster hactive hu]
    rfl
  | joinStopping hstopping hu hending =>
    exact accounts_quiet h (pick_settled_none _ rfl) rfl (discarded_joined h hu hending)
  | joinAborting haborting hu hending =>
    exact accounts_quiet h (pick_settled_none _ rfl) rfl (discarded_joined h hu hending)
  | expire => exact accounts_quiet h rfl rfl h.discarded_eq
  | spawn hrunning => exact accounts_spawn hroster h
  | tell hactive => exact accounts_tell hroster h hactive
  | tick hrunning => exact accounts_quiet h (Scene.pick_note_none _ rfl) rfl h.discarded_eq
  | gauge => exact accounts_quiet h rfl rfl h.discarded_eq
  | remark hgoing hremark =>
    obtain ⟨_, _, _, hmark⟩ := Happening.kinds_of_remark hremark
    exact accounts_quiet h (Scene.pick_note_none _ hmark) rfl h.discarded_eq
  | wait => exact accounts_quiet h rfl rfl h.discarded_eq
  | adjust => exact accounts_quiet h rfl rfl h.discarded_eq
  | breakDown => exact accounts_quiet h rfl rfl h.discarded_eq
  | drain hrunning => exact accounts_quiet h (Scene.pick_note_none _ rfl) rfl h.discarded_eq
  | finish hdraining hactive hstopping haborting =>
    rw [finish_eq hdraining]
    exact accounts_quiet h (Scene.pick_note_none _ rfl) rfl h.discarded_eq

theorem accounts_start : Accounts start where
  owned := by
    intro mark hmark
    cases hmark
  story_eq := by
    intro user u hu
    rw [getElem?_start] at hu
    cases hu
  balance := rfl
  cut_eq := rfl
  discarded_eq := rfl

theorem accounts_of_reaches {p : Plan} {r : Run} (hr : Reaches p r) : Accounts r :=
  hr.keeps accounts_start
    fun _ _ hbefore hmove => accounts_move (roster_of_reaches hbefore) hmove

/-! ## The balance -/

/-- What became of the iteration that a user opened last and did not commit, if it is known. -/
def lastFates (u : User) : List Fate :=
  match u.phase with
  | .ended (.crashed _) => [.broken]
  | .ended (.aborted true) => [.discarded]
  | _ => []

theorem unsettled_eq (u : User) :
    u.unsettled = (lastFates u).flatMap marksOf ++ (if u.isBusy then [Mark.opens] else []) := by
  unfold User.unsettled lastFates User.isBusy
  split <;> simp_all [marksOf]

theorem broken_mem_lastFates {u : User} :
    .broken ∈ lastFates u ↔ ∃ message?, u.ending? = some (.crashed message?) := by
  unfold lastFates User.ending?
  rcases u.phase with _ | it | wakes | (_ | message? | _ | _) <;> simp

theorem discarded_mem_lastFates {u : User} :
    .discarded ∈ lastFates u ↔ u.ending? = some (.aborted true) := by
  unfold lastFates User.ending?
  rcases u.phase with _ | it | wakes | (_ | message? | _ | _) <;> simp

theorem count_committed_lastFates (u : User) (failed : Bool) :
    (lastFates u).count (.committed failed) = 0 := by
  unfold lastFates
  split <;> rfl

/-- Every outcome that was handed in is a failure or none. -/
theorem length_eq_count_committed (outcomes : List Bool) :
    outcomes.length = (outcomes.map Fate.committed).count (.committed false) +
      (outcomes.map Fate.committed).count (.committed true) := by
  induction outcomes with
  | nil => rfl
  | cons failed rest ih =>
    rw [List.map_cons, List.length_cons]
    cases failed with
    | false =>
      rw [List.count_cons_self, List.count_cons_of_ne (by decide)]
      omega
    | true =>
      rw [List.count_cons_self, List.count_cons_of_ne (by decide)]
      omega

/-- Each iteration of a user but the one under way has one fate, only the last iteration of a
user is not committed, and the user knows how many were. -/
theorem exists_fates {r : Run} (h : Accounts r) {user : Nat} {u : User}
    (hu : r.users[user]? = some u) :
    ∃ fates : List Fate,
      r.story user = fates.flatMap marksOf ++ (if u.isBusy then [.opens] else []) ∧
        u.committed = fates.count (.committed false) + fates.count (.committed true) ∧
        (∀ fate ∈ fates.dropLast, ∃ failed, fate = .committed failed) ∧
        (.broken ∈ fates ↔ ∃ message?, u.ending? = some (.crashed message?)) ∧
        (.discarded ∈ fates ↔ u.ending? = some (.aborted true)) := by
  obtain ⟨outcomes, houtcomes, hstory⟩ := h.story_eq user u hu
  have hcommitted : ∀ fate ∈ outcomes.map Fate.committed, ∃ failed, fate = .committed failed := by
    intro fate hfate
    obtain ⟨failed, _, rfl⟩ := List.mem_map.1 hfate
    exact ⟨failed, rfl⟩
  have hnotCommitted (fate : Fate) (hfate : ∀ failed, fate ≠ .committed failed) :
      fate ∈ outcomes.map Fate.committed ++ lastFates u ↔ fate ∈ lastFates u := by
    rw [List.mem_append, or_iff_right]
    intro hmem
    obtain ⟨failed, hfailed⟩ := hcommitted fate hmem
    exact hfate failed hfailed
  refine ⟨outcomes.map Fate.committed ++ lastFates u, ?_, ?_, ?_, ?_, ?_⟩
  · rw [hstory, unsettled_eq, List.flatMap_append, List.append_assoc]
  · rw [List.count_append, List.count_append, count_committed_lastFates,
      count_committed_lastFates, ← houtcomes]
    exact length_eq_count_committed outcomes
  · intro fate hfate
    -- At most one fate comes after the committed ones.
    have hfew : (lastFates u).length ≤ 1 := by
      unfold lastFates
      split <;> simp
    rw [List.dropLast_eq_take, List.length_append] at hfate
    have hmem : fate ∈ (outcomes.map Fate.committed ++ lastFates u).take
        (outcomes.map Fate.committed).length :=
      List.take_subset_take_left _ (by omega) hfate
    rw [List.take_left] at hmem
    exact hcommitted fate hmem
  · exact (hnotCommitted .broken nofun).trans broken_mem_lastFates
  · exact (hnotCommitted .discarded nofun).trans discarded_mem_lastFates

/-- An abort has cut an iteration of a user short exactly when that is the last word of its
story. -/
theorem getLast?_story {r : Run} (h : Accounts r) {user : Nat} {u : User}
    (hu : r.users[user]? = some u) :
    (r.story user).getLast? = some (.meets .discarded) ↔ u.wasCut = true := by
  obtain ⟨outcomes, _, hstory⟩ := h.story_eq user u hu
  have hlast : ((outcomes.map Fate.committed).flatMap marksOf).getLast? ≠
      some (.meets .discarded) := by
    rcases List.eq_nil_or_concat outcomes with rfl | ⟨front, failed, rfl⟩
    · exact nofun
    · simp [marksOf]
  rw [hstory]
  unfold User.unsettled User.wasCut
  split <;> simp_all

/-- The users of a run, counted one by one. -/
theorem countP_range (users : List User) (f : User → Bool) :
    (List.range users.length).countP (fun user => users[user]?.any f) = users.countP f := by
  have hmap : (List.range users.length).map (fun user => users[user]?) = users.map some := by
    apply List.ext_getElem
    · simp
    · intro i hrange husers
      rw [List.length_map] at husers
      simp [List.getElem?_eq_getElem husers]
  have hcount := congrArg (List.countP (Option.any f)) hmap
  rw [List.countP_map, List.countP_map] at hcount
  exact hcount

/-- A run that is complete has discarded every iteration that an abort cut short. -/
theorem discarded_of_complete {r : Run} (hroster : Roster r) (hseal : Seal r) (h : Accounts r)
    (hcomplete : r.lifecycle = .complete) :
    r.scene.ledger.discarded = r.scene.marked (.meets .discarded) := by
  have hjoined := joined_perm_of_complete hroster hseal hcomplete
  rw [h.discarded_eq, h.cut_eq, hjoined.countP_eq, countP_range]

/-- In a run that is complete no iteration is under way. -/
theorem not_busy_of_complete {r : Run} (hroster : Roster r) (hseal : Seal r)
    (hcomplete : r.lifecycle = .complete) : ∀ u ∈ r.users, u.isBusy = false := by
  intro u hu
  obtain ⟨user, hget⟩ := List.mem_iff_getElem?.1 hu
  have hended := isEnded_of_complete hroster hseal hcomplete hget
  obtain ⟨ending, hending⟩ := Option.isSome_iff_exists.1 hended
  exact User.isBusy_of_ended hending

/-- All iterations that were started in a run that is complete are counted, or were lost to
breakdowns. -/
theorem balance_of_complete {r : Run} (hroster : Roster r) (hseal : Seal r) (h : Accounts r)
    (hcomplete : r.lifecycle = .complete) :
    r.scene.ledger.completed + r.scene.ledger.failed + r.scene.ledger.discarded +
      r.scene.marked (.meets .broken) = r.scene.marked .opens := by
  have hnobody : r.users.countP User.isBusy = 0 := by
    rw [List.countP_eq_zero]
    intro u hu
    simp [not_busy_of_complete hroster hseal hcomplete u hu]
  have hdiscarded := discarded_of_complete hroster hseal h hcomplete
  have hbalance := h.balance
  rw [hnobody, ← hseal.completed_eq, ← hseal.failed_eq, ← hdiscarded] at hbalance
  omega

/-- Every iteration comes to one end and is counted for it.  What was marked in the history
was marked by the users of the run, and in the story of a user each iteration that is over
was opened and met one fate; only the last one may have been broken off or cut short, and the
user has counted the others.  Two
numbers of the report are those of the iterations handed in, the third is that of the joined
users whose story ends with an iteration cut short.  Once the run is complete no iteration is
open, and all that were started are in the report or were lost to breakdowns. -/
theorem iterations_accounted (p : Plan) (acts : List Act) :
    let r := performAll p start acts
    let report := r.scene.ledger.report
    (∀ mark ∈ r.scene.pick Happening.mark?,
        ∃ user < r.users.length, mark.1 = userName user) ∧
      (∀ user u, r.users[user]? = some u → ∃ fates : List Fate,
        r.story user = fates.flatMap marksOf ++ (if u.isBusy then [.opens] else []) ∧
          u.committed = fates.count (.committed false) + fates.count (.committed true) ∧
          (∀ fate ∈ fates.dropLast, ∃ failed, fate = .committed failed) ∧
          (.broken ∈ fates ↔ ∃ message?, u.ending? = some (.crashed message?)) ∧
          (.discarded ∈ fates ↔ u.ending? = some (.aborted true))) ∧
      report.completed = r.scene.marked (.meets (.committed false)) ∧
      report.failed = r.scene.marked (.meets (.committed true)) ∧
      report.discarded = r.joined.countP (fun user =>
        (r.story user).getLast? = some (.meets .discarded)) ∧
      (r.lifecycle = .complete →
        (∀ u ∈ r.users, u.isBusy = false) ∧
          report.discarded = r.scene.marked (.meets .discarded) ∧
          report.completed + report.failed + report.discarded +
              r.scene.marked (.meets .broken) = r.scene.marked .opens) := by
  intro r report
  have hr : Reaches p r := performAll_reaches p acts
  have hroster := roster_of_reaches hr
  have hseal := seal_of_reaches hr
  have haccounts := accounts_of_reaches hr
  refine ⟨haccounts.owned, fun user u => exists_fates haccounts, hseal.completed_eq,
    hseal.failed_eq, ?_, fun hcomplete => ?_⟩
  · refine haccounts.discarded_eq.trans (List.countP_congr fun user hjoined => ?_)
    obtain ⟨u, hu⟩ := hroster.exists_of_mem (mem_places.2 (.inr (.inr (.inr hjoined))))
    simp only [hu, Option.any_some, decide_eq_true_eq]
    exact (getLast?_story haccounts hu).symm
  · exact ⟨not_busy_of_complete hroster hseal hcomplete,
      discarded_of_complete hroster hseal haccounts hcomplete,
      balance_of_complete hroster hseal haccounts hcomplete⟩

end Run
end LoadRamp
