import LoadRamp.Proofs.Chain

/-!
# Where the users of a run are

Every user that was started is in one place: among the active users, the stopping
ones, the aborted ones or those already joined.

* `Roster` is the invariant: the four lists together are the users in some order,
  and the place of a user says whether it was told to stop and whether it may have
  ended or been aborted.
* `roster_move` is the step: a case for each move, and those that take a user from
  one list to another share `roster_moved`.
* `roster_of_reaches` is the run.
-/

namespace LoadRamp
namespace Run

/-- Two users never share a name. -/
theorem userName_injective {i j : Nat} (h : userName i = userName j) : i = j := by
  have hdigits : Number.Decimal.digits i = Number.Decimal.digits j := by
    have htext := congrArg String.toList h
    simpa [userName, Number.Decimal.write] using htext
  have hread : some i = some j := by
    rw [← Number.Decimal.read?_digits i, hdigits, Number.Decimal.read?_digits j]
  exact Option.some.inj hread

/-- The users of the four lists, list after list. -/
def places (r : Run) : List Nat :=
  r.active ++ r.stopping.map Stopping.user ++ r.aborting ++ r.joined

theorem mem_places {r : Run} {user : Nat} :
    user ∈ r.places ↔
      user ∈ r.active ∨ user ∈ r.stopping.map Stopping.user ∨ user ∈ r.aborting ∨
        user ∈ r.joined := by
  simp only [places, List.mem_append, or_assoc]

/-- What the place of a user says about it. -/
structure Placed (r : Run) (user : Nat) (u : User) : Prop where
  name_eq : u.name = userName user
  untold : user ∈ r.active → u.told = false
  told_stopping : user ∈ r.stopping.map Stopping.user → u.told = true
  told_aborting : user ∈ r.aborting → u.told = true
  ended : user ∈ r.joined → u.isEnded = true
  aborted : ∀ midway, u.ending? = some (.aborted midway) →
    user ∈ r.aborting ∨ user ∈ r.joined

/-- Every user has one place, and its place fits it. -/
structure Roster (r : Run) : Prop where
  places_perm : r.places.Perm (List.range r.users.length)
  placed : ∀ user u, r.users[user]? = some u → Placed r user u

namespace Roster

variable {r : Run}

theorem nodup (h : Roster r) : r.places.Nodup :=
  h.places_perm.nodup_iff.2 List.nodup_range

theorem exists_of_mem (h : Roster r) {user : Nat} (huser : user ∈ r.places) :
    ∃ u, r.users[user]? = some u := by
  have hlength := List.mem_range.1 (h.places_perm.mem_iff.1 huser)
  exact ⟨r.users[user], List.getElem?_eq_getElem hlength⟩

theorem exists_of_active (h : Roster r) {user : Nat} (hactive : user ∈ r.active) :
    ∃ u, r.users[user]? = some u :=
  h.exists_of_mem (mem_places.2 (.inl hactive))

end Roster

/-- A user has the same place in a run whose lists are the same. -/
theorem Placed.of_places {r r' : Run} {user : Nat} {u : User} (h : Placed r user u)
    (hactive : r'.active = r.active) (hstopping : r'.stopping = r.stopping)
    (haborting : r'.aborting = r.aborting) (hjoined : r'.joined = r.joined) :
    Placed r' user u where
  name_eq := h.name_eq
  untold := by
    rw [hactive]
    exact h.untold
  told_stopping := by
    rw [hstopping]
    exact h.told_stopping
  told_aborting := by
    rw [haborting]
    exact h.told_aborting
  ended := by
    rw [hjoined]
    exact h.ended
  aborted := by
    rw [haborting, hjoined]
    exact h.aborted

/-- A user that is put in place of the one with its number. -/
theorem getElem?_set_cases {users : List User} {user other : Nat} {u v : User}
    (h : (users.set user u)[other]? = some v) :
    other = user ∧ v = u ∨ other ≠ user ∧ users[other]? = some v := by
  rw [List.getElem?_set] at h
  split at h
  · next hsame =>
    split at h
    · exact .inl ⟨hsame.symm, (Option.some.inj h).symm⟩
    · cases h
  · next hother => exact .inr ⟨fun hsame => hother hsame.symm, h⟩

/-- What holds of all users holds with one in the place of another, if it holds of that one. -/
theorem forall_mem_set {P : User → Prop} {users : List User} (h : ∀ u ∈ users, P u) (user : Nat)
    {v : User} (hv : P v) : ∀ u ∈ users.set user v, P u := by
  intro u hu
  rcases List.mem_or_eq_of_mem_set hu with hold | rfl
  · exact h u hold
  · exact hv

/-- The places of two runs agree when every user is as often in one as in the other. -/
theorem places_perm_of_count {r r' : Run}
    (h : ∀ user, r'.active.count user + (r'.stopping.map Stopping.user).count user +
        r'.aborting.count user + r'.joined.count user =
      r.active.count user + (r.stopping.map Stopping.user).count user +
        r.aborting.count user + r.joined.count user) : r'.places.Perm r.places := by
  rw [List.perm_iff_count]
  intro user
  simp only [places, List.count_append]
  exact h user

/-- Users that stay in their places may change as long as the places still fit. -/
theorem roster_update {r : Run} (h : Roster r) {user : Nat} {outcome : Scene × User}
    (hfits : Placed r user outcome.2) : Roster (r.update user outcome) where
  places_perm := by
    have hlength : (r.update user outcome).users.length = r.users.length := List.length_set
    rw [hlength]
    exact h.places_perm
  placed := by
    intro other v hv
    rcases getElem?_set_cases hv with ⟨rfl, rfl⟩ | ⟨_, hother⟩
    · exact hfits.of_places rfl rfl rfl rfl
    · exact (h.placed other v hother).of_places rfl rfl rfl rfl

/-- A user that does something keeps its place. -/
theorem roster_deed {p : Plan} {r : Run} (h : Roster r) {user : Nat} {u : User}
    {outcome : Scene × User} (hu : r.users[user]? = some u)
    (hdeed : User.Deed p.workload (r.scene, u) outcome) : Roster (r.update user outcome) := by
  have hplaced := h.placed user u hu
  have htold := hdeed.told_eq
  refine roster_update h ⟨hdeed.name_eq.trans hplaced.name_eq, ?_, ?_, ?_, ?_, ?_⟩
  · intro hactive
    rw [htold]
    exact hplaced.untold hactive
  · intro hstopping
    rw [htold]
    exact hplaced.told_stopping hstopping
  · intro haborting
    rw [htold]
    exact hplaced.told_aborting haborting
  · intro hjoined
    -- A user that is joined has ended, so it did nothing.
    have hended := hplaced.ended hjoined
    have hphase := (hdeed.of_ended hended).2.2
    simpa [User.isEnded, User.ending?, hphase] using hended
  · intro midway hmidway
    -- A user does not abort itself, so it was aborted before.
    rcases hdeed.ending_cases with hsame | ⟨_, ⟨_, hfinished⟩ | ⟨_, hcrashed⟩⟩
    · exact hplaced.aborted midway (hsame.symm.trans hmidway)
    · rw [hfinished] at hmidway
      cases hmidway
    · rw [hcrashed] at hmidway
      cases hmidway

theorem roster_land {r : Run} (h : Roster r) {user : Nat} {u : User}
    (haborting : user ∈ r.aborting) (hu : r.users[user]? = some u) :
    Roster (r.update user (u.abort r.scene)) := by
  have hplaced := h.placed user u hu
  refine roster_update h ⟨?_, ?_, ?_, ?_, ?_, ?_⟩
  · rw [User.name_abort]
    exact hplaced.name_eq
  · rw [User.told_abort]
    exact hplaced.untold
  · rw [User.told_abort]
    exact hplaced.told_stopping
  · rw [User.told_abort]
    exact hplaced.told_aborting
  · exact fun _ => User.isEnded_abort u r.scene
  · exact fun _ _ => .inl haborting

theorem roster_spawn {r : Run} (h : Roster r) : Roster r.spawn where
  places_perm := by
    have hcount : r.spawn.places.Perm (r.users.length :: r.places) := by
      rw [List.perm_iff_count]
      intro user
      simp only [places, spawn, List.count_append, List.count_cons, List.count_nil]
      omega
    have hrange : (r.users.length :: List.range r.users.length).Perm
        (List.range (r.users.length + 1)) := by
      rw [List.range_succ]
      exact (List.perm_append_singleton _ _).symm
    have hlength : r.spawn.users.length = r.users.length + 1 := by simp [spawn]
    rw [hlength]
    exact (hcount.trans (h.places_perm.cons _)).trans hrange
  placed := by
    intro user u hu
    -- The new number is in none of the lists yet.
    have hin : ∀ other ∈ r.places, other ≠ r.users.length := fun other hother hlast => by
      have := List.mem_range.1 (h.places_perm.mem_iff.1 hother)
      omega
    simp only [spawn, List.getElem?_append] at hu
    split at hu
    · next hlength =>
      have hplaced := h.placed user u hu
      refine ⟨hplaced.name_eq, ?_, hplaced.told_stopping, hplaced.told_aborting,
        hplaced.ended, hplaced.aborted⟩
      intro hactive
      rcases List.mem_append.1 hactive with hactive | hnew
      · exact hplaced.untold hactive
      · have := List.mem_singleton.1 hnew
        omega
    · next hlength =>
      obtain ⟨hzero, rfl⟩ : user - r.users.length = 0 ∧
          ({ name := userName r.users.length, turn := r.scene.waits } : User) = u := by
        rw [List.getElem?_singleton] at hu
        split at hu
        · next hzero => exact ⟨hzero, Option.some.inj hu⟩
        · cases hu
      obtain rfl : user = r.users.length := by omega
      refine ⟨rfl, fun _ => rfl, ?_, ?_, ?_, ?_⟩
      · intro hstopping
        exact absurd rfl (hin _ (mem_places.2 (.inr (.inl hstopping))))
      · intro haborting
        exact absurd rfl (hin _ (mem_places.2 (.inr (.inr (.inl haborting)))))
      · intro hjoined
        exact absurd rfl (hin _ (mem_places.2 (.inr (.inr (.inr hjoined)))))
      · intro midway hmidway
        cases hmidway

/-- A user that goes from one list to another, where `hmoved` says that no user is lost
or duplicated on the way and `hfits` that the users fit their places still. -/
theorem roster_moved {r r' : Run} (h : Roster r) (husers : r'.users = r.users)
    (hmoved : r'.places.Perm r.places)
    (hfits : ∀ user u, r.users[user]? = some u → Placed r user u → Placed r' user u) :
    Roster r' where
  places_perm := by
    rw [husers]
    exact hmoved.trans h.places_perm
  placed := by
    intro user u hu
    rw [husers] at hu
    exact hfits user u hu (h.placed user u hu)

/-- Nobody goes anywhere. -/
theorem Roster.of_places {r r' : Run} (h : Roster r) (husers : r'.users = r.users)
    (hactive : r'.active = r.active) (hstopping : r'.stopping = r.stopping)
    (haborting : r'.aborting = r.aborting) (hjoined : r'.joined = r.joined) : Roster r' := by
  refine roster_moved h husers ?_ fun user u _ hplaced =>
    hplaced.of_places hactive hstopping haborting hjoined
  rw [places, hactive, hstopping, haborting, hjoined, places]

/-- What is left of a list when one element is taken out was in it before. -/
theorem mem_of_mem_rest {α : Type} {l front back : List α} {a b : α}
    (hl : l = front ++ a :: back) (hb : b ∈ front ++ back) : b ∈ l := by
  rw [hl]
  exact ((List.sublist_cons_self a back).append_left front).subset hb

/-- An ended user that is joined, wherever it was before. -/
theorem roster_joined {r r' : Run} (h : Roster r) (husers : r'.users = r.users) {user : Nat}
    {u : User} {ending : Ending} (hu : r.users[user]? = some u)
    (hending : u.ending? = some ending) (hmoved : r'.places.Perm r.places)
    (hactive : ∀ other ∈ r'.active, other ∈ r.active)
    (hstopping : ∀ s ∈ r'.stopping, s ∈ r.stopping)
    (haborting : ∀ other ∈ r'.aborting, other ∈ r.aborting)
    (hkept : ∀ other ∈ r.aborting, other ∈ r'.aborting ∨ other = user)
    (hjoined : r'.joined = r.joined ++ [user]) : Roster r' := by
  refine roster_moved h husers hmoved ?_
  intro other v hv hplaced
  refine ⟨hplaced.name_eq, ?_, ?_, ?_, ?_, ?_⟩
  · exact fun hstill => hplaced.untold (hactive other hstill)
  · intro hstill
    obtain ⟨s, hs, rfl⟩ := List.mem_map.1 hstill
    exact hplaced.told_stopping (List.mem_map_of_mem (hstopping s hs))
  · exact fun hstill => hplaced.told_aborting (haborting other hstill)
  · intro hdone
    rw [hjoined] at hdone
    rcases List.mem_append.1 hdone with hdone | hnew
    · exact hplaced.ended hdone
    · obtain rfl := List.mem_singleton.1 hnew
      obtain rfl := Option.some.inj (hu.symm.trans hv)
      simp [User.isEnded, hending]
  · intro midway hmidway
    rw [hjoined]
    rcases hplaced.aborted midway hmidway with hstill | hdone
    · rcases hkept other hstill with hstill | rfl
      · exact .inl hstill
      · exact .inr (List.mem_append_right _ (List.mem_singleton_self _))
    · exact .inr (List.mem_append_left _ hdone)

theorem roster_expire {r : Run} (h : Roster r) {front back : List Stopping} {s : Stopping}
    (hstopping : r.stopping = front ++ s :: back) :
    Roster { r with stopping := front ++ back, aborting := r.aborting ++ [s.user] } := by
  refine roster_moved h rfl ?_ ?_
  · apply places_perm_of_count
    intro user
    simp only [hstopping, List.map_append, List.map_cons, List.count_append, List.count_cons,
      List.count_nil]
    omega
  · intro user u hu hplaced
    refine ⟨hplaced.name_eq, hplaced.untold, ?_, ?_, hplaced.ended, ?_⟩
    · intro hstill
      obtain ⟨t, ht, rfl⟩ := List.mem_map.1 hstill
      exact hplaced.told_stopping (List.mem_map_of_mem (mem_of_mem_rest hstopping ht))
    · intro haborting
      rcases List.mem_append.1 haborting with haborting | hnew
      · exact hplaced.told_aborting haborting
      · obtain rfl := List.mem_singleton.1 hnew
        apply hplaced.told_stopping
        rw [hstopping]
        simp
    · intro midway hmidway
      exact (hplaced.aborted midway hmidway).imp_left (List.mem_append_left _)

theorem roster_tell {p : Plan} {r : Run} (h : Roster r) {front back : List Nat} {user : Nat}
    (hactive : r.active = front ++ user :: back) :
    Roster
      { r with
        scene := (tellIn (r.scene, r.users) user).1
        users := (tellIn (r.scene, r.users) user).2
        active := front ++ back
        stopping := r.stopping ++ [⟨user, r.scene.clock + p.settings.gracePeriod.nanos⟩] } := by
  have hmem : user ∈ r.active := by simp [hactive]
  obtain ⟨u, hu⟩ := h.exists_of_active hmem
  rw [tellIn_eq hu]
  have hplaces := h.nodup
  -- The user leaves the active ones altogether, since it is there only once.
  have hgone : user ∉ front ++ back := by
    have hnodup : r.active.Nodup := by
      simp only [places, List.append_assoc] at hplaces
      exact (List.nodup_append.1 hplaces).1
    rw [hactive] at hnodup
    exact (List.nodup_cons.1 (List.perm_middle.nodup_iff.1 hnodup)).1
  constructor
  · have hlength : (r.users.set user (u.tell r.scene).2).length = r.users.length :=
      List.length_set
    refine (places_perm_of_count (r := r) ?_).trans (hlength ▸ h.places_perm)
    intro other
    simp only [hactive, List.map_append, List.map_cons, List.map_nil, List.count_append,
      List.count_cons, List.count_nil]
    omega
  · intro other v hv
    rcases getElem?_set_cases hv with ⟨rfl, rfl⟩ | ⟨hother, hv⟩
    · have hplaced := h.placed other u hu
      refine ⟨?_, fun hstill => absurd hstill hgone, fun _ => User.told_tell u r.scene,
        fun _ => User.told_tell u r.scene, ?_, ?_⟩
      · rw [User.name_tell]
        exact hplaced.name_eq
      · simpa only [User.isEnded, User.ending?, User.phase_tell] using hplaced.ended
      · simpa only [User.ending?, User.phase_tell] using hplaced.aborted
    · have hplaced := h.placed other v hv
      refine ⟨hplaced.name_eq, ?_, ?_, hplaced.told_aborting, hplaced.ended, hplaced.aborted⟩
      · exact fun hstill => hplaced.untold (mem_of_mem_rest hactive hstill)
      · intro hstopping
        rw [List.map_append] at hstopping
        rcases List.mem_append.1 hstopping with hstopping | hnew
        · exact hplaced.told_stopping hstopping
        · exact absurd (List.mem_singleton.1 hnew) hother

/-- No move loses a user or puts it in two places. -/
theorem roster_move {p : Plan} {r r' : Run} (hmove : Move p r r') (h : Roster r) :
    Roster r' := by
  cases hmove with
  | deed hu hdeed => exact roster_deed h hu hdeed
  | land haborting hu => exact roster_land h haborting hu
  | lose hactive hu hending =>
    refine roster_joined h rfl hu hending (places_perm_of_count ?_)
      (fun _ => mem_of_mem_rest hactive) (fun _ hs => hs) (fun _ hother => hother)
      (fun _ => .inl) rfl
    intro other
    simp only [note, hactive, List.count_append, List.count_cons, List.count_nil]
    omega
  | joinStopping hstopping hu hending =>
    refine roster_joined h rfl hu hending (places_perm_of_count ?_) (fun _ hother => hother)
      (fun _ => mem_of_mem_rest hstopping) (fun _ hother => hother) (fun _ => .inl) rfl
    intro other
    simp only [hstopping, List.map_append, List.map_cons, List.count_append, List.count_cons,
      List.count_nil]
    omega
  | expire hstopping hgoing hlate => exact roster_expire h hstopping
  | joinAborting haborting hu hending =>
    refine roster_joined h rfl hu hending (places_perm_of_count ?_) (fun _ hother => hother)
      (fun _ hs => hs) (fun _ => mem_of_mem_rest haborting) ?_ rfl
    · intro other
      simp only [haborting, List.count_append, List.count_cons, List.count_nil]
      omega
    · intro other hother
      rw [haborting] at hother
      rcases List.mem_append.1 hother with hfront | hback
      · exact .inl (List.mem_append_left _ hfront)
      · rcases List.mem_cons.1 hback with hsame | hback
        · exact .inr hsame
        · exact .inl (List.mem_append_right _ hback)
  | spawn hrunning => exact roster_spawn h
  | tell hactive => exact roster_tell h hactive
  | tick | gauge | remark | wait | adjust | breakDown | drain =>
    exact h.of_places rfl rfl rfl rfl rfl
  | finish hdraining hactive hstopping haborting =>
    rw [finish_eq hdraining]
    exact h.of_places rfl rfl rfl rfl rfl

theorem roster_start : Roster start where
  places_perm := .refl _
  placed := by
    intro user u hu
    rw [getElem?_start] at hu
    cases hu

/-- Every user of a run that is reached has one place, and its place fits it. -/
theorem roster_of_reaches {p : Plan} {r : Run} (hr : Reaches p r) : Roster r :=
  hr.keeps roster_start fun _ _ _ hmove => roster_move hmove

end Run
end LoadRamp
