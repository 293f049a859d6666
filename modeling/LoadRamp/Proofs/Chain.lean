import LoadRamp.Proofs.Move

/-!
# Acts as chains of moves

Every act of a run is a chain of moves, and so is every history:

* `reap_moves`, `scaleTo_moves`, `beginDrain_moves` and `drain_moves` go through
  the lists of a run one user at a time, in the order in which the run does;
* `perform_moves` puts them together for an act, `performAll_reaches` for a
  history.

An invariant of moves is therefore one of histories.  That a run which drains has
no active users is not an invariant of moves, since they leave one by one; it is
kept by whole acts (`emptied_perform`).
-/

namespace LoadRamp
namespace Run

variable {p : Plan}

/-! ## Going through a list of users -/

/-- A pass through a list takes those that have ended out of it, one after the other, and
joins them.  The run is `state`, which only varies in what the pass changes. -/
theorem pass_moves {α : Type} (user : α → Nat) (ended : α → Bool) (join : Scene → Nat → Scene)
    (state : List α → List Nat → Scene → Run)
    (hjoin : ∀ front a back joined scene, ended a = true →
      Move p (state (front ++ a :: back) joined scene)
        (state (front ++ back) (joined ++ [user a]) (join scene (user a))))
    (kept l : List α) (joined : List Nat) (scene : Scene) :
    Moves p (state (kept ++ l) joined scene)
      (state (kept ++ l.filter fun a => !ended a) (joined ++ (l.filter ended).map user)
        (((l.filter ended).map user).foldl join scene)) := by
  -- Induction on what is still to be gone through; `kept` grows by those that have not ended.
  induction l generalizing kept joined scene with
  | nil =>
    simp only [List.filter_nil, List.map_nil, List.append_nil, List.foldl_nil]
    exact .refl
  | cons a rest ih =>
    cases hended : ended a with
    | true =>
      have hrest := (ih kept _ _).head (hjoin kept a rest joined scene hended)
      rw [List.filter_cons_of_pos hended, List.filter_cons_of_neg (by simp [hended]),
        List.map_cons, List.foldl_cons, List.append_cons joined]
      exact hrest
    | false =>
      rw [List.filter_cons_of_neg (p := ended) (by simp [hended]),
        List.filter_cons_of_pos (by simp [hended]), List.append_cons kept a rest,
        List.append_cons kept a (rest.filter _)]
      exact ih (kept ++ [a]) joined scene

theorem loseAll_moves (r : Run) :
    Moves p r
      { r with
        scene := (r.active.filter r.isEnded).foldl (dismiss r.users) r.scene
        active := r.active.filter fun user => !r.isEnded user
        joined := r.joined ++ r.active.filter r.isEnded } := by
  have hpass := pass_moves (p := p) id r.isEnded (dismiss r.users)
    (fun active joined scene => { r with active, joined, scene }) ?_ [] r.active r.joined r.scene
  · simpa only [List.map_id, List.nil_append] using hpass
  · intro front user back joined scene hended
    obtain ⟨u, ending, hu, hending⟩ := isEnded_iff.1 hended
    rw [id_eq, dismiss_eq hu hending]
    exact Move.lose rfl hu hending

theorem joinAllStopping_moves (r : Run) :
    Moves p r
      { r with
        scene := ((r.stopping.filter fun s => r.isEnded s.user).map Stopping.user).foldl
          (settle p r.users) r.scene
        stopping := r.stopping.filter fun s => !r.isEnded s.user
        joined :=
          r.joined ++ (r.stopping.filter fun s => r.isEnded s.user).map Stopping.user } := by
  refine pass_moves (p := p) Stopping.user (fun s => r.isEnded s.user) (settle p r.users)
    (fun stopping joined scene => { r with stopping, joined, scene }) ?_ [] r.stopping r.joined
    r.scene
  intro front s back joined scene hended
  obtain ⟨u, ending, hu, hending⟩ := isEnded_iff.1 hended
  rw [settle_eq hu hending]
  exact Move.joinStopping rfl hu hending

theorem joinAllAborting_moves (r : Run) :
    Moves p r
      { r with
        scene := (r.aborting.filter r.isEnded).foldl (settle p r.users) r.scene
        aborting := r.aborting.filter fun user => !r.isEnded user
        joined := r.joined ++ r.aborting.filter r.isEnded } := by
  have hpass := pass_moves (p := p) id r.isEnded (settle p r.users)
    (fun aborting joined scene => { r with aborting, joined, scene }) ?_ [] r.aborting r.joined
    r.scene
  · simpa only [List.map_id, List.nil_append] using hpass
  · intro front user back joined scene hended
    obtain ⟨u, ending, hu, hending⟩ := isEnded_iff.1 hended
    rw [id_eq, settle_eq hu hending]
    exact Move.joinAborting rfl hu hending

theorem expireAll_moves (kept l : List Stopping) (r : Run) (hstopping : r.stopping = kept ++ l)
    (hgoing : ∀ s ∈ l, r.isEnded s.user = false) :
    Moves p r
      { r with
        stopping := kept ++ l.filter fun s => !decide (s.deadline ≤ r.scene.clock)
        aborting := r.aborting ++
          (l.filter fun s => decide (s.deadline ≤ r.scene.clock)).map Stopping.user } := by
  induction l generalizing r kept with
  | nil =>
    simp only [List.append_nil, List.filter_nil, List.map_nil] at hstopping ⊢
    rw [← hstopping]
  | cons s rest ih =>
    have hrestGoing : ∀ other ∈ rest, r.isEnded other.user = false :=
      fun other hother => hgoing other (List.mem_cons_of_mem _ hother)
    by_cases hlate : s.deadline ≤ r.scene.clock
    · have hmove := Move.expire (p := p) hstopping (hgoing s List.mem_cons_self) hlate
      have hrest := ih kept
        { r with stopping := kept ++ rest, aborting := r.aborting ++ [s.user] } rfl hrestGoing
      rw [List.filter_cons_of_neg (by simp [hlate]), List.filter_cons_of_pos (by simp [hlate]),
        List.map_cons, List.append_cons r.aborting s.user]
      exact hrest.head hmove
    · rw [List.filter_cons_of_pos (by simp [hlate]), List.filter_cons_of_neg (by simp [hlate]),
        List.append_cons kept s]
      exact ih (kept ++ [s]) r (by simpa using hstopping) hrestGoing

/-- Users that are told one after the other leave the active ones from the front
or from the back, so their order is a hypothesis. -/
theorem tellAll_moves (told : List Nat) (r : Run) (kept : List Nat)
    (horder : r.active = told ++ kept ∨ r.active = kept ++ told.reverse) :
    Moves p r
      { r.tellAll (r.scene.clock + p.settings.gracePeriod.nanos) told with active := kept } := by
  unfold tellAll
  dsimp only
  rw [foldl_tell]
  -- Whichever end they leave from, the rest of them are in the same order at that end.
  induction told generalizing r with
  | nil =>
    have hactive : r.active = kept := by simpa using horder
    rw [← hactive]
    simp only [List.map_nil, List.append_nil, List.foldl_nil]
    exact .refl
  | cons user rest ih =>
    obtain ⟨front, back, hactive, hrest⟩ : ∃ front back, r.active = front ++ user :: back ∧
        (front ++ back = rest ++ kept ∨ front ++ back = kept ++ rest.reverse) := by
      rcases horder with hfront | hback
      · exact ⟨[], rest ++ kept, hfront, .inl rfl⟩
      · exact ⟨kept ++ rest.reverse, [], by simpa using hback, .inr (by simp)⟩
    have hchain := (ih _ hrest).head (Move.tell (p := p) hactive)
    simpa using hchain

theorem reapActive_eq (r : Run) :
    r.reapActive =
      { r with
        scene := (r.active.filter r.isEnded).foldl (dismiss r.users) r.scene
        active := r.active.filter fun user => !r.isEnded user
        joined := r.joined ++ r.active.filter r.isEnded } := by
  unfold reapActive
  dsimp only
  rw [foldl_lose _ _ fun user huser => (List.mem_filter.1 huser).2]

theorem reapStopping_eq (p : Plan) (r : Run) :
    r.reapStopping p =
      { r with
        scene := ((r.stopping.filter fun s => r.isEnded s.user).map Stopping.user).foldl
          (settle p r.users) r.scene
        stopping := (r.stopping.filter fun s => !r.isEnded s.user).filter fun s =>
          !decide (s.deadline ≤ r.scene.clock)
        aborting := r.aborting ++ ((r.stopping.filter fun s => !r.isEnded s.user).filter fun s =>
          decide (s.deadline ≤ r.scene.clock)).map Stopping.user
        joined :=
          r.joined ++ (r.stopping.filter fun s => r.isEnded s.user).map Stopping.user } := by
  unfold reapStopping
  dsimp only
  rw [foldl_join]
  intro user huser
  obtain ⟨s, hs, rfl⟩ := List.mem_map.1 huser
  exact (List.mem_filter.1 hs).2

theorem reapAborting_eq (p : Plan) (r : Run) :
    r.reapAborting p =
      { r with
        scene := (r.aborting.filter r.isEnded).foldl (settle p r.users) r.scene
        aborting := r.aborting.filter fun user => !r.isEnded user
        joined := r.joined ++ r.aborting.filter r.isEnded } := by
  unfold reapAborting
  dsimp only
  rw [foldl_join p _ _ fun user huser => (List.mem_filter.1 huser).2]

theorem reap_moves (r : Run) : Moves p r (r.reap p) := by
  have hactive (r : Run) : Moves p r r.reapActive := by
    rw [reapActive_eq]
    exact loseAll_moves r
  have hstopping (r : Run) : Moves p r (r.reapStopping p) := by
    have hjoin := joinAllStopping_moves (p := p) r
    have hexpire := expireAll_moves (p := p) [] _ _ (rfl : Run.stopping
      { r with
        scene := ((r.stopping.filter fun s => r.isEnded s.user).map Stopping.user).foldl
          (settle p r.users) r.scene
        stopping := r.stopping.filter fun s => !r.isEnded s.user
        joined := r.joined ++ (r.stopping.filter fun s => r.isEnded s.user).map
          Stopping.user } = _)
      fun s hs => by
        show r.isEnded s.user = false
        simpa using (List.mem_filter.1 hs).2
    simp only [clock_foldl_settle, List.nil_append] at hexpire
    rw [reapStopping_eq]
    exact hjoin.trans hexpire
  have haborting (r : Run) : Moves p r (r.reapAborting p) := by
    rw [reapAborting_eq]
    exact joinAllAborting_moves r
  exact ((hactive r).trans (hstopping _)).trans (haborting _)

/-! ## The number of users -/

theorem spawnMany_moves (n : Nat) (r : Run) (hrunning : r.lifecycle = .running) :
    Moves p r (spawnMany n r) := by
  induction n generalizing r with
  | zero => exact .refl
  | succ n ih => exact (ih r.spawn hrunning).head (.spawn hrunning)

theorem spawnMany_with_peak (n : Nat) (r : Run) (peak : Nat) :
    spawnMany n { r with peak } = { spawnMany n r with peak } := by
  induction n generalizing r with
  | zero => rfl
  | succ n ih => exact ih r.spawn

@[simp] theorem lifecycle_spawnMany (n : Nat) (r : Run) :
    (spawnMany n r).lifecycle = r.lifecycle := by
  induction n generalizing r with
  | zero => rfl
  | succ n ih => exact ih r.spawn

@[simp] theorem active_spawnMany (n : Nat) (r : Run) :
    (spawnMany n r).active = r.active ++ List.range' r.users.length n := by
  induction n generalizing r with
  | zero => simp [spawnMany]
  | succ n ih => simp [spawnMany, ih, spawn, List.range'_succ]

/-- A run with users started or told to stop so that `target` of them are active. -/
def resized (p : Plan) (r : Run) (target : Nat) : Run :=
  if r.active.length < target then
    spawnMany (target - r.active.length) (r.note (.scalesUp r.active.length target))
  else if target < r.active.length then
    { (r.note (.scalesDown r.active.length target)).tellAll
        (r.scene.clock + p.settings.gracePeriod.nanos) (r.active.drop target).reverse with
      active := r.active.take target }
  else r

/-- Scaling, if there is an end to the grace period of those who are to stop. -/
theorem scaleTo_eq {r : Run} {target : Nat}
    (hends : p.deadline? r.scene.clock = none → r.active.length ≤ target) :
    r.scaleTo p target = (resized p r target).measure := by
  unfold scaleTo resized
  dsimp only
  split
  · rfl
  · split
    · next hless =>
      cases hdeadline : p.deadline? r.scene.clock with
      | none => exact absurd (hends hdeadline) (Nat.not_le_of_lt hless)
      | some deadline =>
        obtain rfl := Plan.deadline?_eq_some hdeadline
        have hdeadline' : p.deadline? (r.note (.scalesDown r.active.length target)).scene.clock =
          _ := hdeadline
        rw [hdeadline']
        rfl
    · rfl

/-- Scaling breaks the run down, if there is none. -/
theorem scaleTo_of_endless {r : Run} {target : Nat} (hless : target < r.active.length)
    (hendless : p.deadline? r.scene.clock = none) :
    r.scaleTo p target = (r.note (.scalesDown r.active.length target)).breakDown := by
  have hendless' : p.deadline? (r.note (.scalesDown r.active.length target)).scene.clock = none :=
    hendless
  unfold scaleTo
  dsimp only
  rw [if_neg (Nat.lt_asymm hless), if_pos hless, hendless']

/-- The users that have run the longest stay, and new ones fill the gap. -/
theorem active_resized (p : Plan) (r : Run) (target : Nat) :
    (resized p r target).active =
      r.active.take target ++ List.range' r.users.length (target - r.active.length) := by
  unfold resized
  split
  · next hup =>
    rw [active_spawnMany, List.take_of_length_le (Nat.le_of_lt hup)]
    rfl
  · next hup =>
    rw [Nat.sub_eq_zero_of_le (Nat.not_lt.1 hup), List.range'_zero, List.append_nil]
    split
    · rfl
    · next hdown => rw [List.take_of_length_le (Nat.not_lt.1 hdown)]

theorem length_active_resized (p : Plan) (r : Run) (target : Nat) :
    (resized p r target).active.length = target := by
  rw [active_resized, List.length_append, List.length_take, List.length_range']
  omega

theorem resized_with_peak (p : Plan) (r : Run) (target peak : Nat) :
    resized p { r with peak } target = { resized p r target with peak } := by
  unfold resized
  dsimp only
  split
  · exact spawnMany_with_peak _ (r.note _) peak
  · split
    · simp only [tellAll, foldl_tell]
      rfl
    · rfl

theorem peak_resized (p : Plan) (r : Run) (target : Nat) :
    (resized p r target).peak = r.peak := by
  have hpeak := congrArg Run.peak (resized_with_peak p r target r.peak)
  exact hpeak

theorem resized_moves (r : Run) (target : Nat) (hrunning : r.lifecycle = .running) :
    Moves p r (resized p r target) := by
  have hgoing : r.lifecycle ≠ .complete := by simp [hrunning]
  unfold resized
  split
  · exact (spawnMany_moves _ (r.note _) hrunning).head (.remark hgoing rfl)
  · split
    · refine (tellAll_moves _ _ _ (.inr ?_)).head (.remark hgoing rfl)
      rw [List.reverse_reverse]
      exact (List.take_append_drop target r.active).symm
    · exact .refl

@[simp] theorem lifecycle_resized (p : Plan) (r : Run) (target : Nat) :
    (resized p r target).lifecycle = r.lifecycle := by
  unfold resized
  split
  · rw [lifecycle_spawnMany]
    rfl
  · split
    · simp only [tellAll, foldl_tell]
      rfl
    · rfl

/-- Scaling to a target that the peak already covers. -/
theorem measure_moves (r : Run) (target : Nat) (hrunning : r.lifecycle = .running)
    (hpeak : target ≤ r.peak) : Moves p r (resized p r target).measure := by
  have hstill : (resized p r target).lifecycle = .running := by
    rw [lifecycle_resized, hrunning]
  have hmax : max (resized p r target).peak target = (resized p r target).peak := by
    rw [peak_resized]
    exact Nat.max_eq_left hpeak
  rw [measure, length_active_resized, hmax]
  exact ((resized_moves r target hrunning).tail (.gauge hstill target)).tail
    (.remark (by simp [hrunning]) rfl)

/-- A peak that already covers the target makes no difference. -/
theorem measure_with_peak (p : Plan) (r : Run) (target : Nat) :
    (resized p { r with peak := max r.peak target } target).measure =
      (resized p r target).measure := by
  have hmax : max (max r.peak target) target = max r.peak target := by omega
  rw [measure, measure, length_active_resized, length_active_resized, peak_resized,
    peak_resized, resized_with_peak, hmax]

/-! ## The end of a run -/

theorem drainStopping_with_stopping (l : List Stopping) (r : Run) (stopping : List Stopping) :
    drainStopping p { r with stopping } l = drainStopping p r l := by
  induction l generalizing r with
  | nil => rfl
  | cons s rest ih =>
    unfold drainStopping
    have hsame : isEnded { r with stopping } s.user = r.isEnded s.user := rfl
    rw [hsame]
    split
    · next hended =>
      obtain ⟨u, ending, hu, hending⟩ := isEnded_iff.1 hended
      rw [join_eq hu hending, join_eq (r := { r with stopping }) hu hending]
      exact ih { r with scene := settled p r.scene u ending, joined := r.joined ++ [s.user] }
    · dsimp only
      split
      · exact ih { r with aborting := r.aborting ++ [s.user] }
      · rfl

theorem drainStopping_moves (l : List Stopping) (r : Run) (hstopping : r.stopping = l) :
    Moves p r (drainStopping p r l) := by
  -- The list is written back at the end only; each move is shown on a run that has the rest
  -- of the list in place already, which makes no difference to what is drained.
  induction l generalizing r with
  | nil =>
    unfold drainStopping
    rw [← hstopping]
  | cons s rest ih =>
    unfold drainStopping
    split
    · next hended =>
      obtain ⟨u, ending, hu, hending⟩ := isEnded_iff.1 hended
      have hfirst : r.stopping = [] ++ s :: rest := hstopping
      have hmove := Move.joinStopping (p := p) hfirst hu hending
      rw [join_eq hu hending, ← drainStopping_with_stopping _ _ rest]
      exact (ih _ rfl).head hmove
    · next hgoing =>
      split
      · next hlate =>
        have hfirst : r.stopping = [] ++ s :: rest := hstopping
        have hmove := Move.expire (p := p) hfirst (by simpa using hgoing) hlate
        rw [← drainStopping_with_stopping _ _ rest]
        exact (ih _ rfl).head hmove
      · rw [← hstopping]

theorem drainAborting_with_aborting (l : List Nat) (r : Run) (aborting : List Nat) :
    drainAborting p { r with aborting } l = drainAborting p r l := by
  induction l generalizing r with
  | nil => rfl
  | cons user rest ih =>
    unfold drainAborting
    have hsame : isEnded { r with aborting } user = r.isEnded user := rfl
    rw [hsame]
    split
    · next hended =>
      obtain ⟨u, ending, hu, hending⟩ := isEnded_iff.1 hended
      rw [join_eq hu hending, join_eq (r := { r with aborting }) hu hending]
      exact ih { r with scene := settled p r.scene u ending, joined := r.joined ++ [user] }
    · rfl

theorem drainAborting_moves (l : List Nat) (r : Run) (haborting : r.aborting = l) :
    Moves p r (drainAborting p r l) := by
  induction l generalizing r with
  | nil =>
    unfold drainAborting
    rw [← haborting]
  | cons user rest ih =>
    unfold drainAborting
    split
    · next hended =>
      obtain ⟨u, ending, hu, hending⟩ := isEnded_iff.1 hended
      have hfirst : r.aborting = [] ++ user :: rest := haborting
      have hmove := Move.joinAborting (p := p) hfirst hu hending
      rw [join_eq hu hending, ← drainAborting_with_aborting _ _ rest]
      exact (ih _ rfl).head hmove
    · rw [← haborting]

/-- Going through the stopping users leaves all but them, and where they go, as it is. -/
theorem exists_drainStopping (l : List Stopping) (r : Run) :
    ∃ scene joined stopping aborting,
      drainStopping p r l = { r with scene, joined, stopping, aborting } := by
  induction l generalizing r with
  | nil => exact ⟨_, _, _, _, rfl⟩
  | cons s rest ih =>
    unfold drainStopping
    split
    · next hended =>
      obtain ⟨u, ending, hu, hending⟩ := isEnded_iff.1 hended
      obtain ⟨scene, joined, stopping, aborting, hrest⟩ := ih (r.join p s.user)
      rw [join_eq hu hending] at hrest ⊢
      exact ⟨_, _, _, _, hrest⟩
    · split
      · obtain ⟨scene, joined, stopping, aborting, hrest⟩ :=
          ih { r with aborting := r.aborting ++ [s.user] }
        exact ⟨_, _, _, _, hrest⟩
      · exact ⟨_, _, _, _, rfl⟩

theorem exists_drainAborting (l : List Nat) (r : Run) :
    ∃ scene joined aborting, drainAborting p r l = { r with scene, joined, aborting } := by
  induction l generalizing r with
  | nil => exact ⟨_, _, _, rfl⟩
  | cons user rest ih =>
    unfold drainAborting
    split
    · next hended =>
      obtain ⟨u, ending, hu, hending⟩ := isEnded_iff.1 hended
      obtain ⟨scene, joined, aborting, hrest⟩ := ih (r.join p user)
      rw [join_eq hu hending] at hrest ⊢
      exact ⟨_, _, _, hrest⟩
    · exact ⟨_, _, _, rfl⟩

/-- Going on with the end of a run concerns nobody who is active. -/
theorem exists_drain (r : Run) :
    ∃ scene joined stopping aborting lifecycle,
      r.drain p = { r with scene, joined, stopping, aborting, lifecycle } := by
  obtain ⟨scene, joined, stopping, aborting, hfirst⟩ := exists_drainStopping (p := p) r.stopping r
  obtain ⟨scene', joined', aborting', hsecond⟩ := exists_drainAborting (p := p)
    (r.drainStopping p r.stopping).aborting (r.drainStopping p r.stopping)
  unfold drain
  dsimp only
  split
  · rw [hsecond, hfirst]
    split
    · unfold finish become
      dsimp only
      split <;> exact ⟨_, _, _, _, _, rfl⟩
    · exact ⟨_, _, _, _, _, rfl⟩
  · rw [hfirst]
    exact ⟨_, _, _, _, _, rfl⟩

section Drain

variable (r : Run)

@[simp] theorem active_drain : (r.drain p).active = r.active := by
  obtain ⟨scene, joined, stopping, aborting, lifecycle, hdrain⟩ := exists_drain (p := p) r
  rw [hdrain]

@[simp] theorem broken_drain : (r.drain p).broken = r.broken := by
  obtain ⟨scene, joined, stopping, aborting, lifecycle, hdrain⟩ := exists_drain (p := p) r
  rw [hdrain]

end Drain

theorem active_drainStopping (l : List Stopping) (r : Run) :
    (drainStopping p r l).active = r.active ∧ (drainStopping p r l).lifecycle = r.lifecycle ∧
      (drainStopping p r l).broken = r.broken := by
  obtain ⟨scene, joined, stopping, aborting, hrest⟩ := exists_drainStopping (p := p) l r
  rw [hrest]
  exact ⟨rfl, rfl, rfl⟩

theorem active_drainAborting (l : List Nat) (r : Run) :
    (drainAborting p r l).active = r.active ∧
      (drainAborting p r l).lifecycle = r.lifecycle ∧
      (drainAborting p r l).stopping = r.stopping ∧
      (drainAborting p r l).broken = r.broken := by
  obtain ⟨scene, joined, aborting, hrest⟩ := exists_drainAborting (p := p) l r
  rw [hrest]
  exact ⟨rfl, rfl, rfl, rfl⟩

theorem drain_moves (r : Run) (hdraining : r.lifecycle = .draining) (hactive : r.active = [])
    (hwhole : r.broken = false) : Moves p r (r.drain p) := by
  obtain ⟨hactive₁, hdraining₁, hwhole₁⟩ := active_drainStopping (p := p) r.stopping r
  have hfirst := drainStopping_moves (p := p) r.stopping r rfl
  unfold drain
  dsimp only
  split
  · next hstopping =>
    obtain ⟨hactive₂, hdraining₂, hstopping₂, hwhole₂⟩ := active_drainAborting (p := p)
      (r.drainStopping p r.stopping).aborting (r.drainStopping p r.stopping)
    have hboth := hfirst.trans (drainAborting_moves (p := p) _ _ rfl)
    split
    · next haborting =>
      refine hboth.tail (.finish ?_ ?_ ?_ (List.isEmpty_iff.1 haborting) ?_)
      · rw [hdraining₂, hdraining₁, hdraining]
      · rw [hactive₂, hactive₁, hactive]
      · rw [hstopping₂]
        exact List.isEmpty_iff.1 hstopping
      · rw [hwhole₂, hwhole₁, hwhole]
    · exact hboth
  · exact hfirst

/-- A run that has just left its loop. -/
def left (r : Run) : Run := { r.note (.becomes .running .draining) with lifecycle := .draining }

section Begin

variable {r : Run} (hrunning : r.lifecycle = .running)

include hrunning

theorem become_draining : r.become .draining = r.left := by
  simp [become, hrunning, Lifecycle.canBecome, left]

/-- The end of a run begins, if there is an end to the grace period. -/
theorem beginDrain_eq {deadline : Nat} (hends : p.deadline? r.scene.clock = some deadline) :
    r.beginDrain p =
      (r.left.tellActive (r.scene.clock + p.settings.gracePeriod.nanos)).drain p := by
  have hends' : p.deadline? r.left.scene.clock = some deadline := hends
  unfold beginDrain
  dsimp only
  rw [become_draining hrunning, hends', Plan.deadline?_eq_some hends]

/-- The run breaks down when its end begins, if there is none. -/
theorem beginDrain_of_endless (hendless : p.deadline? r.scene.clock = none) :
    r.beginDrain p = r.left.breakDown := by
  have hendless' : p.deadline? r.left.scene.clock = none := hendless
  unfold beginDrain
  dsimp only
  rw [become_draining hrunning, hendless']

end Begin

@[simp] theorem active_tellActive (deadline : Nat) (r : Run) :
    (r.tellActive deadline).active = [] := rfl

@[simp] theorem lifecycle_tellActive (deadline : Nat) (r : Run) :
    (r.tellActive deadline).lifecycle = r.lifecycle := by
  simp only [tellActive, tellAll, foldl_tell]
  rfl

@[simp] theorem broken_tellActive (deadline : Nat) (r : Run) :
    (r.tellActive deadline).broken = r.broken := by
  simp only [tellActive, tellAll, foldl_tell]
  rfl

/-- The end of a run begins with the word to stop for every active user. -/
theorem beginDrain_moves (r : Run) (hrunning : r.lifecycle = .running)
    (hwhole : r.broken = false) : Moves p r (r.beginDrain p) := by
  cases hdeadline : p.deadline? r.scene.clock with
  | none =>
    have hbreaks := Relation.ReflTransGen.single (Move.breakDown hrunning hdeadline)
    rw [beginDrain_of_endless hrunning hdeadline]
    exact hbreaks.tail (.drain hrunning)
  | some deadline =>
    have hdrain : Moves p r { r.left with gauge := 0 } := by
      have hmove := Relation.ReflTransGen.single (Move.drain (p := p) hrunning)
      rwa [if_neg (by simp [hwhole])] at hmove
    have htell := hdrain.trans (tellAll_moves r.active { r.left with gauge := 0 } []
      (.inl (List.append_nil _).symm))
    have hgoing : Lifecycle.draining ≠ .complete := by decide
    -- The gauge goes to zero when all are told; no move in between looks at it.
    rw [beginDrain_eq hrunning hdeadline]
    refine Relation.ReflTransGen.trans ?_ (drain_moves _ (lifecycle_tellActive _ _)
      (active_tellActive _ _) ((broken_tellActive _ _).trans hwhole))
    simp only [tellActive, tellAll, foldl_tell] at htell ⊢
    exact (htell.tail (.remark hgoing rfl)).tail (.remark hgoing rfl)

/-! ## Acts -/

theorem deeds_moves {r : Run} {user : Nat} {u : User} {outcome : Scene × User}
    (hu : r.users[user]? = some u) (hdeeds : User.Deeds p.workload (r.scene, u) outcome) :
    Moves p r (r.update user outcome) := by
  induction hdeeds with
  | refl =>
    -- A user that is put back in its own place.
    have hsame : r.users.set user u = r.users := by
      apply List.ext_getElem?
      intro i
      rw [List.getElem?_set]
      split
      · next hi => subst hi; split <;> simp_all
      · rfl
    have hupdate : r.update user (r.scene, u) = r := by
      unfold update
      rw [hsame]
    rw [hupdate]
  | @tail middle last _ hdeed ih =>
    have hmiddle : (r.update user middle).users[user]? = some middle.2 := by
      have hlength : user < r.users.length := (List.getElem?_eq_some_iff.1 hu).1
      simp [update, hlength]
    have hmove := Move.deed (p := p) (r := r.update user middle) hmiddle hdeed
    have hupdate : (r.update user middle).update user last = r.update user last := by
      simp [update]
    rw [hupdate] at hmove
    exact ih.tail hmove

/-- A run once a tick has noticed which users have ended. -/
def reaped (p : Plan) (r : Run) : Run := reap p { r with nextTick := r.tickAfter p }

theorem reaped_moves (r : Run) : Moves p r (reaped p r) :=
  (reap_moves _).head (.adjust _ r.stopRequested r.interrupted r.latest?)

theorem active_reap (p : Plan) (r : Run) :
    (r.reap p).active = r.active.filter fun user => !r.isEnded user := by
  simp only [reap, reapActive_eq, reapStopping_eq, reapAborting_eq]

theorem clock_reap (p : Plan) (r : Run) : (r.reap p).scene.clock = r.scene.clock := by
  simp only [reap, reapActive_eq, reapStopping_eq, reapAborting_eq, clock_foldl_settle,
    clock_foldl_dismiss]

@[simp] theorem lifecycle_reaped (p : Plan) (r : Run) :
    (reaped p r).lifecycle = r.lifecycle := by
  simp only [reaped, reap, reapActive_eq, reapStopping_eq, reapAborting_eq]

@[simp] theorem broken_reaped (p : Plan) (r : Run) : (reaped p r).broken = r.broken := by
  simp only [reaped, reap, reapActive_eq, reapStopping_eq, reapAborting_eq]

@[simp] theorem users_reaped (p : Plan) (r : Run) : (reaped p r).users = r.users := by
  simp only [reaped, reap, reapActive_eq, reapStopping_eq, reapAborting_eq]

theorem active_reaped (p : Plan) (r : Run) :
    (reaped p r).active = r.active.filter fun user => !r.isEnded user :=
  active_reap p { r with nextTick := r.tickAfter p }

@[simp] theorem clock_reaped (p : Plan) (r : Run) :
    (reaped p r).scene.clock = r.scene.clock :=
  clock_reap p { r with nextTick := r.tickAfter p }

theorem tick_of_active {r : Run} {users : Nat}
    (htarget : p.schedule.targetAt r.scene.clock = .active users) :
    r.tick p = ((reaped p r).note (.ticks (.active users))).scaleTo p users := by
  rw [← clock_reaped p r] at htarget
  unfold reaped at htarget ⊢
  simp only [tick, htarget]

theorem tick_of_complete {r : Run}
    (htarget : p.schedule.targetAt r.scene.clock = .complete) :
    r.tick p = ((reaped p r).note (.ticks .complete)).beginDrain p := by
  rw [← clock_reaped p r] at htarget
  unfold reaped at htarget ⊢
  simp only [tick, htarget]

theorem tick_moves (r : Run) (hrunning : r.lifecycle = .running) (hwhole : r.broken = false) :
    Moves p r (r.tick p) := by
  have hstill : (reaped p r).lifecycle = .running := by rw [lifecycle_reaped, hrunning]
  have hticks := (reaped_moves (p := p) r).tail (.tick hstill)
  rw [clock_reaped, broken_reaped, if_neg (by simp [hwhole])] at hticks
  cases htarget : p.schedule.targetAt r.scene.clock with
  | active users =>
    rw [tick_of_active htarget]
    by_cases hends : p.deadline? r.scene.clock = none → (reaped p r).active.length ≤ users
    · -- The move of the tick raises the peak before users are started, the run afterwards.
      rw [htarget] at hticks
      have hends' : p.deadline? (reaped p r).scene.clock = none →
          (reaped p r).active.length ≤ users := by rwa [clock_reaped]
      rw [scaleTo_eq (r := (reaped p r).note (.ticks (.active users))) hends',
        ← measure_with_peak]
      exact hticks.trans (measure_moves _ users hstill (Nat.le_max_right _ _))
    · -- The peak is left as it is when the run breaks down.
      obtain ⟨hendless, hless⟩ := Classical.not_imp.1 hends
      have hendless' : p.deadline? (reaped p r).scene.clock = none := by rwa [clock_reaped]
      have hgoing : Lifecycle.running ≠ .complete := by decide
      have hbreaks := ((reaped_moves (p := p) r).tail (.breakDown hstill hendless')).tail
        (.tick hstill)
      rw [if_pos (show (reaped p r).breakDown.broken = true from rfl),
        show (reaped p r).breakDown.scene.clock = r.scene.clock from clock_reaped p r,
        htarget] at hbreaks
      have hremark := hbreaks.tail (@Move.remark p _ (.scalesDown (reaped p r).active.length users)
        (hstill ▸ hgoing) rfl)
      rw [scaleTo_of_endless (r := (reaped p r).note (.ticks (.active users)))
        (Nat.lt_of_not_le hless) hendless']
      exact hremark
  | complete =>
    have hmax : max (reaped p r).peak Schedule.Target.complete.users = (reaped p r).peak :=
      Nat.max_eq_left (Nat.zero_le _)
    rw [htarget, hmax] at hticks
    rw [tick_of_complete htarget]
    exact hticks.trans (beginDrain_moves _ hstill ((broken_reaped p r).trans hwhole))

/-- Whether a run that drains has no active users, unless it broke down before it told them to
stop. -/
def Emptied (r : Run) : Prop := r.broken = false → r.lifecycle = .draining → r.active = []

theorem emptied_start : Emptied start := fun _ => nofun

theorem emptied_of_running {r : Run} (hrunning : r.lifecycle = .running) : Emptied r := by
  intro _ hdraining
  cases hrunning.symm.trans hdraining

theorem perform_of_broken {r : Run} (hbroken : r.broken = true) (act : Act) :
    r.perform p act = r := if_pos hbroken

theorem performAll_of_broken {r : Run} (hbroken : r.broken = true) (acts : List Act) :
    performAll p r acts = r := by
  induction acts with
  | nil => rfl
  | cons act rest ih =>
    show performAll p (r.perform p act) rest = r
    rw [perform_of_broken hbroken, ih]

theorem perform_of_whole {r : Run} (hwhole : r.broken = false) (act : Act) :
    r.perform p act = r.handle p act := if_neg (by simp [hwhole])

theorem perform_tick {r : Run} (hrunning : r.lifecycle = .running) (hwhole : r.broken = false) :
    r.perform p .tick = { r.tick p with latest? := none } := by
  rw [perform_of_whole hwhole]
  exact if_pos hrunning

theorem perform_drain {r : Run} (hdraining : r.lifecycle = .draining)
    (hwhole : r.broken = false) : r.perform p .drain = { r.drain p with latest? := none } := by
  rw [perform_of_whole hwhole]
  exact if_pos hdraining

theorem perform_interrupt {r : Run} (hrunning : r.lifecycle = .running)
    (hasked : r.stopRequested = true) (hwhole : r.broken = false) :
    r.perform p .interrupt = { r.interrupt p with latest? := none } := by
  rw [perform_of_whole hwhole]
  exact if_pos ⟨hrunning, hasked⟩

/-- Every act is a chain of moves. -/
theorem perform_moves (r : Run) (act : Act) (hemptied : Emptied r) :
    Moves p r (r.perform p act) := by
  cases hbroken : r.broken with
  | true =>
    rw [perform_of_broken hbroken]
  | false =>
    rw [perform_of_whole hbroken]
    cases act with
    | step user =>
      unfold handle
      dsimp only
      split
      · exact .refl
      · next u hu =>
        have hstep := deeds_moves (p := p) hu (User.step_deeds p.workload u r.scene)
        exact hstep.tail (.adjust _ _ _ (some user))
    | land user =>
      unfold handle
      dsimp only
      split
      · next haborting =>
        split
        · exact .refl
        · next u hu =>
          have hland := Relation.ReflTransGen.single (Move.land (p := p) haborting hu)
          exact hland.tail (.adjust _ _ _ none)
      · exact .refl
    | tick =>
      unfold handle
      dsimp only
      split
      · next hrunning => exact (tick_moves r hrunning hbroken).tail (.adjust _ _ _ none)
      · exact .refl
    | interrupt =>
      unfold handle
      dsimp only
      split
      · next hasked =>
        have hremark := (Relation.ReflTransGen.single
          (@Move.remark p r .interrupted (by simp [hasked.1]) rfl)).tail
          (.adjust r.nextTick r.stopRequested true r.latest?)
        exact (hremark.trans (beginDrain_moves _ hasked.1 hbroken)).tail (.adjust _ _ _ none)
      · exact .refl
    | drain =>
      unfold handle
      dsimp only
      split
      · next hdraining =>
        exact (drain_moves r hdraining (hemptied hbroken hdraining) hbroken).tail
          (.adjust _ _ _ none)
      · exact .refl
    | stop => exact .single (.adjust _ true _ none)
    | wait time =>
      exact (Relation.ReflTransGen.single (Move.wait time)).tail (.adjust _ _ _ none)

theorem emptied_beginDrain {r : Run} (hrunning : r.lifecycle = .running) :
    Emptied (r.beginDrain p) := by
  intro hwhole _
  cases hdeadline : p.deadline? r.scene.clock with
  | none =>
    rw [beginDrain_of_endless hrunning hdeadline] at hwhole
    cases hwhole
  | some deadline => rw [beginDrain_eq hrunning hdeadline, active_drain, active_tellActive]

theorem lifecycle_scaleTo (p : Plan) (r : Run) (target : Nat) :
    (r.scaleTo p target).lifecycle = r.lifecycle := by
  by_cases hends : p.deadline? r.scene.clock = none → r.active.length ≤ target
  · rw [scaleTo_eq hends]
    exact lifecycle_resized p r target
  · obtain ⟨hendless, hless⟩ := Classical.not_imp.1 hends
    rw [scaleTo_of_endless (Nat.lt_of_not_le hless) hendless]
    rfl

theorem emptied_tick {r : Run} (hrunning : r.lifecycle = .running) : Emptied (r.tick p) := by
  have hstill : (reaped p r).lifecycle = .running := by rw [lifecycle_reaped, hrunning]
  cases htarget : p.schedule.targetAt r.scene.clock with
  | active users =>
    -- A run whose users are scaled is still under way.
    rw [tick_of_active htarget]
    intro _ hdraining
    rw [lifecycle_scaleTo] at hdraining
    cases hstill.symm.trans hdraining
  | complete =>
    rw [tick_of_complete htarget]
    exact emptied_beginDrain hstill

/-- A run that drains has no active users, and no act changes that. -/
theorem emptied_perform {r : Run} (hemptied : Emptied r) (act : Act) :
    Emptied (r.perform p act) := by
  cases hbroken : r.broken with
  | true => rwa [perform_of_broken hbroken]
  | false =>
    rw [perform_of_whole hbroken]
    cases act with
    | step user =>
      unfold handle
      dsimp only
      split <;> exact hemptied
    | land user =>
      unfold handle
      dsimp only
      split
      · split <;> exact hemptied
      · exact hemptied
    | tick =>
      unfold handle
      dsimp only
      split
      · next hrunning => exact emptied_tick hrunning
      · exact hemptied
    | interrupt =>
      unfold handle
      dsimp only
      split
      · next hasked => exact emptied_beginDrain hasked.1
      · exact hemptied
    | drain =>
      unfold handle
      dsimp only
      split
      · next hdraining => exact fun _ _ => (active_drain r).trans (hemptied hbroken hdraining)
      · exact hemptied
    | stop | wait => exact hemptied

/-- Every list of acts is a chain of moves. -/
theorem performAll_moves (acts : List Act) (r : Run) (hemptied : Emptied r) :
    Moves p r (performAll p r acts) := by
  induction acts generalizing r with
  | nil => exact .refl
  | cons act rest ih =>
    exact (perform_moves r act hemptied).trans (ih _ (emptied_perform hemptied act))

/-- Every history is a chain of moves from the start. -/
theorem performAll_reaches (p : Plan) (acts : List Act) : Reaches p (performAll p start acts) :=
  performAll_moves acts start emptied_start

end Run
end LoadRamp
