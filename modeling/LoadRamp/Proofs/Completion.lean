import LoadRamp.Proofs.Leaving
import Mathlib.Data.Nat.Pairing

/-!
# Every run ends

A run that has been left to itself comes to its end, however long it takes: its ticks come
some time, aborts take effect some time, and time passes.  It is complete then, unless it broke
down for want of an end to a grace period.

* `Run.follow` is a run on its way through an endless future, and `Run.Fair` says of the
  future that nothing in it is put off for ever.  `exists_fair`: such a future is always at
  hand.
* `Fair.exists_left` leaves the loop: there are only so many ticks in it.
* `Fair.exists_nearer` takes the end of a run further: a stopping user has ended or is too
  late some time, and an aborted user has ended once its abort took effect.  What is left to
  do becomes less (`Run.load`), until the run is complete.
-/

namespace LoadRamp
namespace Run

variable {p : Plan}

/-! ## Acts are moves -/

/-- A run that moves lead to, and that has no active users when it drains. -/
structure Lawful (p : Plan) (r : Run) : Prop where
  reaches : Reaches p r
  emptied : Emptied r

theorem lawful_start : Lawful p start := ⟨.refl, emptied_start⟩

section Act

variable {r : Run} (h : Lawful p r) (act : Act)

include h

theorem lawful_perform : Lawful p (r.perform p act) where
  reaches := h.reaches.trans (perform_moves r act h.emptied)
  emptied := emptied_perform h.emptied act

theorem isEnded_land {user : Nat} (haborting : user ∈ r.aborting) (hwhole : r.broken = false) :
    (r.perform p (.land user)).isEnded user = true := by
  obtain ⟨u, hu⟩ := (roster_of_reaches h.reaches).exists_of_mem
    (mem_places.2 (.inr (.inr (.inl haborting))))
  have hperform : r.perform p (.land user) =
      { r.update user (u.abort r.scene) with latest? := none } := by
    rw [perform_of_whole hwhole]
    simp only [handle, haborting, hu, if_true]
  rw [hperform, isEnded]
  show ((r.update user (u.abort r.scene)).ending? user).isSome = true
  rw [ending?_update_self hu]
  exact User.isEnded_abort u r.scene

theorem extends_perform : Extends r (r.perform p act) :=
  Moves.extends h.reaches (perform_moves r act h.emptied)

end Act

theorem lawful_performAll {r : Run} (h : Lawful p r) (acts : List Act) :
    Lawful p (performAll p r acts) := by
  induction acts generalizing r with
  | nil => exact h
  | cons act rest ih => exact ih (lawful_perform h act)

/-! ## Futures -/

/-- A run after some acts of an endless future. -/
def follow (p : Plan) (r : Run) (future : Nat → Act) (n : Nat) : Run :=
  performAll p r ((List.range n).map future)

theorem follow_succ (p : Plan) (r : Run) (future : Nat → Act) (n : Nat) :
    follow p r future (n + 1) = (follow p r future n).perform p (future n) := by
  rw [follow, List.range_succ, List.map_append]
  exact List.foldl_append

/-- Whether nothing is put off for ever in the future of a run. -/
structure Fair (p : Plan) (r : Run) (future : Nat → Act) : Prop where
  /-- The ticker goes on to keep its promise. -/
  paced : ∀ n, Paced p (follow p r future n)
  /-- There is no last instant, as long as the run does not break down. -/
  passing : ∀ time, ∃ n,
    time ≤ (follow p r future n).scene.clock ∨ (follow p r future n).broken = true
  /-- A run in its loop is woken by a tick, or hears that it was asked to stop. -/
  woken : ∀ n, (follow p r future n).lifecycle = .running → ∃ m, n ≤ m ∧
    (future m = .tick ∨ future m = .interrupt ∧ (follow p r future m).stopRequested = true)
  /-- The abort of a user takes effect, if it does not come to its end before. -/
  landed : ∀ n, ∀ user ∈ (follow p r future n).aborting, ∃ m, n ≤ m ∧
    (future m = .land user ∨ (follow p r future m).isEnded user = true)
  /-- A run that drains sees that it need not wait for a user. -/
  noticed : ∀ n, (follow p r future n).ownAct? = some .drain →
    ∃ m, n ≤ m ∧ future m = .drain

variable {r : Run} {future : Nat → Act}

theorem tickTimes_follow (p : Plan) (r : Run) (future : Nat → Act) {n m : Nat} (h : n ≤ m) :
    (follow p r future n).tickTimes <+: (follow p r future m).tickTimes := by
  induction m, h using Nat.le_induction with
  | base => exact List.prefix_refl _
  | succ m hle ih =>
    rw [follow_succ, tickTimes_perform]
    exact ih.trans (List.prefix_append _ _)

/-- What a future adds. -/
theorem extends_follow (h : Lawful p r) (future : Nat → Act) {n m : Nat} (hle : n ≤ m) :
    Extends (follow p r future n) (follow p r future m) := by
  induction m, hle using Nat.le_induction with
  | base => exact .refl _
  | succ m hle ih =>
    rw [follow_succ]
    exact ih.trans (extends_perform (lawful_performAll h _) (future m))

/-! ## The loop is left -/

/-- A run that hears of the word to stop leaves its loop. -/
theorem interrupt_leaves (hrunning : r.lifecycle = .running) (hasked : r.stopRequested = true)
    (hwhole : r.broken = false) : (r.perform p .interrupt).lifecycle ≠ .running := by
  have hleft := beginDrain_loop (p := p)
    (.refl { r.note .interrupted with interrupted := true }) hrunning
  rw [perform_interrupt hrunning hasked hwhole]
  show (r.interrupt p).lifecycle ≠ .running
  rcases hleft with haside | haside
  · exact haside.lifecycle_eq ▸ nofun
  · exact haside.lifecycle_eq ▸ nofun

namespace Fair

section Loop

variable (hfair : Fair p r future) (hwhole : ∀ n, (follow p r future n).broken = false)

include hfair hwhole

/-- As long as a run does not leave its loop, there are more and more ticks. -/
theorem exists_tickTimes (hrunning : ∀ n, (follow p r future n).lifecycle = .running) (k : Nat) :
    ∃ n, k ≤ (follow p r future n).tickTimes.length := by
  induction k with
  | zero => exact ⟨0, Nat.zero_le _⟩
  | succ k ih =>
    obtain ⟨n, hmany⟩ := ih
    obtain ⟨m, hle, htick | ⟨hinterrupt, hasked⟩⟩ := hfair.woken n (hrunning n)
    · refine ⟨m + 1, ?_⟩
      have hmore := (tickTimes_follow p r future hle).length_le
      rw [follow_succ, htick, tickTimes_perform, if_pos ⟨rfl, hrunning m, hwhole m⟩,
        List.length_append, List.length_singleton]
      omega
    · have hleft := interrupt_leaves (p := p) (hrunning m) hasked (hwhole m)
      rw [← hinterrupt, ← follow_succ] at hleft
      exact absurd (hrunning (m + 1)) hleft

theorem exists_left {ticks : List (Nat × Nat)} {left ended : Nat}
    (hlooped : Looped p r ticks left ended) :
    ∃ n, (follow p r future n).lifecycle ≠ .running := by
  by_contra! hrunning
  obtain ⟨n, hmany⟩ := hfair.exists_tickTimes hwhole hrunning (p.mostTicks + 2)
  obtain ⟨ticks, left, ended, hcourse⟩ := hlooped.performAll ((List.range n).map future)
  exact Nat.lt_irrefl _ (Nat.le_trans hmany (hcourse.length_tickTimes_le (hfair.paced n)))

end Loop

end Fair

/-! ## The end goes on -/

/-- Whether a run is complete, or has less to do than before. -/
def Nearer (before after : Run) : Prop :=
  after.lifecycle = .complete ∨ after.lifecycle = .draining ∧ after.load < before.load

/-- Whether a run drains and waits for the same users as before. -/
structure Waits (before after : Run) : Prop where
  draining : after.lifecycle = .draining
  stopping_eq : after.stopping = before.stopping
  aborting_eq : after.aborting = before.aborting

theorem Waits.load_eq {before after : Run} (h : Waits before after) : after.load = before.load := by
  rw [load, h.stopping_eq, h.aborting_eq, load]

/-- An act takes the end of a run further, or leaves it where it is. -/
theorem nearer_or_waits (hdraining : r.lifecycle = .draining) (hwhole : r.broken = false)
    (act : Act) : Nearer r (r.perform p act) ∨ Waits r (r.perform p act) := by
  have hover : r.lifecycle ≠ .running := by
    rw [hdraining]
    exact nofun
  rw [perform_of_whole hwhole]
  cases act with
  | drain =>
    have hdrain : r.handle p .drain = { r.drain p with latest? := none } := if_pos hdraining
    rw [hdrain]
    rcases idle_drain (p := p) r hdraining with hcomplete | ⟨hstill, -⟩
    · exact .inl (.inl hcomplete)
    · have hpasses := passes_drain (p := p) r hdraining
      rcases hpasses.load_cases with hless | ⟨hstopping, haborting⟩
      · exact .inl (.inr ⟨hstill, hless⟩)
      · exact .inr ⟨hstill, hstopping, haborting⟩
  | step user =>
    refine .inr ?_
    unfold handle
    dsimp only
    split <;> exact ⟨hdraining, rfl, rfl⟩
  | land user =>
    refine .inr ?_
    unfold handle
    dsimp only
    split
    · split <;> exact ⟨hdraining, rfl, rfl⟩
    · exact ⟨hdraining, rfl, rfl⟩
  | tick =>
    have htick : r.handle p .tick = r := if_neg hover
    rw [htick]
    exact .inr ⟨hdraining, rfl, rfl⟩
  | interrupt =>
    have hinterrupt : r.handle p .interrupt = r := if_neg fun hboth => hover hboth.1
    rw [hinterrupt]
    exact .inr ⟨hdraining, rfl, rfl⟩
  | stop | wait => exact .inr ⟨hdraining, rfl, rfl⟩

/-- Once it is the turn of a run that drains, it stays so until it takes it. -/
theorem ownAct?_of_waits {before after : Run} (h : Waits before after)
    (hextends : Extends before after) (hdraining : before.lifecycle = .draining)
    (hown : before.ownAct? = some .drain) : after.ownAct? = some .drain := by
  have hended {user : Nat} (hbefore : before.isEnded user = true) :
      after.isEnded user = true := hextends.isEnded hbefore
  have hclock := hextends.clock_le
  rw [ownAct?, hdraining] at hown
  rw [ownAct?, h.draining, h.stopping_eq, h.aborting_eq]
  cases hstopping : before.stopping with
  | cons s rest =>
    simp only [hstopping] at hown ⊢
    split at hown
    · next hdue =>
      refine if_pos ?_
      rw [Bool.or_eq_true, decide_eq_true_eq] at hdue ⊢
      exact hdue.imp hended fun hlate => Nat.le_trans hlate hclock
    · cases hown
  | nil =>
    cases haborting : before.aborting with
    | nil => rfl
    | cons user rest =>
      simp only [hstopping, haborting] at hown ⊢
      split at hown
      · next hgone => exact if_pos (hended hgone)
      · cases hown

namespace Fair

section Draining

variable (hfair : Fair p r future) (hlawful : Lawful p r)
  (hwhole : ∀ n, (follow p r future n).broken = false) {n : Nat}
  (hdraining : (follow p r future n).lifecycle = .draining)

include hwhole hdraining in
/-- Up to any moment, a run has got nearer to its end, or it still waits for the same users. -/
theorem nearer_or_waits_follow {m : Nat} (hle : n ≤ m) :
    (∃ k, n ≤ k ∧ Nearer (follow p r future n) (follow p r future k)) ∨
      Waits (follow p r future n) (follow p r future m) := by
  induction m, hle using Nat.le_induction with
  | base => exact .inr ⟨hdraining, rfl, rfl⟩
  | succ m hle ih =>
    rcases ih with hnearer | hwaits
    · exact .inl hnearer
    · have hact := nearer_or_waits (p := p) hwaits.draining (hwhole m) (future m)
      rw [← follow_succ] at hact
      rcases hact with hnearer | hstill
      · refine .inl ⟨m + 1, Nat.le_succ_of_le hle, ?_⟩
        rwa [Nearer, hwaits.load_eq] at hnearer
      · exact .inr ⟨hstill.draining, hstill.stopping_eq.trans hwaits.stopping_eq,
          hstill.aborting_eq.trans hwaits.aborting_eq⟩

include hfair hlawful hwhole hdraining

/-- It is the turn of a run that drains some time. -/
theorem exists_ownAct
    (hwaits : ∀ m, n ≤ m → Waits (follow p r future n) (follow p r future m)) :
    ∃ m, n ≤ m ∧ (follow p r future m).ownAct? = some .drain := by
  cases hstopping : (follow p r future n).stopping with
  | cons s rest =>
    -- The deadline of the first stopping user is over some time.
    obtain ⟨late, hover⟩ := hfair.passing s.deadline
    have hlate := hover.resolve_right (by simp [hwhole late])
    have hm := hwaits (max n late) (Nat.le_max_left _ _)
    have hclock := (extends_follow hlawful future (Nat.le_max_right n late)).clock_le
    refine ⟨max n late, Nat.le_max_left _ _, ?_⟩
    rw [ownAct?, hm.draining, hm.stopping_eq, hstopping]
    refine if_pos ?_
    rw [Bool.or_eq_true, decide_eq_true_eq]
    exact .inr (Nat.le_trans hlate hclock)
  | nil =>
    cases haborting : (follow p r future n).aborting with
    | nil => exact ⟨n, Nat.le_refl _, by rw [ownAct?, hdraining, hstopping, haborting]⟩
    | cons user rest =>
      have hmem : user ∈ (follow p r future n).aborting := haborting ▸ List.mem_cons_self
      -- Once the first aborted user has ended, the run need not wait for it.
      have hturn {m : Nat} (hle : n ≤ m) (hended : (follow p r future m).isEnded user = true) :
          (follow p r future m).ownAct? = some .drain := by
        have hm := hwaits m hle
        rw [ownAct?, hm.draining, hm.stopping_eq, hstopping, hm.aborting_eq, haborting]
        exact if_pos hended
      obtain ⟨m, hle, hland | hended⟩ := hfair.landed n user hmem
      · refine ⟨m + 1, Nat.le_succ_of_le hle, hturn (Nat.le_succ_of_le hle) ?_⟩
        rw [follow_succ, hland]
        exact isEnded_land (lawful_performAll hlawful _) ((hwaits m hle).aborting_eq ▸ hmem)
          (hwhole m)
      · exact ⟨m, hle, hturn hle hended⟩

theorem exists_nearer : ∃ m, n ≤ m ∧ Nearer (follow p r future n) (follow p r future m) := by
  by_contra hnever
  have hwaits (m : Nat) (hle : n ≤ m) : Waits (follow p r future n) (follow p r future m) :=
    (nearer_or_waits_follow hwhole hdraining hle).resolve_left hnever
  obtain ⟨m, hle, hown⟩ := hfair.exists_ownAct hlawful hwhole hdraining hwaits
  obtain ⟨k, hthen, hdrain⟩ := hfair.noticed m hown
  have hm := hwaits m hle
  have hk := hwaits k (Nat.le_trans hle hthen)
  have hsame : Waits (follow p r future m) (follow p r future k) :=
    ⟨hk.draining, hk.stopping_eq.trans hm.stopping_eq.symm,
      hk.aborting_eq.trans hm.aborting_eq.symm⟩
  have hown := ownAct?_of_waits hsame (extends_follow hlawful future hthen) hm.draining hown
  refine hnever ⟨k + 1, Nat.le_trans hle (Nat.le_succ_of_le hthen), ?_⟩
  rw [follow_succ, hdrain, perform_drain hk.draining (hwhole k), Nearer, ← hk.load_eq]
  exact load_drain_lt hk.draining hown

/-- A run that drains is complete some time. -/
theorem exists_complete_of_draining :
    ∃ m, (follow p r future m).lifecycle = .complete := by
  induction hload : (follow p r future n).load using Nat.strongRecOn generalizing n with
  | ind load ih =>
    obtain ⟨m, -, hcomplete | ⟨hstill, hless⟩⟩ := hfair.exists_nearer hlawful hwhole hdraining
    · exact ⟨m, hcomplete⟩
    · exact ih _ (hload ▸ hless) hstill rfl

end Draining

/-- Every run is complete some time, or breaks down. -/
theorem exists_over (hfair : Fair p r future) (hlawful : Lawful p r)
    {ticks : List (Nat × Nat)} {left ended : Nat} (hlooped : Looped p r ticks left ended) :
    ∃ n, (follow p r future n).lifecycle = .complete ∨ (follow p r future n).broken = true := by
  by_cases hbreaks : ∃ n, (follow p r future n).broken = true
  · exact hbreaks.imp fun _ => .inr
  · have hwhole (n : Nat) : (follow p r future n).broken = false :=
      Bool.eq_false_iff.2 fun hbroken => hbreaks ⟨n, hbroken⟩
    obtain ⟨n, hleft⟩ := hfair.exists_left hwhole hlooped
    obtain ⟨ticks, left, ended, hcourse⟩ := hlooped.performAll ((List.range n).map future)
    cases hlifecycle : (follow p r future n).lifecycle with
    | idle => exact absurd hlifecycle hcourse.started
    | running => exact absurd hlifecycle hleft
    | draining =>
      obtain ⟨m, hcomplete⟩ := hfair.exists_complete_of_draining hlawful hwhole hlifecycle
      exact ⟨m, .inl hcomplete⟩
    | complete => exact ⟨n, .inl hlifecycle⟩

end Fair

/-! ## There is a fair future -/

/-- A future in which everything comes round again and again, and a tick once in every
interval. -/
def roundRobin (p : Plan) (ticks n : Nat) : Act :=
  match n % 4 with
  | 0 => .wait ((ticks + n / 4) * p.settings.tickInterval.nanos)
  | 1 => .tick
  | 2 => .drain
  | _ => .land (n / 4).unpair.1

section RoundRobin

variable (p : Plan) (ticks n : Nat)

theorem roundRobin_wait :
    roundRobin p ticks (4 * n) = .wait ((ticks + n) * p.settings.tickInterval.nanos) := by
  simp [roundRobin]

theorem roundRobin_tick : roundRobin p ticks (4 * n + 1) = .tick := by
  simp [roundRobin]

theorem roundRobin_drain : roundRobin p ticks (4 * n + 2) = .drain := by
  simp [roundRobin]

theorem roundRobin_land : roundRobin p ticks (4 * n + 3) = .land n.unpair.1 := by
  have hround : (4 * n + 3) / 4 = n := by omega
  simp [roundRobin, hround]

end RoundRobin

theorem tickTimes_other {act : Act} (r : Run) (hother : act ≠ .tick) :
    (r.perform p act).tickTimes = r.tickTimes := by
  rw [tickTimes_perform, if_neg fun htick => hother htick.1, List.append_nil]

/-- A round, with a wait that is long enough for its tick, leaves the promise of a ticker
kept. -/
theorem paced_round {k : Nat} (hpaced : Paced p r) (hlength : r.tickTimes.length ≤ k)
    (user : Nat) :
    let now := performAll p r
      [.wait (k * p.settings.tickInterval.nanos), .tick, .drain, .land user]
    Paced p now ∧ now.tickTimes.length ≤ k + 1 := by
  let waited := r.perform p (.wait (k * p.settings.tickInterval.nanos))
  let ticked := waited.perform p .tick
  let drained := ticked.perform p .drain
  have hwait : waited.tickTimes = r.tickTimes := tickTimes_other r nofun
  have hdrain : drained.tickTimes = ticked.tickTimes := tickTimes_other ticked nofun
  have hland : (drained.perform p (.land user)).tickTimes = drained.tickTimes :=
    tickTimes_other drained nofun
  have hrest := hland.trans hdrain
  have htick : Paced p ticked ∧ ticked.tickTimes.length ≤ k + 1 := by
    have htimes : ticked.tickTimes = waited.tickTimes ++ _ := tickTimes_perform p waited .tick
    rw [hwait] at htimes
    split at htimes
    · next hticks =>
      have hwhole : r.broken = false := by
        cases hbroken : r.broken with
        | true =>
          have hsame : waited = r := perform_of_broken hbroken _
          exact absurd hbroken (by simp [← hsame, hticks.2.2])
        | false => rfl
      have hclock : k * p.settings.tickInterval.nanos ≤ waited.scene.clock := by
        have hwaited : waited = r.handle p (.wait (k * p.settings.tickInterval.nanos)) :=
          perform_of_whole hwhole _
        rw [hwaited]
        exact Nat.le_max_right _ _
      have hwaited := Nat.mul_le_mul_right p.settings.tickInterval.nanos hlength
      refine ⟨hpaced.concat htimes (Nat.le_trans hwaited hclock), ?_⟩
      rw [htimes, List.length_append, List.length_singleton]
      exact Nat.add_le_add_right hlength 1
    · rw [List.append_nil] at htimes
      exact ⟨hpaced.congr htimes, htimes ▸ Nat.le_succ_of_le hlength⟩
  refine ⟨htick.1.congr hrest, ?_⟩
  show (drained.perform p (.land user)).tickTimes.length ≤ k + 1
  rw [hrest]
  exact htick.2

theorem follow_roundRobin (r : Run) (ticks n : Nat) :
    follow p r (roundRobin p ticks) (4 * (n + 1)) =
      performAll p (follow p r (roundRobin p ticks) (4 * n))
        [.wait ((ticks + n) * p.settings.tickInterval.nanos), .tick, .drain,
          .land n.unpair.1] := by
  rw [Nat.mul_succ, follow_succ, follow_succ, follow_succ, follow_succ, roundRobin_wait,
    roundRobin_tick, roundRobin_drain, roundRobin_land]
  rfl

theorem paced_rounds (hpaced : Paced p r) (n : Nat) :
    let now := follow p r (roundRobin p r.tickTimes.length) (4 * n)
    Paced p now ∧ now.tickTimes.length ≤ r.tickTimes.length + n := by
  induction n with
  | zero => exact ⟨hpaced, Nat.le_refl _⟩
  | succ n ih =>
    dsimp only
    rw [follow_roundRobin]
    exact paced_round ih.1 ih.2 n.unpair.1

/-- Whatever has happened, as long as the ticker has kept its promise, there is a fair future. -/
theorem exists_fair (hpaced : Paced p r) : ∃ future, Fair p r future := by
  refine ⟨roundRobin p r.tickTimes.length, ?_, fun time => ⟨4 * time + 1, ?_⟩, fun n _ => ?_,
    fun n user _ => ?_, fun n _ => ?_⟩
  · intro n
    exact (paced_rounds hpaced n).1.mono (tickTimes_follow p r _ (by omega))
  · rw [follow_succ, roundRobin_wait]
    cases hbroken : (follow p r (roundRobin p r.tickTimes.length) (4 * time)).broken with
    | true =>
      rw [perform_of_broken hbroken]
      exact .inr hbroken
    | false =>
      rw [perform_of_whole hbroken]
      refine .inl (Nat.le_trans ?_ (Nat.le_max_right _ _))
      exact Nat.le_trans (Nat.le_add_left _ _) (Nat.le_mul_of_pos_right _ p.tick_pos)
  · exact ⟨4 * n + 1, by omega, .inl (roundRobin_tick p _ n)⟩
  · have hle := Nat.right_le_pair user n
    refine ⟨4 * Nat.pair user n + 3, by omega, .inl ?_⟩
    rw [roundRobin_land, Nat.unpair_pair]
  · exact ⟨4 * n + 2, by omega, roundRobin_drain p _ n⟩

/-! ## The end of every run -/

/-- Every run ends.  Its ticker promises no more than that tick number `k` comes no earlier than
`k` intervals after the start, and whatever its users do and whenever the acts of the run come:

* it handles at most as many ticks as its schedule takes intervals, and one more;
* it has been started, it has left its loop when a tick found the schedule complete or when it
  was interrupted, and it has drained and is over; no other move was made, and none refused;
  ticks found what the schedule wants, and it counts as interrupted if and only if it left its
  loop for this reason, which is so only if somebody outside asked it to stop;
* once it was asked, at most one more tick is handled, if no time passes before it hears of it
  and no two ticks are at one instant;
* if it breaks down, then since a grace period that begins now has no end; it is not complete,
  and nothing happens to it any more;
* it is complete or has broken down some time, in any future that puts nothing off for ever.

The drop of the last handle by which a run can be asked to stop is a word to stop, too.  Ticks
that come when they are due, or later, are of this kind (`paced_of_ticking`), and there is always
a future to which the last part applies (`exists_fair`). -/
theorem run_ends (p : Plan) (acts : List Act) (hpaced : Paced p (performAll p start acts)) :
    let r := performAll p start acts
    r.tickTimes.length ≤ p.mostTicks + 1 ∧
      (∃ ticks left ended, ticks.length ≤ p.mostTicks ∧ r.lifecycle ≠ .idle ∧
        r.scene.loop = loopCourse r.lifecycle r.interrupted ticks left ended ∧
        (∀ t ∈ ticks, p.schedule.targetAt t.1 = .active t.2) ∧
        (r.lifecycle ≠ .running → r.interrupted = false →
          p.schedule.targetAt left = .complete) ∧
        (r.interrupted = true ↔ ⟨left, .interrupted⟩ ∈ r.scene.loop) ∧
        (r.interrupted = true → .stop ∈ acts)) ∧
      (∀ before after, acts = before ++ after → .stop ∈ before →
        isHeedingAll p (performAll p start before) after = true →
        r.tickTimes.Pairwise (· < ·) →
        r.tickTimes.length ≤ (performAll p start before).tickTimes.length + 1) ∧
      (r.broken = true → p.deadline? r.scene.clock = none ∧ r.lifecycle ≠ .complete ∧
        ∀ more, performAll p r more = r) ∧
      ∀ future, Fair p r future → ∃ n,
        let last := follow p r future n
        last.lifecycle = .complete ∨ last.broken = true ∧ p.deadline? last.scene.clock = none := by
  intro r
  have hlawful : Lawful p r := lawful_performAll lawful_start acts
  obtain ⟨ticks, left, ended, hlooped⟩ := (Looped.start (p := p)).performAll acts
  refine ⟨hlooped.length_tickTimes_le hpaced, ⟨ticks, left, ended, ?_⟩, ?_, ?_, ?_⟩
  · refine ⟨hlooped.length_ticks_le hpaced, hlooped.started, hlooped.loop_eq, hlooped.found,
      hlooped.completed, hlooped.interrupted_iff, fun hinterrupted => ?_⟩
    exact ((stopRequested_performAll start acts).1 (hlooped.asked hinterrupted)).resolve_left nofun
  · rintro before after rfl hstop hheeding hascending
    have hsplit : r = performAll p (performAll p start before) after := List.foldl_append
    rw [hsplit] at hascending ⊢
    cases hbroken : (performAll p start before).broken with
    | true =>
      rw [performAll_of_broken hbroken]
      exact Nat.le_succ _
    | false =>
      have hasked := (stopRequested_performAll start before).2 (.inr hstop) hbroken
      exact length_tickTimes_heeding hasked hheeding hascending
  · intro hbroken
    obtain ⟨hendless, hgoing⟩ := endless_of_broken hlawful.reaches hbroken
    exact ⟨hendless, hgoing, performAll_of_broken hbroken⟩
  · intro future hfair
    obtain ⟨n, hover⟩ := hfair.exists_over hlawful hlooped
    refine ⟨n, hover.imp_right fun hbroken => ⟨hbroken, ?_⟩⟩
    exact (endless_of_broken (lawful_performAll hlawful _).reaches hbroken).1

/-- A run is asked to stop just when its second tick is due.  The tick is handled, and then the
run hears of the word to stop; it waits for two users whose requests are never answered. -/
theorem run_ends_asked :
    ∃ (p : Plan) (before after : List Act) (future : Nat → Act),
      let r := performAll p start (before ++ after)
      .stop ∈ before ∧ Paced p r ∧ p.mostTicks = 2 ∧ r.tickTimes = [0, 5000000000] ∧
        r.lifecycle = .draining ∧ r.interrupted = true ∧ r.broken = false ∧
        r.tickTimes.length ≤ (performAll p start before).tickTimes.length + 1 ∧
        Fair p r future ∧ ∃ n,
          let last := follow p r future n
          last.lifecycle = .complete ∨
            last.broken = true ∧ p.deadline? last.scene.clock = none := by
  let p : Plan :=
    { schedule := ⟨[⟨Duration.ofSeconds 9, 2⟩], 2, Duration.ofSeconds 9, by decide +kernel,
        by decide +kernel⟩
      scenario := browsing
      baseUrl := "http://localhost"
      transport := fun _ _ => .never
      settings := ⟨Duration.zero, Duration.ofSeconds 5, Duration.ofSeconds 3⟩
      tick_pos := by decide +kernel }
  let before : List Act := [.tick, .step 0, .step 1, .wait 5000000000, .stop]
  let after : List Act := [.tick, .interrupt]
  have hticking : isTickingAll p start (before ++ after) = true := by decide +kernel
  obtain ⟨hpaced, hascending⟩ := paced_of_ticking hticking
  have hstop : .stop ∈ before := by decide
  have hheeding : isHeedingAll p (performAll p start before) after = true := by decide +kernel
  obtain ⟨-, -, hasked, -, hends⟩ := run_ends p (before ++ after) hpaced
  obtain ⟨future, hfair⟩ := exists_fair hpaced
  exact ⟨p, before, after, future, hstop, hpaced, by decide +kernel, by decide +kernel,
    by decide +kernel, by decide +kernel, by decide +kernel,
    hasked before after rfl hstop hheeding (hascending (by decide +kernel)), hfair,
    hends future hfair⟩

/-- Not every run is complete some time: its tick finds the schedule complete, and a grace period
of more seconds than there are instants has no end. -/
theorem not_run_ends :
    ¬ ∀ (p : Plan) (acts : List Act), Paced p (performAll p start acts) →
      ∀ future, Fair p (performAll p start acts) future →
        ∃ n, (follow p (performAll p start acts) future n).lifecycle = .complete := by
  intro hends
  let p : Plan :=
    { schedule := ⟨[⟨Duration.zero, 1⟩, ⟨Duration.ofMillis 150, 1⟩], 0, Duration.ofMillis 150,
        by decide +kernel, by decide +kernel⟩
      scenario := browsing
      baseUrl := "http://localhost"
      transport := fun _ _ => .never
      settings := ⟨Duration.zero, Duration.ofMillis 50, Duration.ofSeconds 10000000000000000000⟩
      tick_pos := by decide +kernel }
  let acts : List Act := [.tick, .step 0, .wait 150000000, .tick]
  have hticking : isTickingAll p start acts = true := by decide +kernel
  have hpaced := (paced_of_ticking hticking).1
  have hbroken : (performAll p start acts).broken = true := by decide +kernel
  have hgoing : (performAll p start acts).lifecycle = .draining := by decide +kernel
  obtain ⟨future, hfair⟩ := exists_fair hpaced
  obtain ⟨n, hcomplete⟩ := hends p acts hpaced future hfair
  rw [follow, performAll_of_broken hbroken, hgoing] at hcomplete
  cases hcomplete

end Run
end LoadRamp
