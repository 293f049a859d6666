import LoadRamp.Config.Decode
import LoadRamp.Proofs.Resolving

/-!
# Why configurations are refused

A configuration that is not accepted is refused, and the refusal is an error that
can be told, or a sum of durations that does not fit.  There are two such sums, and
nothing else in a configuration can bring a refusal of the second kind.

* `Phrase.read_overflow`: in a phrase only a carry can fail.
* `Config.Overflows` names the two sums: that of the stages, and one in the phrase of
  a stage that is reached because every stage before it is in order.
* `Config.resolve_reports`: exactly those sums are not reported as errors.
-/

namespace LoadRamp

/-! ## Sums in phrases -/

namespace Duration.Phrase

/-- A reading whose only sum that may not fit is a carry. -/
def OnlyCarries {α : Type} (x : Except Error α) : Prop :=
  ∀ kind, x = .error (.overflow kind) → kind = .ofCarry

variable {α β : Type}

theorem onlyCarries_ok (a : α) : OnlyCarries (.ok a) := nofun

theorem OnlyCarries.bind {x : Except Error α} {f : α → Except Error β} (hx : OnlyCarries x)
    (hf : ∀ a, OnlyCarries (f a)) : OnlyCarries (x >>= f) := by
  intro kind h
  rcases bind_eq_error.1 h with h | ⟨a, -, h⟩
  · exact hx kind h
  · exact hf a kind h

theorem onlyCarries_word {n : Nat} : OnlyCarries (word? n) := by
  intro kind h
  unfold word? at h
  split at h <;> cases h

theorem onlyCarries_exactly {factor : Nat} {fraction : Fraction} :
    OnlyCarries (exactly factor fraction) := by
  refine onlyCarries_word.bind fun product kind h => ?_
  split at h <;> cases h

theorem onlyCarries_addParts {total : Duration} {seconds nanos : Nat} :
    OnlyCarries (addParts total seconds nanos) := by
  refine onlyCarries_word.bind fun nanos => onlyCarries_word.bind fun seconds kind h => ?_
  dsimp only at h
  split at h
  · cases h
  · split at h
    · cases h
      rfl
    · cases h

theorem onlyCarries_addUnits {total : Duration} {value : Nat} {fraction? : Option Fraction}
    {unit : TimeUnit} : OnlyCarries (addUnits total value fraction? unit) := by
  cases unit with
  | ofNanos size =>
    refine onlyCarries_word.bind fun _ => onlyCarries_addParts.bind fun total => ?_
    cases fraction? with
    | none => exact onlyCarries_ok total
    | some fraction =>
      dsimp only
      split
      · nofun
      · exact onlyCarries_exactly.bind fun _ => onlyCarries_addParts
  | ofSeconds size =>
    refine onlyCarries_word.bind fun _ => onlyCarries_addParts.bind fun total => ?_
    cases fraction? with
    | none => exact onlyCarries_ok total
    | some fraction =>
      dsimp only
      split <;> exact onlyCarries_exactly.bind fun _ => onlyCarries_addParts

theorem onlyCarries_close {r : Reading} {value : Nat} {fraction? : Option Fraction}
    {letters : List Char} : OnlyCarries (r.close value fraction? letters) := by
  unfold Reading.close
  dsimp only
  split
  · exact onlyCarries_addUnits
  · split <;> nofun

theorem onlyCarries_push {f : Fraction} {digit : Nat} : OnlyCarries (f.push digit) :=
  onlyCarries_word.bind fun _ => onlyCarries_word.bind fun _ => onlyCarries_ok _

theorem onlyCarries_step (r : Reading) (c : Char) : OnlyCarries (r.step c) := by
  unfold Reading.step
  dsimp only
  split
  · exact onlyCarries_ok _
  · split <;> nofun
  · exact onlyCarries_word.bind fun _ => onlyCarries_ok _
  · split
    · nofun
    · split
      · nofun
      · split <;> nofun
  · exact onlyCarries_push.bind fun _ => onlyCarries_ok _
  · split
    · nofun
    · split <;> nofun
  · exact onlyCarries_close.bind fun _ => onlyCarries_ok _
  · split
    · exact onlyCarries_close.bind fun _ => onlyCarries_ok _
    · split <;> nofun

theorem onlyCarries_foldlM (cs : List Char) (r : Reading) :
    OnlyCarries (cs.foldlM Reading.step r) := by
  induction cs generalizing r with
  | nil => exact onlyCarries_ok r
  | cons c cs ih =>
    rw [List.foldlM_cons]
    exact (onlyCarries_step r c).bind ih

theorem onlyCarries_finish (r : Reading) : OnlyCarries r.finish := by
  unfold Reading.finish
  split
  · split <;> nofun
  · exact onlyCarries_close
  · split
    · nofun
    · exact onlyCarries_close
  · exact onlyCarries_close

/-- The only sum of a phrase that may not fit is a carry of nanoseconds into the seconds. -/
theorem read_overflow {phrase : String} {kind : Overflow}
    (h : read phrase = .error (.overflow kind)) : kind = .ofCarry := by
  unfold read at h
  split at h
  · cases h
  · exact (onlyCarries_foldlM _ _).bind onlyCarries_finish kind h

end Duration.Phrase

/-! ## Sums in configurations -/

namespace Duration

/-- A list of durations has no sum when its nanoseconds do not fit. -/
theorem sum?_eq_none {durations : List Duration} :
    sum? durations = none ↔ limit ≤ (durations.map nanos).sum := by
  rw [← not_iff_not, ← ne_eq, Option.ne_none_iff_exists', not_le]
  constructor
  · rintro ⟨total, htotal⟩
    exact sum?_eq_some.1 htotal ▸ total.bounded
  · intro hlimit
    exact ⟨⟨_, hlimit⟩, sum?_eq_some.2 rfl⟩

end Duration

theorem Schedule.make_eq_overflow {stages : List Stage} {startTarget : Nat} :
    make stages startTarget = .error .overflow ↔
      Duration.sum? (stages.map Stage.duration) = none := by
  unfold make
  split
  · next hnone =>
    rw [List.isEmpty_iff.1 hnone]
    constructor
    · intro hoverflow
      cases hoverflow
    · intro hnone
      cases hnone
  · split
    · next hsum => exact ⟨fun _ => hsum, fun _ => rfl⟩
    · next total hsum =>
      have hsome : Duration.sum? (stages.map Stage.duration) ≠ none := by
        rw [hsum]
        exact Option.some_ne_none total
      refine iff_of_false ?_ hsome
      split <;> simp

theorem scheduleOf_eq_overflow {stages : List Stage} {startTarget : Nat}
    {kind : Duration.Overflow} :
    scheduleOf stages startTarget = .error (.overflow kind) ↔
      Duration.limit ≤ (stages.map fun stage => stage.duration.nanos).sum ∧ kind = .ofList := by
  have hsum := @Duration.sum?_eq_none (stages.map Stage.duration)
  rw [List.map_map, ← @Schedule.make_eq_overflow stages startTarget] at hsum
  refine Iff.trans ?_ (and_congr_left' hsum)
  unfold scheduleOf
  cases Schedule.make stages startTarget with
  | ok schedule => simp
  | error error => cases error <;> simp [eq_comm]

namespace Config

variable {lookup : String → Option String}

/-- A sum of durations that a configuration comes to and that does not fit.  Nothing that comes
before it is wrong. -/
inductive Overflows (c : Config) : Duration.Overflow → Prop
  /-- The durations of the stages. -/
  | ofStages (stages : ∀ entry ∈ c.stages, ∃ stage, entry.Means stage)
      (startTarget : 0 ≤ c.startTarget) (total : Duration.limit ≤ c.totalNanos) :
      Overflows c .ofList
  /-- The parts of the phrase of a stage. -/
  | ofPhrase {front back : List StageEntry} {entry : StageEntry} {text : String}
      (stages : c.stages = front ++ entry :: back)
      (before : ∀ entry ∈ front, ∃ stage, entry.Means stage)
      (duration : entry.duration = .phrase text)
      (parts : Duration.Phrase.read text = .error (.overflow .ofCarry)) :
      Overflows c .ofCarry

theorem Span.resolve_eq_overflow {span : Span} {kind : Duration.Overflow} :
    span.resolve = .error (.overflow kind) ↔
      ∃ text, span = .phrase text ∧ Duration.Phrase.read text = .error (.overflow kind) := by
  cases span with
  | seconds value => simp [resolve, mapError_eq_error]
  | phrase text =>
    simp only [resolve, phrase.injEq, exists_eq_left']
    cases Duration.Phrase.read text with
    | ok d => simp
    | error e => cases e <;> simp

/-- The target of a stage is a number, so that only its duration can overflow. -/
theorem StageEntry.resolve_eq_overflow {entry : StageEntry} {kind : Duration.Overflow} :
    entry.resolve = .error (.overflow kind) ↔ ∃ text, entry.duration = .phrase text ∧
      Duration.Phrase.read text = .error (.overflow kind) := by
  simp [resolve, bind_eq_error, mapError_eq_error, Span.resolve_eq_overflow]

theorem within_eq_overflow {context : ConfigError → ConfigError} {refusal : Refusal}
    {kind : Duration.Overflow} :
    refusal.within context = .overflow kind ↔ refusal = .overflow kind := by
  cases refusal <;> simp [Refusal.within]

theorem resolveStages_eq_overflow {entries : List StageEntry} {kind : Duration.Overflow} :
    resolveStages entries = .error (.overflow kind) ↔ ∃ front entry back,
      entries = front ++ entry :: back ∧ (∀ entry ∈ front, ∃ stage, entry.Means stage) ∧
        entry.resolve = .error (.overflow kind) := by
  simp only [resolveStages, mapM_eq_error, mapError_eq_ok, mapError_eq_error, within_eq_overflow,
    exists_eq_right, StageEntry.resolve_eq_ok]
  constructor
  · rintro ⟨front, numbered, back, hsplit, hfront, hentry⟩
    have hentries := congrArg (List.map Prod.fst) hsplit
    rw [List.zipIdx_map_fst, List.map_append, List.map_cons] at hentries
    exact ⟨_, _, _, hentries, List.forall_mem_map.2 hfront, hentry⟩
  · rintro ⟨front, entry, back, rfl, hfront, hentry⟩
    rw [List.zipIdx_append, List.zipIdx_cons]
    refine ⟨_, _, _, rfl, fun numbered hnumbered => hfront _ ?_, hentry⟩
    rw [← List.zipIdx_map_fst 0 front]
    exact List.mem_map_of_mem hnumbered

theorem groups_ne_overflow {groups : List GroupEntry} {kind : Duration.Overflow} :
    groups.mapM (GroupEntry.resolve lookup) ≠ .error (.overflow kind) := by
  simp [mapM_eq_error, GroupEntry.resolve, mapError_eq_error]

theorem scenarioOf_ne_overflow {name : String} {groups : List Group} {kind : Duration.Overflow} :
    scenarioOf name groups ≠ .error (.overflow kind) := by
  unfold scenarioOf
  split <;> nofun

/-- After the schedule nothing is added up any more. -/
theorem resolve_eq_overflow {c : Config} {kind : Duration.Overflow} :
    resolve lookup c = .error (.overflow kind) ↔ c.Overflows kind := by
  simp only [resolve, bind_eq_error, mapError_eq_error, mapError_eq_ok, resolveStages_eq_ok,
    natural_eq_ok, scheduleOf_eq_overflow, groups_ne_overflow, scenarioOf_ne_overflow,
    reduceCtorEq, and_false, exists_false, or_false, false_or]
  constructor
  · rintro (hstages | ⟨stages, hstages, startTarget, hstart, hlimit, rfl⟩)
    · obtain ⟨front, entry, back, hsplit, hfront, hentry⟩ := resolveStages_eq_overflow.1 hstages
      obtain ⟨text, hduration, hread⟩ := StageEntry.resolve_eq_overflow.1 hentry
      obtain rfl := Duration.Phrase.read_overflow hread
      exact .ofPhrase hsplit hfront hduration hread
    · refine .ofStages (exists_forall₂.1 ⟨stages, hstages⟩) ?_ (totalNanos_eq hstages ▸ hlimit)
      exact hstart ▸ Int.natCast_nonneg startTarget
  · intro h
    cases h with
    | ofStages hstages hstart hlimit =>
      obtain ⟨stages, hmeans⟩ := exists_forall₂.2 hstages
      exact .inr ⟨stages, hmeans, c.startTarget.toNat, (Int.toNat_of_nonneg hstart).symm,
        totalNanos_eq hmeans ▸ hlimit, rfl⟩
    | ofPhrase hsplit hfront hduration hread =>
      exact .inl (resolveStages_eq_overflow.2 ⟨_, _, _, hsplit, hfront,
        StageEntry.resolve_eq_overflow.2 ⟨_, hduration, hread⟩⟩)

/-- Whatever a configuration holds, it is accepted or an error is told, unless one of two sums of
durations does not fit: that of its stages, or a carry in the phrase of a stage.  What comes of it
then is the overflow of that sum, and nothing else overflows. -/
theorem resolve_reports (lookup : String → Option String) (c : Config) :
    (((∃ r, resolve lookup c = .ok r) ∨ ∃ e, resolve lookup c = .error (.invalid e)) ↔
      ∀ kind, ¬ c.Overflows kind) ∧
    ∀ kind, resolve lookup c = .error (.overflow kind) ↔ c.Overflows kind := by
  have hoverflow (kind : Duration.Overflow) :
      resolve lookup c = .error (.overflow kind) ↔ c.Overflows kind := resolve_eq_overflow
  refine ⟨?_, hoverflow⟩
  simp only [← hoverflow]
  cases resolve lookup c with
  | ok r => simp
  | error refusal => cases refusal <;> simp

/-- Two stages, of which the first is as long as a phrase in seconds can say. -/
theorem not_resolve_reports :
    ¬ ∀ (text : String) (c : Config) (lookup : String → Option String), read text = .ok c →
      (∃ r, resolve lookup c = .ok r) ∨ ∃ e, resolve lookup c = .error (.invalid e) := by
  intro h
  let text := "stages = [\x7b duration = \"18446744073709551615s\", target = 1 \x7d, " ++
    "\x7b duration = 1, target = 1 \x7d]\n\n[scenario]\nname = \"s\"\n\n" ++
    "[[scenario.groups]]\nname = \"g\"\nmethod = \"GET\"\npath = \"/p\"\n"
  let lookup : String → Option String := fun _ => none
  have hrefusal : ((read text).toOption.bind fun c =>
      match resolve lookup c with
      | .ok _ => none
      | .error refusal => some refusal) = some (.overflow .ofList) := by
    decide +kernel
  obtain ⟨c, hread, hrefused⟩ := Option.bind_eq_some_iff.1 hrefusal
  have hread : read text = .ok c := by
    cases hc : read text with
    | ok _ => rw [hc] at hread; exact congrArg _ (Option.some.inj hread)
    | error _ => rw [hc] at hread; cases hread
  obtain ⟨r, hr⟩ | ⟨e, he⟩ := h text c lookup hread
  · rw [hr] at hrefused
    cases hrefused
  · rw [he] at hrefused
    cases hrefused

end Config
end LoadRamp
