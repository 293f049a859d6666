import Mathlib.Data.List.Forall2

/-!
# Results

What has to hold for a computation that can fail to have a result: of a sequence of
two (`bind_eq_ok`), of a list of them (`mapM_eq_ok`), and of one that only adds to
its errors (`mapError_eq_ok`).  Results of several computations can be found
together when each can be found alone (`exists_forall₂`, `exists_rel`).

The error of several computations is that of the first one that has none of the
results (`bind_eq_error`, `mapM_eq_error`).
-/

namespace LoadRamp

variable {α β γ ε ε' : Type}

theorem bind_eq_ok {x : Except ε α} {f : α → Except ε β} {b : β} :
    (x >>= f) = .ok b ↔ ∃ a, x = .ok a ∧ f a = .ok b := by
  cases x <;> simp [bind, Except.bind]

theorem mapError_eq_ok {x : Except ε α} {f : ε → ε'} {a : α} :
    x.mapError f = .ok a ↔ x = .ok a := by
  cases x <;> simp [Except.mapError]

theorem isOk_iff {x : Except ε α} : x.isOk = true ↔ ∃ a, x = .ok a := by
  cases x <;> simp [Except.isOk, Except.toBool]

/-- A list goes through a function that can fail when every element does. -/
theorem mapM_eq_ok {f : α → Except ε β} {as : List α} {bs : List β} :
    as.mapM f = .ok bs ↔ List.Forall₂ (fun a b => f a = .ok b) as bs := by
  induction as generalizing bs with
  | nil => simp [pure, Except.pure, eq_comm]
  | cons a as ih =>
    have hpure {b : β} {rest bs : List β} :
        (pure (b :: rest) : Except ε (List β)) = .ok bs ↔ bs = b :: rest := by
      simp [pure, Except.pure, eq_comm]
    simp only [List.mapM_cons, bind_eq_ok, List.forall₂_cons_left_iff, ih, hpure]
    constructor
    · rintro ⟨b, hb, rest, hrest, rfl⟩
      exact ⟨b, rest, hb, hrest, rfl⟩
    · rintro ⟨b, rest, hb, hrest, rfl⟩
      exact ⟨b, hb, rest, hrest, rfl⟩

theorem bind_eq_error {x : Except ε α} {f : α → Except ε β} {e : ε} :
    (x >>= f) = .error e ↔ x = .error e ∨ ∃ a, x = .ok a ∧ f a = .error e := by
  cases x <;> simp [bind, Except.bind]

theorem mapError_eq_error {x : Except ε α} {f : ε → ε'} {e' : ε'} :
    x.mapError f = .error e' ↔ ∃ e, x = .error e ∧ f e = e' := by
  cases x <;> simp [Except.mapError]

/-- A list fails to go through a function at the first element that does. -/
theorem mapM_eq_error {f : α → Except ε β} {as : List α} {e : ε} :
    as.mapM f = .error e ↔ ∃ front a back, as = front ++ a :: back ∧
      (∀ b ∈ front, ∃ c, f b = .ok c) ∧ f a = .error e := by
  induction as with
  | nil => simp [pure, Except.pure]
  | cons a as ih =>
    simp only [List.mapM_cons, bind_eq_error, pure, Except.pure, reduceCtorEq, and_false,
      exists_false, or_false, ih]
    constructor
    · rintro (ha | ⟨c, hc, front, b, back, rfl, hfront, hb⟩)
      · exact ⟨[], a, as, rfl, nofun, ha⟩
      · exact ⟨a :: front, b, back, rfl, List.forall_mem_cons.2 ⟨⟨c, hc⟩, hfront⟩, hb⟩
    · rintro ⟨front, b, back, hsplit, hfront, hb⟩
      cases front with
      | nil =>
        obtain ⟨rfl, rfl⟩ := List.cons.inj hsplit
        exact .inl hb
      | cons a' front =>
        obtain ⟨rfl, rfl⟩ := List.cons.inj hsplit
        obtain ⟨⟨c, hc⟩, hfront⟩ := List.forall_mem_cons.1 hfront
        exact .inr ⟨c, hc, front, b, back, rfl, hfront, hb⟩

/-- Something can be found for all elements of a list when it can be for each. -/
theorem exists_forall₂ {R : α → β → Prop} {as : List α} :
    (∃ bs, List.Forall₂ R as bs) ↔ ∀ a ∈ as, ∃ b, R a b := by
  induction as with
  | nil => simp
  | cons a as ih =>
    rw [List.forall_mem_cons, ← ih]
    simp only [List.forall₂_cons_left_iff]
    constructor
    · rintro ⟨_, b, bs, hb, hbs, -⟩
      exact ⟨⟨b, hb⟩, bs, hbs⟩
    · rintro ⟨⟨b, hb⟩, bs, hbs⟩
      exact ⟨b :: bs, b, bs, hb, hbs, rfl⟩

/-- What related elements have in common, related lists have in common. -/
theorem map_eq_map_of_forall₂ {R : α → β → Prop} {f : α → γ} {g : β → γ} {as : List α}
    {bs : List β} (hR : ∀ a b, R a b → f a = g b) (h : List.Forall₂ R as bs) :
    as.map f = bs.map g := by
  induction h with
  | nil => rfl
  | cons hab _ ih => rw [List.map_cons, List.map_cons, hR _ _ hab, ih]

/-- Something can be found for what is there. -/
theorem exists_rel {R : α → β → Prop} {a? : Option α} :
    (∃ b?, Option.Rel R a? b?) ↔ ∀ a ∈ a?, ∃ b, R a b := by
  cases a? with
  | none => exact ⟨fun _ _ h => (nomatch h), fun _ => ⟨none, .none⟩⟩
  | some a =>
    constructor
    · rintro ⟨_, h⟩ b hb
      cases hb
      cases h with
      | some h => exact ⟨_, h⟩
    · intro h
      obtain ⟨b, hb⟩ := h a rfl
      exact ⟨some b, .some hb⟩

end LoadRamp
