import LoadRamp.Proofs.Table
import LoadRamp.Signal
import Mathlib.Logic.Function.Basic

/-!
# Handles are counted

A registry of stop signals keeps its tables in order and counts, for every signal,
the handles that have a name (`Registry.Sound`).  Every act keeps it so
(`Registry.Sound.perform`).  In the middle of an act that makes a handle, that
handle is counted before it has its name; it is the one in hand.

So a signal is abandoned exactly when no name is left for a handle of it
(`Registry.Sound.abandoned_iff`).
-/

namespace LoadRamp
namespace Signal

open Ordered (Ascending strict_textBefore textBefore)

/-! ## One signal -/

/-- A listener has to stop for one of two reasons, whatever it has looked at. -/
theorem stops_eq (s : Signal) (seen : Nat) : s.stops seen = (s.raised || s.abandoned) := by
  rw [stops, changed?]
  cases s.abandoned <;> rfl

/-- The first look of a wait finds what a listener sees that does not wait. -/
theorem ready_poll (s : Signal) (seen : Nat) : s.poll.ready = s.stops seen := by
  rw [stops_eq, poll, changed?]
  cases s.raised <;> cases s.abandoned <;> rfl

namespace Registry

variable {r : Registry}

/-- The signal that a listener watches. -/
def watched? (r : Registry) (name : String) : Option Nat := (r.listener? name).map Listener.place

/-! ## Fields of a registry -/

theorem signalAt_update (place : Nat) (change : Signal → Signal) (other : Nat) :
    (r.update place change).signalAt other =
      if other = place ∧ other < r.signals.length then change (r.signalAt other)
      else r.signalAt other := by
  simp only [update, signalAt, List.getD_eq_getElem?_getD, List.getElem?_modify]
  by_cases hplace : place = other
  · subst hplace
    by_cases hlast : place < r.signals.length
    · simp [hlast]
    · simp [hlast]
  · simp [hplace, Ne.symm hplace]

@[simp] theorem length_update (place : Nat) (change : Signal → Signal) :
    (r.update place change).signals.length = r.signals.length := List.length_modify _ _ _

/-- A change that leaves the flag as it is changes no flag. -/
theorem raised_update {change : Signal → Signal} (hchange : ∀ s, (change s).raised = s.raised)
    (place other : Nat) :
    ((r.update place change).signalAt other).raised = (r.signalAt other).raised := by
  rw [signalAt_update]
  split
  · exact hchange _
  · rfl

@[simp] theorem handles_dropHandle (name : String) :
    (r.dropHandle name).handles = Ordered.remove name r.handles := by
  unfold dropHandle
  split
  · next hnone => exact (Ordered.remove_of_not_mem (Ordered.find?_eq_none.1 hnone)).symm
  · rfl

@[simp] theorem listeners_dropHandle (name : String) :
    (r.dropHandle name).listeners = r.listeners := by
  unfold dropHandle
  split <;> rfl

@[simp] theorem length_dropHandle (name : String) :
    (r.dropHandle name).signals.length = r.signals.length := by
  unfold dropHandle
  split
  · rfl
  · exact length_update _ _

theorem raised_dropHandle (name : String) (place : Nat) :
    ((r.dropHandle name).signalAt place).raised = (r.signalAt place).raised := by
  have hkeep : ∀ s : Signal, s.dropHandle.raised = s.raised := fun _ => rfl
  unfold dropHandle
  split
  · rfl
  · exact raised_update hkeep _ place

theorem handle?_dropHandle (name : String) :
    (r.dropHandle name).handle? = Function.update r.handle? name none := by
  funext other
  rw [handle?, handles_dropHandle, Ordered.find?_remove, Function.update_apply, handle?]

theorem handle?_bindHandle (h : Ascending textBefore r.handles) (name : String) (place : Nat) :
    (r.bindHandle name place).handle? = Function.update r.handle? name (some place) := by
  funext other
  have hrest : Ascending textBefore (r.dropHandle name).handles := by
    rw [handles_dropHandle]
    exact h.remove
  rw [handle?, bindHandle, Ordered.insert, Ordered.find?_alter strict_textBefore hrest,
    Function.update_apply, handles_dropHandle, Ordered.find?_remove, handle?]
  grind

@[simp] theorem length_bindHandle (name : String) (place : Nat) :
    (r.bindHandle name place).signals.length = r.signals.length := length_dropHandle name

theorem raised_bindHandle (name : String) (place other : Nat) :
    ((r.bindHandle name place).signalAt other).raised = (r.signalAt other).raised :=
  raised_dropHandle name other

@[simp] theorem watched?_dropHandle (name : String) :
    (r.dropHandle name).watched? = r.watched? := by
  funext other
  rw [watched?, listener?, listeners_dropHandle, watched?, listener?]

@[simp] theorem watched?_bindHandle (name : String) (place : Nat) :
    (r.bindHandle name place).watched? = r.watched? := watched?_dropHandle name

theorem watched?_bindListener (h : Ascending textBefore r.listeners) (name : String)
    (listener : Listener) :
    (r.bindListener name listener).watched? =
      Function.update r.watched? name (some listener.place) := by
  funext other
  rw [watched?, listener?, bindListener, Ordered.insert,
    Ordered.find?_alter strict_textBefore h, Function.update_apply, watched?, listener?]
  grind

theorem watched?_dropListener (name : String) :
    (r.dropListener name).watched? = Function.update r.watched? name none := by
  funext other
  rw [watched?, listener?, dropListener, Ordered.find?_remove, Function.update_apply, watched?,
    listener?]
  grind

/-! ## Handles are counted -/

/-- Both tables ascend, handles and listeners go with signals that there are, and every signal
counts its handles: those with a name, and one that is about to get one. -/
structure Sound (r : Registry) (inHand : Option Nat) : Prop where
  handles : Ascending textBefore r.handles
  listeners : Ascending textBefore r.listeners
  handle_lt : ∀ name place, r.handle? name = some place → place < r.signals.length
  watched_lt : ∀ name place, r.watched? name = some place → place < r.signals.length
  inHand_lt : ∀ place, inHand = some place → place < r.signals.length
  counted : ∀ place < r.signals.length, (r.signalAt place).handles =
    r.handles.countP (·.2 = place) + if inHand = some place then 1 else 0

theorem sound_empty : Sound {} none where
  handles := .nil
  listeners := .nil
  handle_lt _ _ h := nomatch h
  watched_lt _ _ h := nomatch h
  inHand_lt _ h := nomatch h
  counted _ h := absurd h (Nat.not_lt_zero _)

variable {inHand : Option Nat}

/-- A signal is abandoned when no name is left for a handle of it. -/
theorem Sound.abandoned_iff (h : r.Sound none) {place : Nat} (hplace : place < r.signals.length) :
    (r.signalAt place).abandoned = true ↔ ∀ name, r.handle? name ≠ some place := by
  rw [abandoned, h.counted place hplace, beq_iff_eq]
  simp only [reduceCtorEq, if_false, Nat.add_zero, List.countP_eq_zero, decide_eq_true_eq]
  constructor
  · intro hnone name hname
    exact hnone (name, place) ((h.handles.mem_iff_find? strict_textBefore).2 hname) rfl
  · rintro hnone ⟨name, other⟩ hentry rfl
    exact hnone name ((h.handles.mem_iff_find? strict_textBefore).1 hentry)

theorem Sound.dropHandle (h : r.Sound inHand) (name : String) :
    (r.dropHandle name).Sound inHand where
  handles := by rw [handles_dropHandle]; exact h.handles.remove
  listeners := by rw [listeners_dropHandle]; exact h.listeners
  handle_lt other place hplace := by
    rw [handle?_dropHandle, Function.update_apply] at hplace
    rw [length_dropHandle]
    split at hplace
    · cases hplace
    · exact h.handle_lt other place hplace
  watched_lt := by
    rw [length_dropHandle]
    simpa only [watched?, listener?, listeners_dropHandle] using h.watched_lt
  inHand_lt := by rw [length_dropHandle]; exact h.inHand_lt
  counted place hplace := by
    rw [length_dropHandle] at hplace
    have hcounted := h.counted place hplace
    rw [handles_dropHandle, Registry.dropHandle]
    split
    · next hnone =>
      rw [Ordered.remove_of_not_mem (Ordered.find?_eq_none.1 hnone)]
      exact hcounted
    · next dropped hdropped =>
      -- One entry goes from the table, and its signal counts one handle less.
      have hperm := Ordered.perm_of_find? (h.handles.nodup_keys strict_textBefore) hdropped
      rw [hperm.countP_eq, List.countP_cons] at hcounted
      change ((r.update dropped Signal.dropHandle).signalAt place).handles = _
      rw [signalAt_update]
      split
      · next hsame =>
        rw [Signal.dropHandle, hcounted]
        simp [hsame.1]
      · next hother =>
        have : dropped ≠ place := fun heq => hother ⟨heq.symm, hplace⟩
        rw [hcounted]
        simp [this]

/-- The handle in hand is counted by its name. -/
theorem Sound.bindHandle {place : Nat} (h : r.Sound (some place)) (name : String) :
    (r.bindHandle name place).Sound none where
  handles := Ordered.ascending_insert strict_textBefore (h.dropHandle name).handles name place
  listeners := (h.dropHandle name).listeners
  handle_lt other family hfamily := by
    rw [handle?_bindHandle h.handles, Function.update_apply] at hfamily
    change family < (r.dropHandle name).signals.length
    rw [length_dropHandle]
    split at hfamily
    · exact Option.some.inj hfamily ▸ h.inHand_lt place rfl
    · exact h.handle_lt other family hfamily
  watched_lt := (h.dropHandle name).watched_lt
  inHand_lt _ hnone := nomatch hnone
  counted other hother := by
    have hnew : name ∉ (r.dropHandle name).handles.map Prod.fst := by
      rw [handles_dropHandle]
      exact Ordered.not_mem_keys_remove
    have hperm := Ordered.insert_perm strict_textBefore place hnew
    refine ((h.dropHandle name).counted other hother).trans ?_
    change _ = (Ordered.insert textBefore name place (r.dropHandle name).handles).countP _ + _
    rw [hperm.countP_eq, List.countP_cons]
    simp

/-- One more handle of a signal is in hand. -/
theorem Sound.addHandle (h : r.Sound none) {place : Nat} (hplace : place < r.signals.length) :
    (r.update place Signal.addHandle).Sound (some place) where
  handles := h.handles
  listeners := h.listeners
  handle_lt := by rw [length_update]; exact h.handle_lt
  watched_lt := by rw [length_update]; exact h.watched_lt
  inHand_lt other hother := by
    rw [length_update, ← Option.some.inj hother]
    exact hplace
  counted other hother := by
    rw [length_update] at hother
    have hcounted := h.counted other hother
    rw [signalAt_update]
    split
    · next hsame =>
      rw [Signal.addHandle, hcounted, hsame.1]
      simp [update]
    · next hdifferent =>
      have : place ≠ other := fun heq => hdifferent ⟨heq.symm, hother⟩
      rw [hcounted]
      simp [update, this]

theorem Sound.raise (h : r.Sound none) (place : Nat) :
    (r.update place Signal.raise).Sound none where
  handles := h.handles
  listeners := h.listeners
  handle_lt := by rw [length_update]; exact h.handle_lt
  watched_lt := by rw [length_update]; exact h.watched_lt
  inHand_lt _ hnone := nomatch hnone
  counted other hother := by
    rw [length_update] at hother
    rw [signalAt_update]
    split <;> exact h.counted other hother

@[simp] theorem length_grow : r.grow.signals.length = r.signals.length + 1 :=
  List.length_append

/-- There is nothing to be seen of a signal before it is there. -/
theorem signalAt_grow (place : Nat) : r.grow.signalAt place = r.signalAt place := by
  rw [signalAt, signalAt, grow]
  grind

/-- The only handle of a new signal is in hand. -/
theorem Sound.grow (h : r.Sound none) : r.grow.Sound (some r.signals.length) where
  handles := h.handles
  listeners := h.listeners
  handle_lt name place hplace := by
    rw [length_grow]
    exact Nat.lt_succ_of_lt (h.handle_lt name place hplace)
  watched_lt name place hplace := by
    rw [length_grow]
    exact Nat.lt_succ_of_lt (h.watched_lt name place hplace)
  inHand_lt place hplace := by
    rw [length_grow, ← Option.some.inj hplace]
    exact Nat.lt_succ_self _
  counted place hplace := by
    rw [length_grow] at hplace
    rw [signalAt_grow]
    rcases Nat.lt_succ_iff_lt_or_eq.1 hplace with hold | rfl
    · have : r.signals.length ≠ place := Nat.ne_of_gt hold
      rw [h.counted place hold]
      simp [Registry.grow, this]
    · -- No name goes with the new place yet, so it counts the handle in hand alone.
      have hnone : r.handles.countP (·.2 = r.signals.length) = 0 := by
        refine List.countP_eq_zero.2 fun entry hentry hplace => ?_
        have := h.handle_lt entry.1 entry.2
          ((h.handles.mem_iff_find? strict_textBefore).1 hentry)
        simp only [decide_eq_true_eq] at hplace
        omega
      rw [signalAt, List.getD_eq_getElem?_getD, List.getElem?_eq_none (Nat.le_refl _), if_pos rfl,
        Registry.grow, hnone]
      rfl

theorem Sound.bindListener (h : r.Sound none) (name : String) {listener : Listener}
    (hplace : listener.place < r.signals.length) : (r.bindListener name listener).Sound none where
  handles := h.handles
  listeners := Ordered.ascending_insert strict_textBefore h.listeners name listener
  handle_lt := h.handle_lt
  watched_lt other place hother := by
    rw [watched?_bindListener h.listeners, Function.update_apply] at hother
    split at hother
    · exact Option.some.inj hother ▸ hplace
    · exact h.watched_lt other place hother
  inHand_lt _ hnone := nomatch hnone
  counted := h.counted

theorem Sound.dropListener (h : r.Sound none) (name : String) :
    (r.dropListener name).Sound none where
  handles := h.handles
  listeners := h.listeners.remove
  handle_lt := h.handle_lt
  watched_lt other place hother := by
    rw [watched?_dropListener, Function.update_apply] at hother
    split at hother
    · cases hother
    · exact h.watched_lt other place hother
  inHand_lt _ hnone := nomatch hnone
  counted := h.counted

theorem watched?_eq {name : String} {listener : Listener} (h : r.listener? name = some listener) :
    r.watched? name = some listener.place := by
  rw [watched?, h, Option.map_some]

theorem Sound.perform (h : r.Sound none) (act : Act) : (r.perform act).1.Sound none := by
  cases act with
  | create name => exact h.grow.bindHandle name
  | clone name source =>
    rw [Registry.perform]
    split
    · exact h
    · next place hplace => exact (h.addHandle (h.handle_lt source place hplace)).bindHandle name
  | listen name source =>
    rw [Registry.perform]
    split
    · exact h
    · next place hplace => exact h.bindListener name (h.handle_lt source place hplace)
  | cloneListener name source =>
    rw [Registry.perform]
    split
    · exact h
    · next listener hlistener =>
      exact h.bindListener name (h.watched_lt source listener.place (watched?_eq hlistener))
  | drop name => exact h.dropHandle name
  | dropListener name => exact h.dropListener name
  | raise name =>
    rw [Registry.perform]
    split
    · exact h
    · next place _ => exact h.raise place
  | wait name =>
    rw [Registry.perform]
    split
    · exact h
    · next listener hlistener =>
      exact h.bindListener name (h.watched_lt name listener.place (watched?_eq hlistener))

end Registry
end Signal
end LoadRamp
