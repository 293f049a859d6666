import LoadRamp.Scene

/-!
# Histories

What a history says about users, and how it grows.

* `Happening.doer?` is the user whose doing a happening is; being told to stop
  and being given up or joined are no doings of a user.
* `Scene.Continues` relates two scenes when only one user did something between
  them, and nothing but doings of that user was added to the history.
* `Happening.mark?` is the part of a happening in the iterations of its user: an
  iteration is opened, or it meets its fate.
* `Scene.pick` reads one kind of happening off a history, such as the marks, the
  words to stop, the ends that were noticed or the numbers of users that ticks
  asked for.
-/

namespace LoadRamp

/-- How an iteration comes to its end. -/
inductive Fate
  /-- Its outcomes are handed in. -/
  | committed (failed : Bool)
  /-- An abort cuts it short. -/
  | discarded
  /-- Its user breaks down. -/
  | broken
  deriving DecidableEq

/-- What a happening is for an iteration of its user. -/
inductive Mark
  | opens
  | meets (fate : Fate)
  deriving DecidableEq

namespace Happening

/-- The user whose doing a happening is. -/
def doer? : Happening → Option String
  | .begins user | .opens user | .sends user _ | .answered user _ _ | .requestFailed user _ _
  | .checkFailed user _ _ | .commits user _ | .breaks user _ | .ends user _
  | .aborts user _ => some user
  | _ => none

/-- The user that is told to stop. -/
def told? : Happening → Option String
  | .tells user => some user
  | _ => none

/-- The user whose end is noticed. -/
def noticed? : Happening → Option String
  | .lost user _ _ | .joins user _ _ _ => some user
  | _ => none

/-- The number of users that a tick asks for. -/
def wanted? : Happening → Option Nat
  | .ticks (.active users) => some users
  | _ => none

/-- The mark of a happening, with the user whose iteration it concerns. -/
def mark? : Happening → Option (String × Mark)
  | .opens user => some (user, .opens)
  | .commits user tally => some (user, .meets (.committed tally.failed))
  | .aborts user true => some (user, .meets .discarded)
  | .breaks user _ => some (user, .meets .broken)
  | _ => none

theorem told?_of_doer {what : Happening} {user : String} (h : what.doer? = some user) :
    what.told? = none := by
  cases what <;> first | rfl | cases h

theorem noticed?_of_doer {what : Happening} {user : String} (h : what.doer? = some user) :
    what.noticed? = none := by
  cases what <;> first | rfl | cases h

theorem wanted?_of_doer {what : Happening} {user : String} (h : what.doer? = some user) :
    what.wanted? = none := by
  cases what <;> first | rfl | cases h

end Happening

namespace Scene

/-- What the happenings of a scene give, in the order in which they were. -/
def pick {α : Type} (f : Happening → Option α) (s : Scene) : List α :=
  (s.history.filterMap fun e => f e.what).reverse

section Pick

variable {α : Type} (f : Happening → Option α)

theorem pick_of_history {s t : Scene} (h : s.history = t.history) : s.pick f = t.pick f := by
  unfold pick
  rw [h]

theorem pick_note (s : Scene) (what : Happening) :
    (s.note what).pick f = s.pick f ++ (f what).toList := by
  unfold pick
  rw [history_note, List.filterMap_cons]
  cases f what <;> simp

theorem pick_note_none {s : Scene} {what : Happening} (hnone : f what = none) :
    (s.note what).pick f = s.pick f := by
  rw [pick_note, hnone]
  exact List.append_nil _

theorem pick_noteAll {s : Scene} {happenings : List Happening}
    (hnone : ∀ what ∈ happenings, f what = none) : (s.noteAll happenings).pick f = s.pick f := by
  induction happenings generalizing s with
  | nil => rfl
  | cons what rest ih =>
    show ((s.note what).noteAll rest).pick f = s.pick f
    rw [ih fun other hother => hnone other (List.mem_cons_of_mem _ hother)]
    exact pick_note_none f (hnone what List.mem_cons_self)

end Pick

/-- The number of happenings of a scene with a mark. -/
def marked (s : Scene) (mark : Mark) : Nat := ((s.pick Happening.mark?).map Prod.snd).count mark

theorem marked_of_pick {s t : Scene} {user : String} {new : List Mark}
    (h : t.pick Happening.mark? = s.pick Happening.mark? ++ new.map (Prod.mk user))
    (mark : Mark) : t.marked mark = s.marked mark + new.count mark := by
  have hnew : (new.map (Prod.mk user)).map Prod.snd = new := by
    rw [List.map_map]
    exact List.map_id _
  unfold marked
  rw [h, List.map_append, hnew, List.count_append]

theorem marked_congr {s t : Scene} (h : t.pick Happening.mark? = s.pick Happening.mark?)
    (mark : Mark) : t.marked mark = s.marked mark := by
  unfold marked
  rw [h]

/-- Whether a scene comes from an earlier one by doings of one user alone. -/
def Continues (user : String) (before after : Scene) : Prop :=
  ∃ entries : List Entry, after.history = entries ++ before.history ∧
    ∀ e ∈ entries, e.what.doer? = some user

namespace Continues

variable {user : String} {before after : Scene}

theorem of_history (h : after.history = before.history) : Continues user before after :=
  ⟨[], h, nofun⟩

theorem trans {last : Scene} (h : Continues user before after)
    (hlast : Continues user after last) : Continues user before last := by
  obtain ⟨entries, hentries, hall⟩ := h
  obtain ⟨newer, hnewer, hallNewer⟩ := hlast
  refine ⟨newer ++ entries, ?_, ?_⟩
  · rw [hnewer, hentries, List.append_assoc]
  · intro e he
    rcases List.mem_append.1 he with he | he
    · exact hallNewer e he
    · exact hall e he

theorem note (h : Continues user before after) {what : Happening}
    (hdoer : what.doer? = some user) : Continues user before (after.note what) := by
  obtain ⟨entries, hentries, hall⟩ := h
  refine ⟨⟨after.clock, what⟩ :: entries, ?_, ?_⟩
  · rw [history_note, hentries, List.cons_append]
  · intro e he
    rcases List.mem_cons.1 he with rfl | he
    · exact hdoer
    · exact hall e he

theorem noteAll (h : Continues user before after) {happenings : List Happening}
    (hdoer : ∀ what ∈ happenings, what.doer? = some user) :
    Continues user before (after.noteAll happenings) := by
  induction happenings generalizing after with
  | nil => exact h
  | cons what rest ih =>
    exact ih (h.note (hdoer what List.mem_cons_self))
      fun other hother => hdoer other (List.mem_cons_of_mem _ hother)

/-- What is no doing of the user is not added. -/
theorem pick_eq (h : Continues user before after) {α : Type} {f : Happening → Option α}
    (hf : ∀ what : Happening, what.doer? = some user → f what = none) :
    after.pick f = before.pick f := by
  obtain ⟨entries, hentries, hall⟩ := h
  have hnone : (entries.filterMap fun e => f e.what) = [] := by
    rw [List.filterMap_eq_nil_iff]
    intro e he
    exact hf _ (hall e he)
  unfold pick
  rw [hentries, List.filterMap_append, hnone, List.nil_append]

end Continues

end Scene

end LoadRamp
