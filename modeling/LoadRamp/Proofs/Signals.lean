import LoadRamp.Proofs.Handles
import Mathlib.Data.List.Induction

/-!
# Stop signals and their history

What the handles and listeners of many signals see is known from the acts alone.  The
acts say which family of handles every name belongs to (`kinship`), whether a family
was told to stop (`RaisedIn`), and whether it has lost its last handle (`GoneIn`).
A registry keeps what its history says (`Registry.Follows`): an empty one does, every
act keeps it so, and so it is after any acts (`Registry.follows_after`).

* `Registry.mem_listenerViews` and `Registry.mem_handleViews` read off what is seen.
* `stoppedIn_append`: what has to be told stays told.
* `Kinship.handle?_after_of_not_touched`, `stoppedIn_concat_of_not_touched`: an act
  leaves the families alone that have no part in it.
* `Registry.views_follow_history` puts them together.
-/

namespace LoadRamp
namespace Signal

open Ordered (Ascending strict_textBefore textBefore)
open Registry (Act)

namespace Registry

/-- What acts make of an empty registry. -/
def after (acts : List Act) : Registry := acts.foldl (fun r act => (r.perform act).1) {}

theorem after_concat (acts : List Act) (act : Act) :
    after (acts ++ [act]) = ((after acts).perform act).1 := by
  rw [after, List.foldl_append]
  rfl

theorem sound_after (acts : List Act) : (after acts).Sound none := by
  induction acts using List.reverseRecOn with
  | nil => exact sound_empty
  | append_singleton acts act ih =>
    rw [after_concat]
    exact ih.perform act

end Registry

/-! ## Families -/

/-- Who belongs to which family.  A family is a handle that was created with all handles that go
back to it by cloning; a listener belongs to the family of the handle it goes back to.  Families
are numbered as they come. -/
structure Kinship where
  families : Nat := 0
  handle? : String → Option Nat := fun _ => none
  listener? : String → Option Nat := fun _ => none

namespace Kinship

variable (k : Kinship)

/-- A name is that of a handle of some family, or of none. -/
def setHandle (name : String) (family? : Option Nat) : Kinship :=
  { k with handle? := Function.update k.handle? name family? }

/-- A name is that of a listener of some family, or of none. -/
def setListener (name : String) (family? : Option Nat) : Kinship :=
  { k with listener? := Function.update k.listener? name family? }

@[grind =] theorem handle?_setHandle (name : String) (family? : Option Nat) (other : String) :
    (k.setHandle name family?).handle? other = if other = name then family? else k.handle? other :=
  Function.update_apply ..

@[grind =] theorem listener?_setHandle (name : String) (family? : Option Nat) (other : String) :
    (k.setHandle name family?).listener? other = k.listener? other := rfl

@[grind =] theorem families_setHandle (name : String) (family? : Option Nat) :
    (k.setHandle name family?).families = k.families := rfl

@[grind =] theorem handle?_setListener (name : String) (family? : Option Nat) (other : String) :
    (k.setListener name family?).handle? other = k.handle? other := rfl

@[grind =] theorem listener?_setListener (name : String) (family? : Option Nat) (other : String) :
    (k.setListener name family?).listener? other =
      if other = name then family? else k.listener? other :=
  Function.update_apply ..

@[grind =] theorem families_setListener (name : String) (family? : Option Nat) :
    (k.setListener name family?).families = k.families := rfl

/-- Who belongs to which family after one more act. -/
def after : Act → Kinship
  | .create name => { k with families := k.families + 1 }.setHandle name (some k.families)
  | .clone name source =>
    match k.handle? source with
    | none => k
    | some family => k.setHandle name (some family)
  | .listen name source =>
    match k.handle? source with
    | none => k
    | some family => k.setListener name (some family)
  | .cloneListener name source =>
    match k.listener? source with
    | none => k
    | some family => k.setListener name (some family)
  | .drop name => k.setHandle name none
  | .dropListener name => k.setListener name none
  | .raise _ => k
  | .wait _ => k

/-- A family has a part in an act: a handle or a listener of it is used, or gives its name up. -/
def Touched (family : Nat) : Act → Prop
  | .create name => k.handle? name = some family
  | .clone name source => k.handle? source = some family ∨ k.handle? name = some family
  | .listen name source => k.handle? source = some family ∨ k.listener? name = some family
  | .cloneListener name source =>
    k.listener? source = some family ∨ k.listener? name = some family
  | .drop name => k.handle? name = some family
  | .dropListener name => k.listener? name = some family
  | .raise name => k.handle? name = some family
  | .wait name => k.listener? name = some family

end Kinship

/-- Who belongs to which family after some acts. -/
def kinship (acts : List Act) : Kinship := acts.foldl Kinship.after {}

theorem kinship_concat (acts : List Act) (act : Act) :
    kinship (acts ++ [act]) = (kinship acts).after act := by
  rw [kinship, List.foldl_append]
  rfl

/-- The signal of a family was raised through one of its handles. -/
def RaisedIn (acts : List Act) (family : Nat) : Prop :=
  ∃ before name rest, acts = before ++ .raise name :: rest ∧
    (kinship before).handle? name = some family

/-- No handle of a family is left. -/
def GoneIn (acts : List Act) (family : Nat) : Prop :=
  ∀ name, (kinship acts).handle? name ≠ some family

theorem raisedIn_concat {acts : List Act} {act : Act} {family : Nat} :
    RaisedIn (acts ++ [act]) family ↔ RaisedIn acts family ∨
      ∃ name, act = .raise name ∧ (kinship acts).handle? name = some family := by
  constructor
  · rintro ⟨before, name, rest, hacts, hname⟩
    -- The signal was raised by the last act, or by one that the shorter history has as well.
    rcases List.eq_nil_or_concat rest with rfl | ⟨rest, last, rfl⟩
    · obtain ⟨rfl, hlast⟩ := List.append_inj' hacts rfl
      exact .inr ⟨name, (List.cons.inj hlast).1, hname⟩
    · rw [List.concat_eq_append, ← List.cons_append, ← List.append_assoc] at hacts
      obtain ⟨rfl, -⟩ := List.append_inj' hacts rfl
      exact .inl ⟨before, name, rest, rfl, hname⟩
  · rintro (⟨before, name, rest, rfl, hname⟩ | ⟨name, rfl, hname⟩)
    · exact ⟨before, name, rest ++ [act], by simp, hname⟩
    · exact ⟨acts, name, [], rfl, hname⟩

theorem raisedIn_append {acts : List Act} {family : Nat} (h : RaisedIn acts family)
    (more : List Act) : RaisedIn (acts ++ more) family := by
  obtain ⟨before, name, rest, rfl, hname⟩ := h
  exact ⟨before, name, rest ++ more, by simp, hname⟩

namespace Registry

/-- A registry keeps what its history says. -/
structure Follows (r : Registry) (acts : List Act) : Prop where
  families : r.signals.length = (kinship acts).families
  handle : r.handle? = (kinship acts).handle?
  watched : r.watched? = (kinship acts).listener?
  raised : ∀ family, (r.signalAt family).raised = true ↔ RaisedIn acts family

theorem follows_empty : Follows {} [] where
  families := rfl
  handle := rfl
  watched := rfl
  raised family := by
    refine ⟨fun h => absurd h (by simp [signalAt, fresh]), ?_⟩
    rintro ⟨before, name, rest, hacts, -⟩
    exact absurd hacts (by simp)

variable {r : Registry} {acts : List Act} {act : Act}

/-- No signal is raised by an act. -/
def Quiet (acts : List Act) (act : Act) : Prop :=
  ∀ name, act = .raise name → (kinship acts).handle? name = none

/-- What has to be shown of an act that raises nothing. -/
theorem Follows.concat (h : r.Follows acts) (hquiet : Quiet acts act) {next : Registry}
    (hfamilies : next.signals.length = ((kinship acts).after act).families)
    (hhandle : next.handle? = ((kinship acts).after act).handle?)
    (hwatched : next.watched? = ((kinship acts).after act).listener?)
    (hraised : ∀ family, (next.signalAt family).raised = (r.signalAt family).raised) :
    next.Follows (acts ++ [act]) where
  families := by rw [kinship_concat, hfamilies]
  handle := by rw [kinship_concat, hhandle]
  watched := by rw [kinship_concat, hwatched]
  raised family := by
    rw [hraised, h.raised, raisedIn_concat]
    refine ⟨.inl, fun hor => hor.resolve_right fun ⟨name, hname, hfamily⟩ => ?_⟩
    rw [hquiet name hname] at hfamily
    cases hfamily

/-- An act that changes nobody's family is no event for anyone. -/
theorem Follows.unchanged (h : r.Follows acts) (hquiet : Quiet acts act)
    (hsame : (kinship acts).after act = kinship acts) : r.Follows (acts ++ [act]) :=
  h.concat hquiet (by rw [hsame, h.families]) (by rw [hsame, h.handle])
    (by rw [hsame, h.watched]) fun _ => rfl

/-- A name for a handle of a family is noted, whatever else happens to handles. -/
theorem Follows.bindHandle (h : r.Follows acts) (hquiet : Quiet acts act) {base : Registry}
    {inHand : Option Nat} (hbase : base.Sound inHand) {name : String} {family : Nat}
    (hfamilies : base.signals.length = ((kinship acts).after act).families)
    (hhandle : Function.update base.handle? name (some family) = ((kinship acts).after act).handle?)
    (hwatched : base.watched? = ((kinship acts).after act).listener?)
    (hraised : ∀ family, (base.signalAt family).raised = (r.signalAt family).raised) :
    (base.bindHandle name family).Follows (acts ++ [act]) :=
  h.concat hquiet (by rw [length_bindHandle, hfamilies])
    (by rw [handle?_bindHandle hbase.handles, hhandle]) (by rw [watched?_bindHandle, hwatched])
    fun other => by rw [raised_bindHandle, hraised]

/-- A name for a listener of a family is noted. -/
theorem Follows.bindListener (hs : r.Sound none) (h : r.Follows acts) (hquiet : Quiet acts act)
    {name : String} {listener : Listener}
    (hafter : (kinship acts).after act =
      (kinship acts).setListener name (some listener.place)) :
    (r.bindListener name listener).Follows (acts ++ [act]) := by
  refine h.concat hquiet ?_ ?_ ?_ fun _ => rfl
  · rw [hafter]
    exact h.families
  · rw [hafter]
    exact h.handle
  · rw [hafter, watched?_bindListener hs.listeners, h.watched]
    rfl

/-- What an act does is what its history says. -/
theorem Follows.perform (hs : r.Sound none) (h : r.Follows acts) (act : Act) :
    (r.perform act).1.Follows (acts ++ [act]) := by
  have hhandle (name : String) : (kinship acts).handle? name = r.handle? name := by rw [h.handle]
  have hlistener (name : String) : (kinship acts).listener? name = r.watched? name := by
    rw [h.watched]
  cases act with
  | create name =>
    refine h.bindHandle (by simp [Quiet]) hs.grow ?_ ?_ h.watched fun family => ?_
    · rw [length_grow, h.families]
      rfl
    · change Function.update r.handle? name _ = Function.update (kinship acts).handle? name _
      rw [h.handle, h.families]
    · rw [signalAt_grow]
  | clone name source =>
    rw [Registry.perform]
    split
    · next hnone => exact h.unchanged (by simp [Quiet]) (by rw [Kinship.after, hhandle, hnone])
    · next family hfamily =>
      have hafter : (kinship acts).after (.clone name source) =
          (kinship acts).setHandle name (some family) := by
        rw [Kinship.after, hhandle, hfamily]
      refine h.bindHandle (by simp [Quiet]) (hs.addHandle (hs.handle_lt source family hfamily))
        ?_ ?_ ?_ fun other => raised_update (fun _ => by rfl) _ _
      · rw [hafter, length_update, h.families]
        rfl
      · rw [hafter, Kinship.setHandle, ← h.handle]
        rfl
      · rw [hafter]
        exact h.watched
  | listen name source =>
    rw [Registry.perform]
    split
    · next hnone => exact h.unchanged (by simp [Quiet]) (by rw [Kinship.after, hhandle, hnone])
    · next family hfamily =>
      exact h.bindListener hs (by simp [Quiet]) (by rw [Kinship.after, hhandle, hfamily]; rfl)
  | cloneListener name source =>
    rw [Registry.perform]
    split
    · next hnone =>
      have : r.watched? source = none := by rw [watched?, hnone, Option.map_none]
      exact h.unchanged (by simp [Quiet]) (by rw [Kinship.after, hlistener, this])
    · next listener hsource =>
      exact h.bindListener hs (by simp [Quiet])
        (by rw [Kinship.after, hlistener, watched?_eq hsource])
  | drop name =>
    refine h.concat (by simp [Quiet]) ?_ ?_ ?_ fun family => raised_dropHandle name family
    · exact (length_dropHandle name).trans h.families
    · rw [Registry.perform, handle?_dropHandle, h.handle]
      rfl
    · exact (watched?_dropHandle name).trans h.watched
  | dropListener name =>
    refine h.concat (by simp [Quiet]) h.families h.handle ?_ fun _ => rfl
    rw [Registry.perform, watched?_dropListener, h.watched]
    rfl
  | raise name =>
    rw [Registry.perform]
    split
    · next hnone =>
      exact h.unchanged (by simp [Quiet, hhandle, hnone]) rfl
    · next place hplace =>
      refine ⟨?_, ?_, ?_, fun family => ?_⟩
      · rw [kinship_concat, length_update, h.families]
        rfl
      · rw [kinship_concat]
        exact h.handle
      · rw [kinship_concat]
        exact h.watched
      · have hlt := hs.handle_lt name place hplace
        rw [raisedIn_concat, ← h.raised, signalAt_update]
        simp only [Act.raise.injEq, exists_eq_left', hhandle, hplace, Option.some.injEq]
        split
        · next hsame => simp [hsame.1]
        · next hother =>
          have : place ≠ family := fun heq => hother ⟨heq.symm, heq ▸ hlt⟩
          simp [this]
  | wait name =>
    rw [Registry.perform]
    split
    · next hnone => exact h.unchanged (by simp [Quiet]) rfl
    · next listener hname =>
      refine h.bindListener hs (by simp [Quiet]) ?_
      have hsame : (kinship acts).listener? name = some listener.place := by
        rw [hlistener, watched?_eq hname]
      rw [Kinship.after, Kinship.setListener, looked, ← hsame, Function.update_eq_self]

theorem follows_after (acts : List Act) : (after acts).Follows acts := by
  induction acts using List.reverseRecOn with
  | nil => exact follows_empty
  | append_singleton acts act ih =>
    rw [after_concat]
    exact ih.perform (sound_after acts) act

end Registry

/-! ## What is seen -/

/-- A family has to stop: it was told so, or nobody is left who could tell. -/
def StoppedIn (acts : List Act) (family : Nat) : Prop := RaisedIn acts family ∨ GoneIn acts family

namespace Registry

variable {r : Registry} {acts : List Act}

theorem find?_listenerViews (name : String) :
    Ordered.find? name r.listenerViews = (r.watched? name).map fun place =>
      (r.signalAt place).raised || (r.signalAt place).abandoned := by
  have hviews : r.listenerViews = r.listeners.map fun entry =>
      (entry.1, (r.signalAt entry.2.place).raised || (r.signalAt entry.2.place).abandoned) :=
    List.map_congr_left fun entry _ => Prod.ext rfl (stops_eq _ _)
  rw [hviews, Ordered.find?_map (fun listener : Listener =>
    (r.signalAt listener.place).raised || (r.signalAt listener.place).abandoned),
    watched?, Option.map_map, listener?]
  rfl

theorem find?_handleViews (name : String) :
    Ordered.find? name r.handleViews =
      (r.handle? name).map fun place => (r.signalAt place).raised :=
  Ordered.find?_map (fun place => (r.signalAt place).raised) name r.handles

/-- A listener sees that it has to stop when its family has to, and nothing else. -/
theorem mem_listenerViews {name : String} {b : Bool} :
    (name, b) ∈ (after acts).listenerViews ↔
      ∃ family, (kinship acts).listener? name = some family ∧
        (b = true ↔ StoppedIn acts family) := by
  have hs := sound_after acts
  have h := follows_after acts
  have hviews : Ascending textBefore (after acts).listenerViews := List.pairwise_map.2 hs.listeners
  rw [hviews.mem_iff_find? strict_textBefore, find?_listenerViews, Option.map_eq_some_iff,
    ← h.watched]
  refine exists_congr fun family => and_congr_right fun hfamily => ?_
  have hstops : ((after acts).signalAt family).raised = true ∨
      ((after acts).signalAt family).abandoned = true ↔ StoppedIn acts family := by
    rw [h.raised, hs.abandoned_iff (hs.watched_lt name family hfamily), h.handle]
    rfl
  rw [← hstops, ← Bool.or_eq_true, ← Bool.eq_iff_iff, eq_comm]

theorem mem_handleViews {name : String} {b : Bool} :
    (name, b) ∈ (after acts).handleViews ↔
      ∃ family, (kinship acts).handle? name = some family ∧
        (b = true ↔ RaisedIn acts family) := by
  have hs := sound_after acts
  have h := follows_after acts
  have hviews : Ascending textBefore (after acts).handleViews := List.pairwise_map.2 hs.handles
  rw [hviews.mem_iff_find? strict_textBefore, find?_handleViews, Option.map_eq_some_iff, ← h.handle]
  refine exists_congr fun family => and_congr_right fun _ => ?_
  rw [← h.raised, ← Bool.eq_iff_iff, eq_comm]

end Registry

/-! ## What acts leave alone -/

namespace Kinship

variable {k : Kinship} {act : Act} {family : Nat}

theorem families_le_after (k : Kinship) (act : Act) : k.families ≤ (k.after act).families := by
  cases act <;> grind [after]

/-- Names come and go in the families that have a part in an act, and in no other. -/
theorem handle?_after_of_not_touched (h : ¬ k.Touched family act) (hfamily : family < k.families)
    (name : String) : (k.after act).handle? name = some family ↔ k.handle? name = some family := by
  cases act <;> grind [after, Touched]

theorem listener?_after_of_not_touched (h : ¬ k.Touched family act) (name : String) :
    (k.after act).listener? name = some family ↔ k.listener? name = some family := by
  cases act <;> grind [after, Touched]

/-- A family that was there before gets new handles from those it has. -/
theorem handle?_after (hfamily : family < k.families) {name : String}
    (h : (k.after act).handle? name = some family) : ∃ source, k.handle? source = some family := by
  cases act <;> grind [after]

end Kinship

/-- No handle comes back to a family that has none. -/
theorem goneIn_append {acts : List Act} {family : Nat} (hfamily : family < (kinship acts).families)
    (h : GoneIn acts family) (more : List Act) : GoneIn (acts ++ more) family := by
  suffices hboth : family < (kinship (acts ++ more)).families ∧ GoneIn (acts ++ more) family from
    hboth.2
  induction more using List.reverseRecOn with
  | nil =>
    rw [List.append_nil]
    exact ⟨hfamily, h⟩
  | append_singleton more act ih =>
    obtain ⟨hlt, hgone⟩ := ih
    rw [← List.append_assoc]
    generalize acts ++ more = acts at hlt hgone ⊢
    unfold GoneIn at hgone ⊢
    rw [kinship_concat]
    refine ⟨Nat.lt_of_lt_of_le hlt (Kinship.families_le_after _ act), fun name hname => ?_⟩
    obtain ⟨source, hsource⟩ := Kinship.handle?_after hlt hname
    exact hgone source hsource

/-- What has to be told stays told. -/
theorem stoppedIn_append {acts : List Act} {family : Nat}
    (hfamily : family < (kinship acts).families) (h : StoppedIn acts family) (more : List Act) :
    StoppedIn (acts ++ more) family :=
  h.imp (raisedIn_append · more) (goneIn_append hfamily · more)

theorem raisedIn_concat_of_not_touched {acts : List Act} {act : Act} {family : Nat}
    (h : ¬ (kinship acts).Touched family act) :
    RaisedIn (acts ++ [act]) family ↔ RaisedIn acts family := by
  rw [raisedIn_concat]
  refine or_iff_left ?_
  rintro ⟨name, rfl, hname⟩
  exact h hname

theorem stoppedIn_concat_of_not_touched {acts : List Act} {act : Act} {family : Nat}
    (hfamily : family < (kinship acts).families) (h : ¬ (kinship acts).Touched family act) :
    StoppedIn (acts ++ [act]) family ↔ StoppedIn acts family := by
  refine or_congr (raisedIn_concat_of_not_touched h) (forall_congr' fun name => not_congr ?_)
  rw [kinship_concat]
  exact Kinship.handle?_after_of_not_touched h hfamily name

namespace Registry

variable {acts : List Act}

theorem handle_lt_families {name : String} {family : Nat}
    (h : (kinship acts).handle? name = some family) : family < (kinship acts).families := by
  have hfollows := follows_after acts
  rw [← hfollows.families]
  exact (sound_after acts).handle_lt name family (by rw [hfollows.handle, h])

theorem listener_lt_families {name : String} {family : Nat}
    (h : (kinship acts).listener? name = some family) : family < (kinship acts).families := by
  have hfollows := follows_after acts
  rw [← hfollows.families]
  exact (sound_after acts).watched_lt name family (by rw [hfollows.watched, h])

theorem mem_listenerViews_of {name : String} {family : Nat}
    (h : (kinship acts).listener? name = some family) {b : Bool} :
    (name, b) ∈ (after acts).listenerViews ↔ (b = true ↔ StoppedIn acts family) := by
  rw [mem_listenerViews, h]
  simp only [Option.some.injEq, exists_eq_left']

theorem mem_handleViews_of {name : String} {family : Nat}
    (h : (kinship acts).handle? name = some family) {b : Bool} :
    (name, b) ∈ (after acts).handleViews ↔ (b = true ↔ RaisedIn acts family) := by
  rw [mem_handleViews, h]
  simp only [Option.some.injEq, exists_eq_left']

/-- A look of a listener changes nothing that anyone sees. -/
theorem views_wait {r : Registry} (hs : r.Sound none) (name : String) :
    (r.perform (.wait name)).1.listenerViews = r.listenerViews ∧
      (r.perform (.wait name)).1.handleViews = r.handleViews := by
  rw [Registry.perform]
  split
  · exact ⟨rfl, rfl⟩
  · next listener hname =>
    have hwatched : (r.bindListener name (r.looked listener.place)).watched? = r.watched? := by
      rw [watched?_bindListener hs.listeners, looked, ← watched?_eq hname,
        Function.update_eq_self]
    have hlooked := Ordered.ascending_insert strict_textBefore hs.listeners name
      (r.looked listener.place)
    refine ⟨Ascending.eq_of_find? strict_textBefore (List.pairwise_map.2 hlooked)
      (List.pairwise_map.2 hs.listeners) fun other => ?_, rfl⟩
    refine (find?_listenerViews other).trans ?_
    rw [hwatched, find?_listenerViews]
    rfl

/-- The first look of a wait finds what the listener sees. -/
theorem answer_wait {r : Registry} (hs : r.Sound none) {name : String} {b : Bool}
    (h : (name, b) ∈ r.listenerViews) :
    ∃ log, (r.perform (.wait name)).2 = .waited b log := by
  obtain ⟨⟨_, listener⟩, hentry, hview⟩ := List.mem_map.1 h
  obtain ⟨rfl, rfl⟩ := Prod.mk.inj hview
  have hname : r.listener? _ = some listener :=
    (hs.listeners.mem_iff_find? strict_textBefore).1 hentry
  rw [Registry.perform, hname]
  exact ⟨_, congrArg (Answer.waited · _) (ready_poll _ listener.seen)⟩

/-- What listeners and handles see after any history of acts.  A listener has to stop exactly when
its family was told to, or lost its last handle; a handle sees exactly that its family was told to.
Both stay so for every listener and handle that the family has or gets.  An act in which a family
has no part changes nothing that is seen of it.  A wait is over at its first look exactly when the
listener has to stop, and everything is seen as before after that look. -/
theorem views_follow_history (acts : List Act) :
    (∀ name b, (name, b) ∈ (after acts).listenerViews ↔
      ∃ family, (kinship acts).listener? name = some family ∧
        (b = true ↔ RaisedIn acts family ∨ GoneIn acts family)) ∧
    (∀ name b, (name, b) ∈ (after acts).handleViews ↔
      ∃ family, (kinship acts).handle? name = some family ∧
        (b = true ↔ RaisedIn acts family)) ∧
    (∀ name family, (kinship acts).listener? name = some family →
      (name, true) ∈ (after acts).listenerViews → ∀ more other,
        (kinship (acts ++ more)).listener? other = some family →
          (other, true) ∈ (after (acts ++ more)).listenerViews) ∧
    (∀ name family, (kinship acts).handle? name = some family →
      (name, true) ∈ (after acts).handleViews → ∀ more other,
        ((kinship (acts ++ more)).handle? other = some family →
          (other, true) ∈ (after (acts ++ more)).handleViews) ∧
        ((kinship (acts ++ more)).listener? other = some family →
          (other, true) ∈ (after (acts ++ more)).listenerViews)) ∧
    (∀ act family, ¬ (kinship acts).Touched family act → ∀ name b,
      ((kinship acts).listener? name = some family →
        ((name, b) ∈ (after (acts ++ [act])).listenerViews ↔
          (name, b) ∈ (after acts).listenerViews)) ∧
      ((kinship acts).handle? name = some family →
        ((name, b) ∈ (after (acts ++ [act])).handleViews ↔
          (name, b) ∈ (after acts).handleViews))) ∧
    (∀ name b, (name, b) ∈ (after acts).listenerViews →
      (∃ log, ((after acts).perform (.wait name)).2 = .waited b log) ∧
      ((after acts).perform (.wait name)).1.listenerViews = (after acts).listenerViews ∧
      ((after acts).perform (.wait name)).1.handleViews = (after acts).handleViews) := by
  refine ⟨fun name b => mem_listenerViews, fun name b => mem_handleViews,
    fun name family hname hview more other hother => ?_,
    fun name family hname hview more other => ⟨fun hother => ?_, fun hother => ?_⟩,
    fun act family hact name b => ⟨fun hname => ?_, fun hname => ?_⟩,
    fun name b hview => ⟨answer_wait (sound_after acts) hview, views_wait (sound_after acts) name⟩⟩
  · have hstopped := ((mem_listenerViews_of hname).1 hview).1 rfl
    have hstays := stoppedIn_append (listener_lt_families hname) hstopped more
    exact (mem_listenerViews_of hother).2 (iff_of_true rfl hstays)
  · have hraised := ((mem_handleViews_of hname).1 hview).1 rfl
    exact (mem_handleViews_of hother).2 (iff_of_true rfl (raisedIn_append hraised more))
  · have hraised := ((mem_handleViews_of hname).1 hview).1 rfl
    exact (mem_listenerViews_of hother).2 (iff_of_true rfl (.inl (raisedIn_append hraised more)))
  · have hafter : (kinship (acts ++ [act])).listener? name = some family := by
      rw [kinship_concat]
      exact (Kinship.listener?_after_of_not_touched hact name).2 hname
    rw [mem_listenerViews_of hafter, mem_listenerViews_of hname,
      stoppedIn_concat_of_not_touched (listener_lt_families hname) hact]
  · have hafter : (kinship (acts ++ [act])).handle? name = some family := by
      rw [kinship_concat]
      exact (Kinship.handle?_after_of_not_touched hact (handle_lt_families hname) name).2 hname
    rw [mem_handleViews_of hafter, mem_handleViews_of hname, raisedIn_concat_of_not_touched hact]

/-- Two families.  The first one is told to stop through a clone, and the listener that it gets
afterwards has to stop as well; the second one loses its only handle. -/
theorem views_follow_history_families :
    let acts : List Act := [.create "a", .clone "b" "a", .listen "c" "a", .create "d",
      .listen "e" "d", .raise "b"]
    let more : List Act := [.drop "a", .cloneListener "f" "c", .listen "g" "b", .drop "d"]
    ("c", true) ∈ (after acts).listenerViews ∧ ("e", false) ∈ (after acts).listenerViews ∧
      ("g", true) ∈ (after (acts ++ more)).listenerViews ∧
      ("e", true) ∈ (after (acts ++ more)).listenerViews ∧
      ∃ log, ((after acts).perform (.wait "c")).2 = .waited true log := by
  intro acts more
  have hseen : ("c", true) ∈ (after acts).listenerViews := by decide
  have hall := views_follow_history acts
  have hlater := hall.2.2.1 "c" 0 rfl hseen more
  exact ⟨hseen, by decide, hlater "g" rfl, by decide, (hall.2.2.2.2.2 "c" true hseen).1⟩

end Registry
end Signal
end LoadRamp
