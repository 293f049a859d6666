import LoadRamp.Ledger
import Mathlib.Algebra.Ring.Nat

/-!
# Tables in ascending order

What `Ordered.alter` does to a table whose keys ascend:

* the keys ascend still, and there is at most one more of them;
* the value at the altered key is changed and every other value is as it was.

A table that is made from a list of entries (`Ordered.gather`) therefore has, at
each key, what the values of the entries at that key add up to
(`find?_gathered`).  The keys of checks and the texts are ordered strictly
(`strict_before`, `strict_textBefore`), so this holds of both tables of a ledger.
The last part counts the outcomes that a table of checks was made from.
-/

namespace LoadRamp
namespace Ordered

/-- A comparison that puts two different keys in one order and never in both. -/
structure Strict {κ : Type} (before : κ → κ → Bool) : Prop where
  irrefl : ∀ a, before a a = false
  trans : ∀ a b c, before a b = true → before b c = true → before a c = true
  total : ∀ a b, before a b = false → before b a = false → a = b

theorem strict_textBefore : Strict textBefore where
  irrefl a := by simp [textBefore]
  trans a b c hab hbc := by
    simp only [textBefore, decide_eq_true_eq] at hab hbc ⊢
    exact String.lt_trans hab hbc
  total a b hab hba := by
    simp only [textBefore, decide_eq_false_iff_not] at hab hba
    exact String.le_antisymm hba hab

/-- Whether the keys of a table ascend. -/
def Ascending {κ α : Type} (before : κ → κ → Bool) (table : List (κ × α)) : Prop :=
  table.Pairwise fun a b => before a.1 b.1 = true

section Alter

variable {κ α : Type} {before : κ → κ → Bool} {key : κ} {change : Option α → α}

theorem mem_keys_alter (hstrict : Strict before) {table : List (κ × α)} {k : κ} :
    k ∈ (alter before key change table).map Prod.fst ↔ k = key ∨ k ∈ table.map Prod.fst := by
  induction table with
  | nil => simp [alter]
  | cons entry rest ih =>
    obtain ⟨k', a⟩ := entry
    unfold alter
    split
    · simp
    · next hfirst =>
      split
      · simp only [List.map_cons, List.mem_cons, ih]
        exact or_left_comm
      · next hlater =>
        -- Neither key comes first, so they are one key.
        obtain rfl := hstrict.total key k' (by simpa using hfirst) (by simpa using hlater)
        simp

theorem ascending_alter (hstrict : Strict before) {table : List (κ × α)}
    (h : Ascending before table) : Ascending before (alter before key change table) := by
  induction table with
  | nil => exact List.pairwise_singleton _ _
  | cons entry rest ih =>
    obtain ⟨k, a⟩ := entry
    obtain ⟨hhead, hrest⟩ := List.pairwise_cons.1 h
    unfold alter
    split
    · next hfirst =>
      refine List.pairwise_cons.2 ⟨?_, h⟩
      intro other hother
      rcases List.mem_cons.1 hother with rfl | hother
      · exact hfirst
      · exact hstrict.trans _ _ _ hfirst (hhead other hother)
    · next hfirst =>
      split
      · next hlater =>
        refine List.pairwise_cons.2 ⟨?_, ih hrest⟩
        intro other hother
        have hkey := (mem_keys_alter hstrict).1 (List.mem_map_of_mem (f := Prod.fst) hother)
        rcases hkey with hsame | hmem
        · rw [hsame]
          exact hlater
        · obtain ⟨old, hold, hsame⟩ := List.mem_map.1 hmem
          rw [← hsame]
          exact hhead old hold
      · exact List.pairwise_cons.2 ⟨hhead, hrest⟩

theorem Ascending.nodup_keys (hstrict : Strict before) {table : List (κ × α)}
    (h : Ascending before table) : (table.map Prod.fst).Nodup := by
  rw [List.Nodup, List.pairwise_map]
  refine List.Pairwise.imp ?_ h
  intro a b hab hsame
  rw [hsame, hstrict.irrefl] at hab
  cases hab

/-- Tables in ascending order are equal when they have the same entries. -/
theorem Ascending.eq_of_perm (hstrict : Strict before) {s t : List (κ × α)}
    (hs : Ascending before s) (ht : Ascending before t) (hperm : s.Perm t) : s = t := by
  refine hperm.eq_of_pairwise ?_ hs ht
  intro a b _ _ hab hba
  -- No entry comes both before and after another one.
  have hself := hstrict.trans _ _ _ hab hba
  rw [hstrict.irrefl] at hself
  cases hself

variable [DecidableEq κ]

theorem find?_cons (k : κ) (entry : κ × α) (rest : List (κ × α)) :
    find? k (entry :: rest) = if entry.1 = k then some entry.2 else find? k rest := by
  unfold find?
  rw [List.find?_cons]
  by_cases hkey : entry.1 = k <;> simp [hkey]

theorem find?_eq_none {k : κ} {table : List (κ × α)} :
    find? k table = none ↔ k ∉ table.map Prod.fst := by
  simp only [find?, Option.map_eq_none_iff, List.find?_eq_none, decide_eq_true_eq, List.mem_map,
    not_exists, not_and]

/-- When no two entries have one key, an entry is the one that is found at its key. -/
theorem mem_iff_find? {entries : List (κ × α)} (h : (entries.map Prod.fst).Nodup) {k : κ} {a : α} :
    (k, a) ∈ entries ↔ find? k entries = some a := by
  induction entries with
  | nil => simp [find?]
  | cons entry rest ih =>
    obtain ⟨k', a'⟩ := entry
    obtain ⟨hnew, hrest⟩ := List.nodup_cons.1 h
    rw [find?_cons, List.mem_cons, ih hrest]
    by_cases hkey : k' = k
    · subst hkey
      simp [find?_eq_none.2 hnew, eq_comm]
    · simp [hkey, Ne.symm hkey]

/-- So it is in an ascending table. -/
theorem Ascending.mem_iff_find? (hstrict : Strict before) {table : List (κ × α)}
    (h : Ascending before table) {k : κ} {a : α} : (k, a) ∈ table ↔ find? k table = some a :=
  Ordered.mem_iff_find? (h.nodup_keys hstrict)

/-- The value at the altered key is changed, and every other value is as it was. -/
theorem find?_alter (hstrict : Strict before) {table : List (κ × α)}
    (h : Ascending before table) (k : κ) :
    find? k (alter before key change table) =
      if key = k then some (change (find? key table)) else find? k table := by
  induction table with
  | nil =>
    unfold alter
    rw [find?_cons]
    rfl
  | cons entry rest ih =>
    obtain ⟨k', a⟩ := entry
    obtain ⟨hhead, hrest⟩ := List.pairwise_cons.1 h
    unfold alter
    split
    · next hfirst =>
      -- All keys of the table come after the new one, so it was absent.
      have habsent : find? key ((k', a) :: rest) = none := by
        rw [find?_eq_none]
        intro hmem
        obtain ⟨other, hother, hsame⟩ := List.mem_map.1 hmem
        have hbefore : before key other.1 = true := by
          rcases List.mem_cons.1 hother with rfl | hother
          · exact hfirst
          · exact hstrict.trans _ _ _ hfirst (hhead other hother)
        rw [hsame, hstrict.irrefl] at hbefore
        cases hbefore
      rw [find?_cons, habsent]
    · next hfirst =>
      split
      · next hlater =>
        have hother : k' ≠ key := by
          rintro rfl
          rw [hstrict.irrefl] at hlater
          cases hlater
        rw [find?_cons, ih hrest, find?_cons, find?_cons, if_neg hother]
        by_cases hkey : key = k
        · subst hkey
          simp [hother]
        · simp [hkey]
      · next hlater =>
        obtain rfl := hstrict.total key k' (by simpa using hfirst) (by simpa using hlater)
        rw [find?_cons, find?_cons, find?_cons, if_pos rfl]
        by_cases hkey : key = k <;> simp [hkey]

/-- Tables in ascending order are equal when the same is found in them at every key. -/
theorem Ascending.eq_of_find? (hstrict : Strict before) {s t : List (κ × α)}
    (hs : Ascending before s) (ht : Ascending before t)
    (hfind : ∀ k, find? k s = find? k t) : s = t := by
  have hmem : ∀ entry, entry ∈ s ↔ entry ∈ t := by
    intro entry
    rw [hs.mem_iff_find? hstrict, ht.mem_iff_find? hstrict, hfind]
  have hnodup {table : List (κ × α)} (h : Ascending before table) : table.Nodup := by
    refine h.imp ?_
    rintro a b hab rfl
    rw [hstrict.irrefl] at hab
    cases hab
  exact hs.eq_of_perm hstrict ht
    ((List.perm_ext_iff_of_nodup (hnodup hs) (hnodup ht)).2 hmem)

end Alter

section Insert

variable {κ α : Type} {before : κ → κ → Bool}

/-- A new key is put somewhere into the table. -/
theorem insert_perm (hstrict : Strict before) {key : κ} (value : α) {table : List (κ × α)}
    (hnew : key ∉ table.map Prod.fst) :
    (insert before key value table).Perm ((key, value) :: table) := by
  unfold insert
  induction table with
  | nil => exact .refl _
  | cons entry rest ih =>
    obtain ⟨k, a⟩ := entry
    simp only [List.map_cons, List.mem_cons, not_or] at hnew
    unfold alter
    split
    · exact .refl _
    · next hfirst =>
      split
      · exact ((ih hnew.2).cons _).trans (.swap _ _ _)
      · next hlater =>
        exact absurd (hstrict.total key k (by simpa using hfirst) (by simpa using hlater)) hnew.1

theorem ascending_insert (hstrict : Strict before) {table : List (κ × α)}
    (h : Ascending before table) (key : κ) (value : α) :
    Ascending before (insert before key value table) := ascending_alter hstrict h

/-- The table of some pairs with different keys does not depend on their order. -/
theorem ofList_eq_of_perm (hstrict : Strict before) {pairs table : List (κ × α)}
    (h : Ascending before table) (hperm : pairs.Perm table) : ofList before pairs = table := by
  have hall (pairs start : List (κ × α)) (hstart : Ascending before start)
      (hnodup : ((pairs ++ start).map Prod.fst).Nodup) :
      Ascending before (pairs.foldl (fun t pair => insert before pair.1 pair.2 t) start) ∧
        (pairs.foldl (fun t pair => insert before pair.1 pair.2 t) start).Perm
          (pairs ++ start) := by
    induction pairs generalizing start with
    | nil => exact ⟨hstart, .refl _⟩
    | cons pair pairs ih =>
      rw [List.cons_append, List.map_cons, List.nodup_cons] at hnodup
      have hnew : pair.1 ∉ start.map Prod.fst := fun hmem =>
        hnodup.1 (by rw [List.map_append]; exact List.mem_append_right _ hmem)
      have hput := (insert_perm hstrict pair.2 hnew).append_left pairs
      have hmoved : (pairs ++ insert before pair.1 pair.2 start).Perm (pair :: (pairs ++ start)) :=
        hput.trans List.perm_middle
      obtain ⟨hascending, hrest⟩ := ih (insert before pair.1 pair.2 start)
        (ascending_insert hstrict hstart _ _)
        ((hmoved.map Prod.fst).nodup_iff.2 (List.nodup_cons.2 hnodup))
      exact ⟨hascending, hrest.trans hmoved⟩
  have hkeys : ((pairs ++ []).map Prod.fst).Nodup := by
    rw [List.append_nil]
    exact (hperm.map Prod.fst).nodup_iff.2 (h.nodup_keys hstrict)
  obtain ⟨hascending, hsame⟩ := hall pairs [] .nil hkeys
  rw [List.append_nil] at hsame
  exact hascending.eq_of_perm hstrict h (hsame.trans hperm)

end Insert

section Remove

variable {κ α : Type} [DecidableEq κ] {before : κ → κ → Bool} {key : κ} {table : List (κ × α)}

theorem Ascending.remove (h : Ascending before table) : Ascending before (remove key table) :=
  h.filter _

theorem not_mem_keys_remove : key ∉ (remove key table).map Prod.fst := by
  simp [Ordered.remove]

theorem find?_remove (k : κ) :
    find? k (remove key table) = if k = key then none else find? k table := by
  induction table with
  | nil => simp [Ordered.remove, find?]
  | cons entry rest ih =>
    rw [Ordered.remove] at ih ⊢
    rw [List.filter_cons, find?_cons]
    split
    · next hother =>
      rw [find?_cons, ih]
      grind
    · next hsame =>
      rw [ih]
      grind

theorem remove_of_not_mem (h : key ∉ table.map Prod.fst) : remove key table = table := by
  refine List.filter_eq_self.2 fun entry hentry => decide_eq_true fun hkey => ?_
  exact h (hkey ▸ List.mem_map_of_mem hentry)

/-- What is found at a key is the only entry that goes with it. -/
theorem perm_of_find? (hnodup : (table.map Prod.fst).Nodup) {a : α}
    (hfind : find? key table = some a) : table.Perm ((key, a) :: remove key table) := by
  induction table with
  | nil => cases hfind
  | cons entry rest ih =>
    rw [List.map_cons, List.nodup_cons] at hnodup
    rw [find?_cons] at hfind
    split at hfind
    · next hkey =>
      obtain rfl := hkey
      have hrest := remove_of_not_mem hnodup.1
      rw [Ordered.remove] at hrest ⊢
      rw [List.filter_cons_of_neg (by simp), hrest]
      exact (Option.some.inj hfind) ▸ .refl _
    · next hkey =>
      have hperm := ih hnodup.2 hfind
      rw [Ordered.remove] at hperm ⊢
      rw [List.filter_cons_of_pos (by simpa using hkey)]
      exact (hperm.cons entry).trans (.swap _ _ _)

end Remove

section Map

variable {κ α β : Type} {before : κ → κ → Bool}

theorem find?_map [DecidableEq κ] (f : α → β) (k : κ) (table : List (κ × α)) :
    find? k (table.map fun entry => (entry.1, f entry.2)) = (find? k table).map f := by
  induction table with
  | nil => rfl
  | cons entry rest ih =>
    rw [List.map_cons, find?_cons, find?_cons, ih]
    split <;> rfl

theorem Ascending.map (f : α → β) {table : List (κ × α)} (h : Ascending before table) :
    Ascending before (table.map fun entry => (entry.1, f entry.2)) :=
  List.pairwise_map.2 h

end Map

/-! ## Gathering entries -/

section Gather

variable {κ α ν : Type} {before : κ → κ → Bool} {init : α} {add : α → ν → α}

/-- The table in which an entry is added to what is at its key, or to `init` when nothing is. -/
def gather (before : κ → κ → Bool) (init : α) (add : α → ν → α) (table : List (κ × α))
    (entry : κ × ν) : List (κ × α) :=
  alter before entry.1 (fun a? => add (a?.getD init) entry.2) table

theorem ascending_gather (hstrict : Strict before) {table : List (κ × α)}
    (h : Ascending before table) (entry : κ × ν) :
    Ascending before (gather before init add table entry) := ascending_alter hstrict h

theorem ascending_foldl_gather (hstrict : Strict before) {table : List (κ × α)}
    (h : Ascending before table) (entries : List (κ × ν)) :
    Ascending before (entries.foldl (gather before init add) table) := by
  induction entries generalizing table with
  | nil => exact h
  | cons entry rest ih => exact ih (ascending_gather hstrict h entry)

/-- What each entry adds to a sum over the table, it adds whatever was at its key. -/
theorem sum_foldl_gather {f : α → Nat} {g : ν → Nat} (hinit : f init = 0)
    (hadd : ∀ a v, f (add a v) = f a + g v) (entries : List (κ × ν)) (table : List (κ × α)) :
    ((entries.foldl (gather before init add) table).map fun e => f e.2).sum =
      (table.map fun e => f e.2).sum + (entries.map fun e => g e.2).sum := by
  have hone (entry : κ × ν) (table : List (κ × α)) :
      ((gather before init add table entry).map fun e => f e.2).sum =
        (table.map fun e => f e.2).sum + g entry.2 := by
    unfold gather
    induction table with
    | nil => simp [alter, hadd, hinit]
    | cons first rest ih =>
      obtain ⟨k, a⟩ := first
      unfold alter
      split
      · simp [hadd, hinit, Nat.add_comm]
      · split
        · simp only [List.map_cons, List.sum_cons, ih]
          omega
        · simp only [List.map_cons, List.sum_cons, Option.getD_some, hadd]
          omega
  induction entries generalizing table with
  | nil => rfl
  | cons entry rest ih =>
    rw [List.foldl_cons, ih, hone, List.map_cons, List.sum_cons, Nat.add_assoc]

variable [DecidableEq κ]

/-- The values of the entries at a key, in order. -/
def valuesAt (key : κ) (entries : List (κ × ν)) : List ν :=
  (entries.filter (·.1 = key)).map Prod.snd

theorem valuesAt_eq_nil {key : κ} {entries : List (κ × ν)} :
    valuesAt key entries = [] ↔ key ∉ entries.map Prod.fst := by
  rw [valuesAt, List.map_eq_nil_iff, List.filter_eq_nil_iff]
  simp only [decide_eq_true_eq, List.mem_map, not_exists, not_and]

theorem valuesAt_append (key : κ) (earlier later : List (κ × ν)) :
    valuesAt key (earlier ++ later) = valuesAt key earlier ++ valuesAt key later := by
  rw [valuesAt, List.filter_append, List.map_append]
  rfl

theorem countP_valuesAt (p : ν → Bool) (key : κ) (entries : List (κ × ν)) :
    (valuesAt key entries).countP p = entries.countP fun e => e.1 = key && p e.2 := by
  rw [valuesAt, List.countP_map, List.countP_filter]
  exact List.countP_congr fun e _ => by simp [and_comm]

/-- Entries at other keys do not matter for a key. -/
theorem find?_foldl_gather (hstrict : Strict before) {table : List (κ × α)}
    (h : Ascending before table) (entries : List (κ × ν)) (key : κ) :
    find? key (entries.foldl (gather before init add) table) =
      (valuesAt key entries).foldl (fun a? v => some (add (a?.getD init) v))
        (find? key table) := by
  induction entries generalizing table with
  | nil => rfl
  | cons entry rest ih =>
    have hfind : find? key (gather before init add table entry) =
        if entry.1 = key then some (add ((find? entry.1 table).getD init) entry.2)
        else find? key table := find?_alter hstrict h key
    rw [List.foldl_cons, ih (ascending_gather hstrict h entry), hfind, valuesAt, valuesAt]
    by_cases hkey : entry.1 = key
    · rw [List.filter_cons_of_pos (by simpa using hkey), if_pos hkey, List.map_cons,
        List.foldl_cons, hkey]
    · rw [List.filter_cons_of_neg (by simpa using hkey), if_neg hkey]

/-- A table that is made from some entries has at each of their keys what the values there add
up to, and nothing at any other key. -/
theorem find?_gathered (hstrict : Strict before) (entries : List (κ × ν)) (key : κ) :
    find? key (entries.foldl (gather before init add) []) =
      if key ∈ entries.map Prod.fst then some ((valuesAt key entries).foldl add init)
      else none := by
  have hsome (values : List ν) (a : α) :
      values.foldl (fun a? v => some (add (a?.getD init) v)) (some a) =
        some (values.foldl add a) := by
    induction values generalizing a with
    | nil => rfl
    | cons v rest ih => exact ih (add a v)
  rw [find?_foldl_gather hstrict .nil]
  split
  · next hkey =>
    cases hvalues : valuesAt key entries with
    | nil => exact absurd hkey (valuesAt_eq_nil.1 hvalues)
    | cons v rest => exact hsome rest (add init v)
  · next hkey => rw [valuesAt_eq_nil.2 hkey]; rfl

end Gather

end Ordered

namespace CheckKey

/-- Keys are ordered strictly, since they are equal when their parts are. -/
theorem strict_before : Ordered.Strict before where
  irrefl a := by
    simp only [before, decide_eq_false_iff_not]
    exact List.lt_irrefl _
  trans a b c hab hbc := by
    simp only [before, decide_eq_true_eq] at hab hbc ⊢
    exact List.lt_trans hab hbc
  total a b hab hba := by
    simp only [before, decide_eq_false_iff_not] at hab hba
    have hparts : a.parts = b.parts := List.le_antisymm hba hab
    cases a
    cases b
    simp_all [parts]

end CheckKey

/-- The reason of an outcome that is a failure. -/
def Outcome.reason? : Outcome → Option String
  | .passed => none
  | .failed reason => some reason

namespace Ledger

open Ordered

theorem ascending_addOutcomes {table : List (CheckKey × CheckCount)}
    (h : Ascending CheckKey.before table) (outcomes : List (CheckKey × Outcome)) :
    Ascending CheckKey.before (outcomes.foldl addOutcome table) :=
  ascending_foldl_gather CheckKey.strict_before h outcomes

/-- Adding outcomes to a count counts those that passed and those that failed, and keeps the
reason of the last failure. -/
theorem foldl_add (outcomes : List Outcome) (count : CheckCount) :
    outcomes.foldl CheckCount.add count =
      ⟨count.passed + outcomes.countP Outcome.isPassed,
        count.failed + outcomes.countP (fun outcome => !outcome.isPassed),
        (outcomes.filterMap Outcome.reason?).getLast?.or count.lastFailure?⟩ := by
  induction outcomes generalizing count with
  | nil => rfl
  | cons outcome rest ih =>
    rw [List.foldl_cons, ih]
    cases outcome with
    | passed =>
      simp only [CheckCount.add, Outcome.isPassed, Outcome.reason?, List.countP_cons,
        List.filterMap_cons, Bool.not_true, Bool.false_eq_true, if_true, if_false, Nat.add_zero]
      rw [Nat.add_right_comm, Nat.add_assoc]
    | failed reason =>
      have hlast (later : List String) :
          later.getLast?.or (some reason) = (reason :: later).getLast?.or count.lastFailure? := by
        cases later with
        | nil => rfl
        | cons other later => simp [List.getLast?_cons]
      simp only [CheckCount.add, Outcome.isPassed, Outcome.reason?, List.countP_cons,
        List.filterMap_cons, Bool.not_false, Bool.false_eq_true, if_true, if_false, Nat.add_zero,
        hlast]
      rw [Nat.add_right_comm, Nat.add_assoc]

/-- What is found in the table of some outcomes: a count of the outcomes at each key among
them. -/
theorem find?_addOutcomes (outcomes : List (CheckKey × Outcome)) (key : CheckKey) :
    find? key (outcomes.foldl addOutcome []) =
      if key ∈ outcomes.map Prod.fst then
        some
          { passed := outcomes.countP fun entry => entry.1 = key && entry.2.isPassed
            failed := outcomes.countP fun entry => entry.1 = key && !entry.2.isPassed
            lastFailure? := ((valuesAt key outcomes).filterMap Outcome.reason?).getLast? }
      else none := by
  refine (find?_gathered CheckKey.strict_before outcomes key).trans ?_
  rw [foldl_add, countP_valuesAt, countP_valuesAt, Nat.zero_add, Nat.zero_add, Option.or_none]

/-- The table of some outcomes has a count for every key among them, and no other, and each
count is that of the outcomes under its key. -/
theorem find?_ofOutcomes (outcomes : List (CheckKey × Outcome)) (key : CheckKey) :
    (key ∉ outcomes.map Prod.fst → find? key (outcomes.foldl addOutcome []) = none) ∧
      (key ∈ outcomes.map Prod.fst → ∃ count : CheckCount,
        find? key (outcomes.foldl addOutcome []) = some count ∧
          count.passed = outcomes.countP (fun entry => entry.1 = key && entry.2.isPassed) ∧
          count.failed =
            outcomes.countP (fun entry => entry.1 = key && !entry.2.isPassed)) := by
  rw [find?_addOutcomes]
  exact ⟨fun habsent => if_neg habsent, fun hmem => ⟨_, if_pos hmem, rfl, rfl⟩⟩

end Ledger
end LoadRamp
