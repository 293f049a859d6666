import LoadRamp.Proofs.Table
import Mathlib.Data.List.Induction

/-!
# Tables and the entries they come from

A table in ascending order is known from what is found in it, so neither the steps
in which it was filled nor the order in which its entries are met can matter.

* `find?_insertAll`: of the values that are put at one key the last one stays.
* `arrange_eq_iff`: entries with different keys are arranged to one table exactly
  when the same is found in them at every key.
-/

namespace LoadRamp
namespace Ordered

variable {κ α : Type} {before : κ → κ → Bool}

/-! ## Entries put into a table one after the other -/

section Assign

variable [DecidableEq κ] {key : κ} {pairs : List (κ × α)}

/-- The value that the last pair with a key gives to it. -/
def last? (key : κ) (pairs : List (κ × α)) : Option α := find? key pairs.reverse

theorem last?_eq_none : last? key pairs = none ↔ ∀ pair ∈ pairs, pair.1 ≠ key := by
  rw [last?, find?_eq_none, List.map_reverse, List.mem_reverse, List.mem_map]
  constructor
  · intro h pair hpair hkey
    exact h ⟨pair, hpair, hkey⟩
  · rintro h ⟨pair, hpair, hkey⟩
    exact h pair hpair hkey

theorem last?_eq_some {value : α} : last? key pairs = some value ↔
    ∃ front back, pairs = front ++ (key, value) :: back ∧ ∀ pair ∈ back, pair.1 ≠ key := by
  simp only [last?, find?, Option.map_eq_some_iff, List.find?_eq_some_iff_append,
    decide_eq_true_eq, Bool.not_eq_true', decide_eq_false_iff_not]
  -- What comes before the pair in the reversed list comes after it in the list.
  constructor
  · rintro ⟨⟨k, v⟩, ⟨rfl, later, earlier, hsplit, hlater⟩, rfl⟩
    refine ⟨earlier.reverse, later.reverse, ?_, fun pair hpair => ?_⟩
    · rw [← pairs.reverse_reverse, hsplit, List.reverse_append, List.reverse_cons,
        List.append_assoc, List.singleton_append]
    · exact hlater pair (List.mem_reverse.1 hpair)
  · rintro ⟨front, back, rfl, hback⟩
    refine ⟨(key, value), ⟨rfl, back.reverse, front.reverse, ?_, fun pair hpair => ?_⟩, rfl⟩
    · rw [List.reverse_append, List.reverse_cons, List.append_assoc, List.singleton_append]
    · exact hback pair (List.mem_reverse.1 hpair)

/-- The table after some pairs are put into it. -/
def insertAll (before : κ → κ → Bool) (table pairs : List (κ × α)) : List (κ × α) :=
  pairs.foldl (fun t pair => insert before pair.1 pair.2 t) table

omit [DecidableEq κ] in
theorem ascending_insertAll (hstrict : Strict before) {table : List (κ × α)}
    (h : Ascending before table) (pairs : List (κ × α)) :
    Ascending before (insertAll before table pairs) := by
  induction pairs generalizing table with
  | nil => exact h
  | cons pair pairs ih => exact ih (ascending_insert hstrict h pair.1 pair.2)

/-- The last value of each key stays, and so does what is at the keys of no pair. -/
theorem find?_insertAll (hstrict : Strict before) {table : List (κ × α)}
    (h : Ascending before table) (pairs : List (κ × α)) (key : κ) :
    find? key (insertAll before table pairs) = (last? key pairs).or (find? key table) := by
  induction pairs using List.reverseRecOn with
  | nil => rfl
  | append_singleton pairs pair ih =>
    have hlast : insertAll before table (pairs ++ [pair]) =
        insert before pair.1 pair.2 (insertAll before table pairs) := List.foldl_append
    rw [hlast, insert, find?_alter hstrict (ascending_insertAll hstrict h pairs), ih, last?,
      last?, List.reverse_concat, find?_cons]
    split <;> rfl

end Assign

/-! ## Entries in any order -/

variable {entries table : List (κ × α)}

theorem arrange_perm (before : κ → κ → Bool) (entries : List (κ × α)) :
    (arrange before entries).Perm entries := List.mergeSort_perm _ _

theorem nodup_keys_arrange (h : (entries.map Prod.fst).Nodup) :
    ((arrange before entries).map Prod.fst).Nodup :=
  ((arrange_perm before entries).map Prod.fst).nodup_iff.2 h

/-- Entries with different keys become a table. -/
theorem ascending_arrange (hstrict : Strict before) (h : (entries.map Prod.fst).Nodup) :
    Ascending before (arrange before entries) := by
  have htrans : ∀ a b c : κ × α,
      (!before b.1 a.1) = true → (!before c.1 b.1) = true → (!before c.1 a.1) = true := by
    simp only [Bool.not_eq_true']
    intro a b c hab hbc
    rw [Bool.eq_false_iff]
    intro hca
    -- Either `b` comes before `c`, and so before `a`, or the two have one key.
    cases hcb : before b.1 c.1 with
    | true =>
      rw [hstrict.trans _ _ _ hcb hca] at hab
      cases hab
    | false =>
      rw [hstrict.total _ _ hcb hbc, hca] at hab
      cases hab
  have htotal : ∀ a b : κ × α, (!before b.1 a.1 || !before a.1 b.1) = true := by
    intro a b
    cases hab : before a.1 b.1 with
    | false => exact Bool.or_true _
    | true =>
      cases hba : before b.1 a.1 with
      | false => rfl
      | true =>
        have hself := hstrict.trans _ _ _ hab hba
        rw [hstrict.irrefl] at hself
        cases hself
  have hsorted := List.pairwise_mergeSort htrans htotal entries
  have hkeys : (arrange before entries).Pairwise fun a b => a.1 ≠ b.1 :=
    List.pairwise_map.1 (nodup_keys_arrange h)
  refine (hsorted.and hkeys).imp ?_
  rintro a b ⟨hnot, hne⟩
  rw [Bool.not_eq_true'] at hnot
  cases hab : before a.1 b.1 with
  | true => rfl
  | false => exact absurd (hstrict.total _ _ hab hnot) hne

/-- The entries of a table come back in its order, whatever order they are met in. -/
theorem arrange_eq_of_perm (hstrict : Strict before) (h : Ascending before table)
    (hperm : entries.Perm table) : arrange before entries = table := by
  have hkeys : (entries.map Prod.fst).Nodup :=
    (hperm.map Prod.fst).nodup_iff.2 (h.nodup_keys hstrict)
  exact (ascending_arrange hstrict hkeys).eq_of_perm hstrict h
    ((arrange_perm before entries).trans hperm)

variable [DecidableEq κ]

/-- What is found does not depend on the order of the entries. -/
theorem find?_of_perm (h : (entries.map Prod.fst).Nodup) (hperm : entries.Perm table) (k : κ) :
    find? k entries = find? k table := by
  have htable : (table.map Prod.fst).Nodup := (hperm.map Prod.fst).nodup_iff.1 h
  ext a
  rw [← mem_iff_find? h, ← mem_iff_find? htable, hperm.mem_iff]

/-- Arranged entries are the same exactly when the same is found in them. -/
theorem arrange_eq_iff (hstrict : Strict before) {s t : List (κ × α)}
    (hs : (s.map Prod.fst).Nodup) (ht : (t.map Prod.fst).Nodup) :
    arrange before s = arrange before t ↔ ∀ k, find? k s = find? k t := by
  have hfound {entries : List (κ × α)} (h : (entries.map Prod.fst).Nodup) (k : κ) :
      find? k (arrange before entries) = find? k entries :=
    find?_of_perm (nodup_keys_arrange h) (arrange_perm before entries) k
  constructor
  · intro heq k
    rw [← hfound hs k, heq, hfound ht k]
  · intro hfind
    refine (ascending_arrange hstrict hs).eq_of_find? hstrict (ascending_arrange hstrict ht) ?_
    intro k
    rw [hfound hs k, hfound ht k, hfind k]

end Ordered
end LoadRamp
