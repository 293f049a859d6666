/-!
# Lines

A mark ends a line, and one more character may belong to the end of a line when it
stands right before the mark.  Texts are lists of whatever the mark is of, bytes or
characters.

* `linesOf_append` says that lines are found one after the other.
* `linesOf_singleton` is about a line without a mark in it.
* `mem_of_mem_linesOf` says that lines hold only what the text holds.
-/

namespace LoadRamp
namespace Text

section Lines

variable {α : Type} [DecidableEq α] (mark before : α)

/-- A line without the character that belongs to its end. -/
def chopLine (line : List α) : List α :=
  if line.getLast? = some before then line.dropLast else line

/-- The lines of a text, without their ends.  What follows the last mark is a line as it
stands, unless it is empty. -/
def linesOf (text : List α) : List (List α) :=
  let parts := text.splitOn mark
  parts.dropLast.map (chopLine before) ++ parts.getLast?.toList.filter fun rest => !rest.isEmpty

@[simp] theorem linesOf_nil : linesOf mark before [] = [] := by
  simp [linesOf]

/-- A text that ends with a mark has no line after it. -/
theorem linesOf_ended (front : List α) :
    linesOf mark before (front ++ [mark]) = (front.splitOn mark).map (chopLine before) := by
  simp [linesOf, List.splitOn_append_cons_self]

/-- Lines are found one after the other. -/
theorem linesOf_append (front back : List α) :
    linesOf mark before (front ++ mark :: back) =
      linesOf mark before (front ++ [mark]) ++ linesOf mark before back := by
  have hlast : (front.splitOn mark ++ back.splitOn mark).getLast? =
      (back.splitOn mark).getLast? := by
    rw [List.getLast?_append, List.getLast?_eq_some_getLast (List.splitOn_ne_nil mark back)]
    rfl
  rw [linesOf_ended, linesOf, linesOf, List.splitOn_append_cons_self,
    List.dropLast_append_of_ne_nil (List.splitOn_ne_nil mark back), List.map_append,
    List.append_assoc]
  exact congrArg (fun last : Option (List α) => _ ++ (_ ++ last.toList.filter _)) hlast

/-- A line that holds no mark is the only one before it. -/
theorem linesOf_singleton {line : List α} (h : mark ∉ line) :
    linesOf mark before (line ++ [mark]) = [chopLine before line] := by
  rw [linesOf_ended, List.splitOn_eq_singleton h, List.map_singleton]

/-- The parts of a text hold only what the text holds. -/
theorem mem_of_mem_splitOn {text part : List α} (h : part ∈ text.splitOn mark) {a : α}
    (ha : a ∈ part) : a ∈ text := by
  induction text generalizing part with
  | nil =>
    rw [List.splitOn_nil, List.mem_singleton] at h
    exact h ▸ ha
  | cons b text ih =>
    rw [List.splitOn_cons_eq_if_modifyHead] at h
    split at h
    · rcases List.mem_cons.1 h with rfl | h
      · exact absurd ha List.not_mem_nil
      · exact List.mem_cons_of_mem b (ih h ha)
    · obtain ⟨first, more, hparts⟩ := List.exists_cons_of_ne_nil (List.splitOn_ne_nil mark text)
      rw [hparts, List.modifyHead_cons, List.mem_cons] at h
      rw [hparts] at ih
      rcases h with rfl | h
      · rcases List.mem_cons.1 ha with rfl | ha
        · exact List.mem_cons_self
        · exact List.mem_cons_of_mem b (ih List.mem_cons_self ha)
      · exact List.mem_cons_of_mem b (ih (List.mem_cons_of_mem first h) ha)

/-- So do its lines. -/
theorem mem_of_mem_linesOf {text line : List α} (h : line ∈ linesOf mark before text) {a : α}
    (ha : a ∈ line) : a ∈ text := by
  rcases List.mem_append.1 h with h | h
  · obtain ⟨part, hpart, rfl⟩ := List.mem_map.1 h
    refine mem_of_mem_splitOn mark (List.dropLast_subset _ hpart) ?_
    rw [chopLine] at ha
    split at ha
    · exact List.dropLast_subset _ ha
    · exact ha
  · have hlast := Option.mem_toList.1 (List.mem_filter.1 h).1
    exact mem_of_mem_splitOn mark (List.mem_of_getLast? hlast) ha

end Lines

end Text
end LoadRamp
