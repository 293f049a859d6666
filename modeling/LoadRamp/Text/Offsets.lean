/-!
# Places in a text

A place in a text is the number of bytes before it.  A character takes up to four
bytes, so not every number is a place between characters.

* `indices` lists the characters of a text, each with its place.
* `upTo?` cuts a text off at a place.  It fails inside a character and beyond the end.
-/

namespace LoadRamp
namespace Text

/-- Some characters with the place of each, the first of them after `start` bytes. -/
def indicesFrom : (start : Nat) → List Char → List (Nat × Char)
  | _, [] => []
  | start, c :: rest => (start, c) :: indicesFrom (start + c.utf8Size) rest

/-- The characters of a text with the place of each. -/
def indices (s : String) : List (Nat × Char) := indicesFrom 0 s.toList

/-- The text before a place between characters. -/
def upTo? (s : String) (place : Nat) : Option String :=
  if h : String.Pos.Raw.IsValid s ⟨place⟩ then some (s.sliceTo (s.pos ⟨place⟩ h)).copy else none

theorem getElem?_indicesFrom (start n : Nat) (cs : List Char) :
    (indicesFrom start cs)[n]? =
      cs[n]?.map fun c => (start + (String.ofList (cs.take n)).utf8ByteSize, c) := by
  induction cs generalizing start n with
  | nil => simp [indicesFrom]
  | cons c cs ih =>
    cases n with
    | zero => simp [indicesFrom]
    | succ n => simp [indicesFrom, ih, Nat.add_assoc]

/-- The place of a character is the size of the text before it. -/
theorem getElem?_indices (s : String) (n : Nat) :
    (indices s)[n]? =
      s.toList[n]?.map fun c => ((String.ofList (s.toList.take n)).utf8ByteSize, c) := by
  simp [indices, getElem?_indicesFrom]

/-- A text is cut off exactly at the places between two parts of it. -/
theorem upTo?_eq_some {s front : String} {place : Nat} :
    upTo? s place = some front ↔ ∃ back, s = front ++ back ∧ place = front.utf8ByteSize := by
  constructor
  · intro h
    unfold upTo? at h
    split at h
    · next hvalid =>
      have hsplits := (s.pos ⟨place⟩ hvalid).splits
      rw [Option.some.inj h] at hsplits
      exact ⟨_, hsplits.eq_append, congrArg String.Pos.Raw.byteIdx hsplits.offset_eq_rawEndPos⟩
    · cases h
  · rintro ⟨back, rfl, rfl⟩
    have hvalid : String.Pos.Raw.IsValid (front ++ back) ⟨front.utf8ByteSize⟩ :=
      String.Pos.Raw.isValid_iff_exists_append.2 ⟨front, back, rfl, rfl⟩
    have hsplits : ((front ++ back).pos _ hvalid).Splits front back := ⟨rfl, rfl⟩
    rw [upTo?, dif_pos hvalid]
    exact congrArg some ((String.Pos.splits _).eq_left hsplits)

end Text
end LoadRamp
