import LoadRamp.Proofs.Octets
import LoadRamp.Text.Lines

/-!
# Reading back the bytes of a text

The bytes of a character are taken off as that character, whatever comes after
them (`pieces_encodeChar_append`).  So every text is what its bytes hold
(`strict?_encode`), and the lines of the bytes of a text are the bytes of its lines
(`linesOf_encode`).
-/

namespace LoadRamp
namespace Text
namespace Utf8

/-! ## One character -/

/-- A byte in its range takes its six bits to the value. -/
theorem follow_ofNat {missing low high value size b : Nat} {rest : List UInt8}
    (hlow : low ≤ b) (hhigh : b ≤ high) (hb : b < 256) :
    follow (missing + 1) low high value size (UInt8.ofNat b :: rest) =
      follow missing 0x80 0xBF (value * 64 + (b - 0x80)) (size + 1) rest := by
  rw [follow, UInt8.toNat_ofNat_of_lt' hb, if_pos ⟨hlow, hhigh⟩]

/-- A first byte that begins a sequence has the bytes after it followed. -/
theorem firstPiece_ofNat {b missing low high value : Nat} {rest : List UInt8}
    (hb : 0x80 ≤ b ∧ b < 256) (hlead : leadOf? b = some (missing, low, high, value)) :
    firstPiece (UInt8.ofNat b) rest = follow missing low high value 1 rest := by
  rw [firstPiece, UInt8.toNat_ofNat_of_lt' hb.2, if_neg (by omega), hlead]

theorem leadOf?_two {n : Nat} (hlow : 0x80 ≤ n) (hhigh : n < 0x800) :
    leadOf? (n / 64 % 32 + 0xC0) = some (1, 0x80, 0xBF, n / 64) := by
  have hlead : n / 64 % 32 = n / 64 := by omega
  rw [leadOf?, if_neg (by omega), if_pos (by omega), hlead, Nat.add_sub_cancel]

/-- The first byte of three, and the range that it leaves to the second one. -/
theorem exists_leadOf?_three {n : Nat} (hlow : 0x800 ≤ n) (hhigh : n < 0x10000)
    (hvalid : n < 0xD800 ∨ 0xDFFF < n) :
    ∃ low high, leadOf? (n / 4096 % 16 + 0xE0) = some (2, low, high, n / 4096) ∧
      low ≤ n / 64 % 64 + 0x80 ∧ n / 64 % 64 + 0x80 ≤ high := by
  have hlead : n / 4096 % 16 = n / 4096 := by omega
  by_cases hfirst : n / 4096 = 0
  · exact ⟨0xA0, 0xBF, by rw [hfirst]; rfl, by omega, by omega⟩
  by_cases hsurrogate : n / 4096 = 13
  · exact ⟨0x80, 0x9F, by rw [hsurrogate]; rfl, by omega, by omega⟩
  refine ⟨0x80, 0xBF, ?_, by omega, by omega⟩
  rw [leadOf?, if_neg (by omega), if_neg (by omega), if_neg (by omega), if_neg (by omega),
    if_pos (by omega), hlead, Nat.add_sub_cancel]

/-- The first byte of four, and the range that it leaves to the second one. -/
theorem exists_leadOf?_four {n : Nat} (hlow : 0x10000 ≤ n) (hhigh : n < 0x110000) :
    ∃ low high, leadOf? (n / 262144 % 8 + 0xF0) = some (3, low, high, n / 262144) ∧
      low ≤ n / 4096 % 64 + 0x80 ∧ n / 4096 % 64 + 0x80 ≤ high := by
  have hlead : n / 262144 % 8 = n / 262144 := by omega
  by_cases hfirst : n / 262144 = 0
  · exact ⟨0x90, 0xBF, by rw [hfirst]; rfl, by omega, by omega⟩
  by_cases hlast : n / 262144 = 4
  · exact ⟨0x80, 0x8F, by rw [hlast]; rfl, by omega, by omega⟩
  refine ⟨0x80, 0xBF, ?_, by omega, by omega⟩
  rw [leadOf?, if_neg (by omega), if_neg (by omega), if_neg (by omega), if_neg (by omega),
    if_neg (by omega), if_neg (by omega), if_pos (by omega), hlead, Nat.add_sub_cancel]

theorem pieces_cons_of_character {b : UInt8} {rest : List UInt8} {c : Char} (size : Nat)
    (h : firstPiece b rest = .character c size) :
    pieces (b :: rest) = some c :: pieces (rest.drop (size - 1)) := by
  rw [pieces, h]

/-- The bytes of a character are taken off as that character. -/
theorem pieces_encodeChar_append (c : Char) (rest : List UInt8) :
    pieces (String.utf8EncodeChar c ++ rest) = some c :: pieces rest := by
  have hvalid : c.val.toNat < 0xD800 ∨ 0xDFFF < c.val.toNat ∧ c.val.toNat < 0x110000 := c.valid
  have hchar : Char.ofNat c.val.toNat = c := Char.ofNat_toNat c
  unfold String.utf8EncodeChar
  generalize c.val.toNat = n at hvalid hchar
  -- A case for each length of the sequence.
  dsimp only
  split_ifs with hone htwo hthree <;> simp only [List.cons_append, List.nil_append]
  · refine pieces_cons_of_character 1 ?_
    rw [firstPiece, UInt8.toNat_ofNat_of_lt' (show n < 256 by omega), if_pos (by omega), hchar]
  · refine pieces_cons_of_character 2 ?_
    rw [firstPiece_ofNat (by omega) (leadOf?_two (by omega) (by omega)),
      follow_ofNat (by omega) (by omega) (by omega), follow]
    rw [show n / 64 * 64 + (n % 64 + 0x80 - 0x80) = n by omega, hchar]
  · obtain ⟨low, high, hlead, hlow, hhigh⟩ :=
      exists_leadOf?_three (n := n) (by omega) (by omega) (by omega)
    refine pieces_cons_of_character 3 ?_
    rw [firstPiece_ofNat (by omega) hlead, follow_ofNat hlow hhigh (by omega),
      follow_ofNat (by omega) (by omega) (by omega), follow]
    rw [show (n / 4096 * 64 + (n / 64 % 64 + 0x80 - 0x80)) * 64 + (n % 64 + 0x80 - 0x80) = n by
      omega, hchar]
  · obtain ⟨low, high, hlead, hlow, hhigh⟩ :=
      exists_leadOf?_four (n := n) (by omega) (by omega)
    refine pieces_cons_of_character 4 ?_
    rw [firstPiece_ofNat (by omega) hlead, follow_ofNat hlow hhigh (by omega),
      follow_ofNat (by omega) (by omega) (by omega),
      follow_ofNat (by omega) (by omega) (by omega), follow]
    rw [show ((n / 262144 * 64 + (n / 4096 % 64 + 0x80 - 0x80)) * 64 +
      (n / 64 % 64 + 0x80 - 0x80)) * 64 + (n % 64 + 0x80 - 0x80) = n by omega, hchar]

/-- A byte below 128 is all of a character. -/
theorem eq_of_mem_encodeChar {b : Nat} (hb : b < 0x80) {c : Char}
    (h : UInt8.ofNat b ∈ String.utf8EncodeChar c) :
    c = Char.ofNat b ∧ String.utf8EncodeChar c = [UInt8.ofNat b] := by
  have hchar : Char.ofNat c.val.toNat = c := Char.ofNat_toNat c
  have hlast : c.val.toNat < 0x110000 := by
    have hvalid := c.valid
    simp only [UInt32.isValidChar, Nat.isValidChar] at hvalid
    omega
  have hsame {n : Nat} (hn : n < 256) : UInt8.ofNat b = UInt8.ofNat n ↔ b = n := by
    rw [← UInt8.toNat_inj, UInt8.toNat_ofNat_of_lt' (show b < 256 by omega),
      UInt8.toNat_ofNat_of_lt' hn]
  unfold String.utf8EncodeChar at h ⊢
  generalize c.val.toNat = n at h hchar hlast ⊢
  dsimp only at h ⊢
  split_ifs at h ⊢ with hone htwo hthree
  · rw [List.mem_singleton, hsame (by omega)] at h
    subst h
    exact ⟨hchar.symm, rfl⟩
  -- All bytes of longer sequences are at least 128.
  all_goals
    exfalso
    simp (disch := omega) only [List.mem_cons, List.not_mem_nil, or_false, hsame] at h
    omega

/-! ## Whole texts -/

theorem pieces_flatMap_append (cs : List Char) (rest : List UInt8) :
    pieces (cs.flatMap String.utf8EncodeChar ++ rest) = cs.map some ++ pieces rest := by
  induction cs with
  | nil => rfl
  | cons c cs ih =>
    rw [List.flatMap_cons, List.append_assoc, pieces_encodeChar_append, ih, List.map_cons,
      List.cons_append]

theorem pieces_flatMap (cs : List Char) :
    pieces (cs.flatMap String.utf8EncodeChar) = cs.map some := by
  have hpieces := pieces_flatMap_append cs []
  rwa [List.append_nil, pieces, List.append_nil] at hpieces

theorem pieces_encode (s : String) : pieces (encode s) = s.toList.map some := by
  rw [encode_eq, pieces_flatMap]

/-- A text is what its bytes hold. -/
theorem strict?_encode (s : String) : strict? (encode s) = some s := by
  have hall (cs : List Char) : (cs.map some).mapM id = some cs := by
    induction cs with
    | nil => rfl
    | cons c cs ih => rw [List.map_cons, List.mapM_cons, ih]; rfl
  rw [strict?, decode?, pieces_encode, hall, Option.map_some, String.ofList_toList]

/-! ## Lines -/

theorem splitOn_append_of_not_mem {α : Type} [DecidableEq α] {mark : α} {front : List α}
    (h : mark ∉ front) (rest : List α) :
    (front ++ rest).splitOn mark = (rest.splitOn mark).modifyHead (front ++ ·) := by
  induction front with
  | nil => cases hparts : rest.splitOn mark <;> simp [hparts]
  | cons a front ih =>
    simp only [List.mem_cons, not_or] at h
    rw [List.cons_append, List.splitOn_cons_eq_if_modifyHead, ih h.2,
      if_neg (by simpa using Ne.symm h.1), List.modifyHead_modifyHead]
    rfl

/-- A line end in the bytes is one in the text. -/
theorem splitOn_flatMap (cs : List Char) :
    (cs.flatMap String.utf8EncodeChar).splitOn 10 =
      (cs.splitOn '\n').map fun part => part.flatMap String.utf8EncodeChar := by
  induction cs with
  | nil => rfl
  | cons c cs ih =>
    rw [List.flatMap_cons, List.splitOn_cons_eq_if_modifyHead]
    by_cases hc : c = '\n'
    · subst hc
      have hmark : String.utf8EncodeChar '\n' = [10] := by decide
      rw [hmark, List.singleton_append, List.splitOn_cons_eq_if_modifyHead, if_pos (by rfl), ih,
        if_pos (by rfl)]
      rfl
    · have hno : (10 : UInt8) ∉ String.utf8EncodeChar c := fun hmem =>
        hc (eq_of_mem_encodeChar (show 10 < 0x80 by decide) hmem).1
      rw [splitOn_append_of_not_mem hno, ih, if_neg (by simpa using hc)]
      cases hparts : cs.splitOn '\n' <;> simp

theorem chopLine_flatMap (cs : List Char) :
    chopLine 13 (cs.flatMap String.utf8EncodeChar) =
      (chopLine '\r' cs).flatMap String.utf8EncodeChar := by
  unfold chopLine
  rcases List.eq_nil_or_concat cs with rfl | ⟨front, c, rfl⟩
  · rfl
  rw [List.concat_eq_append, List.flatMap_append, List.flatMap_singleton]
  by_cases hc : c = '\r'
  · subst hc
    have hbytes : String.utf8EncodeChar '\r' = [13] := by decide
    simp [hbytes]
  · have hlast : (front.flatMap String.utf8EncodeChar ++ String.utf8EncodeChar c).getLast? ≠
        some 13 := by
      rw [List.getLast?_append, List.getLast?_eq_some_getLast (encodeChar_ne_nil c)]
      intro hsame
      have hmem := List.getLast_mem (encodeChar_ne_nil c)
      rw [Option.some.inj hsame] at hmem
      exact hc (eq_of_mem_encodeChar (show 13 < 0x80 by decide) hmem).1
    rw [if_neg hlast, if_neg (by simpa using hc)]
    simp

/-- The lines of the bytes of a text are the bytes of its lines. -/
theorem linesOf_encode (s : String) :
    linesOf 10 13 (encode s) =
      (linesOf '\n' '\r' s.toList).map fun line => line.flatMap String.utf8EncodeChar := by
  have hempty (cs : List Char) : (cs.flatMap String.utf8EncodeChar).isEmpty = cs.isEmpty := by
    cases cs with
    | nil => rfl
    | cons c cs =>
      obtain ⟨b, more, hbytes⟩ := List.exists_cons_of_ne_nil (encodeChar_ne_nil c)
      rw [List.flatMap_cons, hbytes]
      rfl
  have hlast (last : Option (List Char)) :
      ((last.map fun line => line.flatMap String.utf8EncodeChar).toList.filter
        fun rest => !rest.isEmpty) =
        (last.toList.filter fun rest => !rest.isEmpty).map
          fun line => line.flatMap String.utf8EncodeChar := by
    cases last with
    | none => rfl
    | some line =>
      simp only [Option.map_some, Option.toList_some, List.filter_cons, hempty]
      split <;> rfl
  rw [encode_eq, linesOf, linesOf, splitOn_flatMap, List.getLast?_map, hlast, ← List.map_dropLast,
    List.map_append, List.map_map, List.map_map]
  congr 2
  funext line
  exact chopLine_flatMap line

end Utf8
end Text
end LoadRamp
