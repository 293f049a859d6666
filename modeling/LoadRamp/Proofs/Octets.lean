import LoadRamp.Proofs.Table
import LoadRamp.Text.Utf8
import Mathlib.Tactic.SplitIfs

/-!
# The order of texts is that of their bytes

Texts are ordered by their characters.  UTF-8 keeps that order: the bytes of a
smaller character come first, and no sequence is the start of another one.

* `encode_lt_encode_iff` says so for texts;
* `CheckKey.before_iff_octets` says so for the keys of checks, part by part.
-/

namespace LoadRamp
namespace Text
namespace Utf8

/-- Bytes in the order of their values, then the bytes after them. -/
theorem cons_ofNat_lt_cons_iff {a b : Nat} (ha : a < 256) (hb : b < 256) {xs ys : List UInt8} :
    UInt8.ofNat a :: xs < UInt8.ofNat b :: ys ↔ a < b ∨ a = b ∧ xs < ys := by
  rw [List.cons_lt_cons_iff, UInt8.lt_iff_toNat_lt, ← UInt8.toNat_inj,
    UInt8.toNat_ofNat_of_lt' ha, UInt8.toNat_ofNat_of_lt' hb]

/-- The bytes of a smaller character come first, whatever follows either of them. -/
theorem encodeChar_append_lt {c d : Char} (h : c < d) (xs ys : List UInt8) :
    String.utf8EncodeChar c ++ xs < String.utf8EncodeChar d ++ ys := by
  have hcodes : c.val.toNat < d.val.toNat := h
  have hlast : d.val.toNat < 1114112 := by
    have hvalid := d.valid
    simp only [UInt32.isValidChar, Nat.isValidChar] at hvalid
    omega
  unfold String.utf8EncodeChar
  generalize c.val.toNat = m at hcodes ⊢
  generalize d.val.toNat = n at hcodes hlast ⊢
  -- The bytes are digits to the base 64, so all quotients are by 64.
  have htwo (k : Nat) : k / 4096 = k / 64 / 64 := by omega
  have hthree (k : Nat) : k / 262144 = k / 64 / 64 / 64 := by omega
  simp only [htwo, hthree]
  -- A case for each pair of lengths; first bytes of different lengths differ as the lengths do.
  split_ifs <;>
    simp (disch := omega) only [List.cons_append, List.nil_append, cons_ofNat_lt_cons_iff] <;>
    omega

theorem encode_eq (s : String) : encode s = s.toList.flatMap String.utf8EncodeChar := by
  have hchars : encode (String.ofList s.toList) = s.toList.flatMap String.utf8EncodeChar :=
    List.toList_data_toByteArray
  rwa [String.ofList_toList] at hchars

theorem encodeChar_ne_nil (c : Char) : String.utf8EncodeChar c ≠ [] := by
  unfold String.utf8EncodeChar
  dsimp only
  split_ifs <;> exact List.cons_ne_nil _ _

theorem flatMap_encodeChar_lt {cs ds : List Char} (h : cs < ds) :
    cs.flatMap String.utf8EncodeChar < ds.flatMap String.utf8EncodeChar := by
  induction cs generalizing ds with
  | nil =>
    cases ds with
    | nil => exact absurd h (List.lt_irrefl _)
    | cons d ds =>
      obtain ⟨first, rest, hbytes⟩ := List.exists_cons_of_ne_nil (encodeChar_ne_nil d)
      rw [List.flatMap_cons, hbytes]
      exact List.nil_lt_cons _ _
  | cons c cs ih =>
    cases ds with
    | nil => exact absurd h (List.not_lt_nil _)
    | cons d ds =>
      rw [List.flatMap_cons, List.flatMap_cons]
      rcases List.cons_lt_cons_iff.1 h with hlt | ⟨rfl, hrest⟩
      · exact encodeChar_append_lt hlt _ _
      · exact List.append_left_lt (ih hrest)

/-- The order of texts is the order of their bytes. -/
theorem encode_lt_encode_iff {a b : String} : encode a < encode b ↔ a < b := by
  have hmono {a b : String} (h : a < b) : encode a < encode b := by
    rw [encode_eq, encode_eq]
    exact flatMap_encodeChar_lt h
  refine ⟨fun h => Decidable.byContradiction fun hnot => ?_, hmono⟩
  by_cases hlt : b < a
  · exact List.lt_asymm h (hmono hlt)
  · obtain rfl := String.le_antisymm (String.not_lt.1 hlt) (String.not_lt.1 hnot)
    exact List.lt_irrefl _ h

theorem encode_injective {a b : String} (h : encode a = encode b) : a = b := by
  have hnot {a b : String} (h : encode a = encode b) : ¬ a < b := fun hlt => by
    rw [← encode_lt_encode_iff, h] at hlt
    exact List.lt_irrefl _ hlt
  exact String.le_antisymm (String.not_lt.1 (hnot h.symm)) (String.not_lt.1 (hnot h))

/-- Lists of texts are ordered as the lists of their bytes. -/
theorem map_encode_lt_iff {as bs : List String} : as.map encode < bs.map encode ↔ as < bs := by
  induction as generalizing bs with
  | nil => cases bs <;> simp
  | cons a as ih =>
    cases bs with
    | nil => simp
    | cons b bs =>
      rw [List.map_cons, List.map_cons, List.cons_lt_cons_iff, List.cons_lt_cons_iff,
        encode_lt_encode_iff, ih]
      exact or_congr_right (and_congr_left fun _ => ⟨encode_injective, congrArg encode⟩)

end Utf8
end Text

/-- The bytes of the parts of a key: scenario, group, check. -/
def CheckKey.octets (k : CheckKey) : List (List UInt8) := k.parts.map Text.Utf8.encode

theorem CheckKey.before_iff_octets {a b : CheckKey} :
    a.before b = true ↔ a.octets < b.octets := by
  rw [before, decide_eq_true_iff, octets, octets, Text.Utf8.map_encode_lt_iff]

end LoadRamp
