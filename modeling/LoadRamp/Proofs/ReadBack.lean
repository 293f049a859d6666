import LoadRamp.Json.Reader
import LoadRamp.Json.Writer
import Mathlib.Tactic.SplitIfs

/-!
# Written JSON reads back

A reader takes a written value off its input and leaves what comes after it
(`Reads`), as long as that is the end or a character that ends a value inside an
array or an object.

* Texts (`reads_text`), natural numbers (`reads_natural`) and integers
  (`reads_integer`) read back.
* So do arrays of values that do (`reads_list`), objects that are read member by
  member (`membersRest_object`), dictionaries (`reads_dictionary`) and records
  (`reads_record`).
* Nothing that is written holds a control character (`plain_text`, `plain_object`),
  so that it stands on one line.
-/

namespace LoadRamp
namespace Json

open Number

/-- What may come after a value: nothing, or a comma or a closing bracket. -/
def Ends (rest : Input) : Prop :=
  ∀ piece ∈ rest.head?, piece = some ',' ∨ piece = some ']' ∨ piece = some '\x7d'

/-- A reader takes a text off its input as a value. -/
def Reads {α : Type} (reader : Reader α) (chars : List Char) (a : α) : Prop :=
  ∀ rest, Ends rest → reader (chars.map some ++ rest) = .ok (a, rest)

theorem ends_nil : Ends [] := by simp [Ends]

theorem ends_cons {c : Char} {rest : Input} (h : c = ',' ∨ c = ']' ∨ c = '\x7d') :
    Ends (some c :: rest) := by
  simpa [Ends] using h

/-- Nothing but a comma and brackets ends a value. -/
theorem Ends.cases {rest : Input} (h : Ends rest) :
    rest = [] ∨ ∃ c more, rest = some c :: more ∧ (c = ',' ∨ c = ']' ∨ c = '\x7d') := by
  cases rest with
  | nil => exact .inl rfl
  | cons piece more =>
    rcases h piece rfl with rfl | rfl | rfl
    · exact .inr ⟨_, more, rfl, .inl rfl⟩
    · exact .inr ⟨_, more, rfl, .inr (.inl rfl)⟩
    · exact .inr ⟨_, more, rfl, .inr (.inr rfl)⟩

theorem skipBlanks_cons {piece : Option Char} {input : Input} (h : isBlank piece = false) :
    skipBlanks (piece :: input) = piece :: input := by
  rw [skipBlanks, List.dropWhile_cons_of_neg (by simp [h])]

/-- Fuel that is more than something is not used up. -/
theorem exists_eq_succ_of_lt {n fuel : Nat} (h : n < fuel) : ∃ left, fuel = left + 1 :=
  Nat.exists_eq_add_one_of_ne_zero (Nat.ne_of_gt (Nat.zero_lt_of_lt h))

/-! ## Texts -/

theorem hexValue?_hexDigit {digit : Nat} (h : digit < 16) :
    hexValue? (Text.hexDigit digit) = some digit := by
  have hall : ∀ d : Fin 16, hexValue? (Text.hexDigit d.val) = some d.val := by decide
  exact hall ⟨digit, h⟩

/-- The escape of a control character stands for it. -/
theorem hexEscape_control {c : Char} (h : c.toNat < 0x20) (rest : Input) :
    hexEscape (some '0' :: some '0' :: some (Text.hexDigit (c.toNat / 16)) ::
      some (Text.hexDigit (c.toNat % 16)) :: rest) = .ok (c, rest) := by
  have hzero : hexValue? '0' = some 0 := by decide
  have hhigh := hexValue?_hexDigit (show c.toNat / 16 < 16 by omega)
  have hlow := hexValue?_hexDigit (show c.toNat % 16 < 16 by omega)
  have hcode : ((0 * 16 + 0) * 16 + c.toNat / 16) * 16 + c.toNat % 16 = c.toNat := by omega
  simp only [hexEscape, hexFour, hzero, hhigh, hlow, hcode, bind, Except.bind]
  rw [if_neg (by omega), if_neg (by omega), Char.ofNat_toNat]

theorem character_ne_nil (c : Char) : Write.character c ≠ [] := by
  unfold Write.character
  split_ifs <;> exact List.cons_ne_nil _ _

/-- A string with one more character in front. -/
def consChar (c : Char) (result : List Char × Input) : List Char × Input :=
  (c :: result.1, result.2)

theorem bind_consChar (c : Char) (result : Except Error (List Char × Input)) :
    (result >>= fun (chars, rest) => Except.ok (c :: chars, rest)) = result.map (consChar c) := by
  cases result <;> rfl

/-- An escape of one letter is taken off a string as the character that it stands for. -/
theorem stringRest_escape {c e : Char} (hplain : plainEscape? e = some c) (hu : e ≠ 'u')
    (fuel : Nat) (rest : Input) :
    stringRest (fuel + 1) (some '\\' :: some e :: rest) =
      (stringRest fuel rest).map (consChar c) := by
  have hescape : escape (some e :: rest) = .ok (c, rest) := by
    unfold escape
    split
    · next heq => cases heq; exact absurd rfl hu
    · next heq => cases heq; rw [hplain]
    · next hnone => exact absurd rfl (hnone e rest)
  rw [← bind_consChar, stringRest, if_neg (by decide), if_pos rfl, hescape]
  rfl

/-- A written character is taken off a string as that character. -/
theorem stringRest_character (c : Char) (fuel : Nat) (rest : Input) :
    stringRest (fuel + 1) ((Write.character c).map some ++ rest) =
      (stringRest fuel rest).map (consChar c) := by
  unfold Write.character
  split_ifs with hquote hslash hback htab hline hfeed hreturn hcontrol
  · subst hquote; exact stringRest_escape rfl (by decide) fuel rest
  · subst hslash; exact stringRest_escape rfl (by decide) fuel rest
  · subst hback; exact stringRest_escape rfl (by decide) fuel rest
  · subst htab; exact stringRest_escape rfl (by decide) fuel rest
  · subst hline; exact stringRest_escape rfl (by decide) fuel rest
  · subst hfeed; exact stringRest_escape rfl (by decide) fuel rest
  · subst hreturn; exact stringRest_escape rfl (by decide) fuel rest
  · simp only [List.map_cons, List.map_nil, List.cons_append, List.nil_append]
    rw [← bind_consChar, stringRest, if_neg (by decide), if_pos rfl, escape,
      hexEscape_control hcontrol]
    rfl
  · rw [List.map_singleton, List.singleton_append, ← bind_consChar, stringRest, if_neg hquote,
      if_neg hslash, if_neg hcontrol]

/-- A written text is taken off the input after its opening quote. -/
theorem quotedText_text (s : String) (rest : Input) :
    quotedText ((s.toList.flatMap Write.character ++ ['"']).map some ++ rest) = .ok (s, rest) := by
  have hchars (cs : List Char) (fuel : Nat) (hfuel : cs.length < fuel) :
      stringRest fuel ((cs.flatMap Write.character ++ ['"']).map some ++ rest) =
        .ok (cs, rest) := by
    induction cs generalizing fuel with
    | nil =>
      obtain ⟨fuel, rfl⟩ := exists_eq_succ_of_lt hfuel
      rfl
    | cons c cs ih =>
      obtain ⟨fuel, rfl⟩ := exists_eq_succ_of_lt hfuel
      rw [List.flatMap_cons, List.append_assoc, List.map_append, List.append_assoc,
        stringRest_character, ih fuel (Nat.lt_of_succ_lt_succ hfuel)]
      rfl
  have hlength (cs : List Char) : cs.length ≤ (cs.flatMap Write.character).length := by
    induction cs with
    | nil => exact Nat.le_refl _
    | cons c cs ih =>
      have hsome := List.length_pos_iff.2 (character_ne_nil c)
      rw [List.flatMap_cons, List.length_append, List.length_cons]
      omega
  have := hlength s.toList
  have hall := hchars s.toList
    (((s.toList.flatMap Write.character ++ ['"']).map some ++ rest).length + 1) (by
      simp only [List.length_append, List.length_map]
      omega)
  rw [quotedText, hall]
  exact congrArg (fun t => Except.ok (t, rest)) String.ofList_toList

theorem reads_text (s : String) : Reads text (Write.text s) s := by
  intro rest _
  rw [text, Write.text, List.cons_append, List.map_cons, List.cons_append,
    skipBlanks_cons (by decide)]
  exact quotedText_text s rest

/-! ## Numbers -/

/-- Digits stand for at least what was read before them. -/
theorem le_of_readFrom? {value n : Nat} {cs : List Char}
    (h : Decimal.readFrom? value cs = some n) : value ≤ n := by
  induction cs generalizing value with
  | nil => exact Nat.le_of_eq (Option.some.inj h)
  | cons c cs ih =>
    cases hdigit : Decimal.digitValue? c with
    | none => simp [Decimal.readFrom?, hdigit] at h
    | some digit =>
      simp only [Decimal.readFrom?, hdigit] at h
      have := ih h
      omega

/-- A character that ends a value is no digit. -/
theorem Ends.digitOf? {c : Char} {rest : Input} (h : Ends (some c :: rest)) :
    digitOf? (some c) = none := by
  rcases h (some c) rfl with h | h | h <;> cases h <;> decide

/-- All digits of a number that fits a word are read, and nothing else. -/
theorem significand_digits {value n : Nat} {cs : List Char}
    (h : Decimal.readFrom? value cs = some n) (hfits : n < wordLimit) (count : Nat)
    {rest : Input} (hrest : Ends rest) :
    significand value count (cs.map some ++ rest) = (n, count + cs.length, rest) := by
  induction cs generalizing value count with
  | nil =>
    obtain rfl := Option.some.inj h
    rcases hrest.cases with rfl | ⟨c, more, rfl, -⟩
    · rfl
    · rw [List.map_nil, List.nil_append, significand, hrest.digitOf?]
      rfl
  | cons c cs ih =>
    cases hdigit : Decimal.digitValue? c with
    | none => simp [Decimal.readFrom?, hdigit] at h
    | some digit =>
      simp only [Decimal.readFrom?, hdigit] at h
      have hpart : value * 10 + digit < wordLimit := Nat.lt_of_le_of_lt (le_of_readFrom? h) hfits
      rw [List.map_cons, List.cons_append, significand, Json.digitOf?, hdigit]
      simp only [hpart, if_true]
      rw [ih h, List.length_cons]
      congr 2
      omega

/-- Only zero is written with a leading zero. -/
theorem head_digits (n : Nat) :
    ∃ c cs, Decimal.digits n = c :: cs ∧ (Decimal.digitValue? c).isSome ∧
      (n = 0 ∧ c = '0' ∧ cs = [] ∨ 0 < n ∧ c ≠ '0') := by
  induction n using Decimal.digits.induct with
  | case1 n h =>
    have hdigit := Decimal.digitValue?_digitChar h
    refine ⟨Decimal.digitChar n, [], by rw [Decimal.digits, if_pos h], by rw [hdigit]; rfl, ?_⟩
    rcases Nat.eq_zero_or_pos n with rfl | hpos
    · exact .inl ⟨rfl, rfl, rfl⟩
    · refine .inr ⟨hpos, fun hzero => ?_⟩
      rw [hzero] at hdigit
      exact Nat.ne_of_lt hpos (Option.some.inj hdigit)
  | case2 n h ih =>
    obtain ⟨c, cs, hdigits, hdigit, hcases⟩ := ih
    refine ⟨c, cs ++ [Decimal.digitChar (n % 10)], ?_, hdigit, .inr ⟨by omega, ?_⟩⟩
    · rw [Decimal.digits, if_neg h, hdigits]
      rfl
    · rcases hcases with ⟨hzero, -⟩ | ⟨-, hc⟩
      · omega
      · exact hc

theorem numberRest_of_ends (negative : Bool) (n : Nat) {rest : Input} (hrest : Ends rest) :
    numberRest negative n rest =
      if !negative then .ok (.natural n, rest)
      else if 0 < n ∧ n ≤ 9223372036854775808 then .ok (.negative n, rest)
      else .ok (.float (.ofMagnitude true n), rest) := by
  rcases hrest.cases with rfl | ⟨c, more, rfl, rfl | rfl | rfl⟩ <;> rfl

/-- Written digits are read to their end as one number. -/
theorem magnitude_digits (negative : Bool) {n : Nat} (hfits : n < wordLimit) {rest : Input}
    (hrest : Ends rest) :
    magnitude negative ((Decimal.digits n).map some ++ rest) = numberRest negative n rest := by
  obtain ⟨c, cs, hdigits, hdigit, ⟨rfl, rfl, rfl⟩ | ⟨hpos, hc⟩⟩ := head_digits n
  · rw [hdigits]
    rcases hrest.cases with rfl | ⟨c, more, rfl, -⟩
    · rfl
    · change (if (digitOf? (some c)).isSome then _ else _) = _
      rw [hrest.digitOf?]
      rfl
  · have hread := significand_digits (Decimal.readFrom?_digits n) hfits 0 hrest
    have hskip : skipDigits 0 rest = (0, rest) := by
      rcases hrest.cases with rfl | ⟨c, more, rfl, -⟩
      · rfl
      · rw [skipDigits, hrest.digitOf?]
        rfl
    rw [hdigits] at hread ⊢
    unfold magnitude
    split
    · next heq => cases heq; exact absurd rfl hc
    · next piece more _ heq =>
      obtain rfl : some c = piece := (List.cons.inj heq).1
      have hdigit? : (digitOf? (some c)).isNone = false := by
        rw [Json.digitOf?]
        simpa using hdigit
      rw [hdigit?, hread]
      simp only [hskip, Bool.false_eq_true, if_false, if_true]
    · next heq => cases heq

theorem isNumberStart_of_digit {c : Char} (h : (Decimal.digitValue? c).isSome) :
    isNumberStart c = true := by
  rw [isNumberStart, h, Bool.or_true]

theorem isBlank_of_digit {c : Char} (h : (Decimal.digitValue? c).isSome) :
    isBlank (some c) = false := by
  unfold isBlank
  simp only [Bool.or_eq_false_iff, beq_eq_false_iff_ne, ne_eq, Option.some.injEq]
  refine ⟨⟨⟨?_, ?_⟩, ?_⟩, ?_⟩ <;> rintro rfl <;> exact absurd h (by decide)

/-- A written number is read as a number. -/
theorem numeralOr_digits (wanted : String) {n : Nat} (hfits : n < wordLimit) {rest : Input}
    (hrest : Ends rest) :
    numeralOr wanted ((Decimal.digits n).map some ++ rest) = .ok (.natural n, rest) := by
  have hnumber := (magnitude_digits false hfits hrest).trans (numberRest_of_ends false n hrest)
  obtain ⟨c, cs, hdigits, hdigit, -⟩ := head_digits n
  have hsign : c ≠ '-' := by rintro rfl; exact absurd hdigit (by decide)
  rw [hdigits, List.map_cons, List.cons_append] at hnumber ⊢
  rw [numeralOr, skipBlanks_cons (isBlank_of_digit hdigit)]
  simp only [isNumberStart_of_digit hdigit, if_true]
  unfold numeral
  split
  · next heq => cases heq; exact absurd rfl hsign
  · exact hnumber

/-- A written negative number is read as one. -/
theorem numeralOr_negative (wanted : String) {n : Nat} (hpos : 0 < n)
    (hfits : n ≤ 9223372036854775808) {rest : Input} (hrest : Ends rest) :
    numeralOr wanted (some '-' :: ((Decimal.digits n).map some ++ rest)) =
      .ok (.negative n, rest) := by
  have hword : n < wordLimit := Nat.lt_of_le_of_lt hfits (by decide)
  rw [numeralOr, skipBlanks_cons (by decide)]
  refine (magnitude_digits true hword hrest).trans ((numberRest_of_ends true n hrest).trans ?_)
  rw [if_neg (by decide), if_pos ⟨hpos, hfits⟩]

theorem reads_natural (wanted : String) {n : Nat} (hfits : n < wordLimit) :
    Reads (natural wanted) (Write.natural n) n := by
  intro rest hrest
  rw [natural, Write.natural, numeralOr_digits wanted hfits hrest]
  rfl

theorem reads_integer {z : Int} (hlow : -9223372036854775808 ≤ z)
    (hhigh : z < 9223372036854775808) : Reads integer (Write.integer z) z := by
  intro rest hrest
  rw [integer, Write.integer]
  by_cases hsign : z < 0
  · have hsame : -(z.natAbs : Int) = z := by omega
    rw [if_pos hsign, Write.natural, List.map_cons, List.cons_append,
      numeralOr_negative "i64" (by omega) (by omega) hrest]
    exact congrArg (fun z => Except.ok (z, rest)) hsame
  · have hsame : (z.natAbs : Int) = z := by omega
    have hword : z.natAbs < wordLimit := by unfold wordLimit; omega
    rw [if_neg hsign, Write.natural, numeralOr_digits "i64" hword hrest]
    change (if z.natAbs < 9223372036854775808 then _ else _) = _
    rw [if_pos (by omega)]
    exact congrArg (fun z => Except.ok (z, rest)) hsame

/-! ## Arrays -/

/-- Texts that follow others, each after a comma. -/
def Write.followed (texts : List (List Char)) : List Char := texts.flatMap fun cs => ',' :: cs

theorem separated_cons (first : List Char) (more : List (List Char)) :
    Write.separated (first :: more) = first ++ Write.followed more := by
  induction more generalizing first with
  | nil => rw [Write.separated, Write.followed, List.flatMap_nil, List.append_nil]
  | cons second more ih =>
    rw [Write.separated, ih, Write.followed, Write.followed, List.flatMap_cons, List.cons_append]
    exact List.cons_ne_nil _ _

/-- Between texts there are commas, so there are not many more texts than characters. -/
theorem length_le_separated (texts : List (List Char)) :
    texts.length ≤ (Write.separated texts).length + 1 := by
  have hfollowed (more : List (List Char)) : more.length ≤ (Write.followed more).length := by
    induction more with
    | nil => exact Nat.le_refl _
    | cons cs more ih =>
      rw [Write.followed] at ih ⊢
      simp only [List.flatMap_cons, List.cons_append, List.length_cons, List.length_append]
      omega
  cases texts with
  | nil => exact Nat.zero_le _
  | cons first more =>
    have := hfollowed more
    simp only [separated_cons, List.length_cons, List.length_append]
    omega

/-- What follows a value among others ends it. -/
theorem ends_followed (texts : List (List Char)) {close : Char}
    (hclose : close = ']' ∨ close = '\x7d') (rest : Input) :
    Ends ((Write.followed texts ++ [close]).map some ++ rest) := by
  cases texts with
  | nil => exact ends_cons (.inr hclose)
  | cons first more => exact ends_cons (.inl rfl)

section Arrays

variable {α : Type} {item : Reader α} {write : α → List Char}

/-- An item of an array begins with something that is no blank and no part of the array. -/
def Opens (chars : List Char) : Prop :=
  ∃ c more, chars = c :: more ∧ isBlank (some c) = false ∧ c ≠ ',' ∧ c ≠ ']'

theorem itemsRest_followed {values : List α}
    (hread : ∀ a ∈ values, Opens (write a) ∧ Reads item (write a) a) {fuel : Nat}
    (hfuel : values.length < fuel) (rest : Input) :
    itemsRest item fuel false ((Write.followed (values.map write) ++ [']']).map some ++ rest) =
      .ok (values, rest) := by
  induction values generalizing fuel with
  | nil =>
    obtain ⟨fuel, rfl⟩ := exists_eq_succ_of_lt hfuel
    rfl
  | cons a values ih =>
    obtain ⟨fuel, rfl⟩ := exists_eq_succ_of_lt hfuel
    obtain ⟨⟨c, more, hopens, hblank, -, hclose⟩, hitem⟩ := hread a List.mem_cons_self
    have hthis := hitem _ (ends_followed (values.map write) (.inl rfl) rest)
    have hnext := ih (fun b hb => hread b (List.mem_cons_of_mem a hb))
      (Nat.lt_of_succ_lt_succ hfuel)
    have hinput : (Write.followed ((a :: values).map write) ++ [']']).map some ++ rest =
        some ',' :: ((write a).map some ++
          ((Write.followed (values.map write) ++ [']']).map some ++ rest)) := by
      simp [Write.followed]
    rw [hinput, itemsRest, skipBlanks_cons (by decide)]
    rw [hopens, List.map_cons, List.cons_append] at hthis ⊢
    simp only [Bool.false_eq_true, if_false]
    rw [skipBlanks_cons hblank, if_neg (by simpa using hclose)]
    simp only [hthis, hnext, bind, Except.bind]

theorem itemsRest_separated {values : List α}
    (hread : ∀ a ∈ values, Opens (write a) ∧ Reads item (write a) a) {fuel : Nat}
    (hfuel : values.length < fuel) (rest : Input) :
    itemsRest item fuel true ((Write.separated (values.map write) ++ [']']).map some ++ rest) =
      .ok (values, rest) := by
  obtain ⟨fuel, rfl⟩ := exists_eq_succ_of_lt hfuel
  cases values with
  | nil => rfl
  | cons a values =>
    obtain ⟨⟨c, more, hopens, hblank, hcomma, hclose⟩, hitem⟩ := hread a List.mem_cons_self
    have hthis := hitem _ (ends_followed (values.map write) (.inl rfl) rest)
    have hnext := itemsRest_followed (fun b hb => hread b (List.mem_cons_of_mem a hb))
      (Nat.lt_of_succ_lt_succ hfuel) rest
    have hinput : (Write.separated ((a :: values).map write) ++ [']']).map some ++ rest =
        (write a).map some ++
          ((Write.followed (values.map write) ++ [']']).map some ++ rest) := by
      rw [List.map_cons, separated_cons, List.append_assoc, List.map_append, List.append_assoc]
    rw [hinput, itemsRest]
    rw [hopens, List.map_cons, List.cons_append] at hthis ⊢
    rw [skipBlanks_cons hblank]
    split
    · next heq => cases heq; exact absurd rfl hclose
    · next heq => cases heq; exact absurd rfl hcomma
    · simp only [if_true, hthis, hnext, bind, Except.bind]

/-- Values that read back one by one read back as an array. -/
theorem reads_list {values : List α}
    (hread : ∀ a ∈ values, Opens (write a) ∧ Reads item (write a) a) :
    Reads (list item) (Write.array (values.map write)) values := by
  intro rest _
  have hsize := length_le_separated (values.map write)
  rw [List.length_map] at hsize
  rw [list, Write.array, List.cons_append, List.map_cons, List.cons_append,
    skipBlanks_cons (by decide)]
  refine itemsRest_separated hread ?_ rest
  simp only [List.length_append, List.length_map, List.length_singleton]
  omega

end Arrays

/-! ## Objects -/

/-- A member of an object. -/
def Write.member (m : String × List Char) : List Char := Write.text m.1 ++ ':' :: m.2

theorem object_eq (members : List (String × List Char)) :
    Write.object members =
      '\x7b' :: (Write.separated (members.map Write.member) ++ ['\x7d']) := rfl

section Objects

variable {α : Type} {step : α → String → Reader α}

/-- Members that are read one after the other, from one state to another. -/
inductive Steps (step : α → String → Reader α) : α → List (String × List Char) → α → Prop
  | done (a : α) : Steps step a [] a
  | read {a b c : α} {key : String} {chars : List Char} {more : List (String × List Char)}
      (first : Reads (step a key) (':' :: chars) b) (rest : Steps step b more c) :
      Steps step a ((key, chars) :: more) c

theorem membersRest_followed {a c : α} {members : List (String × List Char)}
    (h : Steps step a members c) {fuel : Nat} (hfuel : members.length < fuel) (rest : Input) :
    membersRest step fuel false a
        ((Write.followed (members.map Write.member) ++ ['\x7d']).map some ++ rest) =
      .ok (c, rest) := by
  induction h generalizing fuel with
  | done a =>
    obtain ⟨fuel, rfl⟩ := exists_eq_succ_of_lt hfuel
    rfl
  | @read a b c key chars more first _ ih =>
    obtain ⟨fuel, rfl⟩ := exists_eq_succ_of_lt hfuel
    have hkey := quotedText_text key
    have hfirst := first _ (ends_followed (more.map Write.member) (.inr rfl) rest)
    have hnext := ih (Nat.lt_of_succ_lt_succ hfuel)
    have hinput : (Write.followed (((key, chars) :: more).map Write.member) ++
          ['\x7d']).map some ++ rest =
        some ',' :: some '"' :: ((key.toList.flatMap Write.character ++ ['"']).map some ++
          ((':' :: chars).map some ++
            ((Write.followed (more.map Write.member) ++ ['\x7d']).map some ++ rest))) := by
      simp [Write.followed, Write.member, Write.text]
    rw [hinput, membersRest, skipBlanks_cons (by decide)]
    simp only [Bool.false_eq_true, if_false]
    rw [skipBlanks_cons (by decide)]
    simp only [hkey, hfirst, hnext, bind, Except.bind]

/-- An object is read member by member. -/
theorem membersRest_object {a c : α} {members : List (String × List Char)}
    (h : Steps step a members c) {fuel : Nat} (hfuel : members.length < fuel) (rest : Input) :
    membersRest step fuel true a
        ((Write.separated (members.map Write.member) ++ ['\x7d']).map some ++ rest) =
      .ok (c, rest) := by
  obtain ⟨fuel, rfl⟩ := exists_eq_succ_of_lt hfuel
  cases h with
  | done => rfl
  | @read _ b _ key chars more first hmore =>
    have hkey := quotedText_text key
    have hfirst := first _ (ends_followed (more.map Write.member) (.inr rfl) rest)
    have hnext := membersRest_followed hmore (Nat.lt_of_succ_lt_succ hfuel) rest
    have hinput : (Write.separated (((key, chars) :: more).map Write.member) ++
          ['\x7d']).map some ++ rest =
        some '"' :: ((key.toList.flatMap Write.character ++ ['"']).map some ++
          ((':' :: chars).map some ++
            ((Write.followed (more.map Write.member) ++ ['\x7d']).map some ++ rest))) := by
      simp [separated_cons, Write.member, Write.text]
    rw [hinput, membersRest, skipBlanks_cons (by decide)]
    simp only [if_true, hkey, hfirst, hnext, bind, Except.bind]

end Objects

theorem length_lt_object (members : List (String × List Char)) (rest : Input) :
    members.length < ((Write.separated (members.map Write.member) ++ ['\x7d']).map some ++
      rest).length + 1 := by
  have hsize := length_le_separated (members.map Write.member)
  rw [List.length_map] at hsize
  simp only [List.length_append, List.length_map, List.length_singleton]
  omega

theorem colon_cons (input : Input) : colon (some ':' :: input) = .ok input := rfl

/-- Texts by name read back as a table of them. -/
theorem reads_dictionary (entries : List (String × String)) :
    Reads dictionary (Write.object (entries.map fun (key, value) => (key, Write.text value)))
      (Ordered.ofList Ordered.textBefore entries) := by
  have hsteps (entries table : List (String × String)) :
      Steps entry table (entries.map fun (key, value) => (key, Write.text value))
        (entries.foldl (fun table e => Ordered.insert Ordered.textBefore e.1 e.2 table) table) := by
    induction entries generalizing table with
    | nil => exact .done table
    | cons e entries ih =>
      refine .read (fun rest hrest => ?_) (ih _)
      rw [entry, List.map_cons, List.cons_append, colon_cons]
      simp only [bind, Except.bind, reads_text e.2 rest hrest]
  intro rest _
  rw [dictionary, object_eq, List.map_cons, List.cons_append, skipBlanks_cons (by decide)]
  exact membersRest_object (hsteps entries []) (length_lt_object _ rest) rest

/-! ## Records -/

section Records

variable {α : Type} {put : α → String → Reader α}

/-- Fields that are put into a draft one after the other. -/
inductive Puts (put : α → String → Reader α) : α → List (String × List Char) → α → Prop
  | done (draft : α) : Puts put draft [] draft
  | put {draft next final : α} {name : String} {chars : List Char}
      {more : List (String × List Char)} (first : Reads (put draft name) chars next)
      (rest : Puts put next more final) : Puts put draft ((name, chars) :: more) final

/-- Fields that are known and come once are put into the draft. -/
theorem Puts.steps {draft final : α} {members : List (String × List Char)}
    (h : Puts put draft members final) {names seen : List String}
    (hknown : ∀ name ∈ members.map Prod.fst, name ∈ names)
    (honce : (members.map Prod.fst).Nodup) (hnew : ∀ name ∈ members.map Prod.fst, name ∉ seen) :
    Steps (fieldStep names put) (draft, seen) members
      (final, (members.map Prod.fst).reverse ++ seen) := by
  induction h generalizing seen with
  | done draft => exact .done (draft, seen)
  | @put draft next final name chars more first _ ih =>
    simp only [List.map_cons, List.mem_cons, forall_eq_or_imp, List.nodup_cons] at hknown honce hnew
    obtain ⟨hfirst, hrest⟩ := honce
    have hfresh : seen.contains name = false := by simpa using hnew.1
    have hstep : Reads (fieldStep names put (draft, seen) name) (':' :: chars)
        (next, name :: seen) := by
      intro rest hends
      rw [fieldStep, if_pos (List.contains_iff_mem.2 hknown.1)]
      simp only [hfresh, Bool.false_eq_true, if_false, List.map_cons, List.cons_append, colon_cons,
        bind, Except.bind, first rest hends]
    have hmore : ∀ other ∈ more.map Prod.fst, other ∉ name :: seen := by
      intro other hother hseen
      rcases List.mem_cons.1 hseen with rfl | hseen
      · exact hfirst hother
      · exact hnew.2 other hother hseen
    have hsteps := Steps.read hstep (ih hknown.2 hrest hmore)
    simpa using hsteps

/-- A record whose fields are written in their order reads back. -/
theorem reads_record {draft final : α} {members : List (String × List Char)} {names : List String}
    (title : String) (h : Puts put draft members final) (hnames : members.map Prod.fst = names)
    (honce : names.Nodup) :
    Reads (record title names draft put) (Write.object members) final := by
  subst hnames
  intro rest _
  have hsteps : Steps (fieldStep (members.map Prod.fst) put) (draft, []) members
      (final, (members.map Prod.fst).reverse ++ []) :=
    h.steps (fun _ hname => hname) honce fun _ _ => List.not_mem_nil
  have hmembers := membersRest_object hsteps (length_lt_object members rest) rest
  have hall : ((members.map Prod.fst).find? fun name =>
      !((members.map Prod.fst).reverse ++ []).contains name) = none := by
    refine List.find?_eq_none.2 fun name hname => ?_
    simpa using List.mem_map.1 hname
  rw [record, object_eq, List.map_cons, List.cons_append, skipBlanks_cons (by decide)]
  simp only [hmembers, bind, Except.bind, hall]

end Records

/-- A text that reads back as a value does so as a whole. -/
theorem whole_of_reads {α : Type} {reader : Reader α} {chars : List Char} {a : α}
    (h : Reads reader chars a) : whole reader (chars.map some) = .ok a := by
  have hread := h [] ends_nil
  rw [List.append_nil] at hread
  rw [whole, hread]
  rfl

/-! ## No control characters -/

/-- Characters none of which is a control character, so that they are one line. -/
def Plain (chars : List Char) : Prop := ∀ c ∈ chars, 0x20 ≤ c.toNat

theorem plain_append {cs ds : List Char} : Plain (cs ++ ds) ↔ Plain cs ∧ Plain ds := by
  simp only [Plain, List.mem_append, or_imp, forall_and]

theorem plain_cons {c : Char} {cs : List Char} : Plain (c :: cs) ↔ 0x20 ≤ c.toNat ∧ Plain cs := by
  simp only [Plain, List.mem_cons, forall_eq_or_imp]

theorem plain_nil : Plain [] := fun _ h => absurd h List.not_mem_nil

theorem plain_character (c : Char) : Plain (Write.character c) := by
  have hhex {digit : Nat} (h : digit < 16) : 0x20 ≤ (Text.hexDigit digit).toNat := by
    have hall : ∀ d : Fin 16, 0x20 ≤ (Text.hexDigit d.val).toNat := by decide
    exact hall ⟨digit, h⟩
  unfold Write.character
  split_ifs with hquote hslash hback htab hline hfeed hreturn hcontrol
  rotate_left 7
  · simp only [plain_cons, plain_nil, and_true, hhex (show c.toNat / 16 < 16 by omega),
      hhex (show c.toNat % 16 < 16 by omega)]
    decide
  · exact plain_cons.2 ⟨Nat.le_of_not_lt hcontrol, plain_nil⟩
  all_goals
    simp only [plain_cons, plain_nil, and_true]
    decide

theorem plain_flatMap {α : Type} {write : α → List Char} {as : List α}
    (h : ∀ a ∈ as, Plain (write a)) : Plain (as.flatMap write) := by
  intro c hc
  obtain ⟨a, ha, hmem⟩ := List.mem_flatMap.1 hc
  exact h a ha c hmem

theorem plain_text (s : String) : Plain (Write.text s) := by
  have hchars : Plain (s.toList.flatMap Write.character) :=
    plain_flatMap fun c _ => plain_character c
  simp only [Write.text, plain_cons, plain_append, hchars, plain_nil, and_true]
  decide

theorem plain_natural (n : Nat) : Plain (Write.natural n) := by
  have hdigit {digit : Nat} (h : digit < 10) : Plain [Decimal.digitChar digit] := by
    have hall : ∀ d : Fin 10, 0x20 ≤ (Decimal.digitChar d.val).toNat := by decide
    exact plain_cons.2 ⟨hall ⟨digit, h⟩, plain_nil⟩
  rw [Write.natural]
  induction n using Decimal.digits.induct with
  | case1 n h =>
    rw [Decimal.digits, if_pos h]
    exact hdigit h
  | case2 n h ih =>
    rw [Decimal.digits, if_neg h]
    exact plain_append.2 ⟨ih, hdigit (Nat.mod_lt n (by decide))⟩

theorem plain_integer (z : Int) : Plain (Write.integer z) := by
  rw [Write.integer]
  split
  · exact plain_cons.2 ⟨by decide, plain_natural _⟩
  · exact plain_natural _

theorem plain_separated {texts : List (List Char)} (h : ∀ cs ∈ texts, Plain cs) :
    Plain (Write.separated texts) := by
  cases texts with
  | nil => exact plain_nil
  | cons first more =>
    rw [separated_cons, plain_append]
    refine ⟨h first List.mem_cons_self, plain_flatMap fun cs hcs => plain_cons.2 ⟨by decide, ?_⟩⟩
    exact h cs (List.mem_cons_of_mem first hcs)

theorem plain_array {items : List (List Char)} (h : ∀ cs ∈ items, Plain cs) :
    Plain (Write.array items) :=
  plain_append.2 ⟨plain_cons.2 ⟨by decide, plain_separated h⟩, plain_cons.2 ⟨by decide, plain_nil⟩⟩

theorem plain_object {members : List (String × List Char)} (h : ∀ m ∈ members, Plain m.2) :
    Plain (Write.object members) := by
  have hmember : ∀ cs ∈ members.map Write.member, Plain cs := by
    intro cs hcs
    obtain ⟨m, hm, rfl⟩ := List.mem_map.1 hcs
    exact plain_append.2 ⟨plain_text m.1, plain_cons.2 ⟨by decide, h m hm⟩⟩
  rw [object_eq]
  exact plain_cons.2 ⟨by decide,
    plain_append.2 ⟨plain_separated hmember, plain_cons.2 ⟨by decide, plain_nil⟩⟩⟩

end Json
end LoadRamp
