import LoadRamp.Text.CellTables
import LoadRamp.Text.Combining

/-!
# The width of text in terminal cells

A character takes no cell, one cell or two.  Two kinds of sequence take less
than their characters: pictures that show as one take two cells, and letters
that join to a single shape take one.
-/

namespace LoadRamp
namespace Text

/-- The cells of a character that stands by itself.  A control character takes
one, and one sign is three cells wide. -/
def charWidth (c : Char) : Nat :=
  if c.toNat < 0x7F then 1
  else if c.toNat = 0x17D8 then 3
  else if isCombining c && c.toNat != 0x2D7F || inRanges ignorableRanges c.toNat then 0
  else if inRanges wideRanges c.toNat then 2
  else 1

/-! ## Pictures -/

def isPicture (c : Char) : Bool := 0x7F < c.toNat && inRanges pictureRanges c.toNat

def isSkinTone (c : Char) : Bool := 0x1F3FB ≤ c.toNat && c.toNat ≤ 0x1F3FF

/-- How many characters after `c` make one picture with it, if `c` begins one: the
variation selector U+FE0F or a skin tone. -/
def pictureTail? (c : Char) (rest : List Char) : Option Nat :=
  match rest with
  | next :: _ =>
    if next.toNat = 0xFE0F ∧
        (isPicture c || inRanges pictureOnRequestRanges c.toNat) then some 1
    else if isSkinTone next && inRanges modifierBaseRanges c.toNat then some 1
    else if isPicture c && next.toNat != 0xFE0E then some 0
    else none
  | [] => if isPicture c then some 0 else none

/-- How many characters after the first ones continue a picture by joining. -/
def joinedTail : Nat → List Char → Nat
  | fuel + 1, joiner :: c :: rest =>
    if joiner.toNat = 0x200D then
      match pictureTail? c rest with
      | some more => 2 + more + joinedTail fuel (rest.drop more)
      | none => 0
    else 0
  | _, _ => 0

/-! ## Letters that join -/

/-- The letters of Arabic that join an alef after them. -/
def isLam (c : Char) : Bool :=
  inRanges [(0x644, 0x644), (0x6B5, 0x6B8), (0x76A, 0x76A), (0x8A6, 0x8A6), (0x8C7, 0x8C7)] c.toNat

/-- The alefs of Arabic. -/
def isAlef (c : Char) : Bool :=
  inRanges [(0x622, 0x623), (0x625, 0x625), (0x627, 0x627), (0x671, 0x673), (0x675, 0x675),
    (0x773, 0x774), (0x870, 0x882)] c.toNat

/-- The letters of Khmer that can be written below another. -/
def isSubscript (c : Char) : Bool :=
  inRanges [(0x1780, 0x1782), (0x1784, 0x1787), (0x1789, 0x178C), (0x178E, 0x1793),
    (0x1795, 0x1798), (0x179B, 0x179D), (0x17A0, 0x17A0), (0x17A2, 0x17A2), (0x17A7, 0x17A7),
    (0x17AB, 0x17AC), (0x17AF, 0x17AF)] c.toNat

/-- The consonants of Tifinagh. -/
def isTifinagh (c : Char) : Bool := inRanges [(0x2D31, 0x2D65), (0x2D6F, 0x2D6F)] c.toNat

def isLisuTone (c : Char) : Bool := 0xA4F8 ≤ c.toNat && c.toNat ≤ 0xA4FB

/-- A sequence with one shape, from its first character: its cells, and how many
characters it has after the first. -/
def joined? (c : Char) (rest : List Char) : Option (Nat × Nat) :=
  if isLam c then
    let marks := rest.takeWhile fun m => isCombining m && m.toNat != 0x200C
    match rest.drop marks.length with
    | alef :: _ => if isAlef alef then some (1, marks.length + 1) else none
    | [] => none
  else
    match c.toNat, rest with
    | 0x17D2, letter :: _ => if isSubscript letter then some (0, 1) else none
    | 0x5D0, '\u200d' :: '\u05dc' :: _ => some (1, 2)
    | 0x10C32, '\u200d' :: last :: _ => if last.toNat = 0x10C03 then some (1, 2) else none
    | 0x1A15, '\u1a17' :: '\u200d' :: '\u1a10' :: _ => some (1, 3)
    | _, between :: last :: _ =>
      if isTifinagh c && isTifinagh last && (between = '\u200d' || between = '\u2d7f') then
        some (1, 2)
      else if isLisuTone c && (between = '\ua4fc' || between = '\ua4fd') then some (1, 1)
      else none
    | _, [last] =>
      if isLisuTone c && (last = '\ua4fc' || last = '\ua4fd') then some (1, 1) else none
    | _, [] => none

/-- The cells of a character that begins no sequence, given what follows it: a
carriage return takes none before a line feed, and U+FE0E turns a picture into a
letter of one cell. -/
def aloneWidth (c : Char) (rest : List Char) : Nat :=
  if c = '\r' ∧ rest.head? = some '\n' then 0
  else if isPicture c then 1
  else charWidth c

/-- The cells of a text. -/
def widthOf : List Char → Nat
  | [] => 0
  | c :: rest =>
    match pictureTail? c rest with
    | some more =>
      let after := rest.drop more
      2 + widthOf (after.drop (joinedTail after.length after))
    | none =>
      match joined? c rest with
      | some (cells, more) => cells + widthOf (rest.drop more)
      | none => aloneWidth c rest + widthOf rest
termination_by cs => cs.length
decreasing_by all_goals simp only [List.length_drop, List.length_cons]; omega

def width (s : String) : Nat := widthOf s.toList

end Text
end LoadRamp
