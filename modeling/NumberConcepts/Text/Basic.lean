/-!
# Characters and words

Unicode properties are kept as closed ranges of code points. White space is the
property of that name; words are also separated by the four information
separators U+001C to U+001F. The decimal digits of all scripts, a category of
Unicode 14, come in runs of ten, from the digit zero to the digit nine of one
script.
-/

namespace NumberConcepts.Text

/-! ### Classes of characters -/

/-- The first and the last code point of a range. -/
abbrev CharRange := Nat × Nat

/-- The character lies in one of the ranges. -/
def inRanges (ranges : Array CharRange) (c : Char) : Bool :=
  ranges.any fun (first, last) => first ≤ c.toNat && c.toNat ≤ last

/-- The code points of white space. -/
def whitespaceRanges : Array CharRange :=
  #[(0x09, 0x0d), (0x20, 0x20), (0x85, 0x85), (0xa0, 0xa0), (0x1680, 0x1680), (0x2000, 0x200a),
    (0x2028, 0x2029), (0x202f, 0x202f), (0x205f, 0x205f), (0x3000, 0x3000)]

/-- The character is white space. -/
def isWhite (c : Char) : Bool := inRanges whitespaceRanges c

/-- The character separates words. -/
def isSpace (c : Char) : Bool := isWhite c || (0x1c ≤ c.toNat && c.toNat ≤ 0x1f)

/-- The code points of the digits zero, in increasing order. -/
def digitZeros : List Nat :=
  [0x30, 0x660, 0x6f0, 0x7c0, 0x966, 0x9e6, 0xa66, 0xae6, 0xb66, 0xbe6, 0xc66, 0xce6, 0xd66,
   0xde6, 0xe50, 0xed0, 0xf20, 0x1040, 0x1090, 0x17e0, 0x1810, 0x1946, 0x19d0, 0x1a80, 0x1a90,
   0x1b50, 0x1bb0, 0x1c40, 0x1c50, 0xa620, 0xa8d0, 0xa900, 0xa9d0, 0xa9f0, 0xaa50, 0xabf0,
   0xff10, 0x104a0, 0x10d30, 0x11066, 0x110f0, 0x11136, 0x111d0, 0x112f0, 0x11450, 0x114d0,
   0x11650, 0x116c0, 0x11730, 0x118e0, 0x11950, 0x11c50, 0x11d50, 0x11da0, 0x16a60, 0x16ac0,
   0x16b50, 0x1d7ce, 0x1d7d8, 0x1d7e2, 0x1d7ec, 0x1d7f6, 0x1e140, 0x1e2f0, 0x1e950, 0x1fbf0]

/-- The value of a decimal digit of any script. -/
def digitValue? (c : Char) : Option Nat :=
  (digitZeros.find? fun start => start ≤ c.toNat && c.toNat < start + 10).map (c.toNat - ·)

/-! ### Words and fields -/

/-- The maximal runs of characters that are not separators, in order. -/
def splitWords (separates : Char → Bool) : List Char → List (List Char)
  | [] => []
  | c :: rest =>
    if separates c then splitWords separates rest
    else
      match rest, splitWords separates rest with
      | next :: _, word :: words => if separates next then [c] :: word :: words
          else (c :: word) :: words
      | _, words => [c] :: words

/-- The text without the characters of a class at either end. -/
def trim (drops : Char → Bool) (text : List Char) : List Char :=
  ((text.dropWhile drops).reverse.dropWhile drops).reverse

/-- The text at the right edge of a field of blanks; a text that is wider stays as it is. -/
def alignRight (width : Nat) (text : String) : String :=
  String.ofList (text.toList.leftpad width ' ')

/-- The text at the left edge of such a field. -/
def alignLeft (width : Nat) (text : String) : String :=
  String.ofList (text.toList.rightpad width ' ')

end NumberConcepts.Text
