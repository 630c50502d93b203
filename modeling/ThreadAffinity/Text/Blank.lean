/-!
Blank characters and trimming.

A character is blank when it has the Unicode property `White_Space`: 25 code points, of which six
are ASCII. Trimming drops the blanks at both ends of a text and keeps those inside it. -/

namespace ThreadAffinity.Text

/-- The characters with the property `White_Space`. -/
def isBlank (c : Char) : Bool :=
  let n := c.toNat
  (0x09 ≤ n && n ≤ 0x0D) || n == 0x20 || n == 0x85 || n == 0xA0 || n == 0x1680 ||
    (0x2000 ≤ n && n ≤ 0x200A) || n == 0x2028 || n == 0x2029 || n == 0x202F || n == 0x205F ||
    n == 0x3000

/-- The list without its trailing blanks. -/
def dropTrailingBlanks (cs : List Char) : List Char :=
  (cs.reverse.dropWhile isBlank).reverse

/-- The list without the blanks at its two ends. -/
def trimBlanks (cs : List Char) : List Char :=
  dropTrailingBlanks (cs.dropWhile isBlank)

/-- The text without the blanks at its two ends. -/
def trim (s : String) : String := String.ofList (trimBlanks s.toList)

end ThreadAffinity.Text
