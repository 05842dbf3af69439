/-! # Blank characters

The characters with the Unicode property White_Space, and cutting them off both ends of a text.
Characters that merely look empty (zero-width spaces, the byte order mark) are not blank.
-/

namespace HedgedForecast.Text

/-- The characters with the property White_Space. -/
def isBlank (c : Char) : Bool :=
  let n := c.toNat
  (9 ≤ n && n ≤ 13) || n == 32 || n == 0x85 || n == 0xA0 || n == 0x1680 ||
    (0x2000 ≤ n && n ≤ 0x200A) || n == 0x2028 || n == 0x2029 || n == 0x202F || n == 0x205F ||
    n == 0x3000

/-- Cuts blanks off both ends. -/
def trimBlanks (cs : List Char) : List Char :=
  ((cs.dropWhile isBlank).reverse.dropWhile isBlank).reverse

/-- Cuts blanks off both ends of a string. -/
def trim (s : String) : String :=
  String.ofList (trimBlanks s.toList)

@[simp] theorem toList_trim (s : String) : (trim s).toList = trimBlanks s.toList := by
  simp [trim]

end HedgedForecast.Text
