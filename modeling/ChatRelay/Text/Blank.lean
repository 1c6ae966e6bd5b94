/-!
# White space

Blank characters are those with the Unicode property `White_Space`. Trimming removes them at both
ends and keeps everything between; a text is blank when it holds nothing else.
-/

namespace ChatRelay.Text

/-- The twenty-five characters with the property `White_Space`. -/
def isBlank (c : Char) : Bool :=
  let n := c.toNat
  (0x9 ≤ n && n ≤ 0xD) || n == 0x20 || n == 0x85 || n == 0xA0 || n == 0x1680 ||
  (0x2000 ≤ n && n ≤ 0x200A) || n == 0x2028 || n == 0x2029 || n == 0x202F ||
  n == 0x205F || n == 0x3000

/-- Remove from both ends the characters that satisfy `p`. -/
def trimBy (p : Char → Bool) (cs : List Char) : List Char :=
  ((cs.dropWhile p).reverse.dropWhile p).reverse

/-- Remove blank characters at both ends. -/
def trim (s : String) : String :=
  .ofList (trimBy isBlank s.toList)

/-- No character but white space. -/
def isBlankText (s : String) : Bool :=
  s.toList.all isBlank

@[simp] theorem isBlankText_empty : isBlankText "" = true := rfl

end ChatRelay.Text
