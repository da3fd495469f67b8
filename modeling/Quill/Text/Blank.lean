/-!
# White space

The characters with the Unicode property White_Space, and the two questions asked about them:
whether a text is blank, and what is left of it without blanks at both ends.
-/

namespace Quill.Text

/-- The white space characters of Unicode. -/
def isBlank (character : Char) : Bool :=
  let code := character.toNat
  (9 ≤ code && code ≤ 13) || code == 0x20 || code == 0x85 || code == 0xA0 || code == 0x1680 ||
    (0x2000 ≤ code && code ≤ 0x200A) || code == 0x2028 || code == 0x2029 || code == 0x202F ||
    code == 0x205F || code == 0x3000

/-- Whether a text is empty or holds white space only. -/
def blank (text : String) : Bool :=
  text.toList.all isBlank

/-- Drop the white space at both ends. -/
def trim (characters : List Char) : List Char :=
  ((characters.dropWhile isBlank).reverse.dropWhile isBlank).reverse

end Quill.Text
