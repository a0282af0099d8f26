/-!
# Blanks

A *blank* is a character with the Unicode property `White_Space`. Labels,
settings and engine output are trimmed of blanks before they are read. The
property leaves out the separators U+001C to U+001F, so a field separator of a
listing is never trimmed away, and the zero-width characters.
-/

namespace ContainerJobs.Text

/-- The character has the property `White_Space`. -/
def isBlank (c : Char) : Bool :=
  let n := c.toNat
  (0x09 ≤ n && n ≤ 0x0D) || n == 0x20 || n == 0x85 || n == 0xA0 || n == 0x1680 ||
    (0x2000 ≤ n && n ≤ 0x200A) || n == 0x2028 || n == 0x2029 || n == 0x202F ||
    n == 0x205F || n == 0x3000

/-- The list without its longest final part of elements satisfying `p`. -/
def dropEndWhile {α : Type} (p : α → Bool) (l : List α) : List α :=
  (l.reverse.dropWhile p).reverse

/-- The text without its leading blanks. -/
def skipBlanks (l : List Char) : List Char :=
  l.dropWhile isBlank

/-- The text without leading and trailing blanks. -/
def trimmed (l : List Char) : List Char :=
  dropEndWhile isBlank (skipBlanks l)

/-- The string without leading and trailing blanks. -/
def trim (s : String) : String :=
  String.ofList (trimmed s.toList)

/-- Nothing but blanks, or nothing at all. -/
def isBlankText (s : String) : Bool :=
  s.toList.all isBlank

@[simp] theorem toList_trim (s : String) : (trim s).toList = trimmed s.toList := by
  simp [trim]

/-- The ASCII letters in lower case; all other characters stay. -/
def asciiLower (s : String) : String :=
  String.ofList (s.toList.map Char.toLower)

/-- The ASCII letters in upper case; all other characters stay. -/
def asciiUpper (s : String) : String :=
  String.ofList (s.toList.map Char.toUpper)

end ContainerJobs.Text
