/-!
# Blanks in text

Two notions of blank are in use. Around a line, a number or a setting, every character with the
Unicode property White_Space counts (`isBlank`, `trim`). Between the words of a command only the five
ASCII blanks do (`isGap`, `words`); the vertical tab and the wide blanks then belong to a word.
-/

namespace DiskArray.Text

/-- The characters with the Unicode property White_Space. -/
def isBlank (c : Char) : Bool :=
  let n := c.toNat
  (9 ≤ n && n ≤ 13) || n == 0x20 || n == 0x85 || n == 0xA0 || n == 0x1680 ||
    (0x2000 ≤ n && n ≤ 0x200A) || n == 0x2028 || n == 0x2029 || n == 0x202F || n == 0x205F || n == 0x3000

/-- The characters left when the blanks at both ends are dropped. -/
def trimChars (cs : List Char) : List Char :=
  ((cs.dropWhile isBlank).reverse.dropWhile isBlank).reverse

/-- The text without the blanks at its two ends. -/
def trim (s : String) : String := String.ofList (trimChars s.toList)

/-- The blanks that separate words: space, tab, line feed, form feed and carriage return. -/
def isGap (c : Char) : Bool :=
  c == ' ' || c == '\t' || c == '\n' || c == '\x0c' || c == '\r'

/-- The longest runs of characters without a gap, in order. -/
def wordsOfChars (cs : List Char) : List (List Char) :=
  match cs with
  | [] => []
  | c :: rest =>
    if isGap c then wordsOfChars rest
    else (c :: rest.takeWhile (!isGap ·)) :: wordsOfChars (rest.dropWhile (!isGap ·))
termination_by cs.length
decreasing_by
  · simp
  · have := (List.dropWhile_sublist (p := (!isGap ·)) (l := rest)).length_le
    simp only [List.length_cons]
    omega

/-- The words of a text. -/
def words (s : String) : List String := (wordsOfChars s.toList).map String.ofList

end DiskArray.Text
