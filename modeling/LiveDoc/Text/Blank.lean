/-!
# Blank characters

The Unicode white space together with the four ASCII separators, and trimming and splitting by them. What
may stand around a number is blank, but no such separator.
-/

namespace LiveDoc.Text

/-- Whether a character separates words. -/
def isBlank (c : Char) : Bool :=
  let n := c.toNat
  (9 ≤ n && n ≤ 13) || (28 ≤ n && n ≤ 32) || n == 0x85 || n == 0xA0 || n == 0x1680 ||
    (0x2000 ≤ n && n ≤ 0x200A) || n == 0x2028 || n == 0x2029 || n == 0x202F || n == 0x205F ||
    n == 0x3000

/-- Whether a blank may stand around a number. -/
def isGap (c : Char) : Bool := isBlank c && !(28 ≤ c.toNat && c.toNat ≤ 31)

theorem isGap_of_visible {c : Char} (visible : isBlank c = false) : isGap c = false := by
  rw [isGap, visible, Bool.false_and]

/-- A text without its leading blanks. -/
def trimLeft (cs : List Char) : List Char := cs.dropWhile isBlank

/-- A text without the characters of a kind at either end. -/
def strip (kind : Char → Bool) (cs : List Char) : List Char :=
  ((cs.dropWhile kind).reverse.dropWhile kind).reverse

/-- A text without the blanks at either end. -/
def trim (cs : List Char) : List Char := strip isBlank cs

theorem dropWhile_of_head {kind : Char → Bool} {cs : List Char}
    (other : ∀ c, cs.head? = some c → kind c = false) : cs.dropWhile kind = cs := by
  cases cs with
  | nil => rfl
  | cons c cs => simp [other c rfl]

/-- A text with other characters at its ends stays as it is. -/
theorem strip_of_ends {kind : Char → Bool} {cs : List Char}
    (first : ∀ c, cs.head? = some c → kind c = false)
    (last : ∀ c, cs.getLast? = some c → kind c = false) : strip kind cs = cs := by
  rw [strip, dropWhile_of_head first, dropWhile_of_head (by simpa using last), List.reverse_reverse]

/-- Collects words: `word` holds the characters of the current one, last first. -/
def wordsFrom : List Char → List Char → List (List Char)
  | word, [] => if word.isEmpty then [] else [word.reverse]
  | word, c :: rest =>
    if isBlank c then (if word.isEmpty then [] else [word.reverse]) ++ wordsFrom [] rest
    else wordsFrom (c :: word) rest

/-- The words of a text, separated by blanks. -/
def words (cs : List Char) : List (List Char) := wordsFrom [] cs

/-- Splits at every occurrence of a character; there is always one piece more than there are
occurrences. -/
def splitAt (sep : Char) : List Char → List (List Char)
  | [] => [[]]
  | c :: rest =>
    let pieces := splitAt sep rest
    if c = sep then [] :: pieces
    else (c :: pieces.headD []) :: pieces.tail

/-- Strips a leading text, if it is there. -/
def stripLeading? : List Char → List Char → Option (List Char)
  | [], cs => some cs
  | _ :: _, [] => none
  | p :: ps, c :: cs => if p = c then stripLeading? ps cs else none

end LiveDoc.Text
