/-!
# Texts

What the program does with texts beyond what every text can do: blanks are trimmed from the ends,
a text is cut at a character, texts are put in order, and words are compared.

Some counts and orders are taken over the UTF-16 form of a text, in which a character past U+FFFF
is two units.  The order differs from the order by characters: U+1F600 begins with the unit D83D
and so comes before U+FF5E.
-/

namespace LinkScript.Text

/-! ## Blanks at the ends

The characters that are trimmed from the ends of a line of settings are the white space and line
terminators of Unicode, and the byte order mark.  U+0085, U+180E and U+200B are not among them. -/

/-- Whether a character is trimmed. -/
def isBlank (c : Char) : Bool :=
  let n := c.toNat
  (0x09 ≤ n && n ≤ 0x0D) || n == 0x20 || n == 0xA0 || n == 0x1680 || (0x2000 ≤ n && n ≤ 0x200A) ||
    n == 0x2028 || n == 0x2029 || n == 0x202F || n == 0x205F || n == 0x3000 || n == 0xFEFF

/-- The characters without the blank ones at the end. -/
def trimRight (chars : List Char) : List Char := (chars.reverse.dropWhile isBlank).reverse

/-- The characters without the blank ones at either end. -/
def trim (chars : List Char) : List Char := trimRight (chars.dropWhile isBlank)

/-! ## Cuts at a character

`splitAt` cuts at every occurrence of a character, so that a text with `n` of them has `n + 1`
parts, and `cutFirst` cuts at the first one. -/

/-- The parts between the occurrences of a character. -/
def splitAt (separator : Char) : List Char → List (List Char)
  | [] => [[]]
  | c :: rest =>
    if c = separator then [] :: splitAt separator rest
    else
      match splitAt separator rest with
      | [] => [[c]]
      | first :: others => (c :: first) :: others

/-- What stands before the first occurrence of a character and what stands behind it. -/
def cutFirst (separator : Char) : List Char → Option (List Char × List Char)
  | [] => none
  | c :: rest =>
    if c = separator then some ([], rest)
    else (cutFirst separator rest).map fun (before, behind) => (c :: before, behind)

/-! ## The order by units -/

/-- The UTF-16 units of a character. -/
def unitsOfChar (c : Char) : List Nat :=
  let n := c.toNat
  if n < 0x10000 then [n] else [0xD800 + (n - 0x10000) / 0x400, 0xDC00 + (n - 0x10000) % 0x400]

/-- The UTF-16 units of a text. -/
def units (text : String) : List Nat := text.toList.flatMap unitsOfChar

/-- Whether a text comes strictly before another in the order of units. -/
def precedes (a b : String) : Bool := (units a).lex (units b) (fun x y => decide (x < y))

/-- Texts in increasing order of units. -/
def sort (texts : List String) : List String := texts.mergeSort (fun a b => !precedes b a)

end LinkScript.Text

/-! ## Similar words

How far two words are apart, as the number of units to leave out, put in, change, or swap with a
neighbour to get from one to the other, where no unit is touched twice.  `nearest` picks the
words that are closest to a given one, as long as they are close at all. -/

namespace LinkScript.Text.Similarity

/-- The greatest distance of words that count as similar. -/
def maxDistance : Nat := 3

/-- The distance of the first `i` units of a word from the first `j` units of another, from the
rows of smaller `i` and the part of the row for smaller `j`. -/
def cell (a b : Array Nat) (rows : Array (Array Nat)) (row : Array Nat) (i j : Nat) : Nat :=
  if i = 0 then j
  else if j = 0 then i
  else
    let above (i j : Nat) : Nat := (rows.getD i #[]).getD j 0
    let change := if a.getD (i - 1) 0 = b.getD (j - 1) 0 then 0 else 1
    let best := min (min (above (i - 1) j + 1) (row.getD (j - 1) 0 + 1)) (above (i - 1) (j - 1) + change)
    if 1 < i ∧ 1 < j ∧ a.getD (i - 1) 0 = b.getD (j - 2) 0 ∧ a.getD (i - 2) 0 = b.getD (j - 1) 0 then
      min best (above (i - 2) (j - 2) + 1)
    else best

/-- The distances of the first `i` units of a word from every beginning of another. -/
def nextRow (a b : Array Nat) (rows : Array (Array Nat)) (i : Nat) : Array Nat :=
  (List.range (b.size + 1)).foldl (fun row j => row.push (cell a b rows row i j)) #[]

/-- The distances of every beginning of a word from every beginning of another. -/
def table (a b : Array Nat) : Array (Array Nat) :=
  (List.range (a.size + 1)).foldl (fun rows i => rows.push (nextRow a b rows i)) #[]

/-- The distance of two words in units.  Words whose lengths differ by too much are as far apart
as they can be. -/
def distance (a b : List Nat) : Nat :=
  if maxDistance < (a.length - b.length) + (b.length - a.length) then max a.length b.length
  else ((table a.toArray b.toArray).getD a.length #[]).getD b.length 0

/-- Whether words of this length at this distance have more than two fifths in common. -/
def isClose (length distance : Nat) : Bool := 2 * length < 5 * (length - distance)

/-- The candidates for which a better distance than `best` was not found, with that distance. -/
def consider (word : List Nat) (best : Nat × List String) (candidate : String) :
    Nat × List String :=
  let other := units candidate
  let apart := distance word other
  if other.length ≤ 1 || !isClose (max word.length other.length) apart then best
  else if apart < best.1 then (apart, [candidate])
  else if apart = best.1 then (best.1, best.2 ++ [candidate])
  else best

/-- The candidates closest to a word, in order. -/
def nearest (word : String) (candidates : List String) : List String :=
  sort (candidates.eraseDups.foldl (consider (units word)) (maxDistance, [])).2

end LinkScript.Text.Similarity
