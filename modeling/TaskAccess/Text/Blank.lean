/-!
# Blank characters

The characters with the Unicode property `White_Space`, trimming a text by them, and
splitting a text.  The property has twenty-five members; six of them are ASCII, of which
`Char.isWhitespace` leaves out the control characters 11 and 12.

## Main definitions

* `isBlank` — the property, as a table of code points.
* `trim` — a text without the blanks at its two ends.
* `split` — the pieces between the occurrences of a separator.

## Main results

* `split_ne_nil` — there is always a piece.
-/

namespace TaskAccess.Text

/-- The Unicode property `White_Space`. -/
def isBlank (c : Char) : Bool :=
  let n := c.toNat
  (9 ≤ n && n ≤ 13) || n == 0x20 || n == 0x85 || n == 0xA0 || n == 0x1680 ||
    (0x2000 ≤ n && n ≤ 0x200A) || n == 0x2028 || n == 0x2029 || n == 0x202F ||
    n == 0x205F || n == 0x3000

/-- The text without its leading blanks. -/
def trimStart (s : List Char) : List Char := s.dropWhile isBlank

/-- The text without its trailing blanks. -/
def trimEnd (s : List Char) : List Char := (trimStart s.reverse).reverse

/-- The text without the blanks at its two ends. -/
def trim (s : List Char) : List Char := trimEnd (trimStart s)

/-- The pieces of a text between the occurrences of a separator: one more than
there are separators, so the empty text has one empty piece. -/
def split (sep : Char) : List Char → List (List Char)
  | [] => [[]]
  | c :: rest =>
    if c = sep then [] :: split sep rest
    else
      match split sep rest with
      | [] => [[c]]
      | piece :: pieces => (c :: piece) :: pieces

/-! ### Basic properties -/

theorem split_ne_nil (sep : Char) (s : List Char) : split sep s ≠ [] := by
  cases s with
  | nil => simp [split]
  | cons c rest =>
    rw [split]
    split
    · simp
    · split <;> simp

end TaskAccess.Text
