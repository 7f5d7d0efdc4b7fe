/-!
# Blanks and lists separated by commas

`isBlank` is the White_Space property of characters. An enable-list is cut at
its commas and each piece loses the blanks at its ends.
-/

namespace HopTrace.Text

/-- The characters with the White_Space property. -/
def isBlank (c : Char) : Bool :=
  let n := c.toNat
  (9 ≤ n ∧ n ≤ 13) ∨ n = 0x20 ∨ n = 0x85 ∨ n = 0xA0 ∨ n = 0x1680 ∨ (0x2000 ≤ n ∧ n ≤ 0x200A) ∨
    n = 0x2028 ∨ n = 0x2029 ∨ n = 0x202F ∨ n = 0x205F ∨ n = 0x3000

def trim (s : List Char) : List Char :=
  ((s.dropWhile isBlank).reverse.dropWhile isBlank).reverse

/-- The pieces between separators, at least one of them. -/
def splitAt (sep : Char) : List Char → List (List Char)
  | [] => [[]]
  | c :: s =>
    if c = sep then [] :: splitAt sep s
    else match splitAt sep s with
      | piece :: rest => (c :: piece) :: rest
      | [] => [[c]]

/-- The names of an enable-list, in order, empty ones included. -/
def listedNames (s : String) : List String :=
  (splitAt ',' s.toList).map fun piece => String.ofList (trim piece)

end HopTrace.Text
