/-
# How similar two texts are

The measure of Jaro, a number from 0 to 1, which finds the word that was meant when a word is
misspelt.

Two characters MATCH if they are equal and their places are not too far apart: less than half
the length of the longer text.  The characters of the first text look for a partner one after
the other, and each takes the first one that is still free.  The measure is the mean of three
parts: of the characters of either text the part that has a partner, and of the pairs the part
that stands in the same order in both texts.
-/
namespace OneBit.Text

/-- Mark the first free `c` at a place from `low` to before `high`.  The list starts at `place`,
and a marked character is not free. -/
def mark (c : Char) (low high : Nat) : Nat → List (Char × Bool) → Option (List (Char × Bool))
  | _, [] => none
  | place, (d, marked) :: rest =>
    if low ≤ place ∧ place < high ∧ d = c ∧ marked = false then some ((d, true) :: rest)
    else (mark c low high (place + 1) rest).map ((d, marked) :: ·)

/-- The characters of `s` that find a partner, and `t` with the partners marked. -/
def matching (radius : Nat) : Nat → List Char → List (Char × Bool) →
    List Char × List (Char × Bool)
  | _, [], t => ([], t)
  | place, c :: s, t =>
    match mark c (place - radius) (place + radius + 1) 0 t with
    | some marked =>
      let (found, result) := matching radius (place + 1) s marked
      (c :: found, result)
    | none => matching radius (place + 1) s t

/-- The similarity of two texts. -/
def similarity (s t : List Char) : Rat :=
  let radius := max s.length t.length / 2 - 1
  let (left, marked) := matching radius 0 s (t.map fun c => (c, false))
  let right := (marked.filter fun m => m.2).map fun m => m.1
  let pairs : Nat := left.length
  let crossed : Nat := ((left.zip right).countP fun p => p.1 != p.2) / 2
  if pairs = 0 then 0
  else
    ((pairs : Rat) / s.length + (pairs : Rat) / t.length + ((pairs - crossed : Nat) : Rat) / pairs)
      / 3

end OneBit.Text
