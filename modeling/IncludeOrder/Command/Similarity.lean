/-!
# Similar words

Whether a mistyped option is close enough to a known one to be taken for it.  Two characters match
when they are equal and stand no further apart than half the longer word less one; each character
matches once, and the earliest partner wins.  With `m` matches, of which `t` pairs are out of order,
words of lengths `a` and `b` have the similarity `(m/a + m/b + (m - t)/m) / 3`.  It is compared with
seven tenths over a common denominator, so no rounding is involved.
-/

set_option autoImplicit false

namespace IncludeOrder.Similarity

/-- The furthest that matching characters of words of these lengths may stand apart. -/
def reach (a b : Nat) : Nat := max a b / 2 - 1

/-- Marks the first unmarked `c` in a word, of which the positions from `low` to `high` count. The
word starts at position `start`. -/
def mark? (c : Char) (low high start : Nat) : List (Char × Bool) → Option (List (Char × Bool))
  | [] => none
  | (d, marked) :: rest =>
    if low ≤ start ∧ start ≤ high ∧ c = d ∧ !marked then some ((d, true) :: rest)
    else (mark? c low high (start + 1) rest).map ((d, marked) :: ·)

/-- Matches the characters of a word, from position `i` on, with those of another one. Gives the
characters that found a partner, in order, and the other word with the partners marked. -/
def matchFrom (reach i : Nat) :
    List Char → List (Char × Bool) → List Char × List (Char × Bool)
  | [], other => ([], other)
  | c :: rest, other =>
    match mark? c (i - reach) (i + reach) 0 other with
    | some other =>
      let (matched, other) := matchFrom reach (i + 1) rest other
      (c :: matched, other)
    | none => matchFrom reach (i + 1) rest other

/-- The number of matches of two words, and the number of pairs that are out of order. -/
def agreement (a b : List Char) : Nat × Nat :=
  let (matched, other) := matchFrom (reach a.length b.length) 0 a (b.map fun c => (c, false))
  let partners := (other.filter fun pair => pair.2).map fun pair => pair.1
  let displaced := ((matched.zip partners).filter fun pair => pair.1 ≠ pair.2).length
  (matched.length, displaced / 2)

/-- The words have a similarity of at least seven tenths. -/
def similar (a b : List Char) : Bool :=
  let (m, t) := agreement a b
  m ≠ 0 && 21 * (a.length * b.length * m) ≤
    10 * (m * m * b.length + m * m * a.length + (m - t) * a.length * b.length)

end IncludeOrder.Similarity
