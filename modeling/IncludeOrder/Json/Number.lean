import IncludeOrder.Json.Basic

/-!
# JSON: number literals

No setting is a number, so a number is never wanted: it is either passed over, as part of a value
nobody asked for, or it stands where something else is asked for.  In the second case its value
matters once: a number beyond the range of binary64 is no JSON to this reader, while a number within
it is JSON of the wrong kind.

The value is formed as a reader with a 64-bit accumulator forms it: as many digits as fit, a power
of ten for the others, both rounded to 53 bits and then multiplied.  All of it is exact arithmetic
on natural numbers here.
-/

set_option autoImplicit false

namespace IncludeOrder.Json.Number

/-- The parts of a number literal. -/
structure Parts where
  /-- the digits before the point -/
  whole : List Char
  /-- the digits after it -/
  fraction : List Char
  /-- the exponent is negative -/
  negativeExponent : Bool
  /-- the digits of the exponent -/
  exponent : List Char
  deriving DecidableEq, Repr, Inhabited

/-- Splits a text after its leading digits. -/
def splitDigits (text : List Char) : List Char × List Char :=
  (text.takeWhile Char.isDigit, text.dropWhile Char.isDigit)

/-- Reads an exponent if one follows, after the digits before it. -/
def readExponent (short : Defect) (whole fraction : List Char) : Step Parts := fun text =>
  match text with
  | [] => .ok (⟨whole, fraction, false, []⟩, [])
  | c :: rest =>
    if c = 'e' ∨ c = 'E' then
      let negative := rest.head? == some '-'
      let rest := if rest.head? = some '-' ∨ rest.head? = some '+' then rest.tail else rest
      match splitDigits rest with
      | ([], rest) => .error (if rest.isEmpty then short else .malformed)
      | (digits, rest) => .ok (⟨whole, fraction, negative, digits⟩, rest)
    else .ok (⟨whole, fraction, false, []⟩, c :: rest)

/-- Reads a fraction if one follows, and then an exponent. -/
def readFraction (short : Defect) (whole : List Char) : Step Parts := fun text =>
  if text.head? = some '.' then
    match splitDigits text.tail with
    | ([], rest) => .error (if rest.isEmpty then short else .malformed)
    | (digits, rest) => readExponent short whole digits rest
  else readExponent short whole [] text

/-- Reads a number literal. A leading zero is the only digit before the point. `short` is the defect
of a text that ends where a digit is needed. -/
def readParts (short : Defect) : Step Parts := fun text =>
  match splitDigits (if text.head? = some '-' then text.tail else text) with
  | ([], rest) => .error (if rest.isEmpty then short else .malformed)
  | ('0' :: _ :: _, _) => .error .malformed
  | (digits, rest) => readFraction short digits rest

/-- The value of a digit. -/
def digitValue (c : Char) : Nat := c.toNat - '0'.toNat

/-- The value of some digits. -/
def digitsValue (digits : List Char) : Nat := digits.foldl (fun n c => n * 10 + digitValue c) 0

/-- The greatest value of the accumulator. -/
def maxSignificand : Nat := 0xFFFFFFFFFFFFFFFF

/-- The greatest power of ten in binary64. -/
def maxPower : Int := 308

/-- The digits before the point: the value of those that fit, and the number of the others. -/
def wholeSignificand (digits : List Char) : Nat × Nat :=
  digits.foldl (fun (n, dropped) c =>
    if dropped = 0 ∧ n * 10 + digitValue c ≤ maxSignificand then (n * 10 + digitValue c, 0)
    else (n, dropped + 1)) (0, 0)

/-- Adds the digits after the point as far as they fit: the value, and how many were added. -/
def fractionSignificand (significand : Nat) : List Char → Nat × Nat
  | [] => (significand, 0)
  | c :: rest =>
    if significand * 10 + digitValue c ≤ maxSignificand then
      let (n, added) := fractionSignificand (significand * 10 + digitValue c) rest
      (n, added + 1)
    else (significand, 0)

/-- Rounds to 53 significant bits, a tie to the even neighbour. -/
def round53 (n : Nat) : Nat :=
  if n.log2 < 53 then n
  else
    let unit := Nat.pow 2 (n.log2 - 52)
    let kept := n / unit
    let cut := n % unit
    if unit < 2 * cut ∨ (unit = 2 * cut ∧ kept % 2 = 1) then (kept + 1) * unit else kept * unit

/-- The least product that rounds to infinity. -/
def infinityThreshold : Nat := Nat.pow 2 1024 - Nat.pow 2 970

/-- The number lies beyond the range of binary64. -/
def Parts.isTooLarge (p : Parts) : Bool :=
  let (whole, dropped) := wholeSignificand p.whole
  let (significand, added) := fractionSignificand whole p.fraction
  let exponent : Int := digitsValue p.exponent
  let power := (dropped : Int) - added + if p.negativeExponent then -exponent else exponent
  if significand = 0 ∨ power < 0 then false
  else if maxPower < power then true
  else infinityThreshold ≤ round53 significand * round53 (Nat.pow 10 power.toNat)

/-- Reads a number where something else is asked for. -/
def read : Step Unit := fun text =>
  match readParts .truncated text with
  | .ok (parts, rest) => if parts.isTooLarge then .error .malformed else .ok ((), rest)
  | .error defect => .error defect

/-- Passes over a number. A text that ends inside it is no JSON, rather than too short. -/
def skip : Step Unit := fun text =>
  match readParts .malformed text with
  | .ok (_, rest) => .ok ((), rest)
  | .error defect => .error defect

theorem length_splitDigits (text : List Char) :
    (splitDigits text).1.length + (splitDigits text).2.length = text.length := by
  rw [← List.length_append]
  simp [splitDigits]

theorem length_le_of_readExponent {short : Defect} {whole fraction text rest : List Char}
    {parts : Parts} (h : readExponent short whole fraction text = .ok (parts, rest)) :
    rest.length ≤ text.length := by
  unfold readExponent at h
  split at h
  · cases h
    exact Nat.le_refl _
  · rename_i c tail
    split at h
    · dsimp only at h
      generalize hd : (if tail.head? = some '-' ∨ tail.head? = some '+' then tail.tail
        else tail) = digits at h
      have shorter : digits.length ≤ tail.length := by
        subst hd
        split
        · simp
        · exact Nat.le_refl _
      have split_length := length_splitDigits digits
      split at h
      · cases h
      · rename_i run left _ e
        rw [e] at split_length
        cases h
        simp only [List.length_cons]
        simp only at split_length
        omega
    · cases h
      exact Nat.le_refl _

theorem length_le_of_readFraction {short : Defect} {whole text rest : List Char}
    {parts : Parts} (h : readFraction short whole text = .ok (parts, rest)) :
    rest.length ≤ text.length := by
  unfold readFraction at h
  split at h
  · have split_length := length_splitDigits text.tail
    have tail_length : text.tail.length ≤ text.length := by simp
    split at h
    · cases h
    · rename_i run left _ e
      rw [e] at split_length
      have := length_le_of_readExponent h
      simp only at split_length
      omega
  · exact length_le_of_readExponent h

theorem shortens_readParts (short : Defect) : Shortens (readParts short) := by
  intro text parts rest h
  unfold readParts at h
  generalize hd : (if text.head? = some '-' then text.tail else text) = digits at h
  have shorter : digits.length ≤ text.length := by
    subst hd
    split
    · simp
    · exact Nat.le_refl _
  have split_length := length_splitDigits digits
  split at h
  · cases h
  · cases h
  · rename_i run left some_digit _ e
    rw [e] at split_length
    have := length_le_of_readFraction h
    have : 0 < run.length := by
      cases run with
      | nil => exact absurd rfl some_digit
      | cons _ _ => simp
    simp only at split_length
    omega

theorem shortens_skip : Shortens skip := by
  intro text value rest h
  unfold skip at h
  split at h
  · rename_i e
    cases h
    exact shortens_readParts _ _ _ _ e
  · cases h

end IncludeOrder.Json.Number
