import IncludeOrder.Json.Literal
import IncludeOrder.Json.Number

/-!
# JSON: passing over values

A value nobody asked for is passed over, however deep it is nested.  The brackets that are open are
kept in a list, innermost first; after each value the brackets that close behind it are taken off,
until another value must follow or none is open any more.  Each round reads at least one character.
-/

set_option autoImplicit false

namespace IncludeOrder.Json

/-- An open bracket. -/
inductive Bracket where
  | array
  | object
  deriving DecidableEq, Repr, Inhabited

/-- Passes over the name of a member and the colon after it. -/
def skipName : Step Unit := fun text =>
  match dropSpace text with
  | [] => .error .truncated
  | c :: rest =>
    if c = '"' then
      match skipLiteral rest with
      | .ok (_, rest) => readMark ':' rest
      | .error defect => .error defect
    else .error .malformed

/-- Takes off the brackets that close here. Gives the brackets around the value that must follow
then, or nothing when all are closed. -/
def closeBrackets : List Bracket → Step (Option (List Bracket))
  | [], text => .ok (none, text)
  | .array :: outer, text =>
    match dropSpace text with
    | [] => .error .truncated
    | c :: rest =>
      if c = ',' then .ok (some (.array :: outer), rest)
      else if c = ']' then closeBrackets outer rest
      else .error .malformed
  | .object :: outer, text =>
    match dropSpace text with
    | [] => .error .truncated
    | c :: rest =>
      if c = ',' then
        match skipName rest with
        | .ok (_, rest) => .ok (some (.object :: outer), rest)
        | .error defect => .error defect
      else if c = '}' then closeBrackets outer rest
      else .error .malformed

/-- Passes over a string, a word or a number that starts with `c`. -/
def skipScalar (c : Char) (rest : List Char) : Except Defect (Unit × List Char) :=
  if c = '"' then skipLiteral rest
  else if c = 'n' then readWord ['u', 'l', 'l'] rest
  else if c = 't' then readWord ['r', 'u', 'e'] rest
  else if c = 'f' then readWord ['a', 'l', 's', 'e'] rest
  else if c = '-' ∨ c.isDigit then Number.skip (c :: rest)
  else .error .malformed

/-- Passes over a scalar, an empty array or object, or the beginning of another one, and the
brackets that close behind it. -/
def skipRound (outer : List Bracket) : Step (Option (List Bracket)) := fun text =>
  match dropSpace text with
  | [] => .error .truncated
  | c :: rest =>
    if c = '[' then
      if (dropSpace rest).head? = some ']' then closeBrackets outer (dropSpace rest).tail
      else .ok (some (.array :: outer), rest)
    else if c = '{' then
      if (dropSpace rest).head? = some '}' then closeBrackets outer (dropSpace rest).tail
      else match skipName rest with
        | .ok (_, rest) => .ok (some (.object :: outer), rest)
        | .error defect => .error defect
    else match skipScalar c rest with
      | .ok (_, rest) => closeBrackets outer rest
      | .error defect => .error defect

theorem shortens_skipName : Shortens skipName := by
  intro text value rest h
  unfold skipName at h
  split at h
  · cases h
  · rename_i c tail e
    have shorter := length_lt_of_dropSpace_eq_cons e
    split at h
    · split at h
      · rename_i e'
        have := shortens_skipLiteral _ _ _ e'
        have := shortens_readMark _ _ _ _ h
        omega
      · cases h
    · cases h

theorem length_le_of_closeBrackets {brackets : List Bracket} {text rest : List Char}
    {next : Option (List Bracket)} (h : closeBrackets brackets text = .ok (next, rest)) :
    rest.length ≤ text.length := by
  induction brackets generalizing text with
  | nil => cases h; exact Nat.le_refl _
  | cons bracket outer ih =>
    cases bracket with
    | array =>
      simp only [closeBrackets] at h
      split at h
      · cases h
      · rename_i c tail e
        have shorter := length_lt_of_dropSpace_eq_cons e
        split at h
        · cases h
          omega
        · split at h
          · have := ih h
            omega
          · cases h
    | object =>
      simp only [closeBrackets] at h
      split at h
      · cases h
      · rename_i c tail e
        have shorter := length_lt_of_dropSpace_eq_cons e
        split at h
        · split at h
          · rename_i e'
            have := shortens_skipName _ _ _ e'
            cases h
            omega
          · cases h
        · split at h
          · have := ih h
            omega
          · cases h

theorem length_le_of_skipScalar {c : Char} {text rest : List Char} {u : Unit}
    (h : skipScalar c text = .ok (u, rest)) : rest.length ≤ text.length := by
  unfold skipScalar at h
  repeat' split at h
  · exact Nat.le_of_lt (shortens_skipLiteral _ _ _ h)
  · exact length_le_of_readWord h
  · exact length_le_of_readWord h
  · exact length_le_of_readWord h
  · exact Nat.le_of_lt_succ (Number.shortens_skip _ _ _ h)
  · cases h

theorem shortens_skipRound (outer : List Bracket) : Shortens (skipRound outer) := by
  intro text value rest h
  unfold skipRound at h
  split at h
  · cases h
  · rename_i c tail e
    have shorter := length_lt_of_dropSpace_eq_cons e
    have inner : (dropSpace tail).tail.length ≤ tail.length :=
      Nat.le_trans (by simp) (length_dropSpace_le tail)
    split at h
    · split at h
      · have := length_le_of_closeBrackets h
        omega
      · cases h
        exact shorter
    · split at h
      · split at h
        · have := length_le_of_closeBrackets h
          omega
        · split at h
          · rename_i e'
            have := shortens_skipName _ _ _ e'
            cases h
            omega
          · cases h
      · split at h
        · rename_i e'
          have := length_le_of_skipScalar e'
          have := length_le_of_closeBrackets h
          omega
        · cases h

/-- Passes over a value inside open brackets, and over all that follows until they are closed. -/
def skipWithin (outer : List Bracket) (text : List Char) : Except Defect (Unit × List Char) :=
  match h : skipRound outer text with
  | .ok (none, rest) => .ok ((), rest)
  | .ok (some brackets, rest) =>
    have : rest.length < text.length := shortens_skipRound outer _ _ _ h
    skipWithin brackets rest
  | .error defect => .error defect
termination_by text.length

/-- Passes over one value. -/
def skipValue : Step Unit := skipWithin []

theorem shortens_skipWithin (outer : List Bracket) : Shortens (skipWithin outer) := by
  intro text value rest h
  fun_induction skipWithin outer text with
  | case1 outer text rest' e =>
    cases h
    exact shortens_skipRound outer _ _ _ e
  | case2 outer text brackets rest' e shorter ih => exact Nat.lt_trans (ih h) shorter
  | case3 => cases h

theorem shortens_skipValue : Shortens skipValue := shortens_skipWithin []

end IncludeOrder.Json
