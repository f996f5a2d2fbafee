import IncludeOrder.Json.Literal
import IncludeOrder.Json.Number

/-!
# JSON: strings and arrays of strings

The two kinds of values that settings have, written without white space and read with any.  Where
another value stands, it is refused as a mismatch, unless reading it shows an earlier defect: a
string, a word or a number is read to its end first, an array or an object is not.
-/

set_option autoImplicit false

namespace IncludeOrder.Json

/-- An array of string literals. -/
def writeTexts : List String → List Char
  | [] => ['[', ']']
  | text :: texts =>
    '[' :: (writeLiteral text ++ texts.flatMap (fun t => ',' :: writeLiteral t) ++ [']'])

/-- The defect of a value that is not what was asked for, once it has been read. -/
def mismatchAfter {α : Type} : Except Defect α → Defect
  | .ok _ => .mismatched
  | .error defect => defect

/-- The defect of a text that starts with another value than the one asked for. Strings, words and
numbers are read before they are refused, arrays and objects are not. -/
def wrongValue : List Char → Defect
  | [] => .truncated
  | c :: rest =>
    if c = '"' then mismatchAfter (readLiteral rest)
    else if c = 'n' then mismatchAfter (readWord ['u', 'l', 'l'] rest)
    else if c = 't' then mismatchAfter (readWord ['r', 'u', 'e'] rest)
    else if c = 'f' then mismatchAfter (readWord ['a', 'l', 's', 'e'] rest)
    else if c = '-' ∨ c.isDigit then mismatchAfter (Number.read (c :: rest))
    else if c = '[' ∨ c = '\x7b' then .mismatched
    else .malformed

/-- Reads a string. -/
def readText : Step String := fun text =>
  match dropSpace text with
  | [] => .error .truncated
  | c :: rest => if c = '"' then readLiteral rest else .error (wrongValue (c :: rest))

/-- Reads up to the next item inside brackets that `close` closes, of which `first` says whether
none has been read yet, or past the closing bracket. A comma must stand between items only. -/
def nextItem (close : Char) (first : Bool) : Step Bool := fun text =>
  match dropSpace text with
  | [] => .error .truncated
  | c :: rest =>
    if c = close then .ok (false, rest)
    else if first then .ok (true, c :: rest)
    else if c = ',' then
      match dropSpace rest with
      | [] => .error .truncated
      | d :: rest => if d = close then .error .malformed else .ok (true, d :: rest)
    else .error .malformed

theorem length_le_of_nextItem {close : Char} {first more : Bool} {text rest : List Char}
    (h : nextItem close first text = .ok (more, rest)) : rest.length ≤ text.length := by
  unfold nextItem at h
  split at h
  · cases h
  · rename_i c tail e
    have shorter := length_lt_of_dropSpace_eq_cons e
    split at h
    · cases h
      omega
    · split at h
      · cases h
        simp only [List.length_cons]
        omega
      · split at h
        · split at h
          · cases h
          · rename_i d tail' e'
            have := length_lt_of_dropSpace_eq_cons e'
            split at h
            · cases h
            · cases h
              simp only [List.length_cons]
              omega
        · cases h

theorem shortens_readText : Shortens readText := by
  intro text value rest h
  unfold readText at h
  split at h
  · cases h
  · rename_i c tail e
    have shorter := length_lt_of_dropSpace_eq_cons e
    split at h
    · have := shortens_readLiteral _ _ _ h
      omega
    · cases h

/-- Reads the strings of an array after its opening bracket. `texts` holds those read, last
first. -/
def readTextsFrom (texts : List String) (text : List Char) :
    Except Defect (List String × List Char) :=
  match h : nextItem ']' texts.isEmpty text with
  | .ok (false, rest) => .ok (texts.reverse, rest)
  | .ok (true, start) =>
    match h' : readText start with
    | .ok (item, rest) =>
      have : rest.length < text.length :=
        Nat.lt_of_lt_of_le (shortens_readText _ _ _ h') (length_le_of_nextItem h)
      readTextsFrom (item :: texts) rest
    | .error defect => .error defect
  | .error defect => .error defect
termination_by text.length

/-- Reads an array of strings. -/
def readTexts : Step (List String) := fun text =>
  match dropSpace text with
  | [] => .error .truncated
  | c :: rest => if c = '[' then readTextsFrom [] rest else .error (wrongValue (c :: rest))

theorem length_le_of_readTextsFrom {texts value : List String} {text rest : List Char}
    (h : readTextsFrom texts text = .ok (value, rest)) : rest.length ≤ text.length := by
  fun_induction readTextsFrom texts text with
  | case1 texts text rest' e =>
    cases h
    exact length_le_of_nextItem e
  | case2 texts text start e item rest' e' shorter ih =>
    exact Nat.le_trans (ih h) (Nat.le_of_lt shorter)
  | case3 => cases h
  | case4 => cases h

theorem shortens_readTexts : Shortens readTexts := by
  intro text value rest h
  unfold readTexts at h
  split at h
  · cases h
  · rename_i c tail e
    have shorter := length_lt_of_dropSpace_eq_cons e
    split at h
    · have := length_le_of_readTextsFrom h
      omega
    · cases h

/-- What a step reads, made into something else. -/
def mapStep {α β : Type} (f : α → β) (step : Step α) : Step β := fun text =>
  match step text with
  | .ok (value, rest) => .ok (f value, rest)
  | .error defect => .error defect

theorem shortens_mapStep {α β : Type} (f : α → β) {step : Step α} (h : Shortens step) :
    Shortens (mapStep f step) := by
  intro text value rest e
  unfold mapStep at e
  split at e
  · rename_i e'
    cases e
    exact h _ _ _ e'
  · cases e

end IncludeOrder.Json
