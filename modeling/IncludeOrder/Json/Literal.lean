import IncludeOrder.Json.Basic

/-!
# JSON: string literals

Reading and writing of strings.  A literal is read one character at a time; `Point` says where the
reader stands.  An escape of four hexadecimal digits stands for a UTF-16 unit, so a leading
surrogate must be followed at once by an escape for a trailing one, and a trailing one may not come
first.  Whether four digits can follow at all is a question about bytes: with fewer than four bytes
left the text has ended too early, whatever they are.

Text that is only passed over need not make sense as characters: `skipLiteral` accepts lone
surrogates.

Writing escapes the quotation mark, the backslash and the characters below U+0020, and nothing
else.
-/

set_option autoImplicit false

namespace IncludeOrder.Json

/-- Where a reader stands in a string literal. -/
inductive Point where
  /-- before a character or an escape -/
  | plain
  /-- after a backslash -/
  | escape
  /-- before the last `owed` digits of an escape, after digits of the value `value`; `lead` is the
  leading surrogate that stands before the escape -/
  | digits (lead : Option Nat) (owed value : Nat)
  /-- after a leading surrogate -/
  | lead (unit : Nat)
  /-- after a leading surrogate and a backslash -/
  | leadEscape (unit : Nat)
  deriving DecidableEq, Repr, Inhabited

/-- The value of a hexadecimal digit. -/
def hexValue? (c : Char) : Option Nat :=
  if c.isDigit then some (c.toNat - '0'.toNat)
  else if 'a' ≤ c ∧ c ≤ 'f' then some (c.toNat - 'a'.toNat + 10)
  else if 'A' ≤ c ∧ c ≤ 'F' then some (c.toNat - 'A'.toNat + 10)
  else none

/-- The character that an escape of one letter stands for. -/
def escaped? (c : Char) : Option Char :=
  if c = '"' ∨ c = '\\' ∨ c = '/' then some c
  else if c = 'b' then some '\x08'
  else if c = 'f' then some '\x0c'
  else if c = 'n' then some '\n'
  else if c = 'r' then some '\r'
  else if c = 't' then some '\t'
  else none

/-- At least four bytes are left, so that four digits may follow. -/
def fourBytesLeft (text : List Char) : Bool :=
  4 ≤ (text.take 4).foldl (fun bytes c => bytes + c.utf8Size) 0

/-- The character that a leading and a trailing surrogate stand for together. -/
def pairValue (lead trail : Nat) : Char :=
  Char.ofNat ((lead - 0xD800) * 0x400 + (trail - 0xDC00) + 0x10000)

/-- What a complete UTF-16 unit gives: a character, or a leading surrogate that waits for the
trailing one. -/
def takeUnit (lead : Option Nat) (unit : Nat) : Except Defect (Char ⊕ Nat) :=
  match lead with
  | none =>
    if 0xDC00 ≤ unit ∧ unit ≤ 0xDFFF then .error .malformed
    else if 0xD800 ≤ unit ∧ unit ≤ 0xDBFF then .ok (.inr unit)
    else .ok (.inl (Char.ofNat unit))
  | some lead =>
    if 0xDC00 ≤ unit ∧ unit ≤ 0xDFFF then .ok (.inl (pairValue lead unit))
    else .error .malformed

/-- Reads a literal to its closing quotation mark. `read` holds the characters so far, last
first. -/
def readFrom (point : Point) (read : List Char) : Step String
  | [] => .error .truncated
  | c :: rest =>
    match point with
    | .plain =>
      if c = '"' then .ok (String.ofList read.reverse, rest)
      else if c = '\\' then readFrom .escape read rest
      else if c.toNat < 0x20 then .error .malformed
      else readFrom .plain (c :: read) rest
    | .escape =>
      match escaped? c with
      | some d => readFrom .plain (d :: read) rest
      | none =>
        if c = 'u' then
          if fourBytesLeft rest then readFrom (.digits none 4 0) read rest
          else .error .truncated
        else .error .malformed
    | .digits lead owed value =>
      match hexValue? c with
      | none => .error .malformed
      | some digit =>
        if owed ≤ 1 then
          match takeUnit lead (value * 16 + digit) with
          | .ok (.inl d) => readFrom .plain (d :: read) rest
          | .ok (.inr unit) => readFrom (.lead unit) read rest
          | .error defect => .error defect
        else readFrom (.digits lead (owed - 1) (value * 16 + digit)) read rest
    | .lead unit => if c = '\\' then readFrom (.leadEscape unit) read rest else .error .malformed
    | .leadEscape unit =>
      if c = 'u' then
        if fourBytesLeft rest then readFrom (.digits (some unit) 4 0) read rest
        else .error .truncated
      else .error .malformed

/-- Reads a string literal after its opening quotation mark. -/
def readLiteral : Step String := readFrom .plain []

/-- Where a reader stands in a string literal that it passes over. -/
inductive SkipPoint where
  | plain
  | escape
  | digits (owed : Nat)
  deriving DecidableEq, Repr, Inhabited

/-- Passes over a literal to its closing quotation mark. -/
def skipFrom (point : SkipPoint) : Step Unit
  | [] => .error .truncated
  | c :: rest =>
    match point with
    | .plain =>
      if c = '"' then .ok ((), rest)
      else if c = '\\' then skipFrom .escape rest
      else if c.toNat < 0x20 then .error .malformed
      else skipFrom .plain rest
    | .escape =>
      if (escaped? c).isSome then skipFrom .plain rest
      else if c = 'u' then
        if fourBytesLeft rest then skipFrom (.digits 4) rest else .error .truncated
      else .error .malformed
    | .digits owed =>
      if (hexValue? c).isSome then
        skipFrom (if owed ≤ 1 then .plain else .digits (owed - 1)) rest
      else .error .malformed

/-- Passes over a string literal after its opening quotation mark. -/
def skipLiteral : Step Unit := skipFrom .plain

/-- A hexadecimal digit. -/
def hexDigit (n : Nat) : Char := Char.ofNat (if n < 10 then '0'.toNat + n else 'a'.toNat + n - 10)

/-- A character as it is written inside a literal. -/
def writeChar (c : Char) : List Char :=
  if c = '"' then ['\\', '"']
  else if c = '\\' then ['\\', '\\']
  else if c = '\x08' then ['\\', 'b']
  else if c = '\x0c' then ['\\', 'f']
  else if c = '\n' then ['\\', 'n']
  else if c = '\r' then ['\\', 'r']
  else if c = '\t' then ['\\', 't']
  else if c.toNat < 0x20 then
    ['\\', 'u', '0', '0', hexDigit (c.toNat / 16), hexDigit (c.toNat % 16)]
  else [c]

/-- The literal of a string, with its quotation marks. -/
def writeLiteral (text : String) : List Char :=
  '"' :: (text.toList.flatMap writeChar ++ ['"'])

theorem shortens_readFrom (point : Point) (read : List Char) : Shortens (readFrom point read) := by
  intro text value rest h
  induction text generalizing point read with
  | nil => cases h
  | cons c text ih =>
    have longer : ∀ point read, readFrom point read text = .ok (value, rest) →
        rest.length < (c :: text).length := fun point read h =>
      Nat.lt_succ_of_lt (ih point read h)
    unfold readFrom at h
    repeat' split at h
    all_goals first
      | exact longer _ _ h
      | (cases h; exact Nat.lt_succ_self _)
      | cases h

theorem shortens_readLiteral : Shortens readLiteral := shortens_readFrom .plain []

theorem shortens_skipFrom (point : SkipPoint) : Shortens (skipFrom point) := by
  intro text value rest h
  induction text generalizing point with
  | nil => cases h
  | cons c text ih =>
    have longer : ∀ point, skipFrom point text = .ok (value, rest) →
        rest.length < (c :: text).length := fun point h => Nat.lt_succ_of_lt (ih point h)
    unfold skipFrom at h
    repeat' split at h
    all_goals first
      | exact longer _ h
      | (cases h; exact Nat.lt_succ_self _)
      | cases h

theorem shortens_skipLiteral : Shortens skipLiteral := shortens_skipFrom .plain

end IncludeOrder.Json
