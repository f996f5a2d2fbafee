/-!
# Text: reading UTF-8

Bytes are read one at a time.  A decoder remembers the bytes that the open sequence still owes and
the pieces it has read; a piece is a character, or a stretch of bytes that belongs to none.  Such a
stretch is as long as a well-formed sequence could still have started with it: the byte that rules
this out is read again as the first byte of the next piece.

The pieces have two readings.  `decode?` gives the characters when every piece is one, which is so
exactly when the bytes are well formed; `decodeLossy` writes U+FFFD for each other piece and so
reads every sequence of bytes.
-/

set_option autoImplicit false

namespace IncludeOrder.Utf8

/-- What an open multi-byte sequence owes. -/
structure Owed where
  /-- least value of the next byte -/
  low : Nat
  /-- greatest value of the next byte -/
  high : Nat
  /-- how many bytes must follow the next one, each from 0x80 to 0xBF -/
  more : Nat
  /-- the bits read so far -/
  bits : Nat
  deriving DecidableEq, Repr, Inhabited

/-- A character, or `none` for bytes that belong to no character. -/
abbrev Piece := Option Char

/-- What a first byte of at least 0x80 promises; `none` when no sequence starts with it. The
narrower bounds after 0xE0, 0xED, 0xF0 and 0xF4 keep out overlong forms, surrogates and values
above U+10FFFF. -/
def Owed.ofLead? (b : Nat) : Option Owed :=
  if b < 0xC2 then none
  else if b < 0xE0 then some ⟨0x80, 0xBF, 0, b - 0xC0⟩
  else if b = 0xE0 then some ⟨0xA0, 0xBF, 1, 0⟩
  else if b = 0xED then some ⟨0x80, 0x9F, 1, 0xD⟩
  else if b < 0xF0 then some ⟨0x80, 0xBF, 1, b - 0xE0⟩
  else if b = 0xF0 then some ⟨0x90, 0xBF, 2, 0⟩
  else if b < 0xF4 then some ⟨0x80, 0xBF, 2, b - 0xF0⟩
  else if b = 0xF4 then some ⟨0x80, 0x8F, 2, 4⟩
  else none

/-- A decoder between two bytes. -/
structure Decoder where
  /-- the debt of the open sequence, if one is open -/
  owed : Option Owed
  /-- the pieces read, last first -/
  read : List Piece
  deriving DecidableEq, Repr, Inhabited

/-- The decoder before the first byte. -/
def Decoder.start : Decoder := ⟨none, []⟩

/-- Takes a byte that begins a piece. -/
def Decoder.lead (read : List Piece) (b : UInt8) : Decoder :=
  if b.toNat < 0x80 then ⟨none, some (Char.ofNat b.toNat) :: read⟩
  else match Owed.ofLead? b.toNat with
    | some owed => ⟨some owed, read⟩
    | none => ⟨none, none :: read⟩

/-- Takes the next byte. -/
def Decoder.feed (d : Decoder) (b : UInt8) : Decoder :=
  match d.owed with
  | none => lead d.read b
  | some owed =>
    if owed.low ≤ b.toNat ∧ b.toNat ≤ owed.high then
      let bits := owed.bits * 64 + (b.toNat - 0x80)
      match owed.more with
      | 0 => ⟨none, some (Char.ofNat bits) :: d.read⟩
      | more + 1 => ⟨some ⟨0x80, 0xBF, more, bits⟩, d.read⟩
    else lead (none :: d.read) b

/-- The pieces in order; a sequence left open is one more piece. -/
def Decoder.finish (d : Decoder) : List Piece :=
  match d.owed with
  | none => d.read.reverse
  | some _ => (none :: d.read).reverse

/-- The pieces of a sequence of bytes. -/
def pieces (bytes : List UInt8) : List Piece := (bytes.foldl Decoder.feed .start).finish

/-- The characters of well-formed bytes. -/
def decode? (bytes : List UInt8) : Option (List Char) :=
  let read := pieces bytes
  if read.all Option.isSome then some (read.filterMap id) else none

/-- The text of any bytes, with U+FFFD for each piece that is no character. -/
def decodeLossy (bytes : List UInt8) : String :=
  String.ofList ((pieces bytes).map fun piece => piece.getD '\uFFFD')

theorem map_some_filterMap_id {read : List Piece} (h : read.all Option.isSome = true) :
    (read.filterMap id).map some = read := by
  induction read with
  | nil => rfl
  | cons piece rest ih =>
    cases piece with
    | none => simp at h
    | some c =>
      simp only [List.all_cons, Option.isSome_some, Bool.true_and] at h
      simpa using ih h

theorem decode?_eq_some_iff (bytes : List UInt8) (text : List Char) :
    decode? bytes = some text ↔ pieces bytes = text.map some := by
  simp only [decode?]
  constructor
  · intro e
    split at e
    · rename_i h
      cases e
      exact (map_some_filterMap_id h).symm
    · cases e
  · intro e
    have all : (pieces bytes).all Option.isSome = true := by simp [e]
    rw [if_pos all, e]
    congr 1
    induction text with
    | nil => rfl
    | cons c rest ih => simp [List.filterMap_map]

end IncludeOrder.Utf8
