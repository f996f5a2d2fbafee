/-!
# Text: what is safe to show on a terminal

A terminal takes some stretches of text as orders.  They begin with the escape character, and the
character after it tells how they end.  `Terminal.visible` leaves such stretches out, with every
control character that is not layout (tab, line feed, form feed, carriage return).

A sequence that ends at its final character may have layout inside it.  The layout is shown, and so
is the text after it: the sequence is suspended.  It resumes at the next control character that is
not layout; a character beyond ASCII ends it for good.  A device control string, an operating system
command and the other strings show nothing until they end.
-/

set_option autoImplicit false

namespace IncludeOrder.Terminal

/-- What a character is read as. -/
inductive Mode where
  /-- text -/
  | ground
  /-- what follows the escape character -/
  | escape
  /-- the rest of a sequence that is announced by a character below `0` -/
  | intermediate
  /-- a control sequence, up to its final character -/
  | control
  /-- the first character of a device control string -/
  | deviceEntry
  /-- the parameters of a device control string -/
  | deviceParameter
  /-- the rest of the announcement of a device control string -/
  | deviceIntermediate
  /-- a string, up to the string terminator -/
  | string
  /-- an operating system command, up to the bell -/
  | command
  deriving DecidableEq, Repr, Inhabited

/-- The escape character. -/
def escapeCharacter : Char := Char.ofNat 0x1B

/-- The bell. -/
def bell : Char := Char.ofNat 0x07

/-- The characters cancel and substitute, which end every sequence. -/
def isCancel (c : Char) : Bool := c.toNat == 0x18 || c.toNat == 0x1A

/-- The control characters that lay text out. -/
def isLayout (c : Char) : Bool :=
  c.toNat == 0x09 || c.toNat == 0x0A || c.toNat == 0x0C || c.toNat == 0x0D

/-- The character may be shown: it is printable, layout or beyond ASCII. -/
def isPlain (c : Char) : Bool :=
  0x80 ≤ c.toNat || isLayout c || (0x20 ≤ c.toNat && c.toNat ≤ 0x7E)

/-- The character lies between two code points. -/
def within (first last : Nat) (c : Char) : Bool := first ≤ c.toNat && c.toNat ≤ last

/-- One of the bytes that continue the character in UTF-8 is 0x9C, the string terminator.  Such a
byte carries six bits of the code point, and 0x9C carries the number 28. -/
def holdsTerminator (c : Char) : Bool :=
  (0x80 ≤ c.toNat && c.toNat % 64 == 28) || (0x800 ≤ c.toNat && c.toNat / 64 % 64 == 28)
    || (0x10000 ≤ c.toNat && c.toNat / 4096 % 64 == 28)

/-- The mode after the first character that follows the escape character. -/
def Mode.ofIntroducer (c : Char) : Mode :=
  if c = '[' then .control
  else if c = ']' then .command
  else if c = 'P' then .deviceEntry
  else if c = 'X' || c = '^' || c = '_' then .string
  else if within 0x20 0x2F c then .intermediate
  else if within 0x30 0x7E c then .ground
  else .escape

/-- The mode after a character that belongs to a sequence. -/
def Mode.next (mode : Mode) (c : Char) : Mode :=
  match mode with
  | .ground => .ground
  | .escape => .ofIntroducer c
  | .intermediate => if within 0x30 0x7E c then .ground else .intermediate
  | .control => if within 0x40 0x7E c then .ground else .control
  | .deviceEntry =>
    if within 0x20 0x2F c then .deviceIntermediate
    else if within 0x30 0x3F c then .deviceParameter
    else if within 0x40 0x7E c then .string
    else .deviceEntry
  | .deviceParameter =>
    if within 0x20 0x2F c then .deviceIntermediate
    else if within 0x3C 0x7E c then .string
    else .deviceParameter
  | .deviceIntermediate => if within 0x30 0x7E c then .string else .deviceIntermediate
  | .string => if holdsTerminator c then .ground else .string
  | .command => if c = bell then .ground else .command

/-- Layout inside a sequence of this mode is shown. -/
def Mode.showsLayout : Mode → Bool
  | .escape | .intermediate | .control => true
  | _ => false

/-- A reader between two characters. -/
structure Reader where
  /-- what a character is read as, unless the sequence is suspended -/
  mode : Mode
  /-- the sequence is suspended: characters are read as text -/
  suspended : Bool
  deriving DecidableEq, Repr, Inhabited

/-- The reader before the first character. -/
def Reader.start : Reader := ⟨.ground, false⟩

/-- The next character is read as text. -/
def Reader.readsText (reader : Reader) : Bool := reader.suspended || reader.mode == .ground

/-- The character is shown. -/
def Reader.shows (reader : Reader) (c : Char) : Bool :=
  if reader.readsText then isPlain c else reader.mode.showsLayout && isLayout c

/-- The reader after a character. -/
def Reader.next (reader : Reader) (c : Char) : Reader :=
  if c = escapeCharacter then ⟨.escape, false⟩
  else if isCancel c then .start
  else if reader.readsText then
    if 0x80 ≤ c.toNat then .start
    else if isPlain c then reader
    else ⟨reader.mode, false⟩
  else if reader.shows c then ⟨reader.mode, true⟩
  else ⟨reader.mode.next c, false⟩

/-- What is shown of the text after the reader. -/
def Reader.visible (reader : Reader) : List Char → List Char
  | [] => []
  | c :: rest =>
    if reader.shows c then c :: (reader.next c).visible rest else (reader.next c).visible rest

/-- What is shown of a text. -/
def visible (text : String) : String := String.ofList (Reader.start.visible text.toList)

theorem isPlain_of_isLayout {c : Char} (h : isLayout c = true) : isPlain c = true := by
  simp [isPlain, h]

theorem Reader.isPlain_of_shows {reader : Reader} {c : Char} (h : reader.shows c = true) :
    isPlain c = true := by
  unfold Reader.shows at h
  split at h
  · exact h
  · exact isPlain_of_isLayout (Bool.and_eq_true_iff.1 h).2

/-- Nothing is shown but plain characters. -/
theorem Reader.all_isPlain_visible (reader : Reader) (text : List Char) :
    (reader.visible text).all isPlain = true := by
  induction text generalizing reader with
  | nil => rfl
  | cons c rest ih =>
    unfold Reader.visible
    split
    · next h => simp only [List.all_cons, isPlain_of_shows h, ih, Bool.and_self]
    · exact ih _

/-- A plain character is neither the escape character nor one that cancels. -/
theorem ne_escape_of_isPlain {c : Char} (h : isPlain c = true) :
    c ≠ escapeCharacter ∧ isCancel c = false := by
  have bounds : 0x80 ≤ c.toNat ∨ c.toNat = 9 ∨ c.toNat = 10 ∨ c.toNat = 12 ∨ c.toNat = 13
      ∨ (0x20 ≤ c.toNat ∧ c.toNat ≤ 0x7E) := by
    simpa [isPlain, isLayout, or_assoc] using h
  constructor
  · rintro rfl
    revert bounds
    decide
  · simp only [isCancel, Bool.or_eq_false_iff, beq_eq_false_iff_ne]
    omega

theorem Reader.start_next_of_isPlain {c : Char} (h : isPlain c = true) :
    Reader.start.next c = .start := by
  have ⟨notEscape, notCancel⟩ := ne_escape_of_isPlain h
  simp [Reader.next, notEscape, notCancel, h, Reader.readsText, Reader.start]

/-- Plain text is shown as it is. -/
theorem Reader.start_visible_of_isPlain {text : List Char} (h : text.all isPlain = true) :
    Reader.start.visible text = text := by
  induction text with
  | nil => rfl
  | cons c rest ih =>
    simp only [List.all_cons, Bool.and_eq_true] at h
    have shown : Reader.start.shows c = true := by
      simp [Reader.shows, Reader.readsText, Reader.start, h.1]
    simp [Reader.visible, shown, start_next_of_isPlain h.1, ih h.2]

theorem visible_of_isPlain {text : String} (h : text.toList.all isPlain = true) :
    visible text = text := by
  simp [visible, Reader.start_visible_of_isPlain h]

/-- What is shown of a text is shown as it is. -/
theorem visible_visible (text : String) : visible (visible text) = visible text :=
  visible_of_isPlain (by simpa [visible] using Reader.all_isPlain_visible .start text.toList)

end IncludeOrder.Terminal
