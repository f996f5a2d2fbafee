import IncludeOrder.Json.Texts

/-!
# Written strings and arrays are read back

Whatever a string holds, its literal is read back as this string, and the reader stops where the
literal ends (`ReadsBack`).  Every escape that is written is one the reader knows, and the
characters that are written as they stand are those it takes as they stand, so one character is
read as one character (`readFrom_writeChar`); literals, and arrays of them, follow by induction.

Since the reader stops where the value ends, texts written one after the other can be told apart
(`ReadsBack.unique`).
-/

set_option autoImplicit false

namespace IncludeOrder.Json

/-- The step reads what has been written and leaves what follows it, whatever that is. -/
def ReadsBack {α : Type} (write : α → List Char) (step : Step α) : Prop :=
  ∀ value rest, step (write value ++ rest) = .ok (value, rest)

/-- No written value begins another one. -/
theorem ReadsBack.unique {α : Type} {write : α → List Char} {step : Step α}
    (h : ReadsBack write step) {value value' : α} {rest rest' : List Char}
    (htext : write value ++ rest = write value' ++ rest') : value = value' ∧ rest = rest' := by
  have hread := h value rest
  rw [htext, h value' rest'] at hread
  obtain ⟨hvalue, hrest⟩ := Prod.mk.inj (Except.ok.inj hread)
  exact ⟨hvalue.symm, hrest.symm⟩

theorem ReadsBack.map {α β : Type} {write : α → List Char} {step : Step α}
    (h : ReadsBack write step) (f : α → β) (value : α) (rest : List Char) :
    mapStep f step (write value ++ rest) = .ok (f value, rest) := by
  unfold mapStep
  rw [h value rest]

/-! ## Literals -/

theorem hexValue?_hexDigit {n : Nat} (h : n < 16) : hexValue? (hexDigit n) = some n := by
  have hall : ∀ n < 16, hexValue? (hexDigit n) = some n := by decide
  exact hall n h

/-- Four characters are four bytes or more. -/
theorem fourBytesLeft_of_four (a b c d : Char) (rest : List Char) :
    fourBytesLeft (a :: b :: c :: d :: rest) = true := by
  have ha := a.utf8Size_pos
  have hb := b.utf8Size_pos
  have hc := c.utf8Size_pos
  have hd := d.utf8Size_pos
  apply decide_eq_true
  simp only [List.take_succ_cons, List.take_zero, List.foldl_cons, List.foldl_nil]
  omega

/-- An escape of four digits that stands for no surrogate. -/
theorem readFrom_digits {a b c d : Char} {w x y z : Nat} (ha : hexValue? a = some w)
    (hb : hexValue? b = some x) (hc : hexValue? c = some y) (hd : hexValue? d = some z)
    (hunit : ((w * 16 + x) * 16 + y) * 16 + z < 0xD800) (read rest : List Char) :
    readFrom .plain read ('\\' :: 'u' :: a :: b :: c :: d :: rest)
      = readFrom .plain (Char.ofNat (((w * 16 + x) * 16 + y) * 16 + z) :: read) rest := by
  have hescape : escaped? 'u' = none := by decide
  have htake : takeUnit none (((w * 16 + x) * 16 + y) * 16 + z)
      = .ok (.inl (Char.ofNat (((w * 16 + x) * 16 + y) * 16 + z))) := by
    unfold takeUnit
    rw [if_neg (by omega), if_neg (by omega)]
  simp [readFrom, hescape, fourBytesLeft_of_four, ha, hb, hc, hd, htake]

/-- The three ways to write a character: an escape of one letter, an escape of four digits, the
character itself. -/
theorem writeChar_cases (c : Char) :
    (∃ letter, escaped? letter = some c ∧ writeChar c = ['\\', letter])
      ∨ c.toNat < 0x20 ∧ writeChar c
          = ['\\', 'u', '0', '0', hexDigit (c.toNat / 16), hexDigit (c.toNat % 16)]
      ∨ c ≠ '"' ∧ c ≠ '\\' ∧ ¬ c.toNat < 0x20 ∧ writeChar c = [c] := by
  unfold writeChar
  -- the seven characters that have an escape of one letter
  iterate 7
    split
    · rename_i h
      subst h
      exact Or.inl ⟨_, rfl, rfl⟩
  split
  · rename_i hcontrol
    exact Or.inr (Or.inl ⟨hcontrol, rfl⟩)
  · rename_i hquote hbackslash _ _ _ _ _ hcontrol
    exact Or.inr (Or.inr ⟨hquote, hbackslash, hcontrol, rfl⟩)

/-- A character as it is written is read as that character. -/
theorem readFrom_writeChar (c : Char) (read rest : List Char) :
    readFrom .plain read (writeChar c ++ rest) = readFrom .plain (c :: read) rest := by
  rcases writeChar_cases c with ⟨letter, hletter, hc⟩ | ⟨hcontrol, hc⟩ |
    ⟨hquote, hbackslash, hcontrol, hc⟩
  · rw [hc]
    simp [readFrom, hletter]
  · have hzero : hexValue? '0' = some 0 := by decide
    have hhigh := hexValue?_hexDigit (show c.toNat / 16 < 16 by omega)
    have hlow := hexValue?_hexDigit (show c.toNat % 16 < 16 by omega)
    have hunit : ((0 * 16 + 0) * 16 + c.toNat / 16) * 16 + c.toNat % 16 = c.toNat := by omega
    have hread := readFrom_digits hzero hzero hhigh hlow (by omega) read rest
    rw [hunit, Char.ofNat_toNat] at hread
    rw [hc]
    exact hread
  · rw [hc]
    simp [readFrom, hquote, hbackslash, hcontrol]

theorem readFrom_writeChars (text read rest : List Char) :
    readFrom .plain read (text.flatMap writeChar ++ '"' :: rest)
      = .ok (String.ofList (read.reverse ++ text), rest) := by
  induction text generalizing read with
  | nil => simp [readFrom]
  | cons c text ih =>
    rw [List.flatMap_cons, List.append_assoc, readFrom_writeChar, ih, List.reverse_cons,
      List.append_assoc, List.singleton_append]

theorem readLiteral_writeChars (text : String) (rest : List Char) :
    readLiteral (text.toList.flatMap writeChar ++ '"' :: rest) = .ok (text, rest) := by
  rw [readLiteral, readFrom_writeChars, List.reverse_nil, List.nil_append, String.ofList_toList]

/-- A literal starts with its quotation mark. -/
theorem writeLiteral_append (text : String) (rest : List Char) :
    writeLiteral text ++ rest = '"' :: (text.toList.flatMap writeChar ++ '"' :: rest) := by
  simp [writeLiteral]

theorem readsBack_text : ReadsBack writeLiteral readText := by
  intro text rest
  rw [writeLiteral_append, readText, dropSpace_cons_of_not_space (by decide)]
  simp only [if_true]
  exact readLiteral_writeChars text rest

/-! ## Items inside brackets -/

/-- The first item stands alone, and every further one behind a separator. -/
theorem intercalate_cons_eq_append {α : Type} (separator : α) (item : List α)
    (items : List (List α)) :
    [separator].intercalate (item :: items) = item ++ items.flatMap (separator :: ·) := by
  induction items generalizing item with
  | nil => rw [List.intercalate_singleton, List.flatMap_nil, List.append_nil]
  | cons next items ih =>
    rw [List.intercalate_cons_cons, ih, List.flatMap_cons, List.append_assoc]
    rfl

section

variable {close : Char} (rest : List Char)

/-- Inside brackets that close at once nothing more is read. -/
theorem nextItem_close (hclose : isSpace close = false) (first : Bool) :
    nextItem close first (close :: rest) = .ok (false, rest) := by
  rw [nextItem, dropSpace_cons_of_not_space hclose]
  simp only [if_true]

variable (hquote : '"' ≠ close)

include hquote in
/-- The items of arrays of strings and the members of objects start with a quotation mark. -/
theorem nextItem_first : nextItem close true ('"' :: rest) = .ok (true, '"' :: rest) := by
  rw [nextItem, dropSpace_cons_of_not_space (by decide)]
  simp only [hquote, if_false, if_true]

include hquote in
theorem nextItem_comma (hcomma : ',' ≠ close) :
    nextItem close false (',' :: '"' :: rest) = .ok (true, '"' :: rest) := by
  have hspace : dropSpace ('"' :: rest) = '"' :: rest := dropSpace_cons_of_not_space (by decide) rest
  rw [nextItem, dropSpace_cons_of_not_space (by decide)]
  simp only [hcomma, hspace, hquote, if_false, if_true, Bool.false_eq_true]

end

/-! ## Arrays -/

/-- One round of the reader. -/
theorem readTextsFrom_eq (texts : List String) (text : List Char) :
    readTextsFrom texts text
      = match nextItem ']' texts.isEmpty text with
        | .ok (false, rest) => .ok (texts.reverse, rest)
        | .ok (true, start) =>
          match readText start with
          | .ok (item, rest) => readTextsFrom (item :: texts) rest
          | .error defect => .error defect
        | .error defect => .error defect := by
  rw [readTextsFrom]
  split
  · rename_i rest hnext
    simp only [hnext]
  · rename_i start hnext
    simp only [hnext]
    split
    · rename_i item rest hitem
      simp only [hitem]
    · rename_i defect hitem
      simp only [hitem]
  · rename_i defect hnext
    simp only [hnext]

theorem readTextsFrom_close (texts : List String) (rest : List Char) :
    readTextsFrom texts (']' :: rest) = .ok (texts.reverse, rest) := by
  rw [readTextsFrom_eq, nextItem_close rest (by decide)]

/-- One string more is read where one is written next. -/
theorem readTextsFrom_item {texts : List String} {item : String} {text rest : List Char}
    (hnext : nextItem ']' texts.isEmpty text = .ok (true, writeLiteral item ++ rest)) :
    readTextsFrom texts text = readTextsFrom (item :: texts) rest := by
  rw [readTextsFrom_eq, hnext]
  simp only [readsBack_text item rest]

/-- The strings after the first one. -/
theorem readTextsFrom_items {texts : List String} (hread : texts ≠ []) (items : List String)
    (rest : List Char) :
    readTextsFrom texts (items.flatMap (fun item => ',' :: writeLiteral item) ++ ']' :: rest)
      = .ok (texts.reverse ++ items, rest) := by
  induction items generalizing texts with
  | nil =>
    rw [List.flatMap_nil, List.nil_append, readTextsFrom_close, List.append_nil]
  | cons item items ih =>
    have hfirst : texts.isEmpty = false := by simpa using hread
    rw [List.flatMap_cons, List.append_assoc, List.cons_append, readTextsFrom_item, ih,
      List.reverse_cons, List.append_assoc, List.singleton_append]
    · exact List.cons_ne_nil item texts
    · rw [hfirst, writeLiteral_append]
      exact nextItem_comma _ (by decide) (by decide)

theorem readsBack_texts : ReadsBack writeTexts readTexts := by
  intro texts rest
  cases texts with
  | nil =>
    rw [writeTexts, readTexts, List.cons_append, dropSpace_cons_of_not_space (by decide)]
    exact readTextsFrom_close [] rest
  | cons first texts =>
    rw [writeTexts, readTexts, List.cons_append, dropSpace_cons_of_not_space (by decide)]
    simp only [if_true, List.append_assoc, List.singleton_append]
    rw [readTextsFrom_item, readTextsFrom_items (List.cons_ne_nil first []), List.reverse_singleton,
      List.singleton_append]
    rw [writeLiteral_append]
    exact nextItem_first _ (by decide)

end IncludeOrder.Json
