import IncludeOrder.Proofs.WrittenTexts
import IncludeOrder.Settings.Json
import Mathlib.Control.Monad.Basic

/-!
# Written settings are read back

Settings of whatever kind, valid or not, are read back from their text as they were.  While members
are read, the draft has the settings that have been passed and awaits those still to come
(`Draft.Awaits`); with the last one it is complete.  The order in which the members stand plays no
part, as long as each is there once (`readSettings_object`).

So no two settings have the same text, and reading a text and writing what was read gives the text
that stays as it is when this is done again (`rewrite?`).
-/

set_option autoImplicit false

namespace IncludeOrder.Settings

open Json

/-! ## Drafts -/

/-- The draft with one setting as `s` has it. -/
def Draft.take (d : Draft) (s : Settings) : Field → Draft
  | .designatedHeader => { d with designatedHeader := some s.designatedHeader }
  | .knownHeaders => { d with knownHeaders := some s.knownHeaders }
  | .secondaryMarker => { d with secondaryMarker := some s.secondaryMarker }
  | .secondaryExempt => { d with secondaryExempt := some s.secondaryExempt }
  | .constructMarkers => { d with constructMarkers := some s.constructMarkers }

/-- The draft has a setting as `s` has it. -/
def Draft.Holds (d : Draft) (s : Settings) : Field → Prop
  | .designatedHeader => d.designatedHeader = some s.designatedHeader
  | .knownHeaders => d.knownHeaders = some s.knownHeaders
  | .secondaryMarker => d.secondaryMarker = some s.secondaryMarker
  | .secondaryExempt => d.secondaryExempt = some s.secondaryExempt
  | .constructMarkers => d.constructMarkers = some s.constructMarkers

theorem Draft.holds_take (d : Draft) (s : Settings) (field other : Field) :
    (d.take s field).Holds s other ↔ other = field ∨ d.Holds s other := by
  cases field <;> cases other <;> simp [take, Holds]

theorem Draft.has_take (d : Draft) (s : Settings) (field other : Field) :
    (d.take s field).has other = (decide (other = field) || d.has other) := by
  cases field <;> cases other <;> simp [take, has]

theorem Draft.has_blank (field : Field) : blank.has field = false := by
  cases field <;> rfl

/-- A draft that has all settings as `s` has them is `s`. -/
theorem Draft.complete?_of_holds {d : Draft} {s : Settings} (h : ∀ field, d.Holds s field) :
    d.complete? = some s := by
  obtain ⟨designatedHeader, knownHeaders, secondaryMarker, secondaryExempt, constructMarkers⟩ := d
  obtain rfl : designatedHeader = some s.designatedHeader := h .designatedHeader
  obtain rfl : knownHeaders = some s.knownHeaders := h .knownHeaders
  obtain rfl : secondaryMarker = some s.secondaryMarker := h .secondaryMarker
  obtain rfl : secondaryExempt = some s.secondaryExempt := h .secondaryExempt
  obtain rfl : constructMarkers = some s.constructMarkers := h .constructMarkers
  rfl

/-- Of the settings `s` the draft lacks those of `fields`, each of which comes once, and has all
others. -/
structure Draft.Awaits (d : Draft) (s : Settings) (fields : List Field) : Prop where
  nodup : fields.Nodup
  unread : ∀ field ∈ fields, d.has field = false
  passed : ∀ field, field ∈ fields ∨ d.Holds s field

theorem Draft.awaits_blank (s : Settings) {fields : List Field} (hnodup : fields.Nodup)
    (hall : ∀ field, field ∈ fields) : blank.Awaits s fields :=
  ⟨hnodup, fun field _ => has_blank field, fun field => Or.inl (hall field)⟩

/-- The next setting is passed. -/
theorem Draft.Awaits.take {d : Draft} {s : Settings} {field : Field} {fields : List Field}
    (h : d.Awaits s (field :: fields)) : (d.take s field).Awaits s fields := by
  obtain ⟨hnotin, hnodup⟩ := List.nodup_cons.mp h.nodup
  refine ⟨hnodup, ?_, ?_⟩
  · intro other hother
    have hne : other ≠ field := by
      rintro rfl
      exact hnotin hother
    rw [has_take, decide_eq_false hne, Bool.false_or]
    exact h.unread other (List.mem_cons_of_mem field hother)
  · intro other
    rw [holds_take]
    rcases h.passed other with hmem | hholds
    · rcases List.mem_cons.mp hmem with heq | hmem
      · exact Or.inr (Or.inl heq)
      · exact Or.inl hmem
    · exact Or.inr (Or.inr hholds)

theorem Draft.Awaits.complete? {d : Draft} {s : Settings} (h : d.Awaits s []) :
    d.complete? = some s := by
  apply complete?_of_holds
  intro field
  exact (h.passed field).resolve_left List.not_mem_nil

/-! ## Members -/

variable (s : Settings)

/-- An object of some members, in the order given. -/
def object (fields : List Field) : List Char :=
  '\x7b' :: ([','].intercalate (fields.map s.writeMember) ++ ['\x7d'])

theorem write_eq_object : s.write = s.object Field.all := rfl

theorem Field.named?_key (field : Field) : Field.named? field.key = some field := by
  cases field <;> decide

theorem readField_writeField (d : Draft) (field : Field) (rest : List Char) :
    readField d field (s.writeField field ++ rest) = .ok (d.take s field, rest) := by
  cases field with
  | designatedHeader => exact readsBack_text.map _ s.designatedHeader rest
  | knownHeaders => exact readsBack_texts.map _ s.knownHeaders rest
  | secondaryMarker => exact readsBack_text.map _ s.secondaryMarker rest
  | secondaryExempt => exact readsBack_texts.map _ s.secondaryExempt rest
  | constructMarkers => exact readsBack_texts.map _ s.constructMarkers rest

theorem writeMember_append (field : Field) (rest : List Char) :
    s.writeMember field ++ rest = '"' :: (field.key.toList.flatMap writeChar
      ++ '"' :: ':' :: (s.writeField field ++ rest)) := by
  rw [writeMember, List.append_assoc, List.cons_append, writeLiteral_append]

/-- A member is read, unless its setting has been read before. -/
theorem readMember_writeMember {d : Draft} {field : Field} (hunread : d.has field = false)
    (rest : List Char) :
    readMember d (s.writeMember field ++ rest) = .ok (d.take s field, rest) := by
  have hmark : ∀ text, readMark ':' (':' :: text) = .ok ((), text) := by
    intro text
    rw [readMark, dropSpace_cons_of_not_space (by decide)]
    rfl
  have hvalue : readValue d field.key (':' :: (s.writeField field ++ rest))
      = .ok (d.take s field, rest) := by
    rw [readValue, Field.named?_key]
    simp only [hunread, Bool.false_eq_true, if_false, hmark]
    exact readField_writeField s d field rest
  rw [writeMember_append, readMember]
  simp only [if_true, readLiteral_writeChars]
  exact hvalue

/-! ## Objects -/

/-- One round of the reader. -/
theorem readMembersFrom_eq (first : Bool) (d : Draft) (text : List Char) :
    readMembersFrom first d text
      = match nextItem '\x7d' first text with
        | .ok (false, rest) =>
          match d.complete? with
          | some s => .ok (s, rest)
          | none => .error .mismatched
        | .ok (true, start) =>
          match readMember d start with
          | .ok (d, rest) => readMembersFrom false d rest
          | .error defect => .error defect
        | .error defect => .error defect := by
  rw [readMembersFrom]
  split
  · rename_i rest hnext
    cases d.complete? <;> simp only [hnext]
  · rename_i start hnext
    simp only [hnext]
    split
    · rename_i d' rest hmember
      simp only [hmember]
    · rename_i defect hmember
      simp only [hmember]
  · rename_i defect hnext
    simp only [hnext]

variable {s}

/-- One member more is read where one is written next. -/
theorem readMembersFrom_member {first : Bool} {d : Draft} {field : Field} {text rest : List Char}
    (hnext : nextItem '\x7d' first text = .ok (true, s.writeMember field ++ rest))
    (hunread : d.has field = false) :
    readMembersFrom first d text = readMembersFrom false (d.take s field) rest := by
  rw [readMembersFrom_eq, hnext]
  simp only [readMember_writeMember s hunread rest]

/-- The members after the first one. -/
theorem readMembersFrom_members {d : Draft} {fields : List Field} (h : d.Awaits s fields)
    (rest : List Char) :
    readMembersFrom false d (fields.flatMap (fun field => ',' :: s.writeMember field)
      ++ '\x7d' :: rest) = .ok (s, rest) := by
  -- on the members still to come; what has been read is kept by the draft
  induction fields generalizing d with
  | nil =>
    rw [List.flatMap_nil, List.nil_append, readMembersFrom_eq, nextItem_close rest (by decide)]
    simp only [h.complete?]
  | cons field fields ih =>
    rw [List.flatMap_cons, List.append_assoc, List.cons_append, readMembersFrom_member _
      (h.unread field List.mem_cons_self)]
    · exact ih h.take
    · rw [writeMember_append]
      exact nextItem_comma _ (by decide) (by decide)

/-- An object that has every setting once is read, in whatever order they stand and whatever
follows it. -/
theorem readSettings_object {fields : List Field} (hnodup : fields.Nodup)
    (hall : ∀ field, field ∈ fields) (rest : List Char) :
    readSettings (s.object fields ++ rest) = .ok (s, rest) := by
  have h := Draft.awaits_blank s hnodup hall
  obtain ⟨field, fields, rfl⟩ := List.exists_cons_of_ne_nil (List.ne_nil_of_mem (hall .knownHeaders))
  rw [object, List.cons_append, readSettings, dropSpace_cons_of_not_space (by decide)]
  simp only [if_true, List.map_cons, intercalate_cons_eq_append, List.append_assoc,
    List.singleton_append, List.flatMap_map]
  rw [readMembersFrom_member _ (Draft.has_blank field)]
  · exact readMembersFrom_members h.take rest
  · rw [writeMember_append]
    exact nextItem_first _ (by decide)

theorem readsBack_settings : ReadsBack write readSettings := by
  intro s rest
  rw [write_eq_object]
  apply readSettings_object
  · decide
  · intro field
    cases field <;> decide

/-! ## Texts -/

theorem read_write (s : Settings) : read s.write = .ok s := by
  have hread := readsBack_settings s []
  rw [List.append_nil] at hread
  rw [read, hread]
  rfl

/-- What a text describes, written again. -/
def rewrite? (text : List Char) : Except Defect (List Char) := (read text).map write

/-- Settings are read back from their text, so texts of different settings differ, and a text that
has been read and written stays the same when it is read and written again. -/
theorem written_read_back :
    (∀ s : Settings, read s.write = .ok s)
      ∧ Function.Injective write
      ∧ ∀ text text', rewrite? text = .ok text' → rewrite? text' = .ok text' := by
  refine ⟨read_write, ?_, ?_⟩
  · intro s s' htext
    have hwritten : s.write ++ [] = s'.write ++ [] := by rw [htext]
    exact (readsBack_settings.unique hwritten).1
  · intro text text' h
    unfold rewrite? at h
    cases hread : read text with
    | error defect =>
      rw [hread] at h
      cases h
    | ok s =>
      rw [hread] at h
      obtain rfl : s.write = text' := Except.ok.inj h
      rw [rewrite?, read_write]
      rfl

/-- Members in another order and members of other names, escapes where none is needed, characters
written in two units, and settings that are not valid. -/
theorem written_read_back_awkward :
    let s : Settings :=
      { designatedHeader := "\"\\\x01\x7f/", knownHeaders := ["", "\n\t\r\x08\x0c", "🐍.h"]
        secondaryMarker := "", secondaryExempt := [], constructMarkers := ["é\u2028"] }
    let text :=
      " \x7b\"construct_markers\" : [\"\\u00e9\\u2028\"], \"x\": [\x7b\"\\ud800\":null\x7d],\n".toList
        ++ "\"known_headers\":[\"\",\"\\n\\t\\r\\b\\u000C\",\"\\uD83D\\udc0d.h\" ],".toList
        ++ "\"secondary_marker\":\"\",\"secondary_exempt\":[],".toList
        ++ "\"designated_header\":\"\\\"\\\\\\u0001\x7f\\/\"\x7d ".toList
    read text = .ok s ∧ ¬ s.Valid ∧ text ≠ s.write
      ∧ rewrite? text = .ok s.write ∧ rewrite? s.write = .ok s.write := by
  intro s text
  have hread : read text = .ok s := by decide +kernel
  have hrewrite : rewrite? text = .ok s.write := by
    rw [rewrite?, hread]
    rfl
  exact ⟨hread, by decide +kernel, by decide +kernel, hrewrite,
    written_read_back.2.2 text s.write hrewrite⟩

end IncludeOrder.Settings
