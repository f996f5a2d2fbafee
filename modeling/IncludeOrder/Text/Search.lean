/-!
# Text: one text inside another

`occurs needle text` decides whether the characters of `needle` stand side by side somewhere in
`text`.  The empty needle stands everywhere.  Main statement: `occurs_eq_true_iff`, by which it
decides the relation `needle <:+: text`.
-/

set_option autoImplicit false

namespace IncludeOrder.Text

/-- The needle stands somewhere in the text. -/
def occurs (needle : List Char) : List Char → Bool
  | [] => needle.isEmpty
  | c :: rest => needle.isPrefixOf (c :: rest) || occurs needle rest

theorem occurs_eq_true_iff (needle text : List Char) :
    occurs needle text = true ↔ needle <:+: text := by
  induction text with
  | nil => simp [occurs]
  | cons c rest ih =>
    simp [occurs, ih, List.infix_cons_iff]

/-- A needle with a character that the text lacks stands nowhere in it. -/
theorem occurs_eq_false_of_not_mem {needle text : List Char} {c : Char} (hneedle : c ∈ needle)
    (htext : c ∉ text) : occurs needle text = false := by
  rw [Bool.eq_false_iff]
  intro h
  exact htext (((occurs_eq_true_iff needle text).mp h).subset hneedle)

end IncludeOrder.Text
