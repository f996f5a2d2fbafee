import IncludeOrder.Text.Search

/-!
# Block comments, line by line

Lines are not lexed: whether a line is code is decided by the two delimiters occurring in it and by
the mode in which it starts.  A line that holds an opening delimiter is never looked at, nor is a
line that starts inside a comment.  The mode changes only on a line that holds exactly one kind of
delimiter; a line with both leaves it as it was.
-/

set_option autoImplicit false

namespace IncludeOrder.Comment

/-- Where a line starts. -/
inductive Mode where
  /-- outside every block comment -/
  | code
  /-- inside a block comment -/
  | block
  deriving DecidableEq, Repr, Inhabited

/-- The line holds an opening delimiter. -/
def opens (line : List Char) : Bool := Text.occurs ['/', '*'] line

/-- The line holds a closing delimiter. -/
def closes (line : List Char) : Bool := Text.occurs ['*', '/'] line

theorem opens_iff (line : List Char) : opens line = true ↔ ['/', '*'] <:+: line :=
  Text.occurs_eq_true_iff _ _

theorem closes_iff (line : List Char) : closes line = true ↔ ['*', '/'] <:+: line :=
  Text.occurs_eq_true_iff _ _

/-- A line that starts in this mode is passed over. -/
def Mode.skips (mode : Mode) (line : List Char) : Bool := opens line || mode == .block

/-- The mode in which the next line starts. -/
def Mode.next (mode : Mode) (line : List Char) : Mode :=
  match opens line, closes line with
  | true, false => .block
  | false, true => .code
  | _, _ => mode

theorem Mode.next_of_opens_eq_closes (mode : Mode) {line : List Char}
    (h : opens line = closes line) : mode.next line = mode := by
  unfold Mode.next
  cases ho : opens line <;> simp [← h, ho]

theorem Mode.skips_eq_false_iff (mode : Mode) (line : List Char) :
    mode.skips line = false ↔ opens line = false ∧ mode = .code := by
  cases mode <;> simp [Mode.skips]

end IncludeOrder.Comment
