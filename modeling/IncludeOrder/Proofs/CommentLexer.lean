import IncludeOrder.Comment
import Mathlib.Data.List.Basic

/-!
# Block comments, character by character

The reference for the comment mode: a lexer that reads one character after the other, leaves code
at the first opening delimiter and the comment at the first closing one, and consumes both
characters of either.  Comments do not nest; strings and line comments are not known to it.

The mode that is kept line by line is the lexer's on every text whose lines suit it
(`SuitedFrom`): a line holds one delimiter at most, or is code that holds one comment.  Where
the delimiters of a line stand decides what the lexer does there (`lex_of_none`,
`lexed_of_first`), so one line is compared by the lists of these positions
(`next_eq_lexed`) and a text by induction on its lines.
-/

set_option autoImplicit false

namespace IncludeOrder

/-! ## Where a needle stands -/

namespace Text

variable {needle text : List Char}

/-- The positions in the text at which the needle stands, overlapping ones counted. -/
def positions (needle text : List Char) : List Nat :=
  (List.range text.length).filter fun i => needle.isPrefixOf (text.drop i)

@[simp] theorem positions_nil : positions needle [] = [] := rfl

theorem positions_cons (c : Char) (rest : List Char) :
    positions needle (c :: rest)
      = (if needle.isPrefixOf (c :: rest) then [0] else [])
        ++ (positions needle rest).map (· + 1) := by
  simp only [positions, List.length_cons, List.range_succ_eq_map, List.filter_cons,
    List.drop_zero, List.filter_map]
  split <;> rfl

/-- What is left of the positions behind the first characters of the text. -/
theorem positions_drop (text : List Char) (n : Nat) :
    positions needle (text.drop n)
      = ((positions needle text).filter (n ≤ ·)).map (· - n) := by
  induction n generalizing text with
  | zero => simp
  | succ n ih =>
    cases text with
    | nil => rfl
    | cons c rest =>
      have hfirst :
          (if needle.isPrefixOf (c :: rest) then [0] else []).filter (n + 1 ≤ ·) = [] := by
        split <;> simp
      rw [List.drop_succ_cons, ih, positions_cons, List.filter_append, hfirst, List.nil_append,
        List.filter_map, List.map_map]
      congr 1
      · funext i
        simp
      · congr 1
        funext i
        simp

theorem occurs_eq_true_iff_positions (hneedle : needle ≠ []) (text : List Char) :
    occurs needle text = true ↔ positions needle text ≠ [] := by
  induction text with
  | nil => simpa [occurs] using hneedle
  | cons c rest ih =>
    rw [positions_cons, occurs, Bool.or_eq_true, ih]
    cases needle.isPrefixOf (c :: rest) <;> simp

end Text

namespace Comment

open Text

variable {mode : Mode} {line : List Char}

/-! ## The lexer -/

/-- The two characters that end the mode. -/
def Mode.delimiter : Mode → List Char
  | .code => ['/', '*']
  | .block => ['*', '/']

/-- The other mode. -/
def Mode.other : Mode → Mode
  | .code => .block
  | .block => .code

/-- Reads characters from a mode on: for each of them whether it belongs to a comment, of which the
delimiters are a part, and the mode that they lead to. -/
def lex : Mode → List Char → List Bool × Mode
  | mode, [] => ([], mode)
  | mode, [_] => ([mode == .block], mode)
  | mode, c :: d :: rest =>
    if [c, d] = mode.delimiter then
      let (marks, last) := lex mode.other rest
      (true :: true :: marks, last)
    else
      let (marks, last) := lex mode (d :: rest)
      ((mode == .block) :: marks, last)

/-- The mode that the lexer has reached behind the line. -/
def Mode.lexed (mode : Mode) (line : List Char) : Mode := (lex mode line).2

/-! ## What the lexer does on a line -/

theorem positions_delimiter_cons_cons (c d : Char) (rest : List Char) :
    positions mode.delimiter (c :: d :: rest)
      = (if [c, d] = mode.delimiter then [0] else [])
        ++ (positions mode.delimiter (d :: rest)).map (· + 1) := by
  have hstarts : mode.delimiter.isPrefixOf (c :: d :: rest) = true ↔ [c, d] = mode.delimiter := by
    cases mode <;> simp [Mode.delimiter, @eq_comm _ c, @eq_comm _ d]
  simp only [positions_cons c, hstarts]

/-- Without the delimiter of its mode a line stays in that mode. -/
theorem lex_of_none (h : positions mode.delimiter line = []) :
    lex mode line = (List.replicate line.length (mode == .block), mode) := by
  fun_induction lex mode line with
  | case1 mode => rfl
  | case2 mode c => rfl
  | case3 mode c d rest hdelimiter => simp [positions_delimiter_cons_cons, hdelimiter] at h
  | case4 mode c d rest hdelimiter marks last hlex ih =>
    have hrest : positions mode.delimiter (d :: rest) = [] := by
      simpa [positions_delimiter_cons_cons, hdelimiter] using h
    have hboth := hlex.symm.trans (ih hrest)
    rw [Prod.mk.injEq] at hboth
    rw [hboth.1, hboth.2]
    rfl

theorem lexed_of_none (h : positions mode.delimiter line = []) : mode.lexed line = mode := by
  rw [Mode.lexed, lex_of_none h]

/-- Behind the first delimiter of its mode a line goes on in the other mode. -/
theorem lexed_of_first {i : Nat} {more : List Nat}
    (h : positions mode.delimiter line = i :: more) :
    mode.lexed line = mode.other.lexed (line.drop (i + 2)) := by
  unfold Mode.lexed
  fun_induction lex mode line generalizing i more with
  | case1 mode => cases h
  | case2 mode c => cases mode <;> simp [positions_cons, Mode.delimiter] at h
  | case3 mode c d rest hdelimiter marks last hlex =>
    rw [positions_delimiter_cons_cons, if_pos hdelimiter] at h
    obtain ⟨rfl, -⟩ := List.cons.inj h
    simp [hlex]
  | case4 mode c d rest hdelimiter marks last hlex ih =>
    have hrest : (positions mode.delimiter (d :: rest)).map (· + 1) = i :: more := by
      simpa [positions_delimiter_cons_cons, hdelimiter] using h
    obtain ⟨k, ks, hpositions, rfl, -⟩ := List.map_eq_cons_iff.mp hrest
    simpa [hlex] using ih hpositions

/-! ## Lines that suit the mode kept line by line -/

/-- Where comments open on the line. -/
def openings (line : List Char) : List Nat := positions ['/', '*'] line

/-- Where comments close on the line. -/
def closings (line : List Char) : List Nat := positions ['*', '/'] line

/-- The line holds two delimiters, which begin and end one comment. -/
def holdsComment (line : List Char) : Bool :=
  match openings line, closings line with
  | [i], [j] => decide (i + 2 ≤ j)
  | _, _ => false

/-- The line holds one delimiter at most, or starts in code and holds one comment. -/
def Suited (mode : Mode) (line : List Char) : Prop :=
  (openings line).length + (closings line).length ≤ 1 ∨ mode = .code ∧ holdsComment line = true

instance (mode : Mode) (line : List Char) : Decidable (Suited mode line) :=
  inferInstanceAs (Decidable (_ ∨ _))

/-- Every line suits the mode in which the lexer reaches it. -/
def SuitedFrom : Mode → List (List Char) → Prop
  | _, [] => True
  | mode, line :: rest => Suited mode line ∧ SuitedFrom (mode.lexed line) rest

instance decidableSuitedFrom : (mode : Mode) → (lines : List (List Char)) →
    Decidable (SuitedFrom mode lines)
  | _, [] => inferInstanceAs (Decidable True)
  | mode, line :: rest =>
    have := decidableSuitedFrom (mode.lexed line) rest
    inferInstanceAs (Decidable (_ ∧ _))

theorem exists_of_holdsComment (h : holdsComment line = true) :
    ∃ i j, openings line = [i] ∧ closings line = [j] ∧ i + 2 ≤ j := by
  unfold holdsComment at h
  split at h
  case h_1 i j hopening hclosing => exact ⟨i, j, hopening, hclosing, of_decide_eq_true h⟩
  case h_2 => cases h

theorem opens_eq (line : List Char) : opens line = decide (openings line ≠ []) := by
  rw [Bool.eq_iff_iff, decide_eq_true_eq]
  exact occurs_eq_true_iff_positions (by simp) line

theorem closes_eq (line : List Char) : closes line = decide (closings line ≠ []) := by
  rw [Bool.eq_iff_iff, decide_eq_true_eq]
  exact occurs_eq_true_iff_positions (by simp) line

/-- The mode changes on a line with the delimiter of the mode and without the other one. -/
theorem next_eq (mode : Mode) (line : List Char) :
    mode.next line
      = if positions mode.delimiter line ≠ [] ∧ positions mode.other.delimiter line = [] then
          mode.other
        else mode := by
  rw [Mode.next, opens_eq, closes_eq, openings, closings]
  by_cases hopening : positions ['/', '*'] line = [] <;>
    by_cases hclosing : positions ['*', '/'] line = [] <;>
      cases mode <;> simp [Mode.other, Mode.delimiter, hopening, hclosing]

/-- Over a line with one delimiter at most the lexer changes its mode at the delimiter of that mode,
if the line has it. -/
theorem next_eq_lexed_of_le_one (h : (openings line).length + (closings line).length ≤ 1) :
    mode.next line = mode.lexed line := by
  have hone : (positions mode.delimiter line).length
      + (positions mode.other.delimiter line).length ≤ 1 := by
    cases mode
    · exact h
    · exact Nat.add_comm _ _ ▸ h
  rw [next_eq]
  cases hown : positions mode.delimiter line with
  | nil => simp [lexed_of_none hown]
  | cons i more =>
    have hother : positions mode.other.delimiter line = [] := by
      rw [hown, List.length_cons] at hone
      exact List.length_eq_zero_iff.mp (by omega)
    have hrest : positions mode.other.delimiter (line.drop (i + 2)) = [] := by
      simp [positions_drop, hother]
    simp [hother, lexed_of_first hown, lexed_of_none hrest]

/-- Over a line of code with one comment the lexer comes back to code. -/
theorem next_eq_lexed_of_whole {i j : Nat} (hopening : openings line = [i])
    (hclosing : closings line = [j]) (hwhole : i + 2 ≤ j) :
    Mode.code.next line = Mode.code.lexed line := by
  have hboth : opens line = closes line := by
    simp [opens_eq, closes_eq, hopening, hclosing]
  have hinside : positions Mode.block.delimiter (line.drop (i + 2)) = [j - (i + 2)] := by
    have hclosings : positions Mode.block.delimiter line = [j] := hclosing
    simp [positions_drop, hclosings, hwhole]
  have hbehind :
      positions Mode.code.delimiter ((line.drop (i + 2)).drop (j - (i + 2) + 2)) = [] := by
    have hopenings : positions Mode.code.delimiter line = [i] := hopening
    rw [List.drop_drop, positions_drop, hopenings]
    simp
    omega
  calc Mode.code.next line = .code := Mode.code.next_of_opens_eq_closes hboth
    _ = Mode.code.lexed ((line.drop (i + 2)).drop (j - (i + 2) + 2)) := (lexed_of_none hbehind).symm
    _ = Mode.block.lexed (line.drop (i + 2)) := (lexed_of_first hinside).symm
    _ = Mode.code.lexed line := (@lexed_of_first .code line i [] hopening).symm

/-- Over a line that suits it the mode changes as the lexer's does. -/
theorem next_eq_lexed (h : Suited mode line) : mode.next line = mode.lexed line := by
  rcases h with hone | ⟨rfl, hcomment⟩
  · exact next_eq_lexed_of_le_one hone
  · obtain ⟨i, j, hopening, hclosing, hwhole⟩ := exists_of_holdsComment hcomment
    exact next_eq_lexed_of_whole hopening hclosing hwhole

/-- Over lines that suit it the mode is the lexer's. -/
theorem foldl_next_eq_foldl_lexed {lines : List (List Char)} (h : SuitedFrom mode lines) :
    lines.foldl Mode.next mode = lines.foldl Mode.lexed mode := by
  induction lines generalizing mode with
  | nil => rfl
  | cons line rest ih =>
    rw [List.foldl_cons, List.foldl_cons, next_eq_lexed h.1]
    exact ih h.2

theorem SuitedFrom.of_append {before after : List (List Char)}
    (h : SuitedFrom mode (before ++ after)) : SuitedFrom mode before := by
  induction before generalizing mode with
  | nil => trivial
  | cons line rest ih => exact ⟨h.1, ih h.2⟩

/-- No character of a live line belongs to a comment. -/
theorem lex_of_not_skips (h : mode.skips line = false) :
    lex mode line = (List.replicate line.length false, .code) := by
  obtain ⟨hopens, rfl⟩ := (mode.skips_eq_false_iff line).mp h
  have hnone : openings line = [] := by simpa [opens_eq] using hopens
  exact @lex_of_none .code line hnone

/-- On lines that suit it the comment mode is exact.  Behind each of them it is the lexer's; a line
is live just if the lexer reaches it in code and no comment opens on it; and then the lexer finds
none of its characters in a comment. -/
theorem tracking_is_lexing {lines : List (List Char)} (h : SuitedFrom .code lines) :
    (∀ before after, lines = before ++ after →
      before.foldl Mode.next .code = before.foldl Mode.lexed .code)
    ∧ ∀ before line after, lines = before ++ line :: after →
      let mode := before.foldl Mode.next .code
      let lexed := before.foldl Mode.lexed .code
      (mode.skips line = false ↔ lexed = .code ∧ ¬ ['/', '*'] <:+: line)
      ∧ (mode.skips line = false → (lex lexed line).1 = List.replicate line.length false) := by
  have hmode : ∀ before after, lines = before ++ after →
      before.foldl Mode.next .code = before.foldl Mode.lexed .code := by
    intro before after hlines
    exact foldl_next_eq_foldl_lexed (hlines ▸ h).of_append
  refine ⟨hmode, ?_⟩
  intro before line after hlines mode lexed
  have hlexed : mode = lexed := hmode before (line :: after) hlines
  refine ⟨?_, ?_⟩
  · rw [Mode.skips_eq_false_iff, hlexed, and_comm, ← Bool.not_eq_true, opens_iff]
  · intro hlive
    rw [← hlexed, lex_of_not_skips hlive]

/-- A comment of three lines with an opening delimiter inside it, a comment within a line, and a
closing delimiter in code. -/
theorem tracking_is_lexing_mixed :
    let lines := ["/* a".toList, "/* b".toList, "c */".toList, "x; /* d */ y".toList,
      "z */".toList, "npy_intp n;".toList]
    SuitedFrom .code lines
      ∧ lines.foldl Mode.next .code = lines.foldl Mode.lexed .code
      ∧ (lex (lines.dropLast.foldl Mode.lexed .code) "npy_intp n;".toList).1
        = List.replicate "npy_intp n;".toList.length false := by
  intro lines
  have hsuited : SuitedFrom .code lines := by decide +kernel
  obtain ⟨hmode, hline⟩ := tracking_is_lexing hsuited
  exact ⟨hsuited, hmode lines [] (by simp),
    (hline lines.dropLast _ [] rfl).2 (by decide +kernel)⟩

/-- Delimiters that overlap are not told apart line by line: the lexer leaves this line inside the
comment that the line opens. -/
example : Mode.code.next "/*/".toList = .code ∧ Mode.code.lexed "/*/".toList = .block := by
  decide +kernel

end Comment

end IncludeOrder
