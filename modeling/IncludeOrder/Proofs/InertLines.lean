import IncludeOrder.Proofs.LineEndings
import IncludeOrder.Proofs.Renumbering
import IncludeOrder.Proofs.Sessions

/-!
# Inert lines

A line is inert under some settings when it holds no delimiter of a comment, names no header and
marks no construct.  Wherever such a line stands, inside a comment or outside, a scan is after it in
the state it was in before (`seeLine_of_inert`).  A blank line is always inert, because valid settings
have no blank marker.

Putting inert lines into a text therefore changes the numbers of the lines behind them and nothing
else, and a scan does to renumbered lines what it did before, in other numbers
(`seeLine_renumber`).  The two together, line by line, give the whole scan (`run_withAdded`).
-/

set_option autoImplicit false

namespace IncludeOrder

open Text

/-- The line is one that no scan under these settings takes notice of. -/
structure Inert (s : Settings) (line : List Char) : Prop where
  oneLine : OneLine line
  unopened : ¬ ['/', '*'] <:+: line
  unclosed : ¬ ['*', '/'] <:+: line
  directive : Directive.headerPath? line = none
  construct : ¬ Scan.HoldsConstruct s line

instance (s : Settings) (line : List Char) : Decidable (Inert s line) :=
  decidable_of_iff (OneLine line ∧ ¬ ['/', '*'] <:+: line ∧ ¬ ['*', '/'] <:+: line
      ∧ Directive.headerPath? line = none ∧ ¬ Scan.HoldsConstruct s line)
    ⟨fun ⟨oneLine, unopened, unclosed, directive, construct⟩ =>
        ⟨oneLine, unopened, unclosed, directive, construct⟩,
      fun h => ⟨h.oneLine, h.unopened, h.unclosed, h.directive, h.construct⟩⟩

/-! ## Blank lines -/

section Blank

variable {needle line : List Char}

/-- In a blank text nothing occurs but blanks. -/
theorem Text.not_infix_of_isBlankText (hline : isBlankText line = true)
    (hneedle : isBlankText needle = false) : ¬ needle <:+: line := by
  intro hstands
  have hblank : isBlankText needle = true := by
    rw [isBlankText, List.all_eq_true] at hline ⊢
    intro c hc
    exact hline c (hstands.subset hc)
  rw [hblank] at hneedle
  cases hneedle

theorem Directive.headerPath?_of_isBlankText (hline : isBlankText line = true) :
    headerPath? line = none := by
  have hdrop : dropBlanks line = [] := by
    rw [isBlankText, List.all_eq_true] at hline
    exact List.dropWhile_eq_nil_iff.mpr hline
  have hsign : after? ['#'] line = none := by
    rw [after?, hdrop]
    rfl
  rw [headerPath?, hsign]
  rfl

theorem Scan.not_holdsConstruct_of_isBlankText {s : Settings} (hvalid : s.Valid)
    (hline : isBlankText line = true) : ¬ HoldsConstruct s line := by
  obtain ⟨-, -, -, -, hmarkers⟩ := s.valid_iff.mp hvalid
  intro ⟨marker, hmarker, hstands⟩
  exact not_infix_of_isBlankText hline (hmarkers marker hmarker) hstands

theorem inert_of_isBlankText {s : Settings} (hvalid : s.Valid) (honeLine : OneLine line)
    (hline : isBlankText line = true) : Inert s line where
  oneLine := honeLine
  unopened := not_infix_of_isBlankText hline (by decide)
  unclosed := not_infix_of_isBlankText hline (by decide)
  directive := Directive.headerPath?_of_isBlankText hline
  construct := Scan.not_holdsConstruct_of_isBlankText hvalid hline

end Blank

namespace Scan

/-! ## Lines without effect -/

variable {s : Settings} {label : Label}

/-- An inert line leaves a scan in the state it was in, in a comment as outside. -/
theorem State.seeLine_of_inert {line : List Char} (h : Inert s line) (st : State) (n : Nat) :
    st.seeLine s label (line, n) = st := by
  have hboth : Comment.opens line = Comment.closes line := by
    rw [Bool.eq_iff_iff, Comment.opens_iff, Comment.closes_iff]
    exact iff_of_false h.unopened h.unclosed
  have hmode : st.mode.next line = st.mode := st.mode.next_of_opens_eq_closes hboth
  have hplain : s.marksConstruct line = false := by
    rw [Bool.eq_false_iff, Ne, ← holdsConstruct_iff]
    exact h.construct
  cases hskips : st.mode.skips line with
  | true => rw [seeLine_of_skips hskips, hmode]
  | false =>
    have hlive : st.seeLive s label (line, n) = st := by
      simp [seeLive, header?, h.directive, seeCode, hplain]
    rw [seeLine_of_not_skips hskips, hlive, hmode]

theorem State.foldl_seeLine_of_inert {lines : List (List Char)} (h : ∀ line ∈ lines, Inert s line)
    (st : State) (first : Nat) : (lines.zipIdx first).foldl (seeLine s label) st = st := by
  induction lines generalizing first with
  | nil => rfl
  | cons line lines ih =>
    obtain ⟨hline, hlines⟩ := List.forall_mem_cons.mp h
    rw [List.zipIdx_cons, List.foldl_cons, seeLine_of_inert hline, ih hlines]

end Scan

/-! ## Lines put in -/

namespace Text

/-- The text made of these lines, with a line feed behind each. -/
def ofLines (lines : List (List Char)) : List Char := lines.flatMap fun line => line ++ ['\n']

theorem segments_append_lineFeed {line : List Char} (h : OneLine line) (rest : List Char) :
    segments (line ++ '\n' :: rest) = ⟨line, some .lf⟩ :: segments rest := by
  rw [segments, segmentsFrom_append h, List.append_nil, segmentsFrom, List.reverse_reverse, segments]

theorem lines_ofLines {lines : List (List Char)} (h : ∀ line ∈ lines, OneLine line) :
    Text.lines (ofLines lines) = lines := by
  induction lines with
  | nil => rfl
  | cons line rest ih =>
    obtain ⟨hline, hrest⟩ := List.forall_mem_cons.mp h
    have htext : ofLines (line :: rest) = line ++ '\n' :: ofLines rest := by simp [ofLines]
    have hlines := ih hrest
    rw [Text.lines] at hlines ⊢
    rw [htext, segments_append_lineFeed hline, List.map_cons, hlines]

/-- Lines with others put in between: `added n` behind the first `n` of them, of which the given
number come before. -/
def withAddedFrom (added : Nat → List (List Char)) : Nat → List (List Char) → List (List Char)
  | n, [] => added n
  | n, line :: rest => added n ++ line :: withAddedFrom added (n + 1) rest

/-- Lines with others put in between: `added n` behind the first `n` of them. -/
def withAdded (added : Nat → List (List Char)) (lines : List (List Char)) : List (List Char) :=
  withAddedFrom added 0 lines

/-- How many lines are put in before line `n`. -/
def addedBefore (added : Nat → List (List Char)) (n : Nat) : Nat :=
  ((List.range n).map fun m => (added m).length).sum

/-- The number that line `n` has then. -/
def shifted (added : Nat → List (List Char)) (n : Nat) : Nat := n + addedBefore added n

theorem addedBefore_succ (added : Nat → List (List Char)) (n : Nat) :
    addedBefore added (n + 1) = addedBefore added n + (added n).length := by
  simp [addedBefore, List.range_succ]

theorem oneLine_withAddedFrom {added : Nat → List (List Char)} {lines : List (List Char)} {n : Nat}
    (hadded : ∀ m ≤ n + lines.length, ∀ line ∈ added m, OneLine line)
    (hlines : ∀ line ∈ lines, OneLine line) :
    ∀ line ∈ withAddedFrom added n lines, OneLine line := by
  induction lines generalizing n with
  | nil => exact hadded n (Nat.le_refl n)
  | cons line rest ih =>
    obtain ⟨hline, hrest⟩ := List.forall_mem_cons.mp hlines
    have hbehind : ∀ l ∈ withAddedFrom added (n + 1) rest, OneLine l := by
      refine ih ?_ hrest
      intro m hm
      exact hadded m (by rw [List.length_cons]; omega)
    exact List.forall_mem_append.mpr
      ⟨hadded n (Nat.le_add_right _ _), List.forall_mem_cons.mpr ⟨hline, hbehind⟩⟩

end Text

namespace Scan

variable {s : Settings} {added : Nat → List (List Char)} {lines : List (List Char)}

/-- Reading lines among which inert ones have been put is reading the lines, in other numbers. -/
theorem State.foldl_seeLine_withAddedFrom (label : Label) {n : Nat}
    (hadded : ∀ m ≤ n + lines.length, ∀ line ∈ added m, Inert s line) (st : State) :
    ((withAddedFrom added n lines).zipIdx (shifted added n + 1)).foldl (seeLine s label)
        (st.renumber (shifted added))
      = ((lines.zipIdx (n + 1)).foldl (seeLine s label) st).renumber (shifted added) := by
  induction lines generalizing n st with
  | nil => exact foldl_seeLine_of_inert (hadded n (Nat.le_refl n)) _ _
  | cons line rest ih =>
    have hbefore : ∀ l ∈ added n, Inert s l := hadded n (Nat.le_add_right _ _)
    have hbehind : ∀ m ≤ n + 1 + rest.length, ∀ l ∈ added m, Inert s l := by
      intro m hm
      exact hadded m (by rw [List.length_cons]; omega)
    have hnumber : shifted added n + 1 + (added n).length = shifted added (n + 1) := by
      rw [shifted, shifted, addedBefore_succ]
      omega
    rw [withAddedFrom, List.zipIdx_append, List.foldl_append, foldl_seeLine_of_inert hbefore,
      hnumber, List.zipIdx_cons, List.foldl_cons, seeLine_renumber, ih hbehind, List.zipIdx_cons,
      List.foldl_cons]

theorem run_withAdded (r : Registry) (label : Label)
    (hadded : ∀ n ≤ lines.length, ∀ line ∈ added n, Inert s line)
    (hlines : ∀ line ∈ lines, OneLine line) :
    run s r label (ofLines (withAdded added lines))
      = (run s r label (ofLines lines)).renumber (shifted added) := by
  have hall : ∀ n ≤ 0 + lines.length, ∀ line ∈ added n, Inert s line := by
    rw [Nat.zero_add]
    exact hadded
  have honeLine : ∀ line ∈ withAdded added lines, OneLine line :=
    oneLine_withAddedFrom (fun n hn line hline => (hall n hn line hline).oneLine) hlines
  rw [run_eq_foldl, run_eq_foldl, lines_ofLines honeLine, lines_ofLines hlines]
  exact State.foldl_seeLine_withAddedFrom label hall (.start r)

end Scan

namespace Checker

/-- **Inert lines shift numbers.**  Under valid settings every blank line is inert.  When inert lines
are put in anywhere among the lines of a text, its scan counts, registers and records the same, and
finds the same but for the line numbers, each of which grows by the number of lines that have been
put in before that line. -/
theorem inert_lines_shift :
    (∀ (s : Settings) (line : List Char), s.Valid → OneLine line → isBlankText line = true →
      Inert s line)
    ∧ ∀ (c : Checker) (path : Path) (lines : List (List Char)) (added : Nat → List (List Char)),
      (∀ line ∈ lines, OneLine line) →
      (∀ n ≤ lines.length, ∀ line ∈ added n, Inert c.settings line) →
        (c.scanText path (ofLines (withAdded added lines))).1.violations
          = (c.scanText path (ofLines lines)).1.violations
        ∧ (c.scanText path (ofLines (withAdded added lines))).1.findings
          = (c.scanText path (ofLines lines)).1.findings.map
            (Finding.renumber fun n => n + addedBefore added n)
        ∧ (c.scanText path (ofLines (withAdded added lines))).2
          = (c.scanText path (ofLines lines)).2 := by
  refine ⟨?_, ?_⟩
  · intro s line hvalid honeLine hblank
    exact inert_of_isBlankText hvalid honeLine hblank
  · intro c path lines added hlines hadded
    have hrun := Scan.run_withAdded c.registry path.label hadded hlines
    rw [scanText_eq, scanText_eq, hrun, conclude_renumber]
    exact ⟨rfl, rfl, rfl⟩

/-- A blank line in front, another in a comment, and two behind a directive. -/
theorem inert_lines_shift_among :
    let lines := ["/*", "*/", "npy_intp n;", "#include <math.h>", "#include <Python.h>"].map
      String.toList
    let added : Nat → List (List Char) := fun n =>
      (([[" "], ["#include"], [], [], ["int x;", ""]][n]?).getD []).map String.toList
    let path := Path.ofString "a.c"
    let scan := fun lines => (Checker.standard.scanText path (ofLines lines)).1
    withAdded added lines
        = [" ", "/*", "#include", "*/", "npy_intp n;", "#include <math.h>", "int x;", "",
          "#include <Python.h>"].map String.toList
      ∧ Inert Checker.standard.settings " ".toList
      ∧ (scan lines).findings = [.constructFirst "a.c" 3, .outOfOrder "a.c" "Python.h" 5 [4]]
      ∧ (scan (withAdded added lines)).findings
        = [.constructFirst "a.c" 5, .outOfOrder "a.c" "Python.h" 9 [6]]
      ∧ (scan (withAdded added lines)).violations = (scan lines).violations := by
  intro lines added path scan
  obtain ⟨hblank, hscan⟩ := inert_lines_shift
  have hlines : ∀ line ∈ lines, OneLine line := by decide +kernel
  have hadded : ∀ n ≤ lines.length, ∀ line ∈ added n, Inert Checker.standard.settings line := by
    decide +kernel
  obtain ⟨hviolations, hfindings, -⟩ := hscan Checker.standard path lines added hlines hadded
  have hfound : (scan lines).findings
      = [.constructFirst "a.c" 3, .outOfOrder "a.c" "Python.h" 5 [4]] := by
    decide +kernel
  refine ⟨by decide +kernel, hblank _ _ Settings.standard_valid (by decide) (by decide), hfound, ?_,
    hviolations⟩
  rw [hfindings, hfound]
  decide +kernel

end Checker

end IncludeOrder
