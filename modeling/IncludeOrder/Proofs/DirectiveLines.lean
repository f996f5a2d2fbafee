import IncludeOrder.Proofs.CommentText
import IncludeOrder.Proofs.Directives

/-!
# Directives among comments

Both delimiters of a comment have an asterisk, and no part of a directive has one.  A line that is a
directive therefore opens no comment and closes none (`opens_of_directive`, `closes_of_directive`),
so the comment mode behind it is the mode before it.

Two things follow.  Directives may be put into a text or taken out of it anywhere, and every other
line is looked at or passed over as before (`foldl_next_edited`).  And a scan takes notice of every
directive, unless a comment that some earlier line has left open is still open
(`seeLine_of_directive`).
-/

set_option autoImplicit false

namespace IncludeOrder

open Directive

/-! ## No asterisk in a directive -/

theorem Directive.asterisk_not_mem_headerPath {path : List Char} (h : HeaderPath path) :
    '*' ∉ path := by
  intro hmem
  rcases isWord_or_mark_of_mem_headerPath h '*' hmem with hword | hmark
  · exact absurd hword (by decide)
  · simp at hmark

theorem Directive.Rendering.asterisk_not_mem_line (d : Rendering) : '*' ∉ d.line := by
  have hblank : ∀ {text : List Char}, Text.isBlankText text = true → '*' ∉ text := by
    intro text htext hmem
    exact absurd (List.all_eq_true.mp htext '*' hmem) (by decide)
  have hopening : '*' ≠ d.opening := by
    intro heq
    have hdelimiter := d.isOpening_opening
    simp [← heq, isOpening] at hdelimiter
  have hclosing : '*' ≠ d.closing := by
    intro heq
    have hdelimiter := d.isClosing_closing
    simp [← heq, isClosing] at hdelimiter
  have hkeyword : '*' ∉ keyword := by simp [keyword]
  simp only [line, List.mem_append, List.mem_cons, not_or]
  exact ⟨hblank d.blank_indent, by simp, hblank d.blank_afterSign, hkeyword,
    hblank d.blank_afterKeyword, hopening, asterisk_not_mem_headerPath d.headerPath_path,
    hclosing, hblank d.blank_trailing⟩

theorem Directive.asterisk_not_mem {line path : List Char} (h : headerPath? line = some path) :
    '*' ∉ line := by
  obtain ⟨d, rfl, -⟩ := headerPath?_eq_some_iff.mp h
  exact d.asterisk_not_mem_line

namespace Comment

variable {line path : List Char}

theorem opens_of_directive (h : headerPath? line = some path) : opens line = false :=
  Text.occurs_eq_false_of_not_mem (by simp) (asterisk_not_mem h)

theorem closes_of_directive (h : headerPath? line = some path) : closes line = false :=
  Text.occurs_eq_false_of_not_mem (by simp) (asterisk_not_mem h)

theorem skips_of_directive (h : headerPath? line = some path) (mode : Mode) :
    mode.skips line = (mode == .block) := by
  rw [Mode.skips, opens_of_directive h, Bool.false_or]

theorem next_of_directive (h : headerPath? line = some path) (mode : Mode) :
    mode.next line = mode :=
  mode.next_of_opens_eq_closes (by rw [opens_of_directive h, closes_of_directive h])

/-! ## Directives put in and taken out -/

/-- What becomes of a line when a text is edited. -/
inductive Edit where
  | kept (line : List Char)
  | inserted (line : List Char)
  | deleted (line : List Char)
  deriving DecidableEq, Repr, Inhabited

namespace Edit

/-- The line as it stands before. -/
def old? : Edit → Option (List Char)
  | kept line => some line
  | inserted _ => none
  | deleted line => some line

/-- The line as it stands afterwards. -/
def new? : Edit → Option (List Char)
  | kept line => some line
  | inserted line => some line
  | deleted _ => none

/-- Every line that is put in or taken out is a directive. -/
def OnDirectives (edits : List Edit) : Prop :=
  ∀ line, inserted line ∈ edits ∨ deleted line ∈ edits → (headerPath? line).isSome = true

end Edit

/-- The lines before an edit and those after it lead to the same mode. -/
theorem foldl_next_edited {edits : List Edit} (h : Edit.OnDirectives edits) (mode : Mode) :
    (edits.filterMap Edit.new?).foldl Mode.next mode
      = (edits.filterMap Edit.old?).foldl Mode.next mode := by
  induction edits generalizing mode with
  | nil => rfl
  | cons edit edits ih =>
    have hrest : Edit.OnDirectives edits := by
      intro line hline
      exact h line (hline.imp (List.mem_cons_of_mem edit) (List.mem_cons_of_mem edit))
    cases edit with
    | kept line => exact ih hrest (mode.next line)
    | inserted line =>
      obtain ⟨path, hpath⟩ := Option.isSome_iff_exists.mp (h line (by simp))
      simp only [List.filterMap_cons, Edit.new?, Edit.old?, List.foldl_cons, next_of_directive hpath]
      exact ih hrest mode
    | deleted line =>
      obtain ⟨path, hpath⟩ := Option.isSome_iff_exists.mp (h line (by simp))
      simp only [List.filterMap_cons, Edit.new?, Edit.old?, List.foldl_cons, next_of_directive hpath]
      exact ih hrest mode

end Comment

/-! ## Directives in a scan -/

namespace Scan

open Comment

theorem modeAfter_zipIdx (mode : Mode) (lines : List (List Char)) (first : Nat) :
    modeAfter mode (lines.zipIdx first) = lines.foldl Mode.next mode := by
  rw [modeAfter, ← List.foldl_map, List.zipIdx_map_fst]

theorem liveFrom_append (mode : Mode) (lines more : List (List Char × Nat)) :
    liveFrom mode (lines ++ more) = liveFrom mode lines ++ liveFrom (modeAfter mode lines) more := by
  induction lines generalizing mode with
  | nil => rfl
  | cons numbered rest ih =>
    have hmode : modeAfter mode (numbered :: rest) = modeAfter (mode.next numbered.1) rest := rfl
    rw [List.cons_append, liveFrom, liveFrom, hmode, ih]
    split
    · rfl
    · rw [List.cons_append]

/-- A scan reaches a line in the mode that the lines before it lead to. -/
theorem State.mode_foldl_seeLine (s : Settings) (label : Label) (r : Registry)
    (before : List (List Char)) :
    ((before.zipIdx 1).foldl (seeLine s label) (.start r)).mode = before.foldl Mode.next .code := by
  rw [foldl_seeLine]
  exact modeAfter_zipIdx .code before 1

/-- A line is live if it is not passed over in the mode in which it starts. -/
theorem mem_liveLines_iff {text line : List Char} {before after : List (List Char)}
    (hlines : Text.lines text = before ++ line :: after) :
    (line, before.length + 1) ∈ liveLines text
      ↔ (before.foldl Mode.next .code).skips line = false := by
  have hbefore : (line, before.length + 1) ∉ liveFrom .code (before.zipIdx 1) := by
    intro hmem
    have hnumber := List.snd_lt_of_mem_zipIdx ((sublist_liveFrom _ _).subset hmem)
    omega
  have hafter : ∀ mode, (line, before.length + 1)
      ∉ liveFrom mode (after.zipIdx (before.length + 1 + 1)) := by
    intro mode hmem
    have hnumber := List.le_snd_of_mem_zipIdx ((sublist_liveFrom _ _).subset hmem)
    omega
  rw [liveLines, hlines, List.zipIdx_append, liveFrom_append, modeAfter_zipIdx, List.zipIdx_cons,
    liveFrom, Nat.add_comm 1, List.mem_append, or_iff_right hbefore]
  cases hskips : (before.foldl Mode.next .code).skips line with
  | true => simpa using hafter _
  | false => simp

/-- A scan that comes to a directive outside comments sees the header that it names. -/
theorem State.seeLine_of_directive {s : Settings} {label : Label} {st : State}
    {line header : List Char} (h : Directive.headerPath? line = some header)
    (hmode : st.mode = .code) (number : Nat) :
    st.seeLine s label (line, number)
      = st.seeHeader s label number (String.ofList header) := by
  have hskips : st.mode.skips line = false := by rw [skips_of_directive h, hmode]; rfl
  have hlive : st.seeLive s label (line, number)
      = st.seeHeader s label number (String.ofList header) := by
    simp [seeLive, header?, h]
  have hsame := st.seeLive_with_mode s label (line, number) st.mode
  rw [seeLine_of_not_skips hskips, next_of_directive h, ← hsame, hlive]

/-- Inside a comment it takes no notice of the directive. -/
theorem State.seeLine_of_directive_of_block {s : Settings} {label : Label} {st : State}
    {line header : List Char} (h : Directive.headerPath? line = some header)
    (hmode : st.mode = .block) (number : Nat) : st.seeLine s label (line, number) = st := by
  have hskips : st.mode.skips line = true := by rw [skips_of_directive h, hmode]; rfl
  rw [seeLine_of_skips hskips, next_of_directive h]

end Scan

namespace Checker

open Comment

/-- **Directives and comments do not meet.**  A directive is passed over in a comment only, and
leaves the mode as it is.  When directives are put in or taken out, every other line is passed over
just if it was before.  A scan misses a directive just if the lines before it leave a comment open;
then it goes on as if the line were not there, and otherwise it sees the header. -/
theorem directives_apart_from_comments :
    (∀ (line path : List Char) (mode : Mode), Directive.headerPath? line = some path →
      mode.skips line = (mode == .block) ∧ mode.next line = mode)
    ∧ (∀ (mode : Mode) (edits : List Edit), Edit.OnDirectives edits →
      ∀ earlier line later, edits = earlier ++ .kept line :: later →
        ((earlier.filterMap Edit.new?).foldl Mode.next mode).skips line
          = ((earlier.filterMap Edit.old?).foldl Mode.next mode).skips line)
    ∧ ∀ (c : Checker) (path : Path) (text line header : List Char)
        (before after : List (List Char)), Text.lines text = before ++ line :: after →
      Directive.headerPath? line = some header →
        let st := (before.zipIdx 1).foldl (Scan.State.seeLine c.settings path.label)
          (.start c.registry)
        let number := before.length + 1
        ((line, number) ∉ Scan.liveLines text ↔ LeftOpen before)
        ∧ (LeftOpen before → st.seeLine c.settings path.label (line, number) = st)
        ∧ (¬ LeftOpen before → st.seeLine c.settings path.label (line, number)
          = st.seeHeader c.settings path.label number (String.ofList header)) := by
  refine ⟨?_, ?_, ?_⟩
  · intro line path mode h
    exact ⟨skips_of_directive h mode, next_of_directive h mode⟩
  · intro mode edits h earlier line later hsplit
    have hearlier : Edit.OnDirectives earlier := by
      intro changed hchanged
      apply h changed
      rw [hsplit]
      exact hchanged.imp (List.mem_append_left _) (List.mem_append_left _)
    rw [foldl_next_edited hearlier]
  · intro c path text line header before after hlines h st number
    have hmode : st.mode = before.foldl Mode.next .code :=
      Scan.State.mode_foldl_seeLine c.settings path.label c.registry before
    have hopen : st.mode = .block ↔ LeftOpen before := by
      rw [hmode, foldl_next_eq_block_iff]
      simp
    refine ⟨?_, ?_, ?_⟩
    · rw [Scan.mem_liveLines_iff hlines, ← hmode, skips_of_directive h, ← hopen]
      simp
    · intro hleft
      exact Scan.State.seeLine_of_directive_of_block h (hopen.mpr hleft) number
    · intro hclosed
      have hcode : st.mode = .code := by
        cases hst : st.mode with
        | code => rfl
        | block => exact absurd (hopen.mp hst) hclosed
      exact Scan.State.seeLine_of_directive h hcode number

/-- Directives put in and taken out around a comment, and a text with one inside a comment and one
behind it. -/
theorem directives_apart_from_comments_edited :
    let directive := "\t# include <Python.h>".toList
    let earlier : List Edit := [.inserted directive, .kept "/*".toList, .deleted directive,
      .kept "*/".toList, .inserted directive]
    let edits : List Edit := earlier ++ [.kept "n++;".toList, .deleted directive]
    let text := "/*\n\t# include <Python.h>\n*/\n\t# include <Python.h>".toList
    let behind := ["/*".toList, directive, "*/".toList]
    let c := Checker.standard
    let label := (Path.ofString "a.c").label
    Directive.headerPath? directive = some "Python.h".toList
      ∧ Edit.OnDirectives edits
      ∧ ((earlier.filterMap Edit.new?).foldl Mode.next .code).skips "n++;".toList
        = ((earlier.filterMap Edit.old?).foldl Mode.next .code).skips "n++;".toList
      ∧ (directive, 2) ∉ Scan.liveLines text
      ∧ (directive, 4) ∈ Scan.liveLines text
      ∧ ((behind.zipIdx 1).foldl (Scan.State.seeLine c.settings label) (.start c.registry)).seeLine
          c.settings label (directive, 4)
        = ((behind.zipIdx 1).foldl (Scan.State.seeLine c.settings label)
          (.start c.registry)).seeHeader c.settings label 4 "Python.h" := by
  intro directive earlier edits text behind c label
  obtain ⟨hmode, hedited, hscan⟩ := directives_apart_from_comments
  have hpath : Directive.headerPath? directive = some "Python.h".toList := by decide +kernel
  have hdirectives : Edit.OnDirectives edits := by
    intro line hline
    have hsame : line = directive := by simpa [edits, earlier] using hline
    rw [hsame, hpath]
    rfl
  have hleft : LeftOpen ["/*".toList] := ⟨[], "/*".toList, [], rfl, by decide, by simp⟩
  have hclosed : ¬ LeftOpen behind := by
    intro hopen
    have hblock := (foldl_next_eq_block_iff .code behind).mpr (Or.inl hopen)
    rw [List.foldl_cons, List.foldl_cons, (hmode directive _ _ hpath).2] at hblock
    exact absurd hblock (by decide)
  have hfirst := hscan c (.ofString "a.c") text directive "Python.h".toList ["/*".toList]
    ["*/".toList, directive] (by decide +kernel) hpath
  have hsecond := hscan c (.ofString "a.c") text directive "Python.h".toList behind []
    (by decide +kernel) hpath
  exact ⟨hpath, hdirectives, hedited .code edits hdirectives earlier _ _ rfl, hfirst.1.mpr hleft,
    not_not.mp (mt hsecond.1.mp hclosed), hsecond.2.2 hclosed⟩

end Checker

end IncludeOrder
