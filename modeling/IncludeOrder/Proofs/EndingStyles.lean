import IncludeOrder.Proofs.LineEndings
import IncludeOrder.Proofs.Sessions

/-!
# Endings in any style

What the lines of a text are, and that a scan sees nothing else of it.

The cut is told in two ways that do not mention the accumulator it works with.  Taken step by step it
is a loop: the first line is what stands before the first line feed or carriage return, the loop goes
on behind that ending, and what is left gets shorter (`lines_eq`, `length_lt_of_firstLine?`).  Taken
as a whole it is the only way to write the text as lines and endings under three conditions, which
`CutOf` states (`segments_eq_iff`).

Neither the number nor the text of a line depends on how lines end.  Rewriting every ending to one
style keeps the three conditions, because endings that are all alike never join, so the lines stay as
they are (`lines_endedBy`).
-/

set_option autoImplicit false

namespace IncludeOrder

namespace Text

/-! ## One line after the other -/

/-- The character stands in an ending. -/
def isBreak (c : Char) : Bool := c == '\n' || c == '\r'

/-- What follows the ending that a text starts with. -/
def afterEnding : List Char → List Char
  | '\r' :: '\n' :: rest => rest
  | _ :: rest => rest
  | [] => []

/-- The first line of a text, and what follows its ending; the empty text has no line. -/
def firstLine? (text : List Char) : Option (List Char × List Char) :=
  if text.isEmpty then none
  else some (text.takeWhile fun c => !isBreak c,
    afterEnding (text.dropWhile fun c => !isBreak c))

section

variable {text line rest : List Char} {s : Segment} {segs : List Segment}

theorem oneLine_takeWhile (text : List Char) : OneLine (text.takeWhile fun c => !isBreak c) := by
  have hkept : ∀ c ∈ text.takeWhile fun c => !isBreak c, isBreak c = false := by
    intro c hc
    simpa using List.mem_takeWhile_imp hc
  constructor
  · intro hlf
    simpa [isBreak] using hkept _ hlf
  · intro hcr
    simpa [isBreak] using hkept _ hcr

/-- What stands behind the first line is nothing, or starts with an ending. -/
theorem dropWhile_cases (text : List Char) :
    text.dropWhile (fun c => !isBreak c) = []
      ∨ (∃ more, text.dropWhile (fun c => !isBreak c) = '\n' :: more)
      ∨ ∃ more, text.dropWhile (fun c => !isBreak c) = '\r' :: more := by
  cases hrest : text.dropWhile (fun c => !isBreak c) with
  | nil => exact Or.inl rfl
  | cons c more =>
    have hne : text.dropWhile (fun c => !isBreak c) ≠ [] := by simp [hrest]
    have hbreak : isBreak c = true := by
      have hhead := List.head_dropWhile_not (fun c => !isBreak c) hne
      simpa [hrest] using hhead
    rw [isBreak, Bool.or_eq_true, beq_iff_eq, beq_iff_eq] at hbreak
    cases hbreak with
    | inl hlf => exact Or.inr (Or.inl ⟨more, by rw [hlf]⟩)
    | inr hcr => exact Or.inr (Or.inr ⟨more, by rw [hcr]⟩)

theorem length_afterEnding_le (text : List Char) : (afterEnding text).length ≤ text.length - 1 := by
  unfold afterEnding
  split <;> simp

/-- The loop stops: what is left gets shorter with every line. -/
theorem length_lt_of_firstLine? (h : firstLine? text = some (line, rest)) :
    rest.length < text.length := by
  unfold firstLine? at h
  split at h
  · cases h
  · rename_i hne
    obtain ⟨-, hrest⟩ := Prod.mk.inj (Option.some.inj h)
    have hshorter := length_afterEnding_le (text.dropWhile fun c => !isBreak c)
    have hdropped : (text.dropWhile fun c => !isBreak c).length ≤ text.length :=
      (List.dropWhile_suffix _).length_le
    have hpos : 0 < text.length := List.length_pos_iff.mpr (by simpa using hne)
    rw [hrest] at hshorter
    omega

/-- A text is cut behind its first line, and what is left is cut likewise. -/
theorem lines_eq (text : List Char) :
    lines text = match firstLine? text with
      | none => []
      | some (line, rest) => line :: lines rest := by
  cases hempty : text.isEmpty with
  | true =>
    rw [List.isEmpty_iff] at hempty
    subst hempty
    rfl
  | false =>
    have hcut : segments text
        = segmentsFrom (text.takeWhile fun c => !isBreak c).reverse
          (text.dropWhile fun c => !isBreak c) := by
      have hwhole : text.takeWhile (fun c => !isBreak c) ++ text.dropWhile (fun c => !isBreak c)
          = text := List.takeWhile_append_dropWhile
      have happend := segmentsFrom_append (oneLine_takeWhile text) []
        (text.dropWhile fun c => !isBreak c)
      rw [hwhole, List.append_nil] at happend
      exact happend
    simp only [firstLine?, hempty, lines, hcut]
    rcases dropWhile_cases text with hnil | ⟨more, hlf⟩ | ⟨more, hcr⟩
    · have hline : text.takeWhile (fun c => !isBreak c) = text := by
        have hwhole := List.takeWhile_append_dropWhile (p := fun c => !isBreak c) (l := text)
        rwa [hnil, List.append_nil] at hwhole
      have hne : text ≠ [] := by simpa using hempty
      simp [hnil, hline, afterEnding, segmentsFrom, hne, segments]
    · simp [hlf, afterEnding, segmentsFrom, segments]
    · rw [hcr]
      cases more with
      | nil => simp [afterEnding, segmentsFrom, segments]
      | cons c more =>
        by_cases hc : c = '\n'
        · simp [hc, afterEnding, segmentsFrom, segments]
        · simp [hc, afterEnding, segmentsFrom, segments]

/-! ## The only cut -/

/-- The segments are lines with their endings, and the text is nothing else. -/
structure CutOf (text : List Char) (segs : List Segment) : Prop where
  /-- written one after the other, they are the text -/
  written : segs.flatMap Segment.written = text
  /-- no line ends inside a line -/
  oneLine : ∀ s ∈ segs, OneLine s.text
  /-- a line without an ending is the last one, and not empty -/
  ended : ∀ before s after, segs = before ++ s :: after → s.ending = none →
    after = [] ∧ s.text ≠ []
  /-- no line feed follows a carriage return that is an ending -/
  alone : ∀ before s after, segs = before ++ s :: after → s.ending = some .cr →
    (after.flatMap Segment.written).head? ≠ some '\n'

theorem CutOf.wellCut (h : CutOf text segs) : WellCut segs where
  oneLine := h.oneLine
  ended := by
    rw [List.isChain_iff_forall_rel_of_append_cons_cons]
    intro s t before after hsplit hnone
    obtain ⟨hlast, -⟩ := h.ended before s (t :: after) hsplit hnone
    cases hlast
  apart := by
    rw [List.isChain_iff_forall_rel_of_append_cons_cons]
    intro s t before after hsplit hjoins
    refine h.alone before s (t :: after) hsplit hjoins.1 ?_
    simp [hjoins.2, Segment.written, Ending.written]

theorem CutOf.ne_empty (h : CutOf text segs) (hs : s ∈ segs) : s ≠ ⟨[], none⟩ := by
  obtain ⟨before, after, hsplit⟩ := List.append_of_mem hs
  intro hempty
  obtain ⟨-, htext⟩ := h.ended before s after hsplit (by rw [hempty])
  exact htext (by rw [hempty])

/-- What follows in well cut segments is well cut. -/
theorem WellCut.of_append {before after : List Segment} (h : WellCut (before ++ after)) :
    WellCut after where
  oneLine s hs := h.oneLine s (List.mem_append_right _ hs)
  ended := h.ended.right_of_append
  apart := h.apart.right_of_append

theorem WellCut.cutOf (h : WellCut segs) (hne : ∀ s ∈ segs, s ≠ ⟨[], none⟩) :
    CutOf (segs.flatMap Segment.written) segs where
  written := rfl
  oneLine := h.oneLine
  ended := by
    intro before s after hsplit hnone
    subst hsplit
    obtain ⟨-, hnext, -⟩ := wellCut_cons_iff.mp h.of_append
    constructor
    · cases after with
      | nil => rfl
      | cons t after => exact absurd hnone (hnext t rfl).1
    · intro htext
      obtain ⟨text, ending⟩ := s
      simp only at hnone htext
      exact hne ⟨text, ending⟩ (by simp) (by rw [hnone, htext])
  alone := by
    intro before s after hsplit hcr hlf
    subst hsplit
    obtain ⟨-, hnext, hafter⟩ := wellCut_cons_iff.mp h.of_append
    obtain ⟨rest, hrest⟩ := List.head?_eq_some_iff.mp hlf
    have hhead := head_of_lineFeed hafter hrest
    exact (hnext _ hhead).2 ⟨hcr, rfl⟩

/-- The cut of a text is a way, and the only way, to write it as lines with their endings. -/
theorem segments_eq_iff : segments text = segs ↔ CutOf text segs := by
  constructor
  · intro h
    subst h
    have hcut := (wellCut_segments text).cutOf fun s hs => ne_empty_of_mem_segments hs
    rwa [written_segments] at hcut
  · intro h
    have hfound := segments_written h.wellCut
    rw [h.written, List.filter_eq_self.mpr fun s hs => decide_eq_true (h.ne_empty hs)] at hfound
    exact hfound

/-! ## One style for all -/

/-- The segment with this ending in the place of its own, if it has one. -/
def Segment.endedBy (e : Ending) (s : Segment) : Segment :=
  { s with ending := s.ending.map fun _ => e }

/-- The text with every ending rewritten to this one. -/
def endedBy (e : Ending) (text : List Char) : List Char :=
  ((segments text).map (Segment.endedBy e)).flatMap Segment.written

theorem Segment.ending_endedBy_eq_none_iff (e : Ending) (s : Segment) :
    (s.endedBy e).ending = none ↔ s.ending = none := by
  simp [endedBy]

/-- Two endings join only if they differ. -/
theorem Segment.not_joins_endedBy (e : Ending) (s t : Segment) :
    ¬ (s.endedBy e).Joins (t.endedBy e) := by
  intro ⟨hcr, hlf⟩
  obtain ⟨-, -, he⟩ := Option.map_eq_some_iff.mp hcr
  obtain ⟨-, -, he'⟩ := Option.map_eq_some_iff.mp (congrArg Segment.ending hlf)
  rw [he] at he'
  cases he'

theorem WellCut.endedBy (h : WellCut segs) (e : Ending) :
    WellCut (segs.map (Segment.endedBy e)) where
  oneLine := List.forall_mem_map.mpr h.oneLine
  ended := by
    refine (List.isChain_map _).mpr (h.ended.imp ?_)
    intro s t hended hnone
    exact hended ((s.ending_endedBy_eq_none_iff e).mp hnone)
  apart := by
    refine (List.isChain_map _).mpr (h.apart.imp ?_)
    intro s t _
    exact s.not_joins_endedBy e t

theorem segments_endedBy (e : Ending) (text : List Char) :
    segments (endedBy e text) = (segments text).map (Segment.endedBy e) := by
  refine segments_eq_iff.mpr (((wellCut_segments text).endedBy e).cutOf ?_)
  intro s hs hempty
  obtain ⟨t, ht, rfl⟩ := List.mem_map.mp hs
  have hnone := (t.ending_endedBy_eq_none_iff e).mp (by rw [hempty])
  obtain ⟨text, ending⟩ := t
  obtain ⟨rfl, -⟩ := Segment.mk.inj hempty
  simp only at hnone
  exact ne_empty_of_mem_segments ht (by rw [hnone])

/-- The lines stay as they are. -/
theorem lines_endedBy (e : Ending) (text : List Char) : lines (endedBy e text) = lines text := by
  rw [lines, segments_endedBy, List.map_map]
  rfl

end

end Text

namespace Checker

open Text

/-- **Lines and their endings.**  Line by line, what is left of a text gets shorter, until there is
nothing left; the lines and endings so found are the only ones, under the conditions of `CutOf`, that
make up the text; and a scan comes to the same whichever style the endings are rewritten to. -/
theorem endings_immaterial :
    (∀ text line rest, firstLine? text = some (line, rest) → rest.length < text.length)
    ∧ (∀ text, lines text = match firstLine? text with
        | none => []
        | some (line, rest) => line :: lines rest)
    ∧ (∀ text segs, segments text = segs ↔ CutOf text segs)
    ∧ ∀ (c : Checker) (path : Path) (text : List Char) (e : Ending),
        c.scanText path (endedBy e text) = c.scanText path text := by
  refine ⟨?_, lines_eq, ?_, ?_⟩
  · intro text line rest h
    exact length_lt_of_firstLine? h
  · intro text segs
    exact segments_eq_iff
  · intro c path text e
    have hlive : Scan.liveLines (endedBy e text) = Scan.liveLines text := by
      rw [Scan.liveLines, Scan.liveLines, lines_endedBy]
    exact scanText_congr hlive c path

/-- All three endings, an empty line between two of them, and a last line without one. -/
theorem endings_immaterial_mixed :
    let text := "#include <math.h>\r\n\r#include <Python.h>\nnpy_intp n;".toList
    let segs : List Segment := [⟨"#include <math.h>".toList, some .crlf⟩, ⟨[], some .cr⟩,
      ⟨"#include <Python.h>".toList, some .lf⟩, ⟨"npy_intp n;".toList, none⟩]
    let path := Path.ofString "a.c"
    CutOf text segs
      ∧ ("\r#include <Python.h>\nnpy_intp n;".toList).length < text.length
      ∧ endedBy .cr text = "#include <math.h>\r\r#include <Python.h>\rnpy_intp n;".toList
      ∧ (Checker.standard.scanText path text).1.findings = [.outOfOrder "a.c" "Python.h" 3 [1]]
      ∧ Checker.standard.scanText path (endedBy .cr text)
        = Checker.standard.scanText path text := by
  intro text segs path
  obtain ⟨hshorter, -, hcut, hscan⟩ := endings_immaterial
  have hsegs : segments text = segs := by decide +kernel
  have hfirst : firstLine? text = some ("#include <math.h>".toList,
      "\r#include <Python.h>\nnpy_intp n;".toList) := by decide +kernel
  refine ⟨(hcut text segs).mp hsegs, hshorter _ _ _ hfirst, ?_, ?_,
    hscan Checker.standard path text .cr⟩
  · decide +kernel
  · decide +kernel

end Checker

end IncludeOrder
