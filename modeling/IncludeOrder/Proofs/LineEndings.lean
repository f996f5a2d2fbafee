import IncludeOrder.Text.Line
import Mathlib.Data.List.Chain

/-!
# Segments and the texts they are cut from

What the cut of a text into segments yields, said without the cut (`WellCut`): no line holds a line
feed or a carriage return, every segment but the last has an ending, and no segment ends with a
carriage return when the next one is nothing but a line feed, since the two would be one ending.

Every text is cut like that (`wellCut_segments`), and segments like that are found again in the text
they make up (`segments_written`), apart from an empty line without an ending: it leaves no trace.
Of other segments those whose endings would be one are found as one (`segments_flatMap_written`).
-/

set_option autoImplicit false

namespace IncludeOrder.Text

/-- No line ends inside it. -/
def OneLine (text : List Char) : Prop := '\n' ∉ text ∧ '\r' ∉ text

/-- Written one after the other, the two segments have one ending. -/
def Segment.Joins (s t : Segment) : Prop := s.ending = some .cr ∧ t = ⟨[], some .lf⟩

instance (text : List Char) : Decidable (OneLine text) := inferInstanceAs (Decidable (_ ∧ _))

instance (s t : Segment) : Decidable (s.Joins t) := inferInstanceAs (Decidable (_ ∧ _))

/-- Segments as a text is cut into. -/
structure WellCut (segs : List Segment) : Prop where
  oneLine : ∀ s ∈ segs, OneLine s.text
  ended : segs.IsChain fun s _ => s.ending ≠ none
  apart : segs.IsChain fun s t => ¬ s.Joins t

section

variable {current text rest : List Char} {s t : Segment} {segs : List Segment}

theorem oneLine_cons {c : Char} : OneLine (c :: text) ↔ c ≠ '\n' ∧ c ≠ '\r' ∧ OneLine text := by
  simp only [OneLine, List.mem_cons, not_or]
  tauto

theorem oneLine_reverse : OneLine text.reverse ↔ OneLine text := by
  simp [OneLine]

theorem WellCut.nil : WellCut [] := ⟨by simp, .nil, .nil⟩

theorem wellCut_cons_iff :
    WellCut (s :: segs)
      ↔ OneLine s.text ∧ (∀ t ∈ segs.head?, s.ending ≠ none ∧ ¬ s.Joins t) ∧ WellCut segs := by
  constructor
  · intro h
    have hended := List.isChain_cons.mp h.ended
    have hapart := List.isChain_cons.mp h.apart
    refine ⟨h.oneLine s (by simp), ?_, fun u hu => h.oneLine u (by simp [hu]), hended.2, hapart.2⟩
    intro t ht
    exact ⟨hended.1 t ht, hapart.1 t ht⟩
  · intro ⟨htext, hnext, hrest⟩
    refine ⟨List.forall_mem_cons.mpr ⟨htext, hrest.oneLine⟩, ?_, ?_⟩
    · exact List.isChain_cons.mpr ⟨fun t ht => (hnext t ht).1, hrest.ended⟩
    · exact List.isChain_cons.mpr ⟨fun t ht => (hnext t ht).2, hrest.apart⟩

/-! ## A text is well cut -/

/-- A text that is cut off at a line feed first starts with it. -/
theorem starts_of_lineFeed (h : (segmentsFrom [] text).head? = some ⟨[], some .lf⟩) :
    ∃ rest, text = '\n' :: rest := by
  obtain ⟨segs, hsegs⟩ := List.head?_eq_some_iff.mp h
  have hwritten := written_segmentsFrom [] text
  rw [hsegs] at hwritten
  exact ⟨segs.flatMap Segment.written, hwritten.symm⟩

theorem wellCut_segmentsFrom (h : OneLine current) : WellCut (segmentsFrom current text) := by
  fun_induction segmentsFrom current text with
  | case1 current hempty => exact .nil
  | case2 current hempty =>
    exact wellCut_cons_iff.mpr ⟨oneLine_reverse.mpr h, by simp, .nil⟩
  | case3 current rest ih =>
    exact wellCut_cons_iff.mpr
      ⟨oneLine_reverse.mpr h, fun t _ => ⟨by simp, by simp [Segment.Joins]⟩, ih (by simp [OneLine])⟩
  | case4 current rest ih =>
    exact wellCut_cons_iff.mpr
      ⟨oneLine_reverse.mpr h, fun t _ => ⟨by simp, by simp [Segment.Joins]⟩, ih (by simp [OneLine])⟩
  | case5 current rest hrest ih =>
    refine wellCut_cons_iff.mpr ⟨oneLine_reverse.mpr h, ?_, ih (by simp [OneLine])⟩
    intro t ht
    refine ⟨by simp, ?_⟩
    intro hjoins
    rw [hjoins.2] at ht
    obtain ⟨more, hmore⟩ := starts_of_lineFeed ht
    exact hrest more hmore
  | case6 current c rest hlf _ hcr ih => exact ih (oneLine_cons.mpr ⟨hlf, hcr, h⟩)

/-- Every text is well cut. -/
theorem wellCut_segments (text : List Char) : WellCut (segments text) :=
  wellCut_segmentsFrom (by simp [OneLine])

/-! ## Well cut segments are found again -/

theorem segmentsFrom_append (h : OneLine text) (current rest : List Char) :
    segmentsFrom current (text ++ rest) = segmentsFrom (text.reverse ++ current) rest := by
  induction text generalizing current with
  | nil => rfl
  | cons c text ih =>
    obtain ⟨hlf, hcr, htext⟩ := oneLine_cons.mp h
    have hstep : segmentsFrom current (c :: (text ++ rest))
        = segmentsFrom (c :: current) (text ++ rest) := by
      rw [segmentsFrom] <;> simp [hlf, hcr]
    rw [List.cons_append, hstep, ih htext]
    simp

theorem segmentsFrom_written {e : Ending} (h : e = .cr → ∀ more, rest ≠ '\n' :: more)
    (current : List Char) :
    segmentsFrom current (e.written ++ rest)
      = ⟨current.reverse, some e⟩ :: segmentsFrom [] rest := by
  cases e with
  | lf => rfl
  | crlf => rfl
  | cr =>
    change segmentsFrom current ('\r' :: rest) = _
    rw [segmentsFrom]
    exact h rfl

/-- Well cut segments that make up a line feed and more start with a line feed alone. -/
theorem head_of_lineFeed (h : WellCut segs) (hrest : segs.flatMap Segment.written = '\n' :: rest) :
    segs.head? = some ⟨[], some .lf⟩ := by
  cases segs with
  | nil => simp at hrest
  | cons s segs =>
    obtain ⟨htext, hnext, -⟩ := wellCut_cons_iff.mp h
    obtain ⟨text, ending⟩ := s
    cases text with
    | cons c text =>
      have hc : c = '\n' := by
        simpa [Segment.written] using (List.cons.inj hrest).1
      exact absurd hc (oneLine_cons.mp htext).1
    | nil =>
      cases ending with
      | none =>
        cases segs with
        | nil => simp [Segment.written] at hrest
        | cons t segs => exact absurd rfl (hnext t rfl).1
      | some e =>
        cases e with
        | lf => rfl
        | crlf => simp [Segment.written, Ending.written] at hrest
        | cr => simp [Segment.written, Ending.written] at hrest

/-- The segments of a text that is written segment by segment. -/
theorem segments_written (h : WellCut segs) :
    segments (segs.flatMap Segment.written) = segs.filter (· ≠ ⟨[], none⟩) := by
  induction segs with
  | nil => rfl
  | cons s segs ih =>
    obtain ⟨htext, hnext, hsegs⟩ := wellCut_cons_iff.mp h
    obtain ⟨text, ending⟩ := s
    rw [List.flatMap_cons, Segment.written, List.append_assoc, segments, segmentsFrom_append htext,
      List.append_nil]
    cases ending with
    | none =>
      cases segs with
      | nil => cases text <;> simp [segmentsFrom]
      | cons t segs => exact absurd rfl (hnext t rfl).1
    | some e =>
      have hcr : e = .cr → ∀ more, segs.flatMap Segment.written ≠ '\n' :: more := by
        intro he more hmore
        exact (hnext _ (head_of_lineFeed hsegs hmore)).2 ⟨congrArg some he, rfl⟩
      rw [Option.map_some, Option.getD_some, segmentsFrom_written hcr, List.reverse_reverse]
      rw [List.filter_cons_of_pos (by simp), ← ih hsegs, segments]

/-! ## Endings that join -/

/-- How many of the segments are nothing but a line feed that joins the ending before it. -/
def joins : List Segment → Nat
  | s :: t :: rest => (if s.Joins t then 1 else 0) + joins (t :: rest)
  | _ => 0

/-- The segments without these; the line feed belongs to the ending that it joins. -/
def joined : List Segment → List Segment
  | s :: t :: rest =>
    if s.Joins t then ⟨s.text, some .crlf⟩ :: joined rest else s :: joined (t :: rest)
  | segs => segs

theorem joins_cons (h : s.ending ≠ some .cr) (segs : List Segment) :
    joins (s :: segs) = joins segs := by
  cases segs with
  | nil => rfl
  | cons t rest => rw [joins, if_neg fun hjoins => h hjoins.1, Nat.zero_add]

theorem joins_eq_zero (h : segs.IsChain fun s t => ¬ s.Joins t) : joins segs = 0 := by
  fun_induction joins segs with
  | case1 s t rest ih =>
    rw [List.isChain_cons_cons] at h
    rw [if_neg h.1, ih h.2]
  | case2 => rfl

theorem joins_le_length (segs : List Segment) : joins segs ≤ segs.length := by
  fun_induction joins segs with
  | case1 s t rest ih =>
    rw [List.length_cons]
    split <;> omega
  | case2 => exact Nat.zero_le _

/-- The same is written. -/
theorem written_joined (segs : List Segment) :
    (joined segs).flatMap Segment.written = segs.flatMap Segment.written := by
  fun_induction joined segs with
  | case1 s t rest h ih =>
    obtain ⟨hcr, rfl⟩ := h
    simp [Segment.written, Ending.written, hcr, ih]
  | case2 s t rest h ih => rw [List.flatMap_cons, ih, ← List.flatMap_cons]
  | case3 => rfl

theorem head?_joined {u : Segment} (h : u ∈ (joined (t :: segs)).head?) :
    u = t ∨ u.ending = some .crlf := by
  cases segs with
  | nil => exact Or.inl (Option.some.inj h).symm
  | cons v rest =>
    rw [joined] at h
    split at h
    · exact Or.inr (by rw [← Option.some.inj h])
    · exact Or.inl (Option.some.inj h).symm

theorem wellCut_joined (honeLine : ∀ s ∈ segs, OneLine s.text)
    (hended : segs.IsChain fun s _ => s.ending ≠ none) : WellCut (joined segs) := by
  fun_induction joined segs with
  | case1 s t rest h ih =>
    obtain ⟨hs, hrest⟩ := List.forall_mem_cons.mp honeLine
    have hrestEnded := (List.isChain_cons.mp (List.isChain_cons.mp hended).2).2
    refine wellCut_cons_iff.mpr
      ⟨hs, fun u _ => ⟨by simp, by simp [Segment.Joins]⟩, ih ?_ hrestEnded⟩
    exact (List.forall_mem_cons.mp hrest).2
  | case2 s t rest h ih =>
    obtain ⟨hs, hrest⟩ := List.forall_mem_cons.mp honeLine
    rw [List.isChain_cons_cons] at hended
    refine wellCut_cons_iff.mpr ⟨hs, fun u hu => ⟨hended.1, fun hjoins => ?_⟩, ih hrest hended.2⟩
    cases head?_joined hu with
    | inl hsame => exact h (hsame ▸ hjoins)
    | inr hcrlf =>
      rw [hjoins.2] at hcrlf
      cases hcrlf
  | case3 segs hshort =>
    refine ⟨honeLine, hended, ?_⟩
    rcases segs with _ | ⟨s, _ | ⟨t, rest⟩⟩
    · exact .nil
    · exact .singleton s
    · exact (hshort s t rest rfl).elim

/-- The segments of a text that is written line by line, where endings may join. -/
theorem segments_flatMap_written (honeLine : ∀ s ∈ segs, OneLine s.text)
    (hended : segs.IsChain fun s _ => s.ending ≠ none) :
    segments (segs.flatMap Segment.written) = (joined segs).filter (· ≠ ⟨[], none⟩) := by
  rw [← written_joined, segments_written (wellCut_joined honeLine hended)]

/-- No segment of a text is empty. -/
theorem ne_empty_of_mem_segments (hs : s ∈ segments text) : s ≠ ⟨[], none⟩ := by
  have hfilter := segments_written (wellCut_segments text)
  rw [written_segments] at hfilter
  rw [hfilter] at hs
  exact of_decide_eq_true (List.mem_filter.mp hs).2

end

end IncludeOrder.Text
