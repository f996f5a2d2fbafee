import IncludeOrder.Proofs.LineEndings
import IncludeOrder.Proofs.Renumbering
import IncludeOrder.Proofs.Verdict

/-!
# What stands in a comment

The mode after some lines in closed form, and what follows for a scan.  The mode is forced by a line
with one kind of delimiter and carried over every other line, so it is `.block` just if a line has
only an opening delimiter and none after it has only a closing one (`foldl_next_eq_block_iff`).

A line inside a comment that closes none is passed over, and the mode stays.  Such lines may be
reworded all at once (`Reworded`): the live lines are the same, and so is the scan.  Only one thing
can happen to their numbers.  When a line is emptied between a carriage return and its own line
feed, the two are one ending and the line is gone, so that the lines behind it move up
(`Reworded.liveLines_eq`).
-/

set_option autoImplicit false

namespace IncludeOrder

open Text

namespace Comment

variable {mode : Mode}

/-! ## The mode in closed form -/

/-- A line has only an opening delimiter, and none of the lines after it has only a closing one. -/
def LeftOpen (lines : List (List Char)) : Prop :=
  ∃ before line after, lines = before ++ line :: after
    ∧ (['/', '*'] <:+: line ∧ ¬ ['*', '/'] <:+: line)
    ∧ ∀ l ∈ after, ['*', '/'] <:+: l → ['/', '*'] <:+: l

theorem leftOpen_cons_iff {line : List Char} {rest : List (List Char)} :
    LeftOpen (line :: rest)
      ↔ ((['/', '*'] <:+: line ∧ ¬ ['*', '/'] <:+: line)
          ∧ ∀ l ∈ rest, ['*', '/'] <:+: l → ['/', '*'] <:+: l)
        ∨ LeftOpen rest := by
  constructor
  · intro ⟨before, opener, after, hlines, hopener, hafter⟩
    cases before with
    | nil =>
      obtain ⟨rfl, rfl⟩ := List.cons.inj hlines
      exact Or.inl ⟨hopener, hafter⟩
    | cons first before =>
      obtain ⟨rfl, rfl⟩ := List.cons.inj hlines
      exact Or.inr ⟨before, opener, after, rfl, hopener, hafter⟩
  · intro h
    cases h with
    | inl hline => exact ⟨[], line, rest, rfl, hline⟩
    | inr hrest =>
      obtain ⟨before, opener, after, rfl, hopener⟩ := hrest
      exact ⟨line :: before, opener, after, rfl, hopener⟩

theorem next_eq_block_iff (mode : Mode) (line : List Char) :
    mode.next line = .block
      ↔ (['/', '*'] <:+: line ∧ ¬ ['*', '/'] <:+: line)
        ∨ mode = .block ∧ (['*', '/'] <:+: line → ['/', '*'] <:+: line) := by
  rw [← opens_iff, ← closes_iff]
  unfold Mode.next
  cases opens line <;> cases closes line <;> simp

/-- The mode after lines that are read from any mode. -/
theorem foldl_next_eq_block_iff (mode : Mode) (lines : List (List Char)) :
    lines.foldl Mode.next mode = .block
      ↔ LeftOpen lines ∨ mode = .block ∧ ∀ l ∈ lines, ['*', '/'] <:+: l → ['/', '*'] <:+: l := by
  induction lines generalizing mode with
  | nil => simp [LeftOpen]
  | cons line rest ih =>
    rw [List.foldl_cons, ih, next_eq_block_iff, leftOpen_cons_iff, List.forall_mem_cons]
    tauto

theorem next_of_not_closes {line : List Char} (h : ¬ ['*', '/'] <:+: line) :
    Mode.block.next line = .block :=
  (next_eq_block_iff .block line).mpr (Or.inr ⟨rfl, fun hcloses => absurd hcloses h⟩)

/-! ## Rewording comments -/

/-- A line may be put in the place of another that starts in this mode: it is the same, or both
stand in a comment which neither closes. -/
def Replaces (mode : Mode) (s t : Segment) : Prop :=
  t = s ∨ (mode = .block ∧ ¬ ['*', '/'] <:+: s.text)
    ∧ (¬ ['*', '/'] <:+: t.text ∧ OneLine t.text) ∧ t.ending = s.ending

/-- The second segments may be put in the place of the first ones, which start in this mode. -/
def Reworded : Mode → List Segment → List Segment → Prop
  | _, [], [] => True
  | mode, s :: segs, t :: segs' => Replaces mode s t ∧ Reworded (mode.next s.text) segs segs'
  | _, _, _ => False

instance (mode : Mode) (s t : Segment) : Decidable (Replaces mode s t) :=
  inferInstanceAs (Decidable (_ ∨ _))

instance decidableReworded : (mode : Mode) → (segs segs' : List Segment) →
    Decidable (Reworded mode segs segs')
  | _, [], [] => inferInstanceAs (Decidable True)
  | mode, s :: segs, _ :: segs' =>
    have := decidableReworded (mode.next s.text) segs segs'
    inferInstanceAs (Decidable (_ ∧ _))
  | _, [], _ :: _ => inferInstanceAs (Decidable False)
  | _, _ :: _, [] => inferInstanceAs (Decidable False)

variable {segs segs' : List Segment} {s t : Segment}

theorem Replaces.ending_eq (h : Replaces mode s t) : t.ending = s.ending := by
  cases h with
  | inl hsame => rw [hsame]
  | inr hother => exact hother.2.2

theorem Replaces.oneLine (h : Replaces mode s t) (hs : OneLine s.text) : OneLine t.text := by
  cases h with
  | inl hsame => rwa [hsame]
  | inr hother => exact hother.2.1.2

/-- Only a line that stands in a comment which it does not close is replaced by another one. -/
theorem Replaces.of_ne (h : Replaces mode s t) (hne : t ≠ s) :
    mode = .block ∧ ¬ ['*', '/'] <:+: s.text := by
  cases h with
  | inl hsame => exact absurd hsame hne
  | inr hother => exact hother.1

theorem Reworded.map_ending (h : Reworded mode segs segs') :
    segs'.map Segment.ending = segs.map Segment.ending := by
  fun_induction Reworded mode segs segs' with
  | case1 mode => rfl
  | case2 mode s segs t segs' ih => rw [List.map_cons, List.map_cons, h.1.ending_eq, ih h.2]
  | case3 => exact h.elim

theorem Reworded.oneLine (h : Reworded mode segs segs') (hsegs : ∀ s ∈ segs, OneLine s.text) :
    ∀ s ∈ segs', OneLine s.text := by
  fun_induction Reworded mode segs segs' with
  | case1 mode => exact hsegs
  | case2 mode s segs t segs' ih =>
    obtain ⟨hs, hrest⟩ := List.forall_mem_cons.mp hsegs
    exact List.forall_mem_cons.mpr ⟨h.1.oneLine hs, ih h.2 hrest⟩
  | case3 => exact h.elim

/-- Only the last of the segments may be without an ending, as before. -/
theorem Reworded.ended (h : Reworded mode segs segs') (hsegs : WellCut segs) :
    segs'.IsChain fun s _ => s.ending ≠ none := by
  have hended : (segs.map Segment.ending).IsChain fun e _ => e ≠ none :=
    (List.isChain_map _).mpr hsegs.ended
  rw [← h.map_ending] at hended
  exact (List.isChain_map _).mp hended

theorem reworded_cons_iff :
    Reworded mode segs (t :: segs')
      ↔ ∃ s rest, segs = s :: rest ∧ Replaces mode s t
        ∧ Reworded (mode.next s.text) rest segs' := by
  cases segs <;> simp [Reworded]

theorem Reworded.eq_nil (h : Reworded mode segs []) : segs = [] := by
  cases segs with
  | nil => rfl
  | cons s segs => exact h.elim

/-! ## The live lines after a rewording -/

section LiveLines

variable {number : Nat → Nat} {first k : Nat}

/-- The lines of the segments are numbered from `first`, and from `k` once endings are joined. -/
def Renumbers (number : Nat → Nat) (first k : Nat) (segs : List Segment) : Prop :=
  ∀ i, number (first + i) + joins (segs.take (i + 1)) = k + i

theorem Renumbers.head (h : Renumbers number first k (t :: segs)) : number first = k := by
  simpa [joins] using h 0

theorem Renumbers.tail_of_joins {u : Segment} (h : Renumbers number first k (t :: u :: segs))
    (hjoins : t.Joins u) : Renumbers number (first + 1 + 1) (k + 1) segs := by
  intro i
  have hi := h (i + 1 + 1)
  have hlf : u.ending ≠ some .cr := by simp [hjoins.2]
  have hline : first + (i + 1 + 1) = first + 1 + 1 + i := by omega
  rw [hline, List.take_succ_cons, List.take_succ_cons, joins, if_pos hjoins, joins_cons hlf] at hi
  omega

theorem Renumbers.tail_of_apart {u : Segment} (h : Renumbers number first k (t :: u :: segs))
    (hapart : ¬ t.Joins u) : Renumbers number (first + 1) (k + 1) (u :: segs) := by
  intro i
  have hi := h (i + 1)
  have hline : first + (i + 1) = first + 1 + i := by omega
  rw [hline, List.take_succ_cons, List.take_succ_cons, joins, if_neg hapart] at hi
  rw [List.take_succ_cons]
  omega

/-- Each number is less by the lines that are gone up to there. -/
theorem renumbers_sub_joins (segs : List Segment) :
    Renumbers (fun n => n - joins (segs.take n)) 1 1 segs := by
  intro i
  have hle : joins (segs.take (1 + i)) ≤ 1 + i :=
    (joins_le_length _).trans (List.length_take_le _ _)
  rw [Nat.add_comm i 1]
  exact Nat.sub_add_cancel hle

/-- A segment that replaces another one is followed by the same live lines, if those behind it are
the same. -/
theorem Replaces.liveFrom_cons (h : Replaces mode s t) {rest rest' : List (List Char × Nat)}
    (hfirst : number first = k)
    (hrest : Scan.liveFrom (mode.next s.text) rest'
      = (Scan.liveFrom (mode.next s.text) rest).map (Scan.renumbered number)) :
    Scan.liveFrom mode ((t.text, k) :: rest')
      = (Scan.liveFrom mode ((s.text, first) :: rest)).map (Scan.renumbered number) := by
  rcases h with rfl | ⟨⟨rfl, hs⟩, ⟨ht, -⟩, -⟩
  · simp only [Scan.liveFrom, hrest]
    split
    · rfl
    · rw [List.map_cons, Scan.renumbered, hfirst]
  · rw [next_of_not_closes hs] at hrest
    simpa [Scan.liveFrom, Mode.skips, next_of_not_closes, hs, ht] using hrest

/-- A last line may be emptied and be gone, but then it was passed over before. -/
theorem Replaces.liveFrom_singleton (h : Replaces mode s t) (hs : s ≠ ⟨[], none⟩)
    (hfirst : number first = k) :
    Scan.liveFrom mode ((([t].filter (· ≠ ⟨[], none⟩)).map Segment.text).zipIdx k)
      = (Scan.liveFrom mode [(s.text, first)]).map (Scan.renumbered number) := by
  by_cases hempty : t = ⟨[], none⟩
  · obtain ⟨rfl, -⟩ := h.of_ne fun hsame => hs (hsame ▸ hempty)
    simp [hempty, Scan.liveFrom, Mode.skips]
  · rw [List.filter_cons_of_pos (by exact decide_eq_true hempty)]
    exact h.liveFrom_cons hfirst rfl

/-- A line that stands in a comment which it does not close is passed over. -/
theorem liveFrom_block_cons (hs : ¬ ['*', '/'] <:+: s.text) (rest : List (List Char × Nat)) :
    Scan.liveFrom .block ((s.text, first) :: rest) = Scan.liveFrom .block rest := by
  simp [Scan.liveFrom, Mode.skips, next_of_not_closes hs]

/-- The live lines are the same after a rewording, under the numbers that they have when endings
have been joined. -/
theorem Reworded.liveFrom_eq (h : Reworded mode segs segs') (hcut : WellCut segs)
    (hsegs : ∀ s ∈ segs, s ≠ ⟨[], none⟩) (hnumber : Renumbers number first k segs') :
    Scan.liveFrom mode ((((joined segs').filter (· ≠ ⟨[], none⟩)).map Segment.text).zipIdx k)
      = (Scan.liveFrom mode ((segs.map Segment.text).zipIdx first)).map
        (Scan.renumbered number) := by
  -- two lines at a time where endings are joined, else one
  fun_induction joined segs' generalizing mode segs first k with
  | case1 t u segs' hjoins ih =>
    obtain ⟨s, _, rfl, hst, h⟩ := reworded_cons_iff.mp h
    obtain ⟨r, segs, rfl, hru, h⟩ := reworded_cons_iff.mp h
    obtain ⟨-, hnext, hcut⟩ := wellCut_cons_iff.mp hcut
    obtain ⟨-, -, hcut⟩ := wellCut_cons_iff.mp hcut
    obtain ⟨-, hsegs⟩ := List.forall_mem_cons.mp hsegs
    obtain ⟨-, hsegs⟩ := List.forall_mem_cons.mp hsegs
    -- the endings were apart before, so the line between them has been emptied
    have hcr : s.ending = some .cr := hst.ending_eq.symm.trans hjoins.1
    have hemptied : mode.next s.text = .block ∧ ¬ ['*', '/'] <:+: r.text :=
      hru.of_ne fun hsame => (hnext r rfl).2 ⟨hcr, hsame ▸ hjoins.2⟩
    have hrest := ih h hcut hsegs (hnumber.tail_of_joins hjoins)
    rw [hemptied.1, next_of_not_closes hemptied.2] at hrest
    rw [List.filter_cons_of_pos (by simp)]
    refine hst.liveFrom_cons hnumber.head ?_
    rw [hemptied.1, hrest]
    exact congrArg _ (liveFrom_block_cons hemptied.2 _).symm
  | case2 t u segs' hapart ih =>
    obtain ⟨s, _, rfl, hst, h⟩ := reworded_cons_iff.mp h
    obtain ⟨r, segs, rfl, -, -⟩ := reworded_cons_iff.mp h
    obtain ⟨-, hnext, hcut⟩ := wellCut_cons_iff.mp hcut
    obtain ⟨-, hsegs⟩ := List.forall_mem_cons.mp hsegs
    have hended : t.ending ≠ none := hst.ending_eq ▸ (hnext r rfl).1
    have hkept : t ≠ ⟨[], none⟩ := fun ht => hended (by rw [ht])
    have hrest := ih h hcut hsegs (hnumber.tail_of_apart hapart)
    rw [List.filter_cons_of_pos (by exact decide_eq_true hkept)]
    exact hst.liveFrom_cons hnumber.head hrest
  | case3 segs' hshort =>
    rcases segs' with _ | ⟨t, _ | ⟨u, segs'⟩⟩
    · rw [h.eq_nil]
      rfl
    · obtain ⟨s, segs, rfl, hst, h⟩ := reworded_cons_iff.mp h
      obtain rfl := h.eq_nil
      exact hst.liveFrom_singleton (hsegs s (by simp)) hnumber.head
    · exact (hshort t u segs' rfl).elim

theorem Reworded.liveLines_eq {text : List Char} (h : Reworded .code (segments text) segs') :
    Scan.liveLines (segs'.flatMap Segment.written)
      = (Scan.liveLines text).map (Scan.renumbered fun n => n - joins (segs'.take n)) := by
  have hcut := wellCut_segments text
  have hsegments : segments (segs'.flatMap Segment.written)
      = (joined segs').filter (· ≠ ⟨[], none⟩) :=
    segments_flatMap_written (h.oneLine hcut.oneLine) (h.ended hcut)
  simp only [Scan.liveLines, lines, hsegments]
  exact h.liveFrom_eq hcut (fun _ hs => ne_empty_of_mem_segments hs) (renumbers_sub_joins segs')

theorem Reworded.liveLines_eq_of_apart {text : List Char}
    (h : Reworded .code (segments text) segs')
    (hapart : segs'.IsChain fun s t => ¬ s.Joins t) :
    Scan.liveLines (segs'.flatMap Segment.written) = Scan.liveLines text := by
  have hnumber : (Scan.renumbered fun n => n - joins (segs'.take n)) = id := by
    funext numbered
    rw [Scan.renumbered, joins_eq_zero (hapart.take numbered.2)]
    rfl
  rw [h.liveLines_eq, hnumber, List.map_id]

end LiveLines

end Comment

namespace Checker

open Comment

/-- **Comments in closed form.**  After some lines the mode is `.block` just if one of them is left
open, and a line is passed over just if a comment opens on it or the mode is `.block` before it.
When the text of comments is reworded, a scan counts, registers and records the same, and finds the
same but for the line numbers: each is less by the number of lines before it that are gone because
they have been emptied between a carriage return and their own line feed.  If there is none, nothing
changes at all. -/
theorem comments_unseen :
    (∀ lines : List (List Char), lines.foldl Mode.next .code = .block ↔ LeftOpen lines)
    ∧ (∀ (lines : List (List Char)) (line : List Char),
        (lines.foldl Mode.next .code).skips line = true
          ↔ ['/', '*'] <:+: line ∨ lines.foldl Mode.next .code = .block)
    ∧ ∀ (c : Checker) (path : Path) (text : List Char) (segs : List Segment),
        Reworded .code (segments text) segs →
          (c.scanText path (segs.flatMap Segment.written)).1.violations
            = (c.scanText path text).1.violations
          ∧ (c.scanText path (segs.flatMap Segment.written)).1.findings
            = (c.scanText path text).1.findings.map
              (Finding.renumber fun n => n - joins (segs.take n))
          ∧ (c.scanText path (segs.flatMap Segment.written)).2 = (c.scanText path text).2
          ∧ ((segs.IsChain fun s t => ¬ s.Joins t) →
            c.scanText path (segs.flatMap Segment.written) = c.scanText path text) := by
  refine ⟨?_, ?_, ?_⟩
  · intro lines
    simp [foldl_next_eq_block_iff]
  · intro lines line
    rw [← opens_iff, Mode.skips, Bool.or_eq_true, beq_iff_eq]
  · intro c path text segs hreworded
    have hscan := scanText_renumber hreworded.liveLines_eq c path
    have hsame := fun hapart => scanText_congr (hreworded.liveLines_eq_of_apart hapart) c path
    exact ⟨by rw [hscan], by rw [hscan], by rw [hscan], hsame⟩

/-- A directive in a comment instead of code, and a last line that is emptied; and then the same
with the directive gone, from between a carriage return and a line feed. -/
theorem comments_unseen_reworded :
    let c := Checker.standard
    let path := Path.ofString "a.c"
    let text := "#include <m.h>\n/*\rx\n*/\n#include <Python.h>\n/*\ny".toList
    let kept : List Segment := [⟨"#include <m.h>".toList, some .lf⟩, ⟨"/*".toList, some .cr⟩,
      ⟨"#include <Python.h>".toList, some .lf⟩, ⟨"*/".toList, some .lf⟩,
      ⟨"#include <Python.h>".toList, some .lf⟩, ⟨"/*".toList, some .lf⟩, ⟨[], none⟩]
    let gone := kept.set 2 ⟨[], some .lf⟩
    Reworded .code (segments text) kept ∧ (kept.IsChain fun s t => ¬ s.Joins t)
      ∧ c.scanText path (kept.flatMap Segment.written) = c.scanText path text
      ∧ Reworded .code (segments text) gone ∧ ¬ (gone.IsChain fun s t => ¬ s.Joins t)
      ∧ (c.scanText path (gone.flatMap Segment.written)).1.violations = 1
      ∧ (c.scanText path text).1.findings = [.outOfOrder "a.c" "Python.h" 5 [1]]
      ∧ (c.scanText path (gone.flatMap Segment.written)).1.findings
        = [.outOfOrder "a.c" "Python.h" 4 [1]]
      ∧ (c.scanText path (gone.flatMap Segment.written)).2 = (c.scanText path text).2 := by
  intro c path text kept gone
  have hkept : Reworded .code (segments text) kept := by decide +kernel
  have hgone : Reworded .code (segments text) gone := by decide +kernel
  have hapart : kept.IsChain fun s t => ¬ s.Joins t := by decide +kernel
  have hcount : (c.scanText path text).1.violations = 1 := by decide +kernel
  have hfound : (c.scanText path text).1.findings = [.outOfOrder "a.c" "Python.h" 5 [1]] := by
    decide +kernel
  obtain ⟨-, -, -, hsame⟩ := comments_unseen.2.2 c path text kept hkept
  obtain ⟨hviolations, hfindings, hchecker, -⟩ := comments_unseen.2.2 c path text gone hgone
  rw [hcount] at hviolations
  rw [hfound] at hfindings
  exact ⟨hkept, hapart, hsame hapart, hgone, by decide +kernel, hviolations, hfound, hfindings,
    hchecker⟩

/-- A line of a comment that is emptied between a carriage return and a line feed is no line any
more, and what is found behind the comment moves up. -/
theorem comment_line_emptied :
    let c := Checker.standard
    let path := Path.ofString "a.c"
    let text := "/*\rx\n*/\nnpy_intp n;\n".toList
    let segs : List Segment := [⟨"/*".toList, some .cr⟩, ⟨[], some .lf⟩, ⟨"*/".toList, some .lf⟩,
      ⟨"npy_intp n;".toList, some .lf⟩]
    Reworded .code (segments text) segs
      ∧ (c.scanText path text).1.findings = [.constructFirst "a.c" 4]
      ∧ (c.scanText path (segs.flatMap Segment.written)).1.findings
        = [.constructFirst "a.c" 3] := by
  decide +kernel

end Checker

end IncludeOrder
