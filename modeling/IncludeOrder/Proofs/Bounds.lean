import IncludeOrder.Proofs.Counts
import IncludeOrder.Proofs.Directives
import Mathlib.Algebra.Order.BigOperators.Group.List
import Mathlib.Algebra.Order.Group.Nat

/-!
# Counts are bounded by the text

A text pays for what is counted in it.  The shortest directive has eleven characters, and with the
ending that every line but the last needs a directive takes up twelve of the text.  The lines that
count are directives, and so is the designated line after them, which makes twelve characters for
each violation and eleven more (`violations_bound`).  Lines take up a character each at least, so
that their numbers are bounded as well (`numbers_bound`).  A run scans a text for each file, and
what it counts is bounded by the size of all of them (`violations_checkFiles_le`).
-/

set_option autoImplicit false

namespace IncludeOrder

/-! ## Sizes -/

namespace Text

/-- A line takes up its characters and an ending, which the last line may lack. -/
theorem sum_length_segmentsFrom_le (current text : List Char) :
    ((segmentsFrom current text).map fun s => s.text.length + 1).sum
      ≤ current.length + text.length + 1 := by
  fun_induction segmentsFrom current text with
  | case1 => simp
  | case2 => simp
  | case3 current rest ih => simp at ih ⊢; omega
  | case4 current rest ih => simp at ih ⊢; omega
  | case5 current rest _ ih => simp at ih ⊢; omega
  | case6 current c rest _ _ _ ih => simp at ih ⊢; omega

theorem sum_length_lines_le (text : List Char) :
    ((lines text).map fun line => line.length + 1).sum ≤ text.length + 1 := by
  simpa [lines, segments, Function.comp_def] using sum_length_segmentsFrom_le [] text

end Text

/-- A text has no more characters than bytes. -/
theorem Utf8.length_le_length_encode (text : List Char) : text.length ≤ (encode text).length := by
  induction text with
  | nil => exact Nat.le_refl _
  | cons c text ih =>
    have hc : 0 < (String.utf8EncodeChar c).length := by
      rw [String.length_utf8EncodeChar]
      exact c.utf8Size_pos
    rw [encode_cons, List.length_append, List.length_cons]
    omega

theorem HeaderPath.length_pos {path : List Char} (h : HeaderPath path) : 0 < path.length := by
  cases h with
  | bare hname => exact List.length_pos_iff.mpr hname.1
  | extended => exact List.length_pos_iff.mpr (by simp)
  | inside => exact List.length_pos_iff.mpr (by simp)

/-- The number sign, the keyword, two delimiters, and a character between them. -/
theorem Directive.length_of_headerPath? {line path : List Char} (h : headerPath? line = some path) :
    11 ≤ line.length := by
  obtain ⟨d, rfl, rfl⟩ := headerPath?_eq_some_iff.mp h
  have hpath := d.headerPath_path.length_pos
  simp [Rendering.line, keyword]
  omega

/-! ## One scan -/

namespace Scan

/-- What lines take up, each with an ending. -/
def weight (lines : List (List Char × Nat)) : Nat :=
  ((lines.map Prod.fst).map fun line => line.length + 1).sum

variable {s : Settings} {r : Registry} {lines more live : List (List Char × Nat)}

theorem weight_append : weight (lines ++ more) = weight lines + weight more := by
  simp [weight]

theorem weight_le_of_sublist (h : more.Sublist lines) : weight more ≤ weight lines :=
  ((h.map _).map _).sum_le_sum fun _ _ => Nat.zero_le _

theorem weight_liveLines_le (text : List Char) : weight (liveLines text) ≤ text.length + 1 := by
  have hlines : weight ((Text.lines text).zipIdx 1) ≤ text.length + 1 := by
    rw [weight, List.zipIdx_map_fst]
    exact Text.sum_length_lines_le text
  exact (weight_le_of_sublist (sublist_liveFrom _ _)).trans hlines

theorem weight_of_header {numbered : List Char × Nat} {header : String}
    (h : header? numbered = some header) : 12 ≤ weight [numbered] := by
  obtain ⟨path, hpath, -⟩ := Option.map_eq_some_iff.mp h
  have hlength := Directive.length_of_headerPath? hpath
  simp [weight]
  omega

/-- Each of the lines that count takes up twelve characters. -/
theorem length_otherLines_le (s : Settings) (lines : List (List Char × Nat)) :
    12 * (otherLines s lines).length ≤ weight lines := by
  induction lines with
  | nil => exact Nat.le_refl _
  | cons first rest ih =>
    have hfirst : 12 * (otherLines s [first]).length ≤ weight [first] := by
      cases hheader : header? first with
      | none => simp [otherLines_of_code hheader]
      | some header =>
        have hweight := weight_of_header hheader
        rw [otherLines_of_header hheader]
        split
        · simp
        · simpa using hweight
    rw [← List.singleton_append, otherLines_append, weight_append, List.length_append]
    omega

/-- The designated line takes up its part after them. -/
theorem length_otherLines_preceding_le {line : Nat} (h : designated? r live = some line) :
    12 * (otherLines s (preceding r live)).length + 12 ≤ weight live := by
  rcases designated_cases r live with ⟨hnone, -⟩ | ⟨numbered, after, -, hknown, hsplit⟩
  · rw [hnone] at h
    cases h
  · obtain ⟨header, hheader, -⟩ := designates_eq_true_iff.mp hknown
    have hbefore := length_otherLines_le s (preceding r live)
    have hline := weight_of_header hheader
    have hweight : weight live
        = weight (preceding r live) + (weight [numbered] + weight after) := by
      rw [← weight_append, ← weight_append, List.singleton_append, ← hsplit]
    omega

/-- The numbers of live lines are those of lines. -/
theorem number_of_mem_liveLines {text : List Char} {n : Nat}
    (h : n ∈ (liveLines text).map Prod.snd) : 1 ≤ n ∧ n ≤ text.length := by
  have hall : n ∈ ((Text.lines text).zipIdx 1).map Prod.snd :=
    ((sublist_liveFrom _ _).map Prod.snd).subset h
  have hlines := Text.length_lines_le text
  rw [List.zipIdx_map_snd, List.mem_range'_1] at hall
  omega

/-- What a text pays for each violation, and for the designated line after them. -/
theorem violations_verdict_le {label : Label} {text : List Char}
    (h : (verdict s r label (liveLines text)).violations ≠ 0) :
    12 * (verdict s r label (liveLines text)).violations + 11 ≤ (Utf8.encode text).length := by
  have hbytes := Utf8.length_le_length_encode text
  have hlines := weight_liveLines_le text
  cases hline : designated? r (liveLines text) with
  | none => simp [verdict, hline] at h
  | some line =>
    have hcount := length_otherLines_preceding_le (s := s) hline
    simp only [verdict, hline, Option.isSome_some, if_true]
    omega

/-- Every line of a finding is a live line. -/
theorem number_of_mem_verdict {label : Label} {f : Finding} {n : Nat}
    (hascending : live.Pairwise fun l m => l.2 < m.2)
    (hf : f ∈ (verdict s r label live).findings) (hn : n ∈ f.line :: f.others) :
    n ∈ live.map Prod.snd := by
  rcases List.mem_cons.mp hn with rfl | hother
  · exact (sublist_verdict hascending).subset (List.mem_map_of_mem hf)
  · rcases List.mem_append.mp hf with hearly | hlate
    · rw [(mem_early hearly).2] at hother
      cases hother
    · obtain ⟨-, line, -, rfl⟩ := mem_late hlate
      have hpreceding : (preceding r live).Sublist live := List.takeWhile_sublist _
      exact (hpreceding.map Prod.snd).subset (sublist_otherLines.subset hother)

end Scan

namespace Checker

/-- **The violations of a file are bounded by its size.** -/
theorem violations_bound (c : Checker) (path : Path) {text : List Char}
    (h : (c.scanText path text).1.violations ≠ 0) :
    12 * (c.scanText path text).1.violations + 11 ≤ (Utf8.encode text).length := by
  rw [report_scanText] at h ⊢
  exact Scan.violations_verdict_le h

/-- **The numbers of lines are bounded by the size.** -/
theorem numbers_bound {c : Checker} {path : Path} {text : List Char} {f : Finding} {n : Nat}
    (hf : f ∈ (c.scanText path text).1.findings) (hn : n ∈ f.line :: f.others) :
    1 ≤ n ∧ n ≤ (Utf8.encode text).length := by
  rw [report_scanText] at hf
  have hnumber := Scan.number_of_mem_liveLines
    (Scan.number_of_mem_verdict (Scan.ascending_liveLines text) hf hn)
  exact ⟨hnumber.1, hnumber.2.trans (Utf8.length_le_length_encode text)⟩

end Checker

/-! ## A run -/

/-- How many bytes of a file are scanned: all of them if it is UTF-8, and otherwise none. -/
def scannedSize (read : FileReader) (path : Path) : Nat :=
  match read path with
  | .ok bytes => if Utf8.WellFormed bytes then bytes.length else 0
  | .error _ => 0

section Sizes

variable {read : FileReader} {path : Path}

theorem scannedSize_of_text {text : List Char} (h : read path = .ok (Utf8.encode text)) :
    scannedSize read path = (Utf8.encode text).length := by
  simp only [scannedSize, h]
  exact if_pos ⟨text, rfl⟩

theorem scannedSize_of_no_text (h : readText? read path = none) : scannedSize read path = 0 := by
  unfold scannedSize
  split
  · rename_i bytes hread
    refine if_neg ?_
    rintro ⟨text, rfl⟩
    rw [readText?_eq_some_iff.mpr hread] at h
    cases h
  · rfl

/-- The sizes of the files are those of the sources that stand there. -/
theorem sum_size_sourcesAt (read : FileReader) (paths : List Path) :
    ((sourcesAt read paths).map fun f => (Utf8.encode f.text).length).sum
      = (paths.map (scannedSize read)).sum := by
  induction paths with
  | nil => rfl
  | cons path paths ih =>
    cases htext : readText? read path with
    | none =>
      rw [sourcesAt_cons_of_no_text htext, ih, List.map_cons, List.sum_cons,
        scannedSize_of_no_text htext, Nat.zero_add]
    | some text =>
      rw [sourcesAt_cons_of_text htext, List.map_cons, List.sum_cons, ih, List.map_cons,
        List.sum_cons, scannedSize_of_text (readText?_eq_some_iff.mp htext)]

/-- The order of a run does not change what its files come to. -/
theorem sum_scannedSize_scanOrder (read : FileReader) (paths : List Path) :
    ((scanOrder paths).map (scannedSize read)).sum = (paths.map (scannedSize read)).sum :=
  ((perm_scanOrder paths).map _).sum_eq

end Sizes

/-- A report on a source counts no more than a twelfth of its size. -/
theorem Scan.violations_report_le (s : Settings) (r : Registry) (f : Source) :
    12 * (report s r f).violations ≤ (Utf8.encode f.text).length := by
  by_cases hzero : (report s r f).violations = 0
  · rw [hzero]
    exact Nat.zero_le _
  · exact (Nat.le_add_right _ 11).trans (violations_verdict_le hzero)

theorem Scan.sum_violations_le (s : Settings) (r : Registry) (files : List Source) :
    12 * ((reports s r files).map ScanReport.violations).sum
      ≤ (files.map fun f => (Utf8.encode f.text).length).sum := by
  induction files generalizing r with
  | nil => exact Nat.le_refl _
  | cons f files ih =>
    have hfirst := violations_report_le s r f
    have hrest := ih (r.learn f)
    rw [reports, List.map_cons, List.sum_cons, List.map_cons, List.sum_cons]
    omega

/-- **The violations of a run are bounded by the sizes of its files**, each counted as often as it
is listed. -/
theorem Checker.violations_checkFiles_le {read : FileReader} {c : Checker} {paths : List Path}
    {summary : Summary} (h : (c.checkFiles read paths).1.result = .ok summary) :
    12 * summary.violations ≤ (paths.map (scannedSize read)).sum := by
  have hread : ∀ path ∈ scanOrder paths, readFault? read path = none := fun path hpath =>
    readable_of_ok h path (mem_scanOrder.mp hpath)
  have hviolations : summary.violations
      = ((Scan.reports c.settings c.registry (sourcesAt read (scanOrder paths))).map
        ScanReport.violations).sum := by
    rw [summary_of_ok h, foldl_count_visitAll hread]
  rw [hviolations, ← sum_scannedSize_scanOrder, ← sum_size_sourcesAt]
  exact Scan.sum_violations_le _ _ _

end IncludeOrder
