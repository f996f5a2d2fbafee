import IncludeOrder.Proofs.Bounds

/-!
# Runs in machine words

A run numbers lines and adds counts up.  A machine does this in words of 64 bits, with an addition
that is exact for as long as the sum is a word; beyond that it may wrap, or end the program
(`WordAddition`).  The run with such an addition is `checkFilesWith plus.add`.

Nothing ever gets that far.  A line has a number no greater than the size of its text, a file adds
no more to the violations than its size, and one to the files.  So there is room in the summary for
all that is still to come (`Summary.Room`), file after file, and the run in words is the run in
numbers (`checkFilesWith_eq`).
-/

set_option autoImplicit false

namespace IncludeOrder

/-! ## Words -/

/-- How many words there are. -/
def wordCount : Nat := 2 ^ 64

/-- An addition of words. It gives the sum if that is a word; otherwise it may give anything, or
nothing. -/
structure WordAddition where
  add : Addition Option
  exact : ∀ {a b : Nat}, a + b < wordCount → add a b = some (a + b)

namespace WordAddition

/-- The addition that gives nothing on overflow. -/
def checked : WordAddition where
  add a b := if a + b < wordCount then some (a + b) else none
  exact h := if_pos h

/-- The addition that wraps around. -/
def wrapping : WordAddition where
  add a b := some ((a + b) % wordCount)
  exact h := congrArg some (Nat.mod_eq_of_lt h)

end WordAddition

/-! ## The scan in words -/

section Words

variable (plus : WordAddition)

namespace Scan

theorem State.foldlM_seeIndexed (s : Settings) (label : Label) {lines : List (List Char)}
    {index : Nat} (h : index + lines.length < wordCount) (st : State) :
    (lines.zipIdx index).foldlM (seeIndexed plus.add s label) st
      = some ((lines.zipIdx (index + 1)).foldl (seeLine s label) st) := by
  induction lines generalizing index st with
  | nil => rfl
  | cons line lines ih =>
    rw [List.length_cons] at h
    have hline : st.seeIndexed plus.add s label (line, index)
        = some (st.seeLine s label (line, index + 1)) := by
      simp [seeIndexed, plus.exact (show index + 1 < wordCount by omega)]
    rw [List.zipIdx_cons, List.foldlM_cons, hline, Option.bind_eq_bind, Option.bind_some,
      ih (by omega), List.zipIdx_cons, List.foldl_cons]

/-- A text that is no longer than a word is scanned as in numbers. -/
theorem runWith_eq {text : List Char} (h : (Utf8.encode text).length < wordCount) (s : Settings)
    (registry : Registry) (label : Label) :
    runWith plus.add s registry label text = some (run s registry label text) := by
  have hlines := Text.length_lines_le text
  have hbytes := Utf8.length_le_length_encode text
  rw [run_eq_foldl]
  exact State.foldlM_seeIndexed plus s label (by omega) (.start registry)

end Scan

/-! ## The summary in words -/

namespace Summary

/-- There is room for so many more files, of so many bytes in all. -/
structure Room (s : Summary) (files bytes : Nat) : Prop where
  filesScanned : s.filesScanned + files < wordCount
  filesSkipped : s.filesSkipped + files < wordCount
  violations : s.violations + bytes < wordCount

variable {s : Summary} {files bytes size violations : Nat}

theorem Room.countScanned (h : s.Room (files + 1) (size + bytes)) (hle : violations ≤ size) :
    (s.countScanned violations).Room files bytes := by
  obtain ⟨hscanned, hskipped, hviolations⟩ := h
  constructor <;> simp only [countScanned_eq] <;> omega

theorem Room.countSkipped (h : s.Room (files + 1) (size + bytes)) :
    s.countSkipped.Room files bytes := by
  obtain ⟨hscanned, hskipped, hviolations⟩ := h
  constructor <;> simp only [countSkipped_eq] <;> omega

theorem countScannedWith_eq (h : s.Room (files + 1) (size + bytes)) (hle : violations ≤ size) :
    s.countScannedWith plus.add violations = some (s.countScanned violations) := by
  obtain ⟨hscanned, -, hviolations⟩ := h
  have hfiles := plus.exact (show s.filesScanned + 1 < wordCount by omega)
  have hcount := plus.exact (show s.violations + violations < wordCount by omega)
  simp [countScannedWith, hfiles, hcount, countScanned_eq]

theorem countSkippedWith_eq (h : s.Room (files + 1) bytes) :
    s.countSkippedWith plus.add = some s.countSkipped := by
  have hskipped := h.filesSkipped
  have hfiles := plus.exact (show s.filesSkipped + 1 < wordCount by omega)
  simp [countSkippedWith, hfiles, countSkipped_eq]

end Summary

/-! ## The run in words -/

namespace Checker

variable {read : FileReader} {path : Path}

/-- A file that is no longer than a word is scanned as in numbers. -/
theorem scanFileWith_eq (h : scannedSize read path < wordCount) (c : Checker) :
    c.scanFileWith plus.add read path = some (c.scanFile read path) := by
  cases hread : read path with
  | error cause => simp [scanFileWith, scanFile_eq, hread]
  | ok bytes =>
    cases hdecode : Utf8.decode? bytes with
    | none => simp [scanFileWith, scanFile_eq, hread, hdecode]
    | some text =>
      have hbytes := Utf8.decode?_eq_some_iff_encode.mp hdecode
      rw [scannedSize_of_text (hread.trans (congrArg Except.ok hbytes.symm))] at h
      simp [scanFileWith, scanTextWith, scanFile_eq, scanText_eq, hread, hdecode,
        Scan.runWith_eq plus h]

theorem violations_scanFile_le {c : Checker} {report : ScanReport}
    (h : (c.scanFile read path).1 = .ok report) : report.violations ≤ scannedSize read path := by
  rcases scanFile_cases read c path with
    ⟨cause, -, hscan⟩ | ⟨bytes, -, -, hscan⟩ | ⟨text, hread, hscan⟩
  · simp [hscan] at h
  · simp [hscan] at h
  · obtain rfl : (c.scanText path text).1 = report := by simpa [hscan] using h
    have hbound : 12 * (c.scanText path text).1.violations ≤ (Utf8.encode text).length := by
      rw [report_scanText_source c ⟨path, text⟩]
      exact Scan.violations_report_le c.settings c.registry ⟨path, text⟩
    rw [scannedSize_of_text hread]
    omega

/-- Part of a run, when there is room for the files that are left. -/
theorem runFromWith_eq {order : List Path} {summary : Summary}
    (h : summary.Room order.length (order.map (scannedSize read)).sum) (c : Checker)
    (findings : List Finding) :
    c.runFromWith plus.add read summary findings order
      = some (c.runFrom read summary findings order) := by
  -- each file takes its own part of the room, whatever is made of it
  induction order generalizing c summary findings with
  | nil => rfl
  | cons path rest ih =>
    rw [List.length_cons, List.map_cons, List.sum_cons] at h
    have hsize : scannedSize read path < wordCount := by
      have hviolations := h.violations
      omega
    cases hscan : c.scanFile read path with
    | mk outcome after =>
      have houtcome : (c.scanFile read path).1 = outcome := by rw [hscan]
      cases outcome with
      | ok report =>
        have hle := violations_scanFile_le houtcome
        simp [runFromWith, runFrom_step, scanFileWith_eq plus hsize, hscan,
          Summary.countScannedWith_eq plus h hle, ih (h.countScanned hle)]
      | error failure =>
        cases hrecoverable : failure.isRecoverable with
        | true =>
          simp [runFromWith, runFrom_step, scanFileWith_eq plus hsize, hscan, hrecoverable,
            Summary.countSkippedWith_eq plus h, ih h.countSkipped]
        | false =>
          simp [runFromWith, runFrom_step, scanFileWith_eq plus hsize, hscan, hrecoverable]

/-- A run over fewer files than there are words, of fewer bytes, is the run in numbers. -/
theorem checkFilesWith_eq {paths : List Path} (hfiles : paths.length < wordCount)
    (hbytes : (paths.map (scannedSize read)).sum < wordCount) (c : Checker) :
    c.checkFilesWith plus.add read paths = some (c.checkFiles read paths) := by
  refine runFromWith_eq plus ?_ c []
  rw [(perm_scanOrder paths).length_eq, sum_scannedSize_scanOrder]
  constructor <;> simpa [Summary.zero]

end Checker

end Words

/-- **Counts are bounded by the text, and words are enough for them.**  A file with violations has
at least twelve bytes for each of them and eleven more, and no finding names a line beyond the size
of the file.  So a run that comes to a summary counts no more violations than a twelfth of the sizes
of its files; and if both these sizes and the number of files are words, then no addition of the
run overflows: with any addition of words it comes to the same. -/
theorem Checker.counts_fit_words :
    (∀ (c : Checker) (path : Path) (text : List Char),
      ((c.scanText path text).1.violations ≠ 0 →
        12 * (c.scanText path text).1.violations + 11 ≤ (Utf8.encode text).length)
      ∧ ∀ f ∈ (c.scanText path text).1.findings, ∀ n ∈ f.line :: f.others,
        1 ≤ n ∧ n ≤ (Utf8.encode text).length)
    ∧ ∀ (read : FileReader) (c : Checker) (paths : List Path),
      (∀ summary, (c.checkFiles read paths).1.result = .ok summary →
        12 * summary.violations ≤ (paths.map (scannedSize read)).sum)
      ∧ ((paths.map (scannedSize read)).sum < wordCount → paths.length < wordCount →
        ∀ plus : WordAddition,
          c.checkFilesWith plus.add read paths = some (c.checkFiles read paths)) := by
  refine ⟨fun c path text => ⟨c.violations_bound path, fun f hf n hn => numbers_bound hf hn⟩,
    fun read c paths => ⟨fun summary => violations_checkFiles_le, ?_⟩⟩
  intro hbytes hfiles plus
  exact checkFilesWith_eq plus hfiles hbytes c

/-- The shortest file with two violations, listed twice. -/
theorem Checker.counts_fit_words_shortest :
    let f := Source.typed "x.c" "#include<a>\n#include<b>\n#include<c>"
    let c := Checker.standard.knowing (.ofList ["c"])
    let read := (FileTree.ofSources [f]).read
    let paths := [f.path, f.path]
    (c.scanText f.path f.text).1.violations = 2
    ∧ 12 * (c.scanText f.path f.text).1.violations + 11 = (Utf8.encode f.text).length
    ∧ 12 * (c.scanText f.path f.text).1.violations + 11 ≤ (Utf8.encode f.text).length
    ∧ (∀ finding ∈ (c.scanText f.path f.text).1.findings, ∀ n ∈ finding.line :: finding.others,
      1 ≤ n ∧ n ≤ (Utf8.encode f.text).length)
    ∧ (c.checkFiles read paths).1.result = .ok ⟨2, 0, 4⟩
    ∧ 12 * 4 ≤ (paths.map (scannedSize read)).sum
    ∧ c.checkFilesWith WordAddition.checked.add read paths = some (c.checkFiles read paths)
    ∧ c.checkFilesWith WordAddition.wrapping.add read paths = some (c.checkFiles read paths) := by
  intro f c read paths
  obtain ⟨hscan, hrun⟩ := counts_fit_words
  obtain ⟨hviolations, hnumbers⟩ := hscan c f.path f.text
  obtain ⟨hsummary, hwords⟩ := hrun read c paths
  have hcount : (c.scanText f.path f.text).1.violations = 2 := by decide +kernel
  have hresult : (c.checkFiles read paths).1.result = .ok ⟨2, 0, 4⟩ := by decide +kernel
  have hsize : (paths.map (scannedSize read)).sum = 70 := by decide +kernel
  have hfit := hwords (by rw [hsize]; decide) (by decide)
  exact ⟨hcount, by decide +kernel, hviolations (by rw [hcount]; decide), hnumbers, hresult,
    hsummary _ hresult, hfit .checked, hfit .wrapping⟩

end IncludeOrder
