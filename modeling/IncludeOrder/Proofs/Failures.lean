import IncludeOrder.Proofs.Visits

/-!
# Failures

What a failure leaves behind.  A scan that fails leaves nothing: the checker is the one before it,
and there is no report.  A run fails at the first file in its order that cannot be read, and only
there; what it leaves is what a run over the files before that one leaves, whatever stands after it
and whatever those files hold.

A file that is not UTF-8 ends no run, and a run takes nothing from it: without such files a run
comes to the same result, but for the number of files left out and the findings that say so.
-/

set_option autoImplicit false

namespace IncludeOrder

variable {read : FileReader} {order : List Path}

/-! ## Runs that stop -/

theorem scanOrder_of_sublist {paths part : List Path} (h : part.Sublist (scanOrder paths)) :
    scanOrder part = part :=
  headersFirst_of_sublist h

theorem mem_scanOrder {paths : List Path} {path : Path} : path ∈ scanOrder paths ↔ path ∈ paths :=
  (perm_scanOrder paths).mem_iff

namespace Checker

variable {c : Checker} {paths before after : List Path} {path : Path} {cause : ReadFault}

/-- A run over files that can be read comes to a summary. -/
theorem checkFiles_of_readable (h : ∀ path ∈ paths, readFault? read path = none) (c : Checker) :
    c.checkFiles read paths
      = (⟨.ok ((c.visitAll read (scanOrder paths)).1.foldl Summary.count .zero),
          (c.visitAll read (scanOrder paths)).1.flatMap Visit.findings⟩,
        (c.visitAll read (scanOrder paths)).2) := by
  have horder : ∀ path ∈ scanOrder paths, readFault? read path = none := fun path hpath =>
    h path (mem_scanOrder.mp hpath)
  rw [checkFiles_eq, readPart_of_readable horder, firstFailure?_eq_none_iff.mpr horder]
  rfl

/-- A part of an order is in order itself, so a run over it visits its files as they stand. -/
theorem checkFiles_of_sublist {part : List Path} (hpart : part.Sublist (scanOrder paths))
    (h : ∀ path ∈ part, readFault? read path = none) (c : Checker) :
    c.checkFiles read part
      = (⟨.ok ((c.visitAll read part).1.foldl Summary.count .zero),
          (c.visitAll read part).1.flatMap Visit.findings⟩,
        (c.visitAll read part).2) := by
  rw [checkFiles_of_readable h, scanOrder_of_sublist hpart]

/-- A run with a file that cannot be read is the run over the files before it, but for the
result. -/
theorem checkFiles_of_split (hsplit : scanOrder paths = before ++ path :: after)
    (h : ∀ q ∈ before, readFault? read q = none) (hread : read path = .error cause)
    (c : Checker) :
    c.checkFiles read paths
      = (⟨.error (.unreadable path.display cause), (c.checkFiles read before).1.findings⟩,
        (c.checkFiles read before).2) := by
  have hsub : before.Sublist (scanOrder paths) := by
    rw [hsplit]
    exact List.sublist_append_left _ _
  rw [checkFiles_of_sublist hsub h, checkFiles_eq, hsplit, readPart_of_split h hread,
    firstFailure?_of_split h hread]
  rfl

theorem exists_split_of_error {failure : Failure}
    (h : (c.checkFiles read paths).1.result = .error failure) :
    ∃ before path after cause, scanOrder paths = before ++ path :: after
      ∧ (∀ q ∈ before, readFault? read q = none) ∧ read path = .error cause
      ∧ failure = .unreadable path.display cause := by
  rw [checkFiles_eq] at h
  cases hfirst : firstFailure? read (scanOrder paths) with
  | none => simp [hfirst] at h
  | some first =>
    obtain rfl : first = failure := by simpa [hfirst] using h
    obtain ⟨path, cause, after, hsplit, hread, hfailure⟩ := exists_split_of_firstFailure? hfirst
    exact ⟨_, path, after, cause, hsplit, fun q hq => readFault?_of_mem_readPart hq, hread,
      hfailure⟩

theorem exists_unreadable_of_error {failure : Failure}
    (h : (c.checkFiles read paths).1.result = .error failure) :
    ∃ path cause, path ∈ paths ∧ read path = .error cause
      ∧ failure = .unreadable path.display cause := by
  obtain ⟨before, path, after, cause, hsplit, -, hread, hfailure⟩ := exists_split_of_error h
  exact ⟨path, cause, mem_scanOrder.mp (by simp [hsplit]), hread, hfailure⟩

/-- Runs that are the same up to a file that cannot be read are the same. -/
theorem checkFiles_congr_of_split {read' : FileReader} {paths' after' : List Path}
    (hsplit : scanOrder paths = before ++ path :: after)
    (hsplit' : scanOrder paths' = before ++ path :: after')
    (hreaders : ∀ q ∈ before ++ [path], read' q = read q)
    (h : ∀ q ∈ before, readFault? read q = none) (hread : read path = .error cause)
    (c : Checker) : c.checkFiles read' paths' = c.checkFiles read paths := by
  have hread' : read' path = .error cause := by rw [hreaders path (by simp), hread]
  have hbefore : ∀ q ∈ before, read' q = read q := fun q hq =>
    hreaders q (List.mem_append_left _ hq)
  have h' : ∀ q ∈ before, readFault? read' q = none := fun q hq => by
    rw [readFault?, hbefore q hq, ← readFault?, h q hq]
  rw [checkFiles_eq, checkFiles_eq, hsplit, hsplit', readPart_of_split h hread,
    readPart_of_split h' hread', firstFailure?_of_split h hread,
    firstFailure?_of_split h' hread', visitAll_congr hbefore]

/-- A scan that fails changes nothing, and fails because the file cannot be read or is not
UTF-8. -/
theorem scanFile_of_error {failure : Failure} (h : (c.scanFile read path).1 = .error failure) :
    (c.scanFile read path).2 = c
      ∧ ((∃ cause, read path = .error cause ∧ failure = .unreadable path.display cause)
        ∨ ∃ bytes, read path = .ok bytes ∧ ¬ Utf8.WellFormed bytes
          ∧ failure = .undecodable path.display) := by
  rcases scanFile_cases read c path with
    ⟨cause, hread, hscan⟩ | ⟨bytes, hread, hbad, hscan⟩ | ⟨text, hread, hscan⟩
  · obtain rfl : _ = failure := by simpa [hscan] using h
    exact ⟨by rw [hscan], Or.inl ⟨cause, hread, rfl⟩⟩
  · obtain rfl : _ = failure := by simpa [hscan] using h
    exact ⟨by rw [hscan], Or.inr ⟨bytes, hread, hbad, rfl⟩⟩
  · simp [hscan] at h

/-- A scan that succeeds is the scan of the text that the file holds. -/
theorem scanFile_of_ok {report : ScanReport} (h : (c.scanFile read path).1 = .ok report) :
    ∃ text, read path = .ok (Utf8.encode text)
      ∧ c.scanFile read path = (.ok (c.scanText path text).1, (c.scanText path text).2) := by
  rcases scanFile_cases read c path with
    ⟨cause, hread, hscan⟩ | ⟨bytes, hread, hbad, hscan⟩ | ⟨text, hread, hscan⟩
  · simp [hscan] at h
  · simp [hscan] at h
  · exact ⟨text, hread, hscan⟩

/-- **Failures leave nothing behind.**  A scan that fails changes nothing, and one that succeeds is
the scan of the text that the file holds.  A run fails just when a file cannot be read, with the
failure of the first such file.  It has then found and learned what the run over the files before
that one finds and learns, its metrics included, and nothing after that file has any effect. -/
theorem failures_leave_nothing (read : FileReader) (c : Checker) :
    (∀ path,
      (∀ failure, (c.scanFile read path).1 = .error failure →
        (c.scanFile read path).2 = c
        ∧ ((∃ cause, read path = .error cause ∧ failure = .unreadable path.display cause)
          ∨ ∃ bytes, read path = .ok bytes ∧ ¬ Utf8.WellFormed bytes
            ∧ failure = .undecodable path.display))
      ∧ ∀ report, (c.scanFile read path).1 = .ok report →
        ∃ text, read path = .ok (Utf8.encode text)
          ∧ c.scanFile read path = (.ok (c.scanText path text).1, (c.scanText path text).2))
    ∧ (∀ paths, (∀ path ∈ paths, ∃ bytes, read path = .ok bytes) →
      ∃ summary, (c.checkFiles read paths).1.result = .ok summary)
    ∧ (∀ paths before path after cause, scanOrder paths = before ++ path :: after →
      (∀ q ∈ before, ∃ bytes, read q = .ok bytes) → read path = .error cause →
      c.checkFiles read paths
        = (⟨.error (.unreadable path.display cause), (c.checkFiles read before).1.findings⟩,
          (c.checkFiles read before).2))
    ∧ ∀ paths failure, (c.checkFiles read paths).1.result = .error failure →
      ∃ before path after cause, scanOrder paths = before ++ path :: after
        ∧ (∀ q ∈ before, ∃ bytes, read q = .ok bytes) ∧ read path = .error cause
        ∧ failure = .unreadable path.display cause
        ∧ (c.checkFiles read paths).1.findings = (c.checkFiles read before).1.findings
        ∧ (c.checkFiles read paths).2 = (c.checkFiles read before).2
        ∧ ∀ read' paths' after', (∀ q ∈ before ++ [path], read' q = read q) →
          scanOrder paths' = before ++ path :: after' →
          c.checkFiles read' paths' = c.checkFiles read paths := by
  refine ⟨fun path => ⟨fun _ => scanFile_of_error, fun _ => scanFile_of_ok⟩, fun paths h => ?_,
    fun paths before path after cause hsplit hbefore hread => ?_, fun paths failure hfailure => ?_⟩
  · have hreadable : ∀ path ∈ paths, readFault? read path = none := fun path hpath =>
      readFault?_eq_none_iff.mpr (h path hpath)
    rw [checkFiles_of_readable hreadable]
    exact ⟨_, rfl⟩
  · exact checkFiles_of_split hsplit
      (fun q hq => readFault?_eq_none_iff.mpr (hbefore q hq)) hread c
  · obtain ⟨before, path, after, cause, hsplit, hbefore, hread, rfl⟩ :=
      exists_split_of_error hfailure
    refine ⟨before, path, after, cause, hsplit,
      fun q hq => readFault?_eq_none_iff.mp (hbefore q hq), hread, rfl, ?_, ?_,
      fun read' paths' after' hreaders hsplit' => ?_⟩
    · rw [checkFiles_of_split hsplit hbefore hread]
    · rw [checkFiles_of_split hsplit hbefore hread]
    · exact checkFiles_congr_of_split hsplit hsplit' hreaders hbefore hread c

/-- A run over a file in disorder, one that is not UTF-8, one that is missing and one that is never
reached; the file in the middle fails by itself, too. -/
theorem failures_leave_nothing_missing :
    let disorder := Source.typed "a.c" "#include <stdio.h>\n#include <Python.h>\n"
    let unreached := Source.typed "z.c" "#include <Python.h>\n"
    let tree := (FileTree.ofSources [disorder, unreached]).put (.ofString "b.c") (.file [0xFF])
    let read := tree.read
    let paths := ["a.c", "b.c", "m.c", "z.c"].map Path.ofString
    let run := Checker.standard.checkFiles read paths
    (Checker.standard.scanFile read (.ofString "b.c")).1 = .error (.undecodable "b.c")
      ∧ (Checker.standard.scanFile read (.ofString "b.c")).2 = Checker.standard
      ∧ run.1.result = .error (.unreadable "m.c" .missing)
      ∧ run.1.findings = [.outOfOrder "a.c" "Python.h" 2 [1], .notUtf8 "b.c"]
      ∧ ∃ before path after, scanOrder paths = before ++ path :: after ∧ path.display = "m.c"
        ∧ run.2 = (Checker.standard.checkFiles read before).2 := by
  intro disorder unreached tree read paths run
  obtain ⟨hscans, -, -, hruns⟩ := Checker.standard.failures_leave_nothing read
  have hscan : (Checker.standard.scanFile read (.ofString "b.c")).1
      = .error (.undecodable "b.c") := by
    decide +kernel
  have hresult : run.1.result = .error (.unreadable "m.c" .missing) := by decide +kernel
  obtain ⟨before, path, after, cause, hsplit, -, -, hfailure, -, hafter, -⟩ :=
    hruns paths _ hresult
  refine ⟨hscan, ((hscans _).1 _ hscan).1, hresult, by decide +kernel, before, path, after, hsplit,
    ?_, hafter⟩
  exact (Failure.unreadable.inj hfailure).1.symm

end Checker

/-! ## Files that are not UTF-8 -/

/-- The paths without those of files that are not UTF-8. -/
def withoutUndecodable (read : FileReader) (paths : List Path) : List Path :=
  paths.filter fun path => !isUndecodable read path

section Undecodable

variable {path : Path}

theorem readFault?_of_isUndecodable (h : isUndecodable read path = true) :
    readFault? read path = none := by
  obtain ⟨bytes, hread, -⟩ := isUndecodable_eq_true_iff.mp h
  exact readFault?_eq_none_iff.mpr ⟨bytes, hread⟩

theorem readText?_of_isUndecodable (h : isUndecodable read path = true) :
    readText? read path = none := by
  have hnone := isUndecodable_eq_isNone (readFault?_of_isUndecodable h)
  rw [h] at hnone
  exact Option.isNone_iff_eq_none.mp hnone.symm

theorem scanOrder_withoutUndecodable (read : FileReader) (paths : List Path) :
    scanOrder (withoutUndecodable read paths) = withoutUndecodable read (scanOrder paths) :=
  headersFirst_filter _ _ _

theorem sourcesAt_withoutUndecodable (read : FileReader) (paths : List Path) :
    sourcesAt read (withoutUndecodable read paths) = sourcesAt read paths := by
  rw [sourcesAt, withoutUndecodable, List.filterMap_filter, sourcesAt]
  congr 1
  funext path
  cases h : isUndecodable read path with
  | true => simp [readText?_of_isUndecodable h]
  | false => simp

theorem readPart_withoutUndecodable (read : FileReader) (order : List Path) :
    readPart read (withoutUndecodable read order)
      = withoutUndecodable read (readPart read order) := by
  rw [readPart, withoutUndecodable, List.takeWhile_filter, withoutUndecodable, readPart]
  congr 2
  funext path
  cases h : isUndecodable read path with
  | true => simp [readFault?_of_isUndecodable h]
  | false => simp

theorem firstFailure?_withoutUndecodable (read : FileReader) (order : List Path) :
    firstFailure? read (withoutUndecodable read order) = firstFailure? read order := by
  induction order with
  | nil => rfl
  | cons path rest ih =>
    unfold firstFailure? withoutUndecodable at ih ⊢
    cases h : isUndecodable read path with
    | true => simp [h, readFault?_of_isUndecodable h, ih]
    | false => simp [h, List.findSome?_cons, ih]

theorem filter_withoutUndecodable (read : FileReader) (paths : List Path) :
    (withoutUndecodable read paths).filter (isUndecodable read) = [] := by
  refine List.filter_eq_nil_iff.mpr fun path hpath => ?_
  simpa using (List.mem_filter.mp hpath).2

theorem countP_withoutUndecodable (read : FileReader) (paths : List Path) :
    (withoutUndecodable read paths).countP (isUndecodable read) = 0 := by
  rw [List.countP_eq_length_filter, filter_withoutUndecodable, List.length_nil]

theorem readPart_order_withoutUndecodable (read : FileReader) (paths : List Path) :
    readPart read (scanOrder (withoutUndecodable read paths))
      = withoutUndecodable read (readPart read (scanOrder paths)) := by
  rw [scanOrder_withoutUndecodable, readPart_withoutUndecodable]

end Undecodable

namespace Checker

theorem result_withoutUndecodable (c : Checker) (paths : List Path) :
    (c.checkFiles read (withoutUndecodable read paths)).1.result
      = (firstFailure? read (scanOrder paths)).elim
        (.ok ⟨(sourcesAt read (readPart read (scanOrder paths))).length, 0,
          ((Scan.reports c.settings c.registry
            (sourcesAt read (readPart read (scanOrder paths)))).map ScanReport.violations).sum⟩)
        .error := by
  rw [result_checkFiles, readPart_order_withoutUndecodable, sourcesAt_withoutUndecodable,
    countP_withoutUndecodable, scanOrder_withoutUndecodable, firstFailure?_withoutUndecodable]

theorem findings_withoutUndecodable (c : Checker) (paths : List Path) :
    (c.checkFiles read (withoutUndecodable read paths)).1.findings
      = (Scan.reports c.settings c.registry
        (sourcesAt read (readPart read (scanOrder paths)))).flatMap ScanReport.findings := by
  have hleft := c.leftOut_checkFiles read (withoutUndecodable read paths)
  rw [readPart_order_withoutUndecodable, filter_withoutUndecodable, List.map_nil,
    List.filter_eq_nil_iff] at hleft
  have hscanned := c.scanned_checkFiles read (withoutUndecodable read paths)
  rwa [readPart_order_withoutUndecodable, sourcesAt_withoutUndecodable,
    List.filter_eq_self.mpr (by simpa using hleft)] at hscanned

theorem registry_withoutUndecodable (c : Checker) (paths : List Path) :
    (c.checkFiles read (withoutUndecodable read paths)).2.registry
      = (c.checkFiles read paths).2.registry := by
  rw [learned_checkFiles, learned_checkFiles, readPart_order_withoutUndecodable,
    sourcesAt_withoutUndecodable]

/-- **Files that are not UTF-8 are transparent.**  Taken out of the list of a run, wherever they
stand and whatever their well-formed beginnings say, they change neither its failure nor what it
counts and finds in the other files nor what it registers.  What they add is a finding each, in the
order of runs, as far as the run gets, and the number of files left out. -/
theorem undecodable_files_transparent (read : FileReader) (c : Checker) (paths : List Path) :
    (∀ failure, (c.checkFiles read paths).1.result = .error failure
      ↔ (c.checkFiles read (withoutUndecodable read paths)).1.result = .error failure)
    ∧ (∀ summary, (c.checkFiles read paths).1.result = .ok summary →
      summary.filesSkipped = paths.countP (isUndecodable read)
      ∧ ∃ summary', (c.checkFiles read (withoutUndecodable read paths)).1.result = .ok summary'
        ∧ summary'.filesScanned = summary.filesScanned ∧ summary'.filesSkipped = 0
        ∧ summary'.violations = summary.violations ∧ summary'.exitStatus = summary.exitStatus)
    ∧ (c.checkFiles read paths).1.findings.filter (fun f => !f.isKind .notUtf8)
      = (c.checkFiles read (withoutUndecodable read paths)).1.findings
    ∧ (c.checkFiles read paths).2.registry
      = (c.checkFiles read (withoutUndecodable read paths)).2.registry
    ∧ (c.checkFiles read paths).1.findings.filter (Finding.isKind .notUtf8)
      = ((readPart read (scanOrder paths)).filter (isUndecodable read)).map
        fun path => .notUtf8 path.display := by
  refine ⟨fun failure => ?_, fun summary hsummary => ?_, ?_,
    (registry_withoutUndecodable c paths).symm, c.leftOut_checkFiles read paths⟩
  · rw [result_checkFiles, result_withoutUndecodable]
    cases firstFailure? read (scanOrder paths) <;> simp
  · rw [result_checkFiles] at hsummary
    rw [result_withoutUndecodable]
    cases hfirst : firstFailure? read (scanOrder paths) with
    | some failure => simp [hfirst] at hsummary
    | none =>
      rw [hfirst] at hsummary
      obtain rfl := Except.ok.inj hsummary
      refine ⟨?_, _, rfl, rfl, rfl, rfl, rfl⟩
      simp only [readPart_of_readable (firstFailure?_eq_none_iff.mp hfirst)]
      exact (perm_headersFirst id paths).countP_eq _
  · rw [scanned_checkFiles, findings_withoutUndecodable]

/-- A source that would put things in disorder, were it not for its last byte, stands between two
that are scanned. -/
theorem undecodable_files_transparent_between :
    let header := Source.typed "a.h" "#include <Python.h>\n"
    let source := Source.typed "z.c" "#include <stdio.h>\n#include \"a.h\"\n"
    let spoilt := "#include <stdio.h>\n#include <Python.h>\n".toUTF8.toList ++ [0xFF]
    let read := ((FileTree.ofSources [header, source]).put (.ofString "b.c") (.file spoilt)).read
    let paths := ["z.c", "b.c", "a.h"].map Path.ofString
    let run := Checker.standard.checkFiles read paths
    let reduced := Checker.standard.checkFiles read (withoutUndecodable read paths)
    withoutUndecodable read paths = ["z.c", "a.h"].map Path.ofString
      ∧ run.1.result = .ok ⟨2, 1, 1⟩
      ∧ (∃ summary, reduced.1.result = .ok summary ∧ summary.filesScanned = 2
        ∧ summary.filesSkipped = 0 ∧ summary.violations = 1)
      ∧ reduced.1.findings = [.outOfOrder "z.c" "Python.h" 2 [1]]
      ∧ run.2.registry = reduced.2.registry
      ∧ run.1.findings.filter (Finding.isKind .notUtf8) = [.notUtf8 "b.c"] := by
  intro header source spoilt read paths run reduced
  obtain ⟨-, hsummary, hfindings, hregistry, hleft⟩ :=
    Checker.standard.undecodable_files_transparent read paths
  have hresult : run.1.result = .ok ⟨2, 1, 1⟩ := by decide +kernel
  obtain ⟨-, summary, hreduced, hscanned, hskipped, hviolations, -⟩ := hsummary _ hresult
  refine ⟨by decide +kernel, hresult, ⟨summary, hreduced, hscanned, hskipped, hviolations⟩, ?_,
    hregistry, ?_⟩
  · rw [← hfindings]
    decide +kernel
  · rw [hleft]
    decide +kernel

end Checker

end IncludeOrder
