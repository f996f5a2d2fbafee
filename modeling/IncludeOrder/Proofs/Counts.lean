import IncludeOrder.Proofs.Failures

/-!
# The counts of a run

A run that comes to a summary counts on one channel what its findings say on another.  Visit by
visit the two agree (`Visit.consistent`), so they agree over the run: every file is scanned or left
out, the files left out are those found not to be UTF-8, and the violations are the lines named by
the findings out of order.  A run is clean when there is no such finding, however many files it has
left out.
-/

set_option autoImplicit false

namespace IncludeOrder

theorem Finding.others_eq_nil {f : Finding} (h : f.kind ≠ .outOfOrder) : f.others = [] := by
  cases f <;> simp_all [kind, others]

/-! ## One visit -/

/-- What is found on a visit agrees with what it counts. -/
theorem Visit.consistent {v : Visit} (h : ∀ report, v.report? = some report → report.WellFormed) :
    (ScanReport.mk v.violations v.findings).Consistent := by
  obtain ⟨path, outcome⟩ := v
  cases outcome with
  | ok report => exact (h report rfl).toConsistent
  | error failure =>
    exact
      { ascending := List.pairwise_singleton _ _
        outOfOrder := by simp [findings, violations, Finding.isKind, Finding.kind]
        construct := by simp [findings, Finding.isKind, Finding.kind]
        total := by simp [findings, violations, Finding.others]
        others := by simp [findings, Finding.kind] }

theorem Checker.consistent_visit (read : FileReader) (c : Checker) (path : Path) :
    (ScanReport.mk (c.visit read path).1.violations (c.visit read path).1.findings).Consistent :=
  Visit.consistent fun _ => wellFormed_of_visit

/-! ## All visits -/

theorem length_visits (visits : List Visit) :
    (visits.filterMap Visit.report?).length + (visits.filter Visit.isLeftOut).length
      = visits.length := by
  induction visits with
  | nil => rfl
  | cons v visits ih =>
    obtain ⟨path, outcome⟩ := v
    cases outcome <;> simp [List.filter_cons, List.filterMap_cons] <;> omega

/-- As many lines are named by findings out of order as violations are counted. -/
theorem sum_others_flatMap {visits : List Visit}
    (h : ∀ v ∈ visits, (ScanReport.mk v.violations v.findings).Consistent) :
    ((visits.flatMap Visit.findings).map fun f => f.others.length).sum
      = ((visits.filterMap Visit.report?).map ScanReport.violations).sum := by
  induction visits with
  | nil => rfl
  | cons v visits ih =>
    obtain ⟨hv, hvisits⟩ := List.forall_mem_cons.mp h
    have htotal : (v.findings.map fun f => f.others.length).sum = v.violations := hv.total
    rw [List.flatMap_cons, List.map_append, List.sum_append, ih hvisits, htotal]
    obtain ⟨path, outcome⟩ := v
    cases outcome <;> simp [Visit.violations, List.filterMap_cons]

namespace Checker

variable {read : FileReader} {c : Checker} {paths : List Path} {summary : Summary}

theorem consistent_of_mem_visitAll {v : Visit} (hv : v ∈ (c.visitAll read paths).1) :
    (ScanReport.mk v.violations v.findings).Consistent :=
  Visit.consistent fun _ => wellFormed_of_mem_visitAll hv

/-! ## A run -/

theorem readable_of_ok (h : (c.checkFiles read paths).1.result = .ok summary) :
    ∀ path ∈ paths, readFault? read path = none := by
  have hnone : firstFailure? read (scanOrder paths) = none := by
    rw [checkFiles_eq] at h
    cases hfirst : firstFailure? read (scanOrder paths) with
    | none => rfl
    | some failure => simp [hfirst] at h
  exact fun path hpath => firstFailure?_eq_none_iff.mp hnone path (mem_scanOrder.mpr hpath)

/-- The summary of a run in terms of its visits. -/
theorem summary_of_ok (h : (c.checkFiles read paths).1.result = .ok summary) :
    summary = (c.visitAll read (scanOrder paths)).1.foldl Summary.count .zero := by
  rw [checkFiles_of_readable (readable_of_ok h)] at h
  exact (Except.ok.inj h).symm

theorem filesScanned_add_filesSkipped (h : (c.checkFiles read paths).1.result = .ok summary) :
    summary.filesScanned + summary.filesSkipped = paths.length := by
  have hvisits := congrArg List.length (c.map_path_visitAll read (scanOrder paths))
  rw [List.length_map, (perm_scanOrder paths).length_eq] at hvisits
  simpa [summary_of_ok h, foldl_count, Summary.zero, ← hvisits] using length_visits _

theorem filesSkipped_eq_countP (h : (c.checkFiles read paths).1.result = .ok summary) :
    summary.filesSkipped
      = (c.checkFiles read paths).1.findings.countP (Finding.isKind .notUtf8) := by
  rw [summary_of_ok h, foldl_count, checkFiles_of_readable (readable_of_ok h),
    List.countP_eq_length_filter,
    filter_notUtf8_flatMap fun _ hv _ => wellFormed_of_mem_visitAll hv]
  simp [Summary.zero]

theorem violations_eq_sum (h : (c.checkFiles read paths).1.result = .ok summary) :
    summary.violations
      = ((c.checkFiles read paths).1.findings.map fun f => f.others.length).sum := by
  rw [summary_of_ok h, foldl_count, checkFiles_of_readable (readable_of_ok h),
    sum_others_flatMap fun _ hv => consistent_of_mem_visitAll hv]
  simp [Summary.zero]

theorem others_ne_nil {f : Finding} (h : (c.checkFiles read paths).1.result = .ok summary)
    (hf : f ∈ (c.checkFiles read paths).1.findings) (hkind : f.kind = .outOfOrder) :
    f.others ≠ [] := by
  rw [checkFiles_of_readable (readable_of_ok h)] at hf
  obtain ⟨v, hv, hfv⟩ := List.mem_flatMap.mp hf
  exact ((consistent_of_mem_visitAll hv).others f hfv hkind).1

/-- A run is clean when it finds nothing out of order. -/
theorem isClean_iff (h : (c.checkFiles read paths).1.result = .ok summary) :
    summary.isClean = true
      ↔ ∀ f ∈ (c.checkFiles read paths).1.findings, f.kind ≠ .outOfOrder := by
  rw [Summary.isClean, beq_iff_eq, violations_eq_sum h, List.sum_eq_zero_iff_forall_eq_nat,
    List.forall_mem_map]
  refine forall₂_congr fun f hf => ?_
  rw [List.length_eq_zero_iff]
  exact ⟨fun hnil hkind => others_ne_nil h hf hkind hnil, Finding.others_eq_nil⟩

/-- Every occurrence of a file has its part in the findings of a run. -/
theorem findings_of_split {earlier later : List Path} {path : Path}
    (h : (c.checkFiles read paths).1.result = .ok summary)
    (hsplit : scanOrder paths = earlier ++ path :: later) :
    (c.checkFiles read paths).1.findings
      = (c.checkFiles read earlier).1.findings
        ++ ((c.checkFiles read earlier).2.visit read path).1.findings
        ++ ((c.checkFiles read (earlier ++ [path])).2.checkFiles read later).1.findings := by
  have hreadable : ∀ q ∈ scanOrder paths, readFault? read q = none := fun q hq =>
    readable_of_ok h q (mem_scanOrder.mp hq)
  have hearlier : earlier.Sublist (scanOrder paths) := by simp [hsplit]
  have hupto : (earlier ++ [path]).Sublist (scanOrder paths) := by simp [hsplit]
  have hlater : later.Sublist (scanOrder paths) := by
    rw [hsplit]
    exact (List.sublist_cons_self _ _).trans (List.sublist_append_right _ _)
  rw [checkFiles_of_sublist hearlier fun q hq => hreadable q (hearlier.subset hq),
    checkFiles_of_sublist hupto fun q hq => hreadable q (hupto.subset hq),
    checkFiles_of_sublist hlater fun q hq => hreadable q (hlater.subset hq),
    checkFiles_of_readable (readable_of_ok h), hsplit, visitAll_append, visitAll_append]
  simp [visitAll]

/-- **Counts and findings agree.**  In a run that comes to a summary every file has been scanned or
left out; the files left out are those found not to be UTF-8, and the violations are the lines that
findings out of order name.  Each occurrence of a file has its part in the findings, with at most
one construct and one finding out of order, which is there just when the file has violations, comes
last, and names lines before its own.  The word of the exit status is the number of violations as
far as 255, however large that number; it is zero, and the run clean, just when nothing is out of
order. -/
theorem counts_agree (h : (c.checkFiles read paths).1.result = .ok summary) :
    summary.filesScanned + summary.filesSkipped = paths.length
    ∧ summary.filesSkipped
      = (c.checkFiles read paths).1.findings.countP (Finding.isKind .notUtf8)
    ∧ summary.violations
      = ((c.checkFiles read paths).1.findings.map fun f => f.others.length).sum
    ∧ (∀ earlier path later, scanOrder paths = earlier ++ path :: later →
      let visited := ((c.checkFiles read earlier).2.visit read path).1
      (c.checkFiles read paths).1.findings
          = (c.checkFiles read earlier).1.findings ++ visited.findings
            ++ ((c.checkFiles read (earlier ++ [path])).2.checkFiles read later).1.findings
        ∧ visited.findings.countP (Finding.isKind .outOfOrder)
          = (if visited.violations = 0 then 0 else 1)
        ∧ visited.findings.countP (Finding.isKind .constructFirst) ≤ 1
        ∧ ∀ f ∈ visited.findings, f.kind = .outOfOrder →
          f.others ≠ [] ∧ f.others.Pairwise (· < ·) ∧ (∀ other ∈ f.others, other < f.line)
            ∧ visited.findings.getLast? = some f)
    ∧ summary.exitWord.toInt = (min summary.violations 255 : Nat)
    ∧ summary.exitStatus = min summary.violations 255
    ∧ (summary.isClean = true ↔ summary.exitStatus = 0)
    ∧ (summary.isClean = true
      ↔ ∀ f ∈ (c.checkFiles read paths).1.findings, f.kind ≠ .outOfOrder) := by
  refine ⟨filesScanned_add_filesSkipped h, filesSkipped_eq_countP h, violations_eq_sum h,
    fun earlier path later hsplit => ?_, summary.toInt_exitWord, summary.exitStatus_eq_min,
    summary.exitStatus_eq_zero_iff.symm, isClean_iff h⟩
  have hconsistent := (c.checkFiles read earlier).2.consistent_visit read path
  exact ⟨findings_of_split h hsplit, hconsistent.outOfOrder, hconsistent.construct,
    hconsistent.others⟩

/-- A file in disorder that is listed twice, around one that is not UTF-8. -/
theorem counts_agree_repeated :
    let disorder := Source.typed "a.c" "#include <stdio.h>\n#include <a.h>\n#include <Python.h>\n"
    let read := ((FileTree.ofSources [disorder]).put (.ofString "b.c") (.file [0xFF])).read
    let paths := ["a.c", "b.c", "a.c"].map Path.ofString
    let run := Checker.standard.checkFiles read paths
    let summary : Summary := ⟨2, 1, 4⟩
    let last := ((Checker.standard.checkFiles read (paths.take 2)).2.visit read (.ofString "a.c")).1
    run.1.result = .ok summary
      ∧ summary.filesSkipped = run.1.findings.countP (Finding.isKind .notUtf8)
      ∧ summary.violations = (run.1.findings.map fun f => f.others.length).sum
      ∧ last.violations = 2
      ∧ last.findings.countP (Finding.isKind .outOfOrder) = 1
      ∧ summary.exitStatus = min 4 255
      ∧ (summary.isClean = true ↔ ∀ f ∈ run.1.findings, f.kind ≠ .outOfOrder) := by
  intro disorder read paths run summary last
  have hresult : run.1.result = .ok summary := by decide +kernel
  have hsplit : scanOrder paths = paths.take 2 ++ .ofString "a.c" :: [] := by decide +kernel
  have hcounted : last.violations = 2 := by decide +kernel
  obtain ⟨-, hskipped, hviolations, hvisits, -, hstatus, -, hclean⟩ := counts_agree hresult
  obtain ⟨-, hfound, -⟩ := hvisits _ _ _ hsplit
  rw [hcounted] at hfound
  exact ⟨hresult, hskipped, hviolations, hcounted, hfound, hstatus, hclean⟩

end Checker

end IncludeOrder
