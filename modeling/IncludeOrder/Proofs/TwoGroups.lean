import IncludeOrder.Proofs.Failures

/-!
# Two groups of files

The order of a run is settled by two lists: the probable headers among its paths, as they were given,
and the other paths, as they were given.  Paths that interleave the two in another way are run in the
same order, so they come to the same (`scanOrder_congr`).

A run may be cut wherever its order is cut (`checkFiles_of_append`).  The first part is a run by
itself.  If it fails, so has the whole, and the second part does not take place; if not, the second
part is a run by itself, too, of the checker as the first part leaves it, and the whole comes to the
two summaries added up and the findings of one after those of the other.  Cut between the groups, a
run is one over the headers and then one over all the rest.
-/

set_option autoImplicit false

namespace IncludeOrder

/-! ## The order of a run -/

/-- A probable header stands before every path that is none. -/
theorem pairwise_scanOrder (paths : List Path) :
    (scanOrder paths).Pairwise fun p q =>
      q.isProbableHeader = true → p.isProbableHeader = true := by
  refine List.pairwise_append.mpr ⟨?_, ?_, ?_⟩
  · refine List.pairwise_of_forall_mem_list ?_
    intro p hp q _ _
    exact (List.mem_filter.mp hp).2
  · refine List.pairwise_of_forall_mem_list ?_
    intro p _ q hq hheader
    simp [hheader] at hq
  · intro p hp q _ _
    exact (List.mem_filter.mp hp).2

theorem scanOrder_eq (paths : List Path) :
    scanOrder paths
      = paths.filter Path.isProbableHeader ++ paths.filter (fun p => !p.isProbableHeader) := rfl

/-- Only the two groups matter, each in the order given. -/
theorem scanOrder_congr {paths paths' : List Path}
    (hheaders : paths'.filter Path.isProbableHeader = paths.filter Path.isProbableHeader)
    (hothers : paths'.filter (fun p => !p.isProbableHeader)
      = paths.filter fun p => !p.isProbableHeader) :
    scanOrder paths' = scanOrder paths := by
  rw [scanOrder_eq, scanOrder_eq, hheaders, hothers]

/-! ## Cutting a run in two -/

/-- Both summaries in one. -/
def Summary.add (s t : Summary) : Summary :=
  ⟨s.filesScanned + t.filesScanned, s.filesSkipped + t.filesSkipped, s.violations + t.violations⟩

/-- What has been counted before visits is added to what they count. -/
theorem foldl_count_eq_add (visits : List Visit) (s : Summary) :
    visits.foldl Summary.count s = s.add (visits.foldl Summary.count .zero) := by
  simp [foldl_count, Summary.add, Summary.zero]

namespace Checker

variable {read : FileReader}

theorem runFrom_append (c : Checker) (summary : Summary) (findings : List Finding)
    (first second : List Path) :
    c.runFrom read summary findings (first ++ second)
      = match c.runFrom read summary findings first with
        | (⟨.ok summary, findings⟩, c) => c.runFrom read summary findings second
        | stopped => stopped := by
  induction first generalizing c summary findings with
  | nil => rfl
  | cons path rest ih =>
    rw [List.cons_append, runFrom_step, runFrom_step]
    cases c.scanFile read path with
    | mk outcome after =>
      cases outcome with
      | ok report => exact ih _ _ _
      | error failure =>
        cases hrecoverable : failure.isRecoverable with
        | true => simp only [hrecoverable, if_true, ih]
        | false => simp only [hrecoverable, Bool.false_eq_true, if_false]

/-- What a run starts with is there in the end, before what the run adds. -/
theorem runFrom_eq_add (c : Checker) (summary : Summary) (findings : List Finding)
    (order : List Path) :
    c.runFrom read summary findings order
      = (⟨(c.runFrom read .zero [] order).1.result.map summary.add,
          findings ++ (c.runFrom read .zero [] order).1.findings⟩,
        (c.runFrom read .zero [] order).2) := by
  rw [runFrom_eq, runFrom_eq c .zero []]
  cases firstFailure? read order with
  | none =>
    simp only [Option.elim_none, Except.map, List.nil_append]
    rw [foldl_count_eq_add]
  | some failure => rfl

/-- A run is cut where its order is cut. -/
theorem checkFiles_of_append {paths first second : List Path}
    (h : scanOrder paths = first ++ second) (c : Checker) :
    c.checkFiles read paths
      = match c.checkFiles read first with
        | (⟨.ok summary, findings⟩, c) =>
          (⟨(c.checkFiles read second).1.result.map summary.add,
              findings ++ (c.checkFiles read second).1.findings⟩,
            (c.checkFiles read second).2)
        | stopped => stopped := by
  have hfirst : scanOrder first = first := scanOrder_of_sublist (by rw [h]; simp)
  have hsecond : scanOrder second = second := scanOrder_of_sublist (by rw [h]; simp)
  rw [checkFiles_eq_runFrom, h, runFrom_append, checkFiles_eq_runFrom, hfirst]
  cases c.runFrom read .zero [] first with
  | mk report after =>
    obtain ⟨result, findings⟩ := report
    cases result with
    | error failure => rfl
    | ok summary =>
      simp only [checkFiles_eq_runFrom, hsecond]
      exact runFrom_eq_add after summary findings second

/-- **Only the two groups matter.**  The order of a run is a permutation of its paths, with the
probable headers first, each group in the order given, and ordering twice changes nothing.  Paths
that have the same two groups are run to the same result, the same findings and the same checker; and
a run is the run over the headers, and unless that fails, the run over the others after it. -/
theorem run_is_by_groups :
    (∀ paths : List Path, (scanOrder paths).Perm paths
      ∧ (scanOrder paths).Pairwise (fun p q =>
        q.isProbableHeader = true → p.isProbableHeader = true)
      ∧ (scanOrder paths).filter Path.isProbableHeader = paths.filter Path.isProbableHeader
      ∧ (scanOrder paths).filter (fun p => !p.isProbableHeader)
        = paths.filter (fun p => !p.isProbableHeader)
      ∧ scanOrder (scanOrder paths) = scanOrder paths)
    ∧ ∀ (read : FileReader) (c : Checker) (paths : List Path),
      (∀ paths' : List Path,
        paths'.filter Path.isProbableHeader = paths.filter Path.isProbableHeader →
        paths'.filter (fun p => !p.isProbableHeader)
          = paths.filter (fun p => !p.isProbableHeader) →
        c.checkFiles read paths' = c.checkFiles read paths)
      ∧ (∀ failure,
        (c.checkFiles read (paths.filter Path.isProbableHeader)).1.result = .error failure →
        c.checkFiles read paths = c.checkFiles read (paths.filter Path.isProbableHeader))
      ∧ ∀ summary,
        (c.checkFiles read (paths.filter Path.isProbableHeader)).1.result = .ok summary →
        let headers := c.checkFiles read (paths.filter Path.isProbableHeader)
        let others := headers.2.checkFiles read (paths.filter fun p => !p.isProbableHeader)
        c.checkFiles read paths
          = (⟨others.1.result.map summary.add, headers.1.findings ++ others.1.findings⟩,
            others.2) := by
  refine ⟨?_, ?_⟩
  · intro paths
    exact ⟨perm_headersFirst id paths, pairwise_scanOrder paths, filter_headersFirst id paths,
      filter_not_headersFirst id paths, headersFirst_headersFirst id paths⟩
  · intro read c paths
    have hrun : c.checkFiles read paths = _ := checkFiles_of_append (scanOrder_eq paths) c
    generalize c.checkFiles read (paths.filter Path.isProbableHeader) = headers at hrun ⊢
    obtain ⟨⟨result, findings⟩, after⟩ := headers
    refine ⟨?_, ?_, ?_⟩
    · intro paths' hheaders hothers
      rw [checkFiles_eq_runFrom, checkFiles_eq_runFrom, scanOrder_congr hheaders hothers]
    · intro failure hfailure
      obtain rfl : result = .error failure := hfailure
      exact hrun
    · intro summary hsummary
      obtain rfl : result = .ok summary := hsummary
      exact hrun

/-- A header and two sources, one of them not UTF-8, listed in two ways; and a header that is
missing, before which a source is listed. -/
theorem run_is_by_groups_interleaved :
    let header := Source.typed "a.h" "#include <stdio.h>\n#include <Python.h>\n"
    let source := Source.typed "b.c" "#include <math.h>\n#include \"a.h\"\n"
    let read := ((FileTree.ofSources [header, source]).put (.ofString "d.c") (.file [0xFF])).read
    let run := Checker.standard.checkFiles read
    let paths := ["d.c", "a.h", "b.c"].map Path.ofString
    let paths' := ["a.h", "d.c", "b.c"].map Path.ofString
    let failing := ["b.c", "m.h", "a.h"].map Path.ofString
    run paths' = run paths
      ∧ (run (paths.filter Path.isProbableHeader)).1.result = .ok ⟨1, 0, 1⟩
      ∧ (run paths).1.result = .ok ⟨2, 1, 2⟩
      ∧ (run paths).1.findings = [.outOfOrder "a.h" "Python.h" 2 [1], .notUtf8 "d.c",
        .outOfOrder "b.c" "Python.h" 2 [1]]
      ∧ run failing = run (failing.filter Path.isProbableHeader)
      ∧ (run failing).1.result = .error (.unreadable "m.h" .missing) := by
  intro header source read run paths paths' failing
  obtain ⟨hsame, -, hcut⟩ := run_is_by_groups.2 read Checker.standard paths
  obtain ⟨-, hstopped, -⟩ := run_is_by_groups.2 read Checker.standard failing
  have hheaders : (run (paths.filter Path.isProbableHeader)).1.result = .ok ⟨1, 0, 1⟩ := by
    decide +kernel
  have hfailure : (run (failing.filter Path.isProbableHeader)).1.result
      = .error (.unreadable "m.h" .missing) := by
    decide +kernel
  have hrun : run paths = _ := hcut _ hheaders
  have hstop : run failing = run (failing.filter Path.isProbableHeader) := hstopped _ hfailure
  refine ⟨hsame paths' (by decide +kernel) (by decide +kernel), hheaders, ?_, ?_, hstop, ?_⟩
  · rw [hrun]
    decide +kernel
  · rw [hrun]
    decide +kernel
  · rw [hstop]
    exact hfailure

end Checker

end IncludeOrder
