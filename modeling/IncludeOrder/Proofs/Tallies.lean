import IncludeOrder.Proofs.Answers
import Mathlib.Algebra.BigOperators.Group.List.Basic

/-!
# Metrics tell the truth

Metrics are kept by the way, at several places and some of them in the middle of a scan, and the
size of the registry is announced only when a name is new.  Between two calls they nevertheless say
exactly what has happened since the checker was made: they are the tally of the reports of all scans
that came to an end, of the files left out of runs, and of the registry as it is (`Metrics.tally`).

Every kind of call keeps this up, whether it succeeds or fails, so every session does
(`metrics_serve`).
-/

set_option autoImplicit false

namespace IncludeOrder

/-- The metrics of a checker that knows this registry, after scans that came to these reports and
runs that left out so many files. -/
def Metrics.tally (r : Registry) (reports : List ScanReport) (leftOut : Nat) : Metrics where
  filesScanned := reports.length
  decodeFailures := leftOut
  violations := (reports.map ScanReport.violations).sum
  findings kind := (reports.flatMap ScanReport.findings).countP (Finding.isKind kind)
  registrySize := r.size

namespace Metrics

theorem tally_start (r : Registry) : Metrics.zero.announceSize r.size = tally r [] 0 := rfl

theorem countDecodeFailure_tally (r : Registry) (reports : List ScanReport) (leftOut : Nat) :
    (tally r reports leftOut).countDecodeFailure = tally r reports (leftOut + 1) := rfl

/-! ## One scan -/

/-- Findings are counted by their kinds. -/
theorem foldl_record_found (findings : List Finding) (m : Metrics) :
    (findings.map Scan.Event.found).foldl record m
      = { m with findings := fun kind =>
            m.findings kind + findings.countP (Finding.isKind kind) } := by
  induction findings generalizing m with
  | nil => rfl
  | cons f rest ih =>
    rw [List.map_cons, List.foldl_cons, ih]
    simp only [record, countFinding, mk.injEq, true_and, and_true]
    funext kind
    rw [List.countP_cons]
    by_cases hkind : kind = f.kind
    · simp only [hkind, Finding.isKind, beq_self_eq_true, if_true]
      omega
    · have hne : Finding.isKind kind f = false := by
        simpa [Finding.isKind] using Ne.symm hkind
      simp [hkind, hne]

/-- The size that was right before the registration is right after it: it is announced just when it
changes. -/
theorem foldl_record_registration {r : Registry} {m : Metrics} (label : Label)
    (designated : Option Nat) (hsize : m.registrySize = r.size) :
    (if designated.isSome then Scan.registration r label else []).foldl record m
      = { m with registrySize := (Scan.registryAfter r label designated).size } := by
  cases designated with
  | none =>
    rw [Scan.registryAfter, Option.isSome_none, if_neg Bool.false_ne_true,
      if_neg Bool.false_ne_true, ← hsize]
    rfl
  | some line =>
    rw [Scan.registryAfter, Option.isSome_some, if_pos rfl, if_pos rfl, Scan.registration]
    cases hname : r.contains label.baseName with
    | true =>
      rw [if_pos rfl, Registry.insert_of_mem (Registry.contains_eq_true_iff.mp hname), ← hsize]
      rfl
    | false => rfl

end Metrics

namespace Checker

variable {c : Checker} {reports : List ScanReport} {leftOut : Nat}

theorem metrics_scanText (h : c.metrics = .tally c.registry reports leftOut) (path : Path)
    (text : List Char) :
    (c.scanText path text).2.metrics
      = .tally (c.scanText path text).2.registry (reports ++ [(c.scanText path text).1])
        leftOut := by
  have hevents : (Scan.run c.settings c.registry path.label text).events.foldl Metrics.record
        c.metrics
      = { c.metrics with
          findings := fun kind => c.metrics.findings kind
            + (c.scanText path text).1.findings.countP (Finding.isKind kind)
          registrySize := (c.scanText path text).2.registry.size } := by
    have hsize : c.metrics.registrySize = c.registry.size := by rw [h, Metrics.tally]
    rw [report_scanText, registry_scanText, Scan.run_eq, Scan.eventsOf, List.foldl_append,
      Metrics.foldl_record_found]
    exact Metrics.foldl_record_registration path.label _ hsize
  have hscan : (c.scanText path text).2.metrics
      = ((Scan.run c.settings c.registry path.label text).events.foldl Metrics.record
          c.metrics).countScan (c.scanText path text).1.violations := rfl
  rw [hscan, hevents, h]
  simp [Metrics.countScan, Metrics.tally]

/-! ## Visits -/

variable {read : FileReader}

/-- Visits add the reports on the sources at their paths, and the files that they leave out. -/
theorem metrics_visitAll {paths : List Path} (hread : ∀ path ∈ paths, readFault? read path = none)
    (h : c.metrics = .tally c.registry reports leftOut) :
    (c.visitAll read paths).2.metrics
      = .tally (c.visitAll read paths).2.registry
        (reports ++ Scan.reports c.settings c.registry (sourcesAt read paths))
        (leftOut + paths.countP (isUndecodable read)) := by
  induction paths generalizing c reports leftOut with
  | nil => simpa [visitAll, sourcesAt, Scan.reports] using h
  | cons path paths ih =>
    obtain ⟨hfirst, hrest⟩ := List.forall_mem_cons.mp hread
    have hundecodable := isUndecodable_eq_isNone hfirst
    rcases visit_cases hfirst with ⟨text, htext, hvisit⟩ | ⟨hnone, hvisit⟩
    · let f : Source := ⟨path, text⟩
      have hsources : sourcesAt read (path :: paths) = f :: sourcesAt read paths :=
        sourcesAt_cons_of_text htext paths
      have hcount : (path :: paths).countP (isUndecodable read)
          = paths.countP (isUndecodable read) := by
        simp [hundecodable, htext]
      have hall := ih hrest (metrics_scanText h path text)
      rw [c.report_scanText_source f, c.registry_scanText_source f, c.settings_scanText_source f,
        List.append_assoc] at hall
      rw [hsources, hcount]
      simpa [visitAll, hvisit, Scan.reports] using hall
    · have hcount : (path :: paths).countP (isUndecodable read)
          = paths.countP (isUndecodable read) + 1 := by
        simp [hundecodable, hnone]
      have hskipped : ({ c with metrics := c.metrics.countDecodeFailure } : Checker).metrics
          = .tally c.registry reports (leftOut + 1) := by
        rw [h, Metrics.countDecodeFailure_tally]
      have hall := ih hrest hskipped
      rw [sourcesAt_cons_of_no_text hnone, hcount, Nat.add_comm _ 1, ← Nat.add_assoc]
      simpa [visitAll, hvisit] using hall

/-! ## Requests and sessions -/

theorem metrics_perform (h : c.metrics = .tally c.registry reports leftOut) (q : Request) :
    (c.perform q.read q.call).metrics
      = .tally (c.perform q.read q.call).registry
        (reports ++ Scan.reports c.settings c.registry q.sources)
        (leftOut + q.leftOut.length) := by
  obtain ⟨read, call⟩ := q
  have hscan : ∀ path text, (c.scanText path text).2.metrics
      = .tally (c.scanText path text).2.registry
        (reports ++ Scan.reports c.settings c.registry [⟨path, text⟩]) leftOut := by
    intro path text
    rw [metrics_scanText h, c.report_scanText_source ⟨path, text⟩]
    rfl
  cases call with
  | scanText path text => exact hscan path text
  | scanFile path =>
    cases htext : readText? read path with
    | some text =>
      simp only [perform, Request.sources, scanFile_of_text htext, sourcesAt_singleton_of_text htext]
      exact hscan path text
    | none =>
      obtain ⟨failure, hfails⟩ := scanFile_of_no_text htext c
      simpa [perform, Request.sources, Request.leftOut, hfails,
        sourcesAt_singleton_of_no_text htext, Scan.reports] using h
  | checkFiles paths =>
    simp only [perform, Request.sources, Request.leftOut, checkFiles_eq,
      ← List.countP_eq_length_filter]
    exact metrics_visitAll readable_of_mem_readPart h

theorem metrics_serve (h : c.metrics = .tally c.registry reports leftOut)
    (requests : List Request) :
    (c.serve requests).2.metrics
      = .tally (c.serve requests).2.registry
        (reports ++ Scan.reports c.settings c.registry (requests.flatMap Request.sources))
        (leftOut + (requests.flatMap Request.leftOut).length) := by
  induction requests generalizing c reports leftOut with
  | nil => simpa [serve, Scan.reports] using h
  | cons q rest ih =>
    have hrest := ih (metrics_perform h q)
    rw [settings_perform_request, registry_perform_request, List.append_assoc] at hrest
    rw [serve_cons, List.flatMap_cons, List.flatMap_cons, Scan.reports_append, List.length_append,
      ← Nat.add_assoc]
    exact hrest

/-! ## What the metrics say of a session -/

/-- Findings that are not about the encoding of a file are counted alike with and without those
that are. -/
theorem countP_filter_scanned {kind : FindingKind} (hkind : kind ≠ .notUtf8)
    (findings : List Finding) :
    (findings.filter fun f => !f.isKind .notUtf8).countP (Finding.isKind kind)
      = findings.countP (Finding.isKind kind) := by
  rw [List.countP_filter]
  apply List.countP_congr
  intro f _
  simp only [Finding.isKind, Bool.and_eq_true, beq_iff_eq, Bool.not_eq_true', beq_eq_false_iff_ne]
  exact ⟨And.left, fun h => ⟨h, h ▸ hkind⟩⟩

/-- The lines that findings name out of order are those named with the encodings left aside. -/
theorem sum_others_filter_scanned (findings : List Finding) :
    ((findings.filter fun f => !f.isKind .notUtf8).map fun f => f.others.length).sum
      = (findings.map fun f => f.others.length).sum := by
  induction findings with
  | nil => rfl
  | cons f rest ih =>
    cases hkind : f.isKind .notUtf8 with
    | false => simp [hkind, ih]
    | true =>
      have hnone : f.others = [] := by
        apply Finding.others_eq_nil
        rw [Finding.isKind_eq_true_iff.mp hkind]
        decide
      simp [hkind, hnone, ih]

/-- Reports count the lines that their findings name. -/
theorem sum_others_scanAll (c : Checker) (files : List Source) :
    (((c.scanAll files).1.flatMap ScanReport.findings).map fun f => f.others.length).sum
      = ((c.scanAll files).1.map ScanReport.violations).sum := by
  rw [List.flatMap_def, List.map_flatten, List.sum_flatten, List.map_map, List.map_map]
  congr 1
  apply List.map_congr_left
  intro report hreport
  exact (wellFormed_of_mem_scanAll hreport).total

theorem countP_notUtf8_scanAll (c : Checker) (files : List Source) :
    ((c.scanAll files).1.flatMap ScanReport.findings).countP (Finding.isKind .notUtf8) = 0 := by
  apply List.countP_eq_zero.mpr
  intro f hf
  obtain ⟨report, hreport, hmem⟩ := List.mem_flatMap.mp hf
  simpa [Finding.isKind] using (wellFormed_of_mem_scanAll hreport).scanned f hmem

/-- **Metrics never drift.**  After any session, with scans that fail and runs that stop at any of
its calls, the gauge is the size of the registry.  The counters are the number of scans that came to
an end, the violations they reported, which are the lines named out of order in what the session
found, the findings of each kind that a scan can make, and the files that runs have found not to be
UTF-8; these have no counter among the findings. -/
theorem metrics_never_drift {s : Settings} (h : start s = .ok c) (requests : List Request) :
    let answers := (c.serve requests).1
    let found := answers.flatMap Answer.findings
    let scans := (c.scanAll (requests.flatMap Request.sources)).1
    let m := (c.serve requests).2.metrics
    found.filter (fun f => !f.isKind .notUtf8) = scans.flatMap ScanReport.findings
      ∧ m.registrySize = (c.serve requests).2.registry.size
      ∧ m.filesScanned = scans.length
      ∧ m.violations = (scans.map ScanReport.violations).sum
      ∧ m.violations = (found.map fun f => f.others.length).sum
      ∧ (∀ kind, kind ≠ .notUtf8 → m.findings kind = found.countP (Finding.isKind kind))
      ∧ m.decodeFailures
        = ((answers.filter Answer.isRun).flatMap Answer.findings).countP (Finding.isKind .notUtf8)
      ∧ m.findings .notUtf8 = 0 := by
  intro answers found scans m
  obtain ⟨valid, hc⟩ := start_eq_ok_iff.mp h
  have hscans : scans = Scan.reports c.settings c.registry (requests.flatMap Request.sources) :=
    (c.scanAll_eq _).1
  have hfound : found.filter (fun f => !f.isKind .notUtf8) = scans.flatMap ScanReport.findings := by
    rw [hscans]
    exact c.scanned_serve requests
  have hm : m = .tally (c.serve requests).2.registry scans
      (requests.flatMap Request.leftOut).length := by
    have hfresh : c.metrics = .tally c.registry [] 0 := by rw [hc, Metrics.tally_start]
    have hserve := metrics_serve hfresh requests
    rwa [List.nil_append, Nat.zero_add, ← hscans] at hserve
  rw [hm]
  refine ⟨hfound, rfl, rfl, rfl, ?_, ?_, ?_, ?_⟩
  · rw [← sum_others_filter_scanned, hfound, sum_others_scanAll]
    rfl
  · intro kind hkind
    rw [← countP_filter_scanned hkind, hfound]
    rfl
  · rw [List.countP_eq_length_filter, leftOut_serve, List.length_map]
    rfl
  · exact countP_notUtf8_scanAll c _

/-- A session under settings that name a header twice: a run that leaves a file out and stops at one
that is missing, a scan that fails, and a scan that registers its file. -/
theorem metrics_never_drift_aborted :
    let disorder := Source.typed "a.c" "#include <stdio.h>\n#include <Python.h>\n"
    let read := ((FileTree.ofSources [disorder]).put (.ofString "b.c") (.file [0xFF])).read
    let s := { Settings.standard with knownHeaders := ["Python.h", "Python.h"] }
    let requests : List Request :=
      [⟨read, .checkFiles (["a.c", "b.c", "m.c", "a.c"].map Path.ofString)⟩,
        ⟨read, .scanFile (.ofString "b.c")⟩,
        ⟨read, .scanText (.ofString "x.h") "#include <Python.h>\n".toList⟩]
    ∃ c, start s = .ok c
      ∧ (c.serve requests).2.registry.names = ["Python.h", "a.c", "x.h"]
      ∧ (c.serve requests).2.metrics.registrySize = 3
      ∧ (c.serve requests).2.metrics.filesScanned = 2
      ∧ (c.serve requests).2.metrics.violations = 1
      ∧ (c.serve requests).2.metrics.findings .outOfOrder = 1
      ∧ (c.serve requests).2.metrics.decodeFailures = 1
      ∧ (c.serve requests).2.metrics.findings .notUtf8 = 0 := by
  intro disorder read s requests
  let c : Checker := ⟨s, by decide +kernel, .ofList s.knownHeaders,
    Metrics.zero.announceSize (Registry.ofList s.knownHeaders).size⟩
  have hstart : start s = .ok c := start_eq_ok_iff.mpr ⟨by decide +kernel, rfl⟩
  obtain ⟨-, hsize, hscanned, -, hviolations, hfindings, hleft, hnone⟩ :=
    metrics_never_drift hstart requests
  have hnames : (c.serve requests).2.registry.names = ["Python.h", "a.c", "x.h"] := by
    decide +kernel
  refine ⟨c, hstart, hnames, ?_, ?_, ?_, ?_, ?_, hnone⟩
  · rw [hsize, Registry.size, hnames]
    rfl
  · rw [hscanned]
    decide +kernel
  · rw [hviolations]
    decide +kernel
  · rw [hfindings .outOfOrder (by decide)]
    decide +kernel
  · rw [hleft]
    decide +kernel

end Checker

end IncludeOrder
