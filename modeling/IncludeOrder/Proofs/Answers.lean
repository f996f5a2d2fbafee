import IncludeOrder.Proofs.Counts

/-!
# Answers

What a session tells its client.  A request is a call together with the files as they stand when it
is made; its answer is what the call comes to and what it finds.

A request scans certain sources and no others: the text it brings, the file it names if that holds
a text, or the texts of a run as far as the run gets.  To the registry a session is the scans of its
sources one after the other (`registry_serve`), and what it finds in files that are scanned is what
these scans find (`scanned_serve`).  A run adds a finding for each file that it leaves out
(`leftOut_serve`), and that is all a session ever says.
-/

set_option autoImplicit false

namespace IncludeOrder

/-- What a call comes to, apart from what it finds. -/
inductive Outcome where
  /-- of a scan: the number of violations, or the failure -/
  | scan (result : Except Failure Nat)
  /-- of a run: the summary, or the failure that ended it -/
  | run (result : Except Failure Summary)
  deriving DecidableEq

/-- What a client is told in answer to a call. -/
structure Answer where
  outcome : Outcome
  /-- in order, also those before a failure -/
  findings : List Finding
  deriving DecidableEq

/-- The answer comes from a run. -/
def Answer.isRun (a : Answer) : Bool :=
  match a.outcome with
  | .scan _ => false
  | .run _ => true

namespace Checker

/-- A call, and the files as they stand when it is made. -/
structure Request where
  read : FileReader
  call : Call

namespace Request

/-- The sources that are scanned. -/
def sources (q : Request) : List Source :=
  match q.call with
  | .scanText path text => [⟨path, text⟩]
  | .scanFile path => sourcesAt q.read [path]
  | .checkFiles paths => sourcesAt q.read (readPart q.read (scanOrder paths))

/-- The files that a run leaves out. -/
def leftOut (q : Request) : List Path :=
  match q.call with
  | .scanText _ _ => []
  | .scanFile _ => []
  | .checkFiles paths => (readPart q.read (scanOrder paths)).filter (isUndecodable q.read)

end Request

/-- The answer to a request. -/
def answer (c : Checker) (q : Request) : Answer :=
  match q.call with
  | .scanText path text =>
    let report := (c.scanText path text).1
    ⟨.scan (.ok report.violations), report.findings⟩
  | .scanFile path =>
    match (c.scanFile q.read path).1 with
    | .ok report => ⟨.scan (.ok report.violations), report.findings⟩
    | .error failure => ⟨.scan (.error failure), []⟩
  | .checkFiles paths =>
    let report := (c.checkFiles q.read paths).1
    ⟨.run report.result, report.findings⟩

/-- Answers the requests of a session in order. -/
def serve (c : Checker) : List Request → List Answer × Checker
  | [] => ([], c)
  | q :: rest =>
    let (answers, last) := (c.perform q.read q.call).serve rest
    (c.answer q :: answers, last)

/-- A checker starts with the headers of its settings and nothing counted. -/
theorem start_eq_ok_iff {s : Settings} {c : Checker} :
    start s = .ok c ↔ ∃ valid, c = ⟨s, valid, .ofList s.knownHeaders,
      Metrics.zero.announceSize (Registry.ofList s.knownHeaders).size⟩ := by
  unfold start
  split
  · rename_i fault hfault
    simp [Settings.Valid, hfault]
  · rename_i hnone
    simp [eq_comm, show s.Valid from hnone]

/-! ## One request -/

section Request

variable {read : FileReader} {path : Path}

/-- A file that holds no text is not scanned, and nothing changes. -/
theorem scanFile_of_no_text (h : readText? read path = none) (c : Checker) :
    ∃ failure, c.scanFile read path = (.error failure, c) := by
  rcases scanFile_cases read c path with
    ⟨cause, -, hscan⟩ | ⟨bytes, -, -, hscan⟩ | ⟨text, hread, -⟩
  · exact ⟨_, hscan⟩
  · exact ⟨_, hscan⟩
  · rw [readText?_eq_some_iff.mpr hread] at h
    cases h

theorem sourcesAt_singleton_of_text {text : List Char} (h : readText? read path = some text) :
    sourcesAt read [path] = [⟨path, text⟩] :=
  sourcesAt_cons_of_text h []

theorem sourcesAt_singleton_of_no_text (h : readText? read path = none) :
    sourcesAt read [path] = [] :=
  sourcesAt_cons_of_no_text h []

end Request

theorem registry_perform_request (c : Checker) (q : Request) :
    (c.perform q.read q.call).registry = c.registry.learnAll q.sources := by
  obtain ⟨read, call⟩ := q
  cases call with
  | scanText path text => exact c.registry_scanText_source ⟨path, text⟩
  | scanFile path =>
    cases htext : readText? read path with
    | some text =>
      simp only [perform, Request.sources, scanFile_of_text htext, sourcesAt_singleton_of_text htext]
      exact c.registry_scanText_source ⟨path, text⟩
    | none =>
      obtain ⟨failure, hscan⟩ := scanFile_of_no_text htext c
      simp only [perform, Request.sources, hscan, sourcesAt_singleton_of_no_text htext]
      rfl
  | checkFiles paths => exact c.learned_checkFiles read paths

theorem settings_perform_request (c : Checker) (q : Request) :
    (c.perform q.read q.call).settings = c.settings := by
  obtain ⟨read, call⟩ := q
  cases call with
  | scanText path text => rfl
  | scanFile path =>
    cases htext : readText? read path with
    | some text =>
      simp only [perform, scanFile_of_text htext]
      rfl
    | none =>
      obtain ⟨failure, hscan⟩ := scanFile_of_no_text htext c
      simp only [perform, hscan]
  | checkFiles paths =>
    simp only [perform, checkFiles_eq]
    exact (visitAll_eq readable_of_mem_readPart c).2.2

/-- Nothing that is found on a scan is about the encoding of a file. -/
theorem filter_scanned_scanText (c : Checker) (path : Path) (text : List Char) :
    (c.scanText path text).1.findings.filter (fun f => !f.isKind .notUtf8)
      = (c.scanText path text).1.findings := by
  apply List.filter_eq_self.mpr
  intro f hf
  simpa [Finding.isKind] using (c.wellFormed_scanText path text).scanned f hf

/-- What a request finds in the sources that it scans. -/
theorem scanned_answer (c : Checker) (q : Request) :
    (c.answer q).findings.filter (fun f => !f.isKind .notUtf8)
      = (Scan.reports c.settings c.registry q.sources).flatMap ScanReport.findings := by
  obtain ⟨read, call⟩ := q
  cases call with
  | scanText path text =>
    simp only [answer, Request.sources, filter_scanned_scanText]
    simp [Scan.reports, ← report_scanText_source]
  | scanFile path =>
    cases htext : readText? read path with
    | some text =>
      simp only [answer, Request.sources, scanFile_of_text htext, filter_scanned_scanText,
        sourcesAt_singleton_of_text htext]
      simp [Scan.reports, ← report_scanText_source]
    | none =>
      obtain ⟨failure, hscan⟩ := scanFile_of_no_text htext c
      simp [answer, Request.sources, hscan, sourcesAt_singleton_of_no_text htext, Scan.reports]
  | checkFiles paths => exact c.scanned_checkFiles read paths

/-- What a request says of the files that it leaves out. -/
theorem leftOut_answer (c : Checker) (q : Request) :
    (c.answer q).findings.filter (Finding.isKind .notUtf8)
      = q.leftOut.map fun path => .notUtf8 path.display := by
  have hnone : ∀ path text,
      (c.scanText path text).1.findings.filter (Finding.isKind .notUtf8) = [] := by
    intro path text
    apply List.filter_eq_nil_iff.mpr
    intro f hf
    simpa [Finding.isKind] using (c.wellFormed_scanText path text).scanned f hf
  obtain ⟨read, call⟩ := q
  cases call with
  | scanText path text => exact hnone path text
  | scanFile path =>
    cases htext : readText? read path with
    | some text => simpa [answer, Request.leftOut, scanFile_of_text htext] using hnone path text
    | none =>
      obtain ⟨failure, hscan⟩ := scanFile_of_no_text htext c
      simp [answer, Request.leftOut, hscan]
  | checkFiles paths => exact c.leftOut_checkFiles read paths

/-- Only runs leave files out. -/
theorem leftOut_of_not_isRun {c : Checker} {q : Request} (h : (c.answer q).isRun = false) :
    q.leftOut = [] := by
  obtain ⟨read, call⟩ := q
  cases call with
  | scanText path text => rfl
  | scanFile path => rfl
  | checkFiles paths => simp [answer, Answer.isRun] at h

/-! ## Answers under equal reports -/

section Congr

variable {c c' : Checker}

/-- Visits come to the same if the reports on the sources are the same. -/
theorem visitAll_congr_of_reports {read : FileReader} {paths : List Path}
    (hread : ∀ path ∈ paths, readFault? read path = none)
    (h : Scan.reports c'.settings c'.registry (sourcesAt read paths)
      = Scan.reports c.settings c.registry (sourcesAt read paths)) :
    (c'.visitAll read paths).1 = (c.visitAll read paths).1 := by
  induction paths generalizing c c' with
  | nil => rfl
  | cons path paths ih =>
    obtain ⟨hfirst, hrest⟩ := List.forall_mem_cons.mp hread
    rcases visit_cases hfirst with ⟨text, htext, hvisit⟩ | ⟨hnone, hvisit⟩
    · let f : Source := ⟨path, text⟩
      have hsources : sourcesAt read (path :: paths) = f :: sourcesAt read paths :=
        sourcesAt_cons_of_text htext paths
      rw [hsources, Scan.reports, Scan.reports] at h
      obtain ⟨hreport, hreports⟩ := List.cons.inj h
      rw [← report_scanText_source, ← report_scanText_source] at hreport
      rw [← registry_scanText_source, ← registry_scanText_source,
        ← settings_scanText_source c f, ← settings_scanText_source c' f] at hreports
      simp only [visitAll, hvisit]
      rw [ih hrest hreports]
      exact congrArg (fun report => (⟨path, .ok report⟩ : Visit) :: _) hreport
    · rw [sourcesAt_cons_of_no_text hnone] at h
      simp only [visitAll, hvisit]
      exact congrArg (_ :: ·) (ih hrest h)

/-- A request is answered the same if the reports on its sources are the same. -/
theorem answer_congr {q : Request}
    (h : Scan.reports c'.settings c'.registry q.sources
      = Scan.reports c.settings c.registry q.sources) : c'.answer q = c.answer q := by
  obtain ⟨read, call⟩ := q
  have hscan : ∀ path text,
      Scan.reports c'.settings c'.registry [⟨path, text⟩]
          = Scan.reports c.settings c.registry [⟨path, text⟩] →
        (c'.scanText path text).1 = (c.scanText path text).1 := by
    intro path text hreports
    rw [c.report_scanText_source ⟨path, text⟩, c'.report_scanText_source ⟨path, text⟩]
    exact (List.cons.inj hreports).1
  cases call with
  | scanText path text => simp only [answer, hscan path text h]
  | scanFile path =>
    cases htext : readText? read path with
    | some text =>
      simp only [Request.sources, sourcesAt_singleton_of_text htext] at h
      simp only [answer, scanFile_of_text htext, hscan path text h]
    | none =>
      rcases scanFile_cases read c path with
        ⟨cause, hread, -⟩ | ⟨bytes, hread, hbad, -⟩ | ⟨text, hread, -⟩
      · simp only [answer, scanFile_of_unreadable hread]
      · have hundecodable := isUndecodable_eq_true_iff.mpr ⟨bytes, hread, hbad⟩
        simp only [answer, scanFile_of_undecodable hundecodable]
      · rw [readText?_eq_some_iff.mpr hread] at htext
        cases htext
  | checkFiles paths =>
    have hvisits := visitAll_congr_of_reports readable_of_mem_readPart h
    simp only [answer, checkFiles_eq, hvisits]

end Congr

/-! ## A session -/

theorem serve_cons (c : Checker) (q : Request) (rest : List Request) :
    c.serve (q :: rest)
      = (c.answer q :: ((c.perform q.read q.call).serve rest).1,
        ((c.perform q.read q.call).serve rest).2) := rfl

theorem registry_serve (c : Checker) (requests : List Request) :
    (c.serve requests).2.registry = c.registry.learnAll (requests.flatMap Request.sources) := by
  induction requests generalizing c with
  | nil => rfl
  | cons q rest ih =>
    rw [serve_cons, List.flatMap_cons, Registry.learnAll_append, ← registry_perform_request]
    exact ih _

theorem settings_serve (c : Checker) (requests : List Request) :
    (c.serve requests).2.settings = c.settings := by
  induction requests generalizing c with
  | nil => rfl
  | cons q rest ih =>
    rw [serve_cons, ← settings_perform_request c q]
    exact ih _

/-- A session is answered the same if the reports on its sources are the same. -/
theorem serve_congr {c c' : Checker} {requests : List Request}
    (h : Scan.reports c'.settings c'.registry (requests.flatMap Request.sources)
      = Scan.reports c.settings c.registry (requests.flatMap Request.sources)) :
    (c'.serve requests).1 = (c.serve requests).1 := by
  induction requests generalizing c c' with
  | nil => rfl
  | cons q rest ih =>
    rw [List.flatMap_cons, Scan.reports_append, Scan.reports_append] at h
    obtain ⟨hfirst, hrest⟩ := List.append_inj h (by simp [Scan.length_reports])
    rw [← registry_perform_request, ← registry_perform_request, ← settings_perform_request c q,
      ← settings_perform_request c' q] at hrest
    rw [serve_cons, serve_cons, answer_congr hfirst, ih hrest]

/-- What a session finds in the sources that it scans. -/
theorem scanned_serve (c : Checker) (requests : List Request) :
    ((c.serve requests).1.flatMap Answer.findings).filter (fun f => !f.isKind .notUtf8)
      = (Scan.reports c.settings c.registry (requests.flatMap Request.sources)).flatMap
        ScanReport.findings := by
  induction requests generalizing c with
  | nil => rfl
  | cons q rest ih =>
    have hrest := ih (c.perform q.read q.call)
    rw [settings_perform_request, registry_perform_request] at hrest
    rw [serve_cons, List.flatMap_cons, List.flatMap_cons, List.filter_append, Scan.reports_append,
      List.flatMap_append, scanned_answer, hrest]

/-- What a session says of the files that its runs leave out. -/
theorem leftOut_serve (c : Checker) (requests : List Request) :
    (((c.serve requests).1.filter Answer.isRun).flatMap Answer.findings).filter
        (Finding.isKind .notUtf8)
      = (requests.flatMap Request.leftOut).map fun path => .notUtf8 path.display := by
  induction requests generalizing c with
  | nil => rfl
  | cons q rest ih =>
    have hrest := ih (c.perform q.read q.call)
    rw [serve_cons, List.flatMap_cons, List.map_append, ← hrest]
    cases hrun : (c.answer q).isRun with
    | true => rw [List.filter_cons_of_pos hrun, List.flatMap_cons, List.filter_append, leftOut_answer]
    | false =>
      rw [List.filter_cons_of_neg (by simp [hrun]), leftOut_of_not_isRun hrun]
      rfl

end Checker

end IncludeOrder
