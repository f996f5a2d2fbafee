import IncludeOrder.Proofs.Encoding
import IncludeOrder.Proofs.Findings
import IncludeOrder.Proofs.Sessions

/-!
# Runs, visit by visit

A run over any files is a list of visits, in the order of runs, and perhaps a failure at the end of
them: a visit scans its file or leaves it out, and the first file that cannot be read ends the run
before it is visited (`checkFiles_eq`).  Nothing else is in a run.  Its findings are those of the
visits, its summary counts them, and the checker afterwards is the one after the last visit.

Visits in turn are scans of the files that hold a text (`visitAll_eq`).  The files in between that
are not UTF-8 show in the findings, in the summary and in the metrics, and nowhere else.
-/

set_option autoImplicit false

namespace IncludeOrder

/-! ## Files that cannot be scanned -/

/-- Why the file cannot be read, if it cannot. -/
def readFault? (read : FileReader) (path : Path) : Option ReadFault :=
  match read path with
  | .error cause => some cause
  | .ok _ => none

/-- The file can be read, but is not UTF-8. -/
def isUndecodable (read : FileReader) (path : Path) : Bool :=
  match read path with
  | .ok bytes => !decide (Utf8.WellFormed bytes)
  | .error _ => false

/-- The paths before the first file that cannot be read. -/
def readPart (read : FileReader) (order : List Path) : List Path :=
  order.takeWhile fun path => (readFault? read path).isNone

/-- The failure of the first file that cannot be read. -/
def firstFailure? (read : FileReader) (order : List Path) : Option Failure :=
  order.findSome? fun path => (readFault? read path).map (Failure.unreadable path.display)

/-- The sources that stand at these paths. -/
def sourcesAt (read : FileReader) (paths : List Path) : List Source :=
  paths.filterMap fun path => (readText? read path).map (Source.mk path)

section Files

variable {read : FileReader} {path : Path} {order before after : List Path}

theorem sourcesAt_cons_of_text {text : List Char} (h : readText? read path = some text)
    (paths : List Path) :
    sourcesAt read (path :: paths) = ⟨path, text⟩ :: sourcesAt read paths := by
  simp [sourcesAt, h]

theorem sourcesAt_cons_of_no_text (h : readText? read path = none) (paths : List Path) :
    sourcesAt read (path :: paths) = sourcesAt read paths := by
  simp [sourcesAt, h]

theorem readFault?_eq_some_iff {cause : ReadFault} :
    readFault? read path = some cause ↔ read path = .error cause := by
  unfold readFault?
  split <;> simp_all

theorem readFault?_eq_none_iff : readFault? read path = none ↔ ∃ bytes, read path = .ok bytes := by
  unfold readFault?
  split <;> simp_all

/-- A file has a text if its content is the encoding of this text. -/
theorem readText?_eq_some_iff {text : List Char} :
    readText? read path = some text ↔ read path = .ok (Utf8.encode text) := by
  unfold readText?
  split
  · rename_i bytes hread
    rw [Utf8.decode?_eq_some_iff_encode, hread, Except.ok.injEq, eq_comm]
  · rename_i cause hread
    simp [hread]

theorem isUndecodable_eq_true_iff :
    isUndecodable read path = true ↔ ∃ bytes, read path = .ok bytes ∧ ¬ Utf8.WellFormed bytes := by
  unfold isUndecodable
  split <;> simp_all

/-- Of the files that can be read, those that are not UTF-8 are those without a text. -/
theorem isUndecodable_eq_isNone (h : readFault? read path = none) :
    isUndecodable read path = (readText? read path).isNone := by
  obtain ⟨bytes, hread⟩ := readFault?_eq_none_iff.mp h
  simp only [isUndecodable, readText?, hread, Utf8.wellFormed_iff_isSome]
  cases Utf8.decode? bytes <;> rfl

theorem readFault?_of_mem_readPart (h : path ∈ readPart read order) :
    readFault? read path = none := by
  simpa using List.mem_takeWhile_imp h

/-- A run that meets no file it cannot read goes to the end. -/
theorem readPart_of_readable (h : ∀ path ∈ order, readFault? read path = none) :
    readPart read order = order := by
  rw [readPart, List.takeWhile_eq_self_iff]
  simpa using h

theorem firstFailure?_eq_none_iff :
    firstFailure? read order = none ↔ ∀ path ∈ order, readFault? read path = none := by
  simp [firstFailure?]

/-- The first file that cannot be read parts the order in two. -/
theorem exists_split_of_firstFailure? {failure : Failure}
    (h : firstFailure? read order = some failure) :
    ∃ path cause after, order = readPart read order ++ path :: after
      ∧ read path = .error cause ∧ failure = .unreadable path.display cause := by
  induction order with
  | nil => simp [firstFailure?] at h
  | cons first rest ih =>
    cases hfirst : readFault? read first with
    | some cause =>
      have hfailure : failure = .unreadable first.display cause := by
        simpa [firstFailure?, hfirst, eq_comm] using h
      refine ⟨first, cause, rest, ?_, readFault?_eq_some_iff.mp hfirst, hfailure⟩
      simp [readPart, hfirst]
    | none =>
      have hrest : firstFailure? read rest = some failure := by
        simpa [firstFailure?, hfirst] using h
      obtain ⟨path, cause, after, hsplit, hread, hfailure⟩ := ih hrest
      refine ⟨path, cause, after, ?_, hread, hfailure⟩
      have hpart : readPart read (first :: rest) = first :: readPart read rest := by
        simp [readPart, hfirst]
      rw [hpart, List.cons_append, ← hsplit]

theorem readPart_of_split {cause : ReadFault} (h : ∀ q ∈ before, readFault? read q = none)
    (hread : read path = .error cause) : readPart read (before ++ path :: after) = before := by
  have hfault := readFault?_eq_some_iff.mpr hread
  rw [readPart, List.takeWhile_append_of_pos (by simpa using h)]
  simp [hfault]

theorem firstFailure?_of_split {cause : ReadFault} (h : ∀ q ∈ before, readFault? read q = none)
    (hread : read path = .error cause) :
    firstFailure? read (before ++ path :: after) = some (.unreadable path.display cause) := by
  have hfault := readFault?_eq_some_iff.mpr hread
  have hbefore := firstFailure?_eq_none_iff.mpr h
  rw [firstFailure?] at hbefore ⊢
  simp [hbefore, hfault]

end Files

/-! ## Visits -/

/-- A file and what its scan came to. -/
structure Visit where
  path : Path
  outcome : Except Failure ScanReport

namespace Visit

/-- What is found on a visit. A file that is not scanned is found not to be UTF-8. -/
def findings (v : Visit) : List Finding :=
  match v.outcome with
  | .ok report => report.findings
  | .error _ => [.notUtf8 v.path.display]

/-- How many headers are found out of order. -/
def violations (v : Visit) : Nat :=
  match v.outcome with
  | .ok report => report.violations
  | .error _ => 0

/-- The report on the file; none when it has been left out. -/
def report? (v : Visit) : Option ScanReport := v.outcome.toOption

/-- The file has been left out. -/
def isLeftOut (v : Visit) : Bool := v.report?.isNone

@[simp] theorem report?_ok (path : Path) (report : ScanReport) :
    report? ⟨path, .ok report⟩ = some report := rfl

@[simp] theorem report?_error (path : Path) (failure : Failure) :
    report? ⟨path, .error failure⟩ = none := rfl

@[simp] theorem isLeftOut_ok (path : Path) (report : ScanReport) :
    isLeftOut ⟨path, .ok report⟩ = false := rfl

@[simp] theorem isLeftOut_error (path : Path) (failure : Failure) :
    isLeftOut ⟨path, .error failure⟩ = true := rfl

end Visit

/-- The summary after one more visit. -/
def Summary.count (s : Summary) (v : Visit) : Summary :=
  match v.outcome with
  | .ok report => s.countScanned report.violations
  | .error _ => s.countSkipped

namespace Checker

/-- Visits a file: scans it, or leaves it out if that fails. -/
def visit (read : FileReader) (c : Checker) (path : Path) : Visit × Checker :=
  match c.scanFile read path with
  | (.ok report, c) => (⟨path, .ok report⟩, c)
  | (.error failure, c) =>
    (⟨path, .error failure⟩, { c with metrics := c.metrics.countDecodeFailure })

/-- Visits files in the order given. -/
def visitAll (read : FileReader) (c : Checker) : List Path → List Visit × Checker
  | [] => ([], c)
  | path :: rest =>
    let (v, c) := c.visit read path
    let (visits, c) := c.visitAll read rest
    (v :: visits, c)

variable {read : FileReader} {path : Path}

/-! ## The three ends of a scan -/

theorem scanFile_of_unreadable {cause : ReadFault} (h : read path = .error cause) (c : Checker) :
    c.scanFile read path = (.error (.unreadable path.display cause), c) := by
  simp [scanFile_eq, h]

theorem scanFile_of_undecodable (h : isUndecodable read path = true) (c : Checker) :
    c.scanFile read path = (.error (.undecodable path.display), c) := by
  obtain ⟨bytes, hread, hbad⟩ := isUndecodable_eq_true_iff.mp h
  simp [scanFile_eq, hread, Utf8.decode?_eq_none_iff_not_wellFormed.mpr hbad]

/-- A scan fails because the file cannot be read or is not UTF-8, and then changes nothing, or it
is the scan of the text that the file holds. -/
theorem scanFile_cases (read : FileReader) (c : Checker) (path : Path) :
    (∃ cause, read path = .error cause
      ∧ c.scanFile read path = (.error (.unreadable path.display cause), c)) ∨
    (∃ bytes, read path = .ok bytes ∧ ¬ Utf8.WellFormed bytes
      ∧ c.scanFile read path = (.error (.undecodable path.display), c)) ∨
    ∃ text, read path = .ok (Utf8.encode text)
      ∧ c.scanFile read path = (.ok (c.scanText path text).1, (c.scanText path text).2) := by
  cases hread : read path with
  | error cause => exact Or.inl ⟨cause, rfl, scanFile_of_unreadable hread c⟩
  | ok bytes =>
    by_cases hwell : Utf8.WellFormed bytes
    · obtain ⟨text, rfl⟩ := hwell
      have htext := readText?_eq_some_iff.mpr hread
      exact Or.inr (Or.inr ⟨text, rfl, scanFile_of_text htext c⟩)
    · have hundecodable := isUndecodable_eq_true_iff.mpr ⟨bytes, hread, hwell⟩
      exact Or.inr (Or.inl ⟨bytes, rfl, hwell, scanFile_of_undecodable hundecodable c⟩)

/-- A file that can be read is scanned as the text it holds or left out. -/
theorem visit_cases (h : readFault? read path = none) :
    (∃ text, readText? read path = some text ∧ ∀ c : Checker,
      c.visit read path = (⟨path, .ok (c.scanText path text).1⟩, (c.scanText path text).2)) ∨
    (readText? read path = none ∧ ∀ c : Checker,
      c.visit read path = (⟨path, .error (.undecodable path.display)⟩,
        { c with metrics := c.metrics.countDecodeFailure })) := by
  have hundecodable := isUndecodable_eq_isNone h
  cases htext : readText? read path with
  | some text =>
    refine Or.inl ⟨text, rfl, ?_⟩
    intro c
    rw [visit, scanFile_of_text htext]
  | none =>
    rw [htext] at hundecodable
    refine Or.inr ⟨rfl, ?_⟩
    intro c
    rw [visit, scanFile_of_undecodable hundecodable]

/-! ## A run is its visits -/

/-- What a run does next, when the next file can be read. -/
theorem runFrom_cons (h : readFault? read path = none) (c : Checker) (summary : Summary)
    (findings : List Finding) (rest : List Path) :
    c.runFrom read summary findings (path :: rest)
      = (c.visit read path).2.runFrom read (summary.count (c.visit read path).1)
        (findings ++ (c.visit read path).1.findings) rest := by
  have hundecodable := isUndecodable_eq_isNone h
  cases htext : readText? read path with
  | some text =>
    have hscan := scanFile_of_text htext c
    simp only [runFrom_step, visit, hscan, Summary.count, Visit.findings]
  | none =>
    rw [htext] at hundecodable
    have hscan := scanFile_of_undecodable hundecodable c
    simp [runFrom_step, visit, hscan, Summary.count, Visit.findings, Failure.isRecoverable]

/-- A run visits the files before the first one that it cannot read, and ends with its failure or
with the summary of the visits. -/
theorem runFrom_eq (c : Checker) (summary : Summary) (findings : List Finding)
    (order : List Path) :
    c.runFrom read summary findings order
      = (⟨(firstFailure? read order).elim
            (.ok ((c.visitAll read (readPart read order)).1.foldl Summary.count summary)) .error,
          findings ++ (c.visitAll read (readPart read order)).1.flatMap Visit.findings⟩,
        (c.visitAll read (readPart read order)).2) := by
  -- what has been counted and found is arbitrary, so that each file can be added to it
  induction order generalizing c summary findings with
  | nil => simp [runFrom_nil, firstFailure?, readPart, visitAll]
  | cons path rest ih =>
    cases hfault : readFault? read path with
    | some cause =>
      have hscan := scanFile_of_unreadable (readFault?_eq_some_iff.mp hfault) c
      simp [runFrom_step, firstFailure?, readPart, visitAll, hscan, hfault, Failure.isRecoverable]
    | none =>
      have hpart : readPart read (path :: rest) = path :: readPart read rest := by
        simp [readPart, hfault]
      have hfailure : firstFailure? read (path :: rest) = firstFailure? read rest := by
        simp [firstFailure?, hfault]
      rw [runFrom_cons hfault, ih, hpart, hfailure]
      simp [visitAll]

theorem checkFiles_eq (c : Checker) (paths : List Path) :
    c.checkFiles read paths
      = (⟨(firstFailure? read (scanOrder paths)).elim
            (.ok ((c.visitAll read (readPart read (scanOrder paths))).1.foldl Summary.count .zero))
            .error,
          (c.visitAll read (readPart read (scanOrder paths))).1.flatMap Visit.findings⟩,
        (c.visitAll read (readPart read (scanOrder paths))).2) := by
  rw [checkFiles_eq_runFrom, runFrom_eq, List.nil_append]

/-! ## Visits as scans -/

theorem visitAll_append (c : Checker) (paths more : List Path) :
    c.visitAll read (paths ++ more)
      = ((c.visitAll read paths).1 ++ ((c.visitAll read paths).2.visitAll read more).1,
        ((c.visitAll read paths).2.visitAll read more).2) := by
  induction paths generalizing c with
  | nil => rfl
  | cons path paths ih => simp [visitAll, ih]

/-- Visits read the files at their paths and no others. -/
theorem visitAll_congr {read' : FileReader} {paths : List Path}
    (h : ∀ path ∈ paths, read' path = read path) (c : Checker) :
    c.visitAll read' paths = c.visitAll read paths := by
  induction paths generalizing c with
  | nil => rfl
  | cons path paths ih =>
    obtain ⟨hfirst, hrest⟩ := List.forall_mem_cons.mp h
    have hvisit : c.visit read' path = c.visit read path := by simp [visit, scanFile_eq, hfirst]
    simp only [visitAll, hvisit, ih hrest]

/-- Visits scan the sources at their paths one after the other. -/
theorem visitAll_eq {paths : List Path} (h : ∀ path ∈ paths, readFault? read path = none)
    (c : Checker) :
    (c.visitAll read paths).1.filterMap Visit.report?
        = Scan.reports c.settings c.registry (sourcesAt read paths)
      ∧ (c.visitAll read paths).2.registry = c.registry.learnAll (sourcesAt read paths)
      ∧ (c.visitAll read paths).2.settings = c.settings := by
  induction paths generalizing c with
  | nil => exact ⟨rfl, rfl, rfl⟩
  | cons path paths ih =>
    obtain ⟨hfirst, hrest⟩ := List.forall_mem_cons.mp h
    obtain ⟨hreports, hregistry, hsettings⟩ := ih hrest (c.visit read path).2
    rcases visit_cases hfirst with ⟨text, htext, hvisit⟩ | ⟨hnone, hvisit⟩
    · let f : Source := ⟨path, text⟩
      have hsources : sourcesAt read (path :: paths) = f :: sourcesAt read paths :=
        sourcesAt_cons_of_text htext paths
      have hlearned : (c.scanText path text).2.registry = c.registry.learn f :=
        c.registry_scanText_source f
      have hreport : (c.scanText path text).1 = Scan.report c.settings c.registry f :=
        c.report_scanText_source f
      rw [hvisit] at hreports hregistry hsettings
      rw [hlearned, c.settings_scanText_source f] at hreports
      rw [hlearned] at hregistry
      rw [c.settings_scanText_source f] at hsettings
      refine ⟨?_, ?_, ?_⟩
      · simp [visitAll, hvisit, hsources, Scan.reports, hreports, hreport]
      · simpa [visitAll, hvisit, hsources] using hregistry
      · simpa [visitAll, hvisit] using hsettings
    · have hsources := sourcesAt_cons_of_no_text hnone paths
      rw [hvisit] at hreports hregistry hsettings
      refine ⟨?_, ?_, ?_⟩
      · simpa [visitAll, hvisit, hsources, List.filterMap_cons] using hreports
      · simpa [visitAll, hvisit, hsources] using hregistry
      · simpa [visitAll, hvisit] using hsettings

theorem map_path_visitAll (read : FileReader) (c : Checker) (paths : List Path) :
    (c.visitAll read paths).1.map Visit.path = paths := by
  induction paths generalizing c with
  | nil => rfl
  | cons path paths ih =>
    have hpath : (c.visit read path).1.path = path := by
      unfold visit
      split <;> rfl
    simp [visitAll, hpath, ih]

/-- Left out are the files that are not UTF-8. -/
theorem map_path_filter_visitAll {paths : List Path}
    (h : ∀ path ∈ paths, readFault? read path = none) (c : Checker) :
    ((c.visitAll read paths).1.filter Visit.isLeftOut).map Visit.path
      = paths.filter (isUndecodable read) := by
  induction paths generalizing c with
  | nil => rfl
  | cons path paths ih =>
    obtain ⟨hfirst, hrest⟩ := List.forall_mem_cons.mp h
    have hundecodable := isUndecodable_eq_isNone hfirst
    rcases visit_cases hfirst with ⟨text, htext, hvisit⟩ | ⟨hnone, hvisit⟩
    · have hleft : isUndecodable read path = false := by simpa [htext] using hundecodable
      simp [visitAll, hvisit, hleft, ih hrest]
    · have hleft : isUndecodable read path = true := by simpa [hnone] using hundecodable
      simp [visitAll, hvisit, List.filter_cons, hleft, ih hrest]

theorem wellFormed_of_mem_scanAll {c : Checker} {files : List Source} {report : ScanReport}
    (h : report ∈ (c.scanAll files).1) : report.WellFormed := by
  induction files generalizing c with
  | nil => simp [scanAll] at h
  | cons f files ih =>
    rcases List.mem_cons.mp h with rfl | hrest
    · exact c.wellFormed_scanText f.path f.text
    · exact ih hrest

theorem wellFormed_of_scanFile {c : Checker} {report : ScanReport}
    (h : (c.scanFile read path).1 = .ok report) : report.WellFormed := by
  rcases scanFile_cases read c path with
    ⟨cause, -, hscan⟩ | ⟨bytes, -, -, hscan⟩ | ⟨text, -, hscan⟩
  · simp [hscan] at h
  · simp [hscan] at h
  · obtain rfl : (c.scanText path text).1 = report := by simpa [hscan] using h
    exact c.wellFormed_scanText path text

theorem wellFormed_of_visit {c : Checker} {report : ScanReport}
    (h : (c.visit read path).1.report? = some report) : report.WellFormed := by
  cases hscan : c.scanFile read path with
  | mk outcome after =>
    have houtcome : (c.scanFile read path).1 = outcome := by rw [hscan]
    cases outcome with
    | ok found =>
      obtain rfl : found = report := by simpa [visit, hscan] using h
      exact wellFormed_of_scanFile houtcome
    | error failure => simp [visit, hscan] at h

/-- Each of many visits is made by some checker. -/
theorem exists_visit_of_mem_visitAll {c : Checker} {paths : List Path} {v : Visit}
    (hv : v ∈ (c.visitAll read paths).1) :
    ∃ (c' : Checker) (path : Path), (c'.visit read path).1 = v := by
  induction paths generalizing c with
  | nil => simp [visitAll] at hv
  | cons path paths ih =>
    rcases List.mem_cons.mp hv with rfl | hrest
    · exact ⟨c, path, rfl⟩
    · exact ih hrest

theorem wellFormed_of_mem_visitAll {c : Checker} {paths : List Path} {v : Visit}
    {report : ScanReport} (hv : v ∈ (c.visitAll read paths).1) (h : v.report? = some report) :
    report.WellFormed := by
  obtain ⟨c', path, rfl⟩ := exists_visit_of_mem_visitAll hv
  exact wellFormed_of_visit h

end Checker

/-! ## What visits add up to -/

section Totals

variable {visits : List Visit}

theorem foldl_count (visits : List Visit) (s : Summary) :
    visits.foldl Summary.count s
      = ⟨s.filesScanned + (visits.filterMap Visit.report?).length,
        s.filesSkipped + (visits.filter Visit.isLeftOut).length,
        s.violations + ((visits.filterMap Visit.report?).map ScanReport.violations).sum⟩ := by
  induction visits generalizing s with
  | nil => rfl
  | cons v visits ih =>
    obtain ⟨path, outcome⟩ := v
    rw [List.foldl_cons, ih]
    cases outcome <;>
      simp [Summary.count, Summary.countScanned_eq, Summary.countSkipped_eq, List.filter_cons,
        List.filterMap_cons] <;> omega

/-- A visit finds that a file is not UTF-8 just when it leaves the file out. -/
theorem filter_notUtf8_flatMap
    (h : ∀ v ∈ visits, ∀ report, v.report? = some report → report.WellFormed) :
    (visits.flatMap Visit.findings).filter (Finding.isKind .notUtf8)
      = ((visits.filter Visit.isLeftOut).map Visit.path).map fun p => .notUtf8 p.display := by
  induction visits with
  | nil => rfl
  | cons v visits ih =>
    obtain ⟨hv, hvisits⟩ := List.forall_mem_cons.mp h
    obtain ⟨path, outcome⟩ := v
    rw [List.flatMap_cons, List.filter_append, ih hvisits]
    cases outcome with
    | ok report =>
      have hnone : report.findings.filter (Finding.isKind .notUtf8) = [] := by
        refine List.filter_eq_nil_iff.mpr fun f hf => ?_
        simpa [Finding.isKind] using (hv report rfl).scanned f hf
      simp [Visit.findings, hnone]
    | error failure => simp [Visit.findings, List.filter_cons, Finding.isKind, Finding.kind]

/-- All other findings are those of the reports. -/
theorem filter_scanned_flatMap
    (h : ∀ v ∈ visits, ∀ report, v.report? = some report → report.WellFormed) :
    (visits.flatMap Visit.findings).filter (fun f => !f.isKind .notUtf8)
      = (visits.filterMap Visit.report?).flatMap ScanReport.findings := by
  induction visits with
  | nil => rfl
  | cons v visits ih =>
    obtain ⟨hv, hvisits⟩ := List.forall_mem_cons.mp h
    obtain ⟨path, outcome⟩ := v
    rw [List.flatMap_cons, List.filter_append, ih hvisits]
    cases outcome with
    | ok report =>
      have hall : report.findings.filter (fun f => !f.isKind .notUtf8) = report.findings := by
        refine List.filter_eq_self.mpr fun f hf => ?_
        simpa [Finding.isKind] using (hv report rfl).scanned f hf
      simp [Visit.findings, hall]
    | error failure =>
      simp [Visit.findings, Finding.isKind, Finding.kind, List.filterMap_cons]

end Totals

namespace Checker

variable {read : FileReader} {paths : List Path}

/-- The summary of visits counts the sources among the files and adds their reports up. -/
theorem foldl_count_visitAll (h : ∀ path ∈ paths, readFault? read path = none) (c : Checker) :
    (c.visitAll read paths).1.foldl Summary.count .zero
      = ⟨(sourcesAt read paths).length, paths.countP (isUndecodable read),
        ((Scan.reports c.settings c.registry (sourcesAt read paths)).map
          ScanReport.violations).sum⟩ := by
  have hleft := congrArg List.length (map_path_filter_visitAll h c)
  rw [List.length_map] at hleft
  rw [foldl_count, (visitAll_eq h c).1, Scan.length_reports, hleft,
    List.countP_eq_length_filter]
  simp [Summary.zero]

theorem filter_notUtf8_visitAll (h : ∀ path ∈ paths, readFault? read path = none)
    (c : Checker) :
    ((c.visitAll read paths).1.flatMap Visit.findings).filter (Finding.isKind .notUtf8)
      = (paths.filter (isUndecodable read)).map fun p => .notUtf8 p.display := by
  rw [filter_notUtf8_flatMap fun _ hv _ => wellFormed_of_mem_visitAll hv,
    map_path_filter_visitAll h]

theorem filter_scanned_visitAll (h : ∀ path ∈ paths, readFault? read path = none)
    (c : Checker) :
    ((c.visitAll read paths).1.flatMap Visit.findings).filter (fun f => !f.isKind .notUtf8)
      = (Scan.reports c.settings c.registry (sourcesAt read paths)).flatMap
        ScanReport.findings := by
  rw [filter_scanned_flatMap fun _ hv _ => wellFormed_of_mem_visitAll hv, (visitAll_eq h c).1]

/-! ## What a run comes to -/

theorem readable_of_mem_readPart {order : List Path} :
    ∀ path ∈ readPart read order, readFault? read path = none :=
  fun _ => readFault?_of_mem_readPart

/-- The result of a run: its failure, or the sources it has scanned and the files it has left
out. -/
theorem result_checkFiles (read : FileReader) (c : Checker) (paths : List Path) :
    (c.checkFiles read paths).1.result
      = (firstFailure? read (scanOrder paths)).elim
        (.ok ⟨(sourcesAt read (readPart read (scanOrder paths))).length,
          (readPart read (scanOrder paths)).countP (isUndecodable read),
          ((Scan.reports c.settings c.registry
            (sourcesAt read (readPart read (scanOrder paths)))).map ScanReport.violations).sum⟩)
        .error := by
  rw [checkFiles_eq, foldl_count_visitAll readable_of_mem_readPart]

/-- What a run finds in the files that it scans. -/
theorem scanned_checkFiles (read : FileReader) (c : Checker) (paths : List Path) :
    (c.checkFiles read paths).1.findings.filter (fun f => !f.isKind .notUtf8)
      = (Scan.reports c.settings c.registry
        (sourcesAt read (readPart read (scanOrder paths)))).flatMap ScanReport.findings := by
  rw [checkFiles_eq, filter_scanned_visitAll readable_of_mem_readPart]

/-- What a run says of the files that it leaves out. -/
theorem leftOut_checkFiles (read : FileReader) (c : Checker) (paths : List Path) :
    (c.checkFiles read paths).1.findings.filter (Finding.isKind .notUtf8)
      = ((readPart read (scanOrder paths)).filter (isUndecodable read)).map
        fun path => .notUtf8 path.display := by
  rw [checkFiles_eq, filter_notUtf8_visitAll readable_of_mem_readPart]

/-- What a run learns. -/
theorem learned_checkFiles (read : FileReader) (c : Checker) (paths : List Path) :
    (c.checkFiles read paths).2.registry
      = c.registry.learnAll (sourcesAt read (readPart read (scanOrder paths))) := by
  rw [checkFiles_eq, (visitAll_eq readable_of_mem_readPart c).2.1]

end Checker

end IncludeOrder
