import IncludeOrder.FileTree
import IncludeOrder.Proofs.Sources
import Mathlib.Algebra.GroupWithZero.Nat

/-!
# Sessions

What a checker does over several scans, in terms of what its registry learns.  A scan reports the
verdict under the registry it starts with and leaves what that registry learns from the source; a
list of sources is scanned one after the other (`scanAll`).  A run over readable files is such a
list in the order of runs, with its reports added up (`checkFiles_of_serves`), and a call of any
kind on readable files is, to the registry, a list of scans (`registry_perform`).
-/

set_option autoImplicit false

namespace IncludeOrder

namespace Scan

/-- The report on a source under a registry. -/
def report (s : Settings) (r : Registry) (f : Source) : ScanReport :=
  verdict s r f.path.label f.live

/-- The reports on sources scanned in this order, each under what was learned before. -/
def reports (s : Settings) : Registry → List Source → List ScanReport
  | _, [] => []
  | r, f :: rest => report s r f :: reports s (r.learn f) rest

theorem report_congr (s : Settings) {r r' : Registry} {f : Source}
    (h : ∀ header ∈ f.headers, header ∈ r ↔ header ∈ r') : report s r f = report s r' f :=
  verdict_congr s f.path.label h

theorem reports_append (s : Settings) (r : Registry) (files more : List Source) :
    reports s r (files ++ more) = reports s r files ++ reports s (r.learnAll files) more := by
  induction files generalizing r with
  | nil => rfl
  | cons f files ih => simp [reports, ih]

/-- Reports are determined by what is learned before each of the scans. -/
theorem reports_eq_map {s : Settings} {r : Registry} {files : List Source}
    {expected : Source → ScanReport}
    (h : ∀ earlier f later, files = earlier ++ f :: later →
      report s (r.learnAll earlier) f = expected f) :
    reports s r files = files.map expected := by
  induction files generalizing r with
  | nil => rfl
  | cons f files ih =>
    have hfirst : report s r f = expected f := h [] f files rfl
    have hrest : reports s (r.learn f) files = files.map expected :=
      ih fun earlier g later hsplit => h (f :: earlier) g later (congrArg (f :: ·) hsplit)
    rw [reports, hfirst, hrest, List.map_cons]

theorem length_reports (s : Settings) (r : Registry) (files : List Source) :
    (reports s r files).length = files.length := by
  induction files generalizing r with
  | nil => rfl
  | cons f files ih => simp [reports, ih]

end Scan

/-! ## Scans of sources -/

namespace Checker

/-- Scans sources in the order given. -/
def scanAll (c : Checker) : List Source → List ScanReport × Checker
  | [] => ([], c)
  | f :: rest =>
    let (report, c) := c.scanText f.path f.text
    let (reports, c) := c.scanAll rest
    (report :: reports, c)

theorem report_scanText_source (c : Checker) (f : Source) :
    (c.scanText f.path f.text).1 = Scan.report c.settings c.registry f :=
  c.report_scanText f.path f.text

theorem registry_scanText_source (c : Checker) (f : Source) :
    (c.scanText f.path f.text).2.registry = c.registry.learn f := by
  rw [registry_scanText, Scan.registryAfter, Registry.learn, ← Scan.isSome_designated?]
  rfl

theorem settings_scanText_source (c : Checker) (f : Source) :
    (c.scanText f.path f.text).2.settings = c.settings := rfl

/-- The checker with this registry in place of its own. -/
def knowing (c : Checker) (r : Registry) : Checker := { c with registry := r }

/-- A list of scans, as far as its reports and the registry go. -/
theorem scanAll_eq (c : Checker) (files : List Source) :
    (c.scanAll files).1 = Scan.reports c.settings c.registry files
      ∧ (c.scanAll files).2.registry = c.registry.learnAll files
      ∧ (c.scanAll files).2.settings = c.settings := by
  induction files generalizing c with
  | nil => exact ⟨rfl, rfl, rfl⟩
  | cons f files ih =>
    obtain ⟨hreports, hregistry, hsettings⟩ := ih (c.scanText f.path f.text).2
    rw [registry_scanText_source, settings_scanText_source] at hreports
    rw [registry_scanText_source] at hregistry
    refine ⟨?_, hregistry, hsettings⟩
    simp only [scanAll, Scan.reports, hreports, report_scanText_source]

end Checker

/-! ## Runs over readable files -/

/-- The text of a file that can be read and is UTF-8. -/
def readText? (read : FileReader) (path : Path) : Option (List Char) :=
  match read path with
  | .ok bytes => Utf8.decode? bytes
  | .error _ => none

/-- The scan of a file that holds a text is the scan of this text. -/
theorem Checker.scanFile_of_text {read : FileReader} {path : Path} {text : List Char}
    (h : readText? read path = some text) (c : Checker) :
    c.scanFile read path = (.ok (c.scanText path text).1, (c.scanText path text).2) := by
  unfold readText? at h
  cases hread : read path with
  | error cause => simp [hread] at h
  | ok bytes =>
    have hdecode : Utf8.decode? bytes = some text := by simpa [hread] using h
    simp [scanFile_eq, hread, hdecode]

/-- Every one of the sources can be read, is UTF-8, and holds its text. -/
def Serves (read : FileReader) (files : List Source) : Prop :=
  ∀ f ∈ files, readText? read f.path = some f.text

instance (read : FileReader) (files : List Source) : Decidable (Serves read files) :=
  inferInstanceAs (Decidable (∀ f ∈ files, _))

/-- The summary of a run that has scanned every file. -/
def Summary.total (reports : List ScanReport) : Summary :=
  ⟨reports.length, 0, (reports.map ScanReport.violations).sum⟩

/-- The report of a run that has scanned every file. -/
def RunReport.total (reports : List ScanReport) : RunReport :=
  ⟨.ok (.total reports), reports.flatMap ScanReport.findings⟩

theorem map_path_headersFirst (files : List Source) :
    (headersFirst Source.path files).map Source.path = scanOrder (files.map Source.path) := by
  simp [scanOrder, headersFirst, List.filter_map, Function.comp_def]

theorem mem_headersFirst {files : List Source} {f : Source} :
    f ∈ headersFirst Source.path files ↔ f ∈ files :=
  (perm_headersFirst Source.path files).mem_iff

namespace Serves

variable {read : FileReader} {files : List Source}

theorem of_subset {more : List Source} (h : Serves read files) (hsub : ∀ f ∈ more, f ∈ files) :
    Serves read more :=
  fun f hf => h f (hsub f hf)

theorem headersFirst (h : Serves read files) : Serves read (headersFirst Source.path files) :=
  h.of_subset fun _ hf => mem_headersFirst.mp hf

theorem scanFile {f : Source} (h : Serves read files) (hf : f ∈ files) (c : Checker) :
    c.scanFile read f.path
      = (.ok (c.scanText f.path f.text).1, (c.scanText f.path f.text).2) :=
  Checker.scanFile_of_text (h f hf) c

end Serves

namespace Checker

variable {read : FileReader} {files : List Source}

theorem runFrom_of_serves (h : Serves read files) (c : Checker) (summary : Summary)
    (findings : List Finding) :
    c.runFrom read summary findings (files.map Source.path)
      = (⟨.ok ⟨summary.filesScanned + (c.scanAll files).1.length, summary.filesSkipped,
            summary.violations + ((c.scanAll files).1.map ScanReport.violations).sum⟩,
          findings ++ (c.scanAll files).1.flatMap ScanReport.findings⟩,
        (c.scanAll files).2) := by
  induction files generalizing c summary findings with
  | nil => simp [runFrom_nil, scanAll]
  | cons f files ih =>
    have hrest : Serves read files := h.of_subset fun _ hf => List.mem_cons_of_mem _ hf
    simp only [List.map_cons, runFrom_step, h.scanFile List.mem_cons_self c, ih hrest, scanAll,
      Summary.countScanned_eq]
    simp [Nat.add_assoc, Nat.add_comm 1]

/-- A run over readable files scans every one of them, in the order of runs. -/
theorem checkFiles_of_serves (h : Serves read files) (c : Checker) :
    c.checkFiles read (files.map Source.path)
      = (.total (c.scanAll (headersFirst Source.path files)).1,
        (c.scanAll (headersFirst Source.path files)).2) := by
  rw [checkFiles_eq_runFrom, ← map_path_headersFirst, runFrom_of_serves h.headersFirst]
  simp [RunReport.total, Summary.total, Summary.zero]

theorem registry_checkFiles (h : Serves read files) (c : Checker) :
    (c.checkFiles read (files.map Source.path)).2.registry
      = c.registry.learnAll (headersFirst Source.path files) := by
  rw [checkFiles_of_serves h]
  exact (c.scanAll_eq _).2.1

theorem settings_checkFiles (h : Serves read files) (c : Checker) :
    (c.checkFiles read (files.map Source.path)).2.settings = c.settings := by
  rw [checkFiles_of_serves h]
  exact (c.scanAll_eq _).2.2

theorem report_checkFiles (h : Serves read files) (c : Checker) :
    (c.checkFiles read (files.map Source.path)).1
      = .total (Scan.reports c.settings c.registry (headersFirst Source.path files)) := by
  rw [checkFiles_of_serves h, (c.scanAll_eq _).1]

/-! ## Sessions of calls -/

/-- What a checker can be asked to do. -/
inductive Call where
  /-- scan a text as the content of a path -/
  | scanText (path : Path) (text : List Char)
  /-- read a file and scan it -/
  | scanFile (path : Path)
  /-- run over several files -/
  | checkFiles (paths : List Path)
  deriving DecidableEq, Repr, Inhabited

/-- The checker after a call. -/
def perform (read : FileReader) (c : Checker) : Call → Checker
  | .scanText path text => (c.scanText path text).2
  | .scanFile path => (c.scanFile read path).2
  | .checkFiles paths => (c.checkFiles read paths).2

/-- The checker after the calls of a session. -/
def performAll (read : FileReader) (c : Checker) (calls : List Call) : Checker :=
  calls.foldl (perform read) c

/-- The call scans nothing but these sources. -/
def Call.DrawnFrom (files : List Source) : Call → Prop
  | .scanText path text => ⟨path, text⟩ ∈ files
  | .scanFile path => path ∈ files.map Source.path
  | .checkFiles paths => ∀ path ∈ paths, path ∈ files.map Source.path

instance (files : List Source) : DecidablePred (Call.DrawnFrom files)
  | .scanText _ _ => inferInstanceAs (Decidable (_ ∈ files))
  | .scanFile _ => inferInstanceAs (Decidable (_ ∈ files.map Source.path))
  | .checkFiles paths => inferInstanceAs (Decidable (∀ path ∈ paths, path ∈ files.map Source.path))

/-- Paths of sources are the paths of a list of sources. -/
theorem exists_sources_of_paths {paths : List Path}
    (h : ∀ path ∈ paths, path ∈ files.map Source.path) :
    ∃ visited : List Source, visited.map Source.path = paths ∧ ∀ f ∈ visited, f ∈ files := by
  induction paths with
  | nil => exact ⟨[], rfl, by simp⟩
  | cons path paths ih =>
    obtain ⟨f, hf, rfl⟩ := List.mem_map.mp (h path List.mem_cons_self)
    obtain ⟨visited, rfl, hvisited⟩ := ih fun p hp => h p (List.mem_cons_of_mem _ hp)
    exact ⟨f :: visited, rfl, List.forall_mem_cons.mpr ⟨hf, hvisited⟩⟩

/-- A call that scans nothing but readable sources is a list of scans to the registry. -/
theorem registry_perform (h : Serves read files) (c : Checker) {call : Call}
    (hdrawn : call.DrawnFrom files) :
    ∃ visited : List Source, (∀ f ∈ visited, f ∈ files)
      ∧ (c.perform read call).registry = c.registry.learnAll visited := by
  cases call with
  | scanText path text =>
    exact ⟨[⟨path, text⟩], List.forall_mem_singleton.mpr hdrawn,
      c.registry_scanText_source ⟨path, text⟩⟩
  | scanFile path =>
    obtain ⟨f, hf, rfl⟩ := List.mem_map.mp hdrawn
    refine ⟨[f], by simpa using hf, ?_⟩
    rw [perform, h.scanFile hf]
    exact c.registry_scanText_source f
  | checkFiles paths =>
    obtain ⟨visited, rfl, hvisited⟩ := exists_sources_of_paths hdrawn
    refine ⟨headersFirst Source.path visited, fun f hf => hvisited f (mem_headersFirst.mp hf), ?_⟩
    exact registry_checkFiles (h.of_subset hvisited) c

theorem registry_performAll (h : Serves read files) (c : Checker) {calls : List Call}
    (hdrawn : ∀ call ∈ calls, call.DrawnFrom files) :
    ∃ visited : List Source, (∀ f ∈ visited, f ∈ files)
      ∧ (c.performAll read calls).registry = c.registry.learnAll visited := by
  induction calls generalizing c with
  | nil => exact ⟨[], by simp, rfl⟩
  | cons call calls ih =>
    obtain ⟨first, hfirst, hcall⟩ := registry_perform h c (hdrawn call List.mem_cons_self)
    obtain ⟨rest, hrest, hcalls⟩ :=
      ih (c.perform read call) fun other hother => hdrawn other (List.mem_cons_of_mem _ hother)
    refine ⟨first ++ rest, fun f hf => ?_, ?_⟩
    · exact (List.mem_append.mp hf).elim (hfirst f) (hrest f)
    · rw [Registry.learnAll_append, ← hcall, ← hcalls]
      rfl

end Checker

/-! ## Files typed as text -/

/-- A source typed as text. -/
def Source.typed (path text : String) : Source := ⟨.ofString path, text.toList⟩

/-- The tree in which each of these sources stands at its path. -/
def FileTree.ofSources (files : List Source) : FileTree :=
  files.foldl (fun t f => t.put f.path (.file (String.ofList f.text).toUTF8.toList)) .empty

end IncludeOrder
