import IncludeOrder.Failure
import IncludeOrder.Scan
import IncludeOrder.ScanOrder
import IncludeOrder.Summary

/-!
# Checkers

A checker holds valid settings and what it has learned: the registry, which the files of a run
share, and the metrics.  It scans a text, a file, or the files of a run.  Every operation returns
its report together with the checker afterwards.

Files are read through a function from paths to bytes or a cause.  In a run the probable headers
come first, so that what they register is known when the sources are scanned.  A run leaves out
files that are not UTF-8 and stops at the first file that cannot be read; what it has found and
learned before is kept.

Scans number lines and runs add counts up, by any addition (`checkFilesWith` and the operations it
is made of).  Under their plain names they add exactly; the equations for these say what they do.
-/

set_option autoImplicit false

namespace IncludeOrder

/-- A source of files. -/
abbrev FileReader := Path → Except ReadFault (List UInt8)

/-- Valid settings, and what has been learned under them. -/
structure Checker where
  settings : Settings
  valid : settings.Valid
  registry : Registry
  metrics : Metrics

/-- What the scan of one file comes to. -/
structure ScanReport where
  violations : Nat
  /-- in order -/
  findings : List Finding
  deriving DecidableEq, Repr, Inhabited

/-- What a run comes to: a summary, or the failure that ended it, and all that was found. -/
structure RunReport where
  result : Except Failure Summary
  /-- in order, also those before a failure -/
  findings : List Finding

namespace Checker

/-- A checker that knows the headers of its settings. -/
def start (s : Settings) : Except Settings.Fault Checker :=
  match h : s.fault? with
  | some fault => .error fault
  | none =>
    let registry := Registry.ofList s.knownHeaders
    .ok ⟨s, h, registry, Metrics.zero.announceSize registry.size⟩

/-- A checker under the standard settings that has not scanned anything. -/
def standard : Checker where
  settings := .standard
  valid := Settings.standard_valid
  registry := .ofList Settings.standard.knownHeaders
  metrics := Metrics.zero.announceSize (Registry.ofList Settings.standard.knownHeaders).size

/-- The report of a scan that ended in this state, and the checker afterwards. -/
def conclude (c : Checker) (st : Scan.State) : ScanReport × Checker :=
  (⟨st.violations, st.findings⟩,
    { c with
      registry := st.registry
      metrics := (st.events.foldl Metrics.record c.metrics).countScan st.violations })

/-! ## Scans and runs with a given addition -/

section Addition

variable {m : Type → Type} [Monad m] (add : Addition m)

/-- Scans a text as the content of the file `path`, which need not exist. -/
def scanTextWith (c : Checker) (path : Path) (text : List Char) : m (ScanReport × Checker) := do
  let st ← Scan.runWith add c.settings c.registry path.label text
  return c.conclude st

/-- Reads a file and scans it. Nothing changes if that fails. -/
def scanFileWith (read : FileReader) (c : Checker) (path : Path) :
    m (Except Failure ScanReport × Checker) :=
  match read path with
  | .error cause => return (.error (.unreadable path.display cause), c)
  | .ok bytes =>
    match Utf8.decode? bytes with
    | none => return (.error (.undecodable path.display), c)
    | some text => do
      let (report, c) ← c.scanTextWith add path text
      return (.ok report, c)

/-- Scans files in the order given, after a part of the run that came to `summary` and
`findings`. -/
def runFromWith (read : FileReader) (c : Checker) (summary : Summary) (findings : List Finding) :
    List Path → m (RunReport × Checker)
  | [] => return (⟨.ok summary, findings⟩, c)
  | path :: rest => do
    match ← c.scanFileWith add read path with
    | (.ok report, c) =>
      let summary ← summary.countScannedWith add report.violations
      c.runFromWith read summary (findings ++ report.findings) rest
    | (.error failure, c) =>
      if failure.isRecoverable then
        let c := { c with metrics := c.metrics.countDecodeFailure }
        let summary ← summary.countSkippedWith add
        c.runFromWith read summary (findings ++ [.notUtf8 path.display]) rest
      else return (⟨.error failure, findings⟩, c)

/-- Scans the files of a run, probable headers first. -/
def checkFilesWith (read : FileReader) (c : Checker) (paths : List Path) :
    m (RunReport × Checker) :=
  c.runFromWith add read .zero [] (scanOrder paths)

end Addition

/-! ## Scans and runs in numbers -/

/-- Scans a text with exact numbers. -/
def scanText (c : Checker) (path : Path) (text : List Char) : ScanReport × Checker :=
  (c.scanTextWith .exactly path text).run

/-- Reads a file and scans it with exact numbers. -/
def scanFile (read : FileReader) (c : Checker) (path : Path) :
    Except Failure ScanReport × Checker :=
  (c.scanFileWith .exactly read path).run

/-- Scans files in the order given with exact counts, after a part of the run. -/
def runFrom (read : FileReader) (c : Checker) (summary : Summary) (findings : List Finding)
    (order : List Path) : RunReport × Checker :=
  (c.runFromWith .exactly read summary findings order).run

/-- Scans the files of a run with exact counts. -/
def checkFiles (read : FileReader) (c : Checker) (paths : List Path) : RunReport × Checker :=
  (c.checkFilesWith .exactly read paths).run

theorem scanText_eq (c : Checker) (path : Path) (text : List Char) :
    c.scanText path text = c.conclude (Scan.run c.settings c.registry path.label text) := rfl

section Equations

variable (read : FileReader) (c : Checker)

theorem scanFile_eq (path : Path) :
    c.scanFile read path = match read path with
      | .error cause => (.error (.unreadable path.display cause), c)
      | .ok bytes => match Utf8.decode? bytes with
        | none => (.error (.undecodable path.display), c)
        | some text => (.ok (c.scanText path text).1, (c.scanText path text).2) := by
  unfold scanFile scanFileWith
  cases read path with
  | error cause => rfl
  | ok bytes => cases hdecode : Utf8.decode? bytes <;> simp only [hdecode] <;> rfl

theorem runFrom_nil (summary : Summary) (findings : List Finding) :
    c.runFrom read summary findings [] = (⟨.ok summary, findings⟩, c) := rfl

theorem runFrom_step (summary : Summary) (findings : List Finding) (path : Path)
    (rest : List Path) :
    c.runFrom read summary findings (path :: rest) = match c.scanFile read path with
      | (.ok report, c) =>
        c.runFrom read (summary.countScanned report.violations) (findings ++ report.findings) rest
      | (.error failure, c) =>
        if failure.isRecoverable then
          ({ c with metrics := c.metrics.countDecodeFailure } : Checker).runFrom read
            summary.countSkipped (findings ++ [.notUtf8 path.display]) rest
        else (⟨.error failure, findings⟩, c) := by
  rw [runFrom, runFromWith, Id.run_bind, ← scanFile]
  rcases c.scanFile read path with ⟨outcome, after⟩
  cases outcome with
  | ok report => rfl
  | error failure => cases h : failure.isRecoverable <;> simp only [h] <;> rfl

theorem checkFiles_eq_runFrom (paths : List Path) :
    c.checkFiles read paths = c.runFrom read .zero [] (scanOrder paths) := rfl

end Equations

end Checker

end IncludeOrder
