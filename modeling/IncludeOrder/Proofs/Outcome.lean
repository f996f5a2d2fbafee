import IncludeOrder.Command
import IncludeOrder.Proofs.Counts

/-!
# The outcome of the command

What the command writes, and how it ends, once its arguments name files.  The files before the first
one that cannot be read are a text on each of the two streams: a line for each that is not UTF-8 on
the one, and the findings of all others on the other.  A file that cannot be read adds the last line
and settles the exit status, which is otherwise the number of violations up to a bound.

Each stream takes its text by itself.  When one is broken, the other one and the result are as
before.
-/

set_option autoImplicit false

namespace IncludeOrder

/-! ## Findings on the console -/

/-- The text of findings, a line break after each. -/
def transcript (findings : List Finding) : String :=
  String.join (findings.map fun f => f.message ++ "\n")

@[simp] theorem transcript_nil : transcript [] = "" := rfl

@[simp] theorem transcript_cons (f : Finding) (findings : List Finding) :
    transcript (f :: findings) = f.message ++ "\n" ++ transcript findings :=
  String.join_cons

theorem Console.present_of_notUtf8 {f : Finding} (h : f.isKind .notUtf8 = true) (c : Console) :
    c.present f = ⟨c.out.write (f.message ++ "\n"), c.err⟩ := by
  have hchannel : f.channel = .out := f.channel_eq_out_iff.mpr (Finding.isKind_eq_true_iff.mp h)
  rw [present, writeLine, hchannel, write]

theorem Console.present_of_scanned {f : Finding} (h : f.isKind .notUtf8 = false) (c : Console) :
    c.present f = ⟨c.out, c.err.write (f.message ++ "\n")⟩ := by
  cases f <;> first | rfl | simp [Finding.isKind, Finding.kind] at h

/-- Each stream takes the findings that are for it, in order. -/
theorem Console.presentAll_eq (c : Console) (findings : List Finding) :
    c.presentAll findings
      = ⟨c.out.write (transcript (findings.filter (Finding.isKind .notUtf8))),
        c.err.write (transcript (findings.filter fun f => !f.isKind .notUtf8))⟩ := by
  induction findings generalizing c with
  | nil => simp [Stream.write_empty]
  | cons f findings ih =>
    have hcons : c.presentAll (f :: findings) = (c.present f).presentAll findings := rfl
    cases hkind : f.isKind .notUtf8 with
    | true =>
      rw [hcons, ih, present_of_notUtf8 hkind]
      simp [hkind, Stream.write_write]
    | false =>
      rw [hcons, ih, present_of_scanned hkind]
      simp [hkind, Stream.write_write]

namespace Command

variable {read : FileReader} {files : List Path}

/-! ## The check -/

/-- The exit status of a result. -/
def statusOf : Except Abort Summary → Nat
  | .ok summary => summary.exitStatus
  | .error abort => abort.exitStatus

theorem status_runCheck (read : FileReader) (files : List Path) (console : Console) :
    (runCheck read files console).status = statusOf (check read files console).1 := by
  unfold runCheck
  split <;> rename_i h <;> simp [h, statusOf]

/-- The standard settings are valid, so there is a checker for them. -/
theorem start_standard : Checker.start .standard = .ok Checker.standard := by
  unfold Checker.start
  split
  · rename_i fault hfault
    simp [show Settings.standard.fault? = none from Settings.standard_valid] at hfault
  · rfl

theorem check_eq (read : FileReader) (files : List Path) (console : Console) :
    check read files console
      = ((Checker.standard.checkFiles read files).1.result.mapError Abort.check,
        console.presentAll (Checker.standard.checkFiles read files).1.findings) := by
  simp only [check, start_standard]
  cases (Checker.standard.checkFiles read files).1.result <;> rfl

/-- The reports on the files at these paths that hold a text, scanned one after the other. -/
def reportsAt (read : FileReader) (paths : List Path) : List ScanReport :=
  (Checker.standard.scanAll (sourcesAt read paths)).1

theorem reportsAt_eq (read : FileReader) (paths : List Path) :
    reportsAt read paths = Scan.reports Checker.standard.settings Checker.standard.registry
      (sourcesAt read paths) :=
  (Checker.standard.scanAll_eq _).1

/-- Findings ascend in each of the reports. -/
theorem ascending_reportsAt {paths : List Path} {report : ScanReport}
    (h : report ∈ reportsAt read paths) :
    report.findings.Pairwise fun f g => f.line < g.line :=
  (Checker.wellFormed_of_mem_scanAll h).ascending

/-- The text on each of the streams after a check. -/
theorem console_check (read : FileReader) (files : List Path) (console : Console) :
    (check read files console).2
      = ⟨console.out.write (transcript
            (((readPart read (scanOrder files)).filter (isUndecodable read)).map
              fun path => .notUtf8 path.display)),
          console.err.write (transcript
            ((reportsAt read (readPart read (scanOrder files))).flatMap ScanReport.findings))⟩ := by
  rw [check_eq, Console.presentAll_eq, Checker.leftOut_checkFiles, Checker.scanned_checkFiles,
    reportsAt_eq]

/-- The result of a check does not depend on the console. -/
theorem result_check (read : FileReader) (files : List Path) (console : Console) :
    (check read files console).1
      = (firstFailure? read (scanOrder files)).elim
        (.ok ⟨(sourcesAt read (readPart read (scanOrder files))).length,
          (readPart read (scanOrder files)).countP (isUndecodable read),
          ((reportsAt read (readPart read (scanOrder files))).map ScanReport.violations).sum⟩)
        fun failure => .error (.check failure) := by
  rw [check_eq, Checker.result_checkFiles, reportsAt_eq]
  cases firstFailure? read (scanOrder files) <;> rfl

/-! ## The command -/

theorem run_of_check {arguments : List (List UInt8)}
    (h : readArguments arguments = .ok (.check files)) (read : FileReader) (console : Console) :
    run read arguments console = runCheck read files console := by
  simp only [run, h]

theorem runCheck_of_readable (h : firstFailure? read (scanOrder files) = none) (console : Console) :
    (runCheck read files console).console = (check read files console).2 := by
  unfold runCheck
  split
  · rename_i hcheck
    rw [hcheck]
  · rename_i abort _ hcheck
    have hresult := result_check read files console
    simp [h, hcheck] at hresult

theorem runCheck_of_failure {failure : Failure}
    (h : firstFailure? read (scanOrder files) = some failure) (console : Console) :
    (runCheck read files console).console
      = (check read files console).2.writeLine .err ("error: " ++ failure.message) := by
  have hresult := result_check read files console
  unfold runCheck
  split
  · rename_i hcheck
    simp [h, hcheck] at hresult
  · rename_i abort _ hcheck
    obtain rfl : abort = .check failure := by simpa [h, hcheck] using hresult
    rw [hcheck]
    rfl

/-- The command exits with zero if every file can be read and nothing is out of order. -/
theorem status_eq_zero_iff (read : FileReader) (files : List Path) (console : Console) :
    (runCheck read files console).status = 0
      ↔ (∀ path ∈ files, ∃ bytes, read path = .ok bytes)
        ∧ ∀ f ∈ (Checker.standard.checkFiles read files).1.findings, f.kind ≠ .outOfOrder := by
  rw [status_runCheck, check_eq]
  cases hresult : (Checker.standard.checkFiles read files).1.result with
  | ok summary =>
    have hreadable := Checker.readable_of_ok hresult
    simp only [readFault?_eq_none_iff] at hreadable
    rw [and_iff_right hreadable, ← Checker.isClean_iff hresult]
    exact summary.exitStatus_eq_zero_iff
  | error failure =>
    obtain ⟨path, cause, hpath, hread, rfl⟩ := Checker.exists_unreadable_of_error hresult
    refine iff_of_false (by simp [Except.mapError, statusOf, Abort.exitStatus]) fun h => ?_
    obtain ⟨bytes, hbytes⟩ := h.1 path hpath
    simp [hread] at hbytes

theorem line_notUtf8 (path : String) :
    (Finding.notUtf8 path).message ++ "\n" = "File " ++ path ++ " not utf-8\n" := by
  -- the message is not unfolded here: its literals would be compared as computations
  have hfull : " not utf-8" ++ "\n" = " not utf-8\n" := by simp
  simp only [Finding.message_notUtf8, String.append_assoc, hfull]

theorem line_unreadable (path : String) (cause : ReadFault) :
    "error: " ++ (Failure.unreadable path cause).message
      = "error: io error: " ++ path ++ ": " ++ cause.message := by
  have hfull : "error: " ++ "io error: " = "error: io error: " := by simp
  simp only [Failure.message_unreadable, ← String.append_assoc, hfull]

theorem transcript_notUtf8 (paths : List Path) :
    transcript (paths.map fun path => .notUtf8 path.display)
      = String.join (paths.map fun path => "File " ++ path.display ++ " not utf-8\n") := by
  rw [transcript, List.map_map]
  exact congrArg String.join (List.map_congr_left fun path _ => line_notUtf8 path.display)

/-- What the command writes of files that are not UTF-8. -/
theorem out_runCheck (read : FileReader) (files : List Path) :
    (runCheck read files .fresh).console.out.written
      = String.join (((readPart read (scanOrder files)).filter (isUndecodable read)).map
        fun path => "File " ++ path.display ++ " not utf-8\n") := by
  cases hfirst : firstFailure? read (scanOrder files) with
  | none =>
    rw [runCheck_of_readable hfirst, console_check, transcript_notUtf8]
    simp [Console.fresh]
  | some failure =>
    rw [runCheck_of_failure hfirst, console_check, transcript_notUtf8]
    simp [Console.fresh, Console.writeLine, Console.write]

/-- A check gives up only because a file cannot be read. -/
theorem exists_unreadable_of_abort {console : Console} {abort : Abort}
    (h : (check read files console).1 = .error abort) :
    ∃ path cause, path ∈ files ∧ read path = .error cause
      ∧ abort = .check (.unreadable path.display cause) := by
  rw [check_eq] at h
  cases hresult : (Checker.standard.checkFiles read files).1.result with
  | ok summary => simp [hresult, Except.mapError] at h
  | error failure =>
    obtain ⟨path, cause, hpath, hread, rfl⟩ := Checker.exists_unreadable_of_error hresult
    refine ⟨path, cause, hpath, hread, ?_⟩
    simpa [hresult, Except.mapError, eq_comm] using h

/-- **The outcome of the command.**  Once its arguments name files, the command scans them in the
order of runs as far as they can be read.  One stream takes a line for each file that is not UTF-8,
the other one the findings of all others, in order.  If that is all, the exit status is the number
of violations up to 255; otherwise the first file that cannot be read adds its failure as the last
line and the status is 10.  No other failure ends a check, and zero means that everything could be
read and nothing is out of order.  A stream that is broken changes neither the result nor what the
other one takes. -/
theorem run_outcome {arguments : List (List UInt8)}
    (h : readArguments arguments = .ok (.check files)) (read : FileReader) :
    (∃ before after, scanOrder files = before ++ after
      ∧ (∀ path ∈ before, ∃ bytes, read path = .ok bytes)
      ∧ (run read arguments .fresh).console.out.written
        = String.join ((before.filter (isUndecodable read)).map fun path =>
          "File " ++ path.display ++ " not utf-8\n")
      ∧ (∀ report ∈ reportsAt read before, report.findings.Pairwise fun f g => f.line < g.line)
      ∧ let complaints := String.join
          (((reportsAt read before).flatMap ScanReport.findings).map fun f => f.message ++ "\n")
        (after = [] ∧ (run read arguments .fresh).console.err.written = complaints
          ∧ (run read arguments .fresh).status
            = min ((reportsAt read before).map ScanReport.violations).sum 255)
        ∨ ∃ path rest cause, after = path :: rest ∧ read path = .error cause
          ∧ (run read arguments .fresh).console.err.written
            = complaints
              ++ ("error: io error: " ++ path.display ++ ": " ++ cause.message ++ "\n")
          ∧ (run read arguments .fresh).status = 10)
    ∧ (∀ console abort, (check read files console).1 = .error abort →
      ∃ path cause, path ∈ files ∧ read path = .error cause
        ∧ abort = .check (.unreadable path.display cause))
    ∧ ((run read arguments .fresh).status = 0
      ↔ (∀ path ∈ files, ∃ bytes, read path = .ok bytes)
        ∧ ∀ f ∈ (Checker.standard.checkFiles read files).1.findings, f.kind ≠ .outOfOrder)
    ∧ ∀ console,
      (check read files console).1 = (check read files .fresh).1
      ∧ statusOf (check read files console).1 = (run read arguments .fresh).status
      ∧ (check read files console).2
        = ⟨console.out.write (check read files .fresh).2.out.written,
          console.err.write (check read files .fresh).2.err.written⟩ := by
  rw [run_of_check h]
  refine ⟨?_, fun _ _ => exists_unreadable_of_abort, status_eq_zero_iff read files .fresh,
    fun console => ⟨?_, ?_, ?_⟩⟩
  · have hreadable : ∀ path ∈ readPart read (scanOrder files), ∃ bytes, read path = .ok bytes :=
      fun path hpath => readFault?_eq_none_iff.mp (readFault?_of_mem_readPart hpath)
    cases hfirst : firstFailure? read (scanOrder files) with
    | none =>
      have hpart := readPart_of_readable (firstFailure?_eq_none_iff.mp hfirst)
      refine ⟨readPart read (scanOrder files), [], by rw [hpart, List.append_nil], hreadable,
        out_runCheck read files, fun _ => ascending_reportsAt, Or.inl ⟨rfl, ?_, ?_⟩⟩
      · rw [runCheck_of_readable hfirst, console_check]
        simp [Console.fresh, transcript]
      · rw [status_runCheck, result_check, hfirst]
        exact Summary.exitStatus_eq_min _
    | some failure =>
      obtain ⟨path, cause, rest, hsplit, hread, rfl⟩ := exists_split_of_firstFailure? hfirst
      refine ⟨readPart read (scanOrder files), path :: rest, hsplit, hreadable,
        out_runCheck read files, fun _ => ascending_reportsAt,
        Or.inr ⟨path, rest, cause, rfl, hread, ?_, ?_⟩⟩
      · rw [runCheck_of_failure hfirst, console_check, line_unreadable]
        simp [Console.fresh, transcript, Console.writeLine, Console.write, Stream.write_write]
      · rw [status_runCheck, result_check, hfirst]
        rfl
  · rw [result_check, result_check]
  · rw [status_runCheck, result_check, result_check]
  · rw [console_check, console_check]
    simp [Console.fresh]

/-- A file in disorder, one that is not UTF-8 and one that is missing, with both streams in order
and with the one for errors broken. -/
theorem run_outcome_mixed :
    let disorder := Source.typed "a.c" "#include <stdio.h>\n#include <Python.h>\n"
    let read := ((FileTree.ofSources [disorder]).put (.ofString "b.c") (.file [0xFF])).read
    let arguments := ["--", "b.c", "a.c", "m.c"].map fun argument => argument.toUTF8.toList
    let files := ["b.c", "a.c", "m.c"].map Path.ofString
    let outcome := run read arguments .fresh
    readArguments arguments = .ok (.check files)
      ∧ outcome.status = 10
      ∧ outcome.console.out.written = "File b.c not utf-8\n"
      ∧ outcome.console.err.written
        = "Header before Python.h in file a.c\n"
          ++ "Python.h on line 2, other header(s) on line(s) [1]\n"
          ++ "error: io error: m.c: No such file or directory (os error 2)\n"
      ∧ (∃ path ∈ files, ∃ cause, (check read files .fresh).1
        = .error (.check (.unreadable path.display cause)))
      ∧ statusOf (check read files ⟨.fresh, .unusable⟩).1 = outcome.status
      ∧ (check read files ⟨.fresh, .unusable⟩).2
        = ⟨⟨"File b.c not utf-8\n", false⟩, .unusable⟩ := by
  intro disorder read arguments files outcome
  have hargs : readArguments arguments = .ok (.check files) := by decide +kernel
  obtain ⟨-, haborts, -, hconsoles⟩ := run_outcome hargs read
  have hresult : (check read files .fresh).1
      = .error (.check (.unreadable "m.c" .missing)) := by
    decide +kernel
  obtain ⟨path, cause, hpath, -, hcause⟩ := haborts .fresh _ hresult
  obtain ⟨-, hstatus, hstreams⟩ := hconsoles ⟨.fresh, .unusable⟩
  refine ⟨hargs, by decide +kernel, by decide +kernel, by decide +kernel,
    ⟨path, hpath, cause, hresult.trans (congrArg Except.error hcause)⟩, hstatus, ?_⟩
  rw [hstreams]
  decide +kernel

end Command

end IncludeOrder
