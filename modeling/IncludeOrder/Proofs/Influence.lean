import IncludeOrder.Proofs.Answers
import Mathlib.Data.List.Basic

/-!
# What settings can influence

Which setting can change what.  The registry depends on the known headers alone, and on them as a
set.  Counts, summaries and failures depend on the marker and the exemptions of related headers
besides, and so do all findings but the constructs, which add the construct markers.  The designated
header is a text that findings carry, and changes nothing else.

Two checkers are run in step: they know the same headers, and what they say about any one source is
alike (`InStep`).  A call takes them to checkers in step again, whatever it is and however it ends,
with answers that are alike, so a whole session does.
-/

set_option autoImplicit false

namespace IncludeOrder

/-! ## Alike up to the designated header -/

/-- The finding with another designated header in its text. -/
def Finding.naming (designated : String) : Finding → Finding
  | outOfOrder path _ line others => outOfOrder path designated line others
  | secondaryFirst path _ header line => secondaryFirst path designated header line
  | constructFirst path line => constructFirst path line
  | notUtf8 path => notUtf8 path

theorem Finding.line_naming (designated : String) (f : Finding) :
    (f.naming designated).line = f.line := by
  cases f <;> rfl

/-- Of the findings to be kept, the second list has those of the first, with another designated
header. -/
def Alike (keep : Finding → Bool) (designated : String) (found found' : List Finding) : Prop :=
  found'.filter keep = (found.filter keep).map (Finding.naming designated)

namespace Alike

variable {keep : Finding → Bool} {designated : String} {found found' more more' : List Finding}

theorem append (h : Alike keep designated found found') (hmore : Alike keep designated more more') :
    Alike keep designated (found ++ more) (found' ++ more') := by
  unfold Alike at h hmore ⊢
  rw [List.filter_append, List.filter_append, List.map_append, h, hmore]

/-- That a file is not UTF-8 is said in the same words under any settings. -/
theorem notUtf8 (path : String) : Alike keep designated [.notUtf8 path] [.notUtf8 path] := by
  unfold Alike
  cases hkeep : keep (.notUtf8 path) <;> simp [hkeep, Finding.naming]

end Alike

namespace Scan

variable {s s' : Settings} {label : Label} {lines : List (List Char × Nat)}

/-! ## Reports under two settings -/

theorem otherLines_congr (h : Related s = Related s') :
    otherLines s' lines = otherLines s lines := by
  simp only [otherLines, h]

theorem secondaryFindings_naming (h : Related s = Related s') :
    secondaryFindings s' label lines
      = (secondaryFindings s label lines).map (Finding.naming s'.designatedHeader) := by
  have hsame : secondaries s' lines = secondaries s lines := by simp only [secondaries, h]
  rw [secondaryFindings, secondaryFindings, hsame, List.map_map]
  rfl

theorem late_naming (others : List Nat) (designated : Option Nat) :
    late s' label others designated
      = (late s label others designated).map (Finding.naming s'.designatedHeader) := by
  cases designated with
  | none => rfl
  | some line => cases others <;> rfl

theorem construct?_congr (h : HoldsConstruct s = HoldsConstruct s') :
    construct? s' label lines = construct? s label lines := by
  simp only [construct?, h]

theorem early_naming (hsecondary : Related s = Related s')
    (hconstruct : HoldsConstruct s = HoldsConstruct s') :
    early s' label lines = (early s label lines).map (Finding.naming s'.designatedHeader) := by
  apply early_map (Finding.line_naming s'.designatedHeader)
  · exact secondaryFindings_naming hsecondary
  · rw [construct?_congr hconstruct, List.map_map]
    rfl

/-- A merge with the second list filtered out is the first list. -/
theorem filter_merge {α : Type} {le : α → α → Bool} {keep : α → Bool} {xs ys : List α}
    (hkept : ∀ x ∈ xs, keep x = true) (hdropped : ∀ y ∈ ys, keep y = false) :
    (xs.merge ys le).filter keep = xs := by
  fun_induction List.merge xs ys le with
  | case1 ys => simpa using hdropped
  | case2 xs => simpa using hkept
  | case3 x xs y ys hle ih =>
    obtain ⟨hx, hxs⟩ := List.forall_mem_cons.mp hkept
    rw [List.filter_cons_of_pos hx, ih hxs hdropped]
  | case4 x xs y ys hle ih =>
    obtain ⟨hy, hys⟩ := List.forall_mem_cons.mp hdropped
    rw [List.filter_cons_of_neg (by simp [hy]), ih hkept hys]

/-- Without a construct, what is found before the designated line are the related headers. -/
theorem filter_early :
    (early s label lines).filter (fun f => !f.isKind .constructFirst)
      = secondaryFindings s label lines := by
  apply filter_merge
  · intro f hf
    simp [Finding.isKind, (mem_secondaryFindings hf).1]
  · intro f hf
    obtain ⟨line, -, rfl⟩ := List.mem_map.mp hf
    rfl

/-- Under both settings every source gets the same count, and findings that are alike. -/
def ReportsAlike (keep : Finding → Bool) (s s' : Settings) : Prop :=
  ∀ r f, (report s' r f).violations = (report s r f).violations
    ∧ Alike keep s'.designatedHeader (report s r f).findings (report s' r f).findings

theorem violations_report_congr (h : Related s = Related s') (r : Registry) (f : Source) :
    (report s' r f).violations = (report s r f).violations := by
  simp only [report, verdict, otherLines_congr h]

/-- Settings that recognise the same related headers differ in constructs only. -/
theorem reportsAlike_of_secondary (h : Related s = Related s') :
    ReportsAlike (fun f => !f.isKind .constructFirst) s s' := by
  intro r f
  refine ⟨violations_report_congr h r f, Alike.append ?_ ?_⟩
  · unfold Alike
    rw [filter_early, filter_early, secondaryFindings_naming h]
  · have hlate : ∀ (t : Settings) others designated,
        (late t f.path.label others designated).filter (fun f => !f.isKind .constructFirst)
          = late t f.path.label others designated := by
      intro t others designated
      apply List.filter_eq_self.mpr
      intro g hg
      obtain ⟨-, line, -, rfl⟩ := mem_late hg
      rfl
    unfold Alike
    rw [hlate, hlate, otherLines_congr h, late_naming]

/-- Settings that recognise the same constructs, too, differ in nothing but the designated
header. -/
theorem reportsAlike_of_secondary_of_construct (hsecondary : Related s = Related s')
    (hconstruct : HoldsConstruct s = HoldsConstruct s') :
    ReportsAlike (fun _ => true) s s' := by
  intro r f
  refine ⟨violations_report_congr hsecondary r f, Alike.append ?_ ?_⟩
  · unfold Alike
    rw [List.filter_true, List.filter_true, early_naming hsecondary hconstruct]
  · unfold Alike
    rw [List.filter_true, List.filter_true, otherLines_congr hsecondary, late_naming]

/-- Sources scanned in turn get the same counts, too. -/
theorem map_violations_reports {keep : Finding → Bool} (h : ReportsAlike keep s s') (r : Registry)
    (files : List Source) :
    (reports s' r files).map ScanReport.violations
      = (reports s r files).map ScanReport.violations := by
  induction files generalizing r with
  | nil => rfl
  | cons f files ih =>
    rw [reports, reports, List.map_cons, List.map_cons, (h r f).1, ih]

/-! ## What recognises a header or a construct -/

/-- Of the exempt headers only the set matters. -/
theorem related_congr (hmarker : s.secondaryMarker = s'.secondaryMarker)
    (hexempt : ∀ path, path ∈ s.secondaryExempt ↔ path ∈ s'.secondaryExempt) :
    Related s = Related s' := by
  funext header
  rw [Related, Related, hmarker, hexempt]

/-- Of the construct markers only the set matters. -/
theorem holdsConstruct_congr
    (hmarkers : ∀ marker, marker ∈ s.constructMarkers ↔ marker ∈ s'.constructMarkers) :
    HoldsConstruct s = HoldsConstruct s' := by
  funext line
  simp only [HoldsConstruct, hmarkers]

end Scan

namespace Checker

/-! ## Two checkers in step -/

/-- The checkers know the same headers and say alike things about any source. -/
structure InStep (keep : Finding → Bool) (c c' : Checker) : Prop where
  registry : c'.registry = c.registry
  reports : Scan.ReportsAlike keep c.settings c'.settings

namespace InStep

variable {keep : Finding → Bool} {c c' : Checker} (h : InStep keep c c')

include h

theorem scanText (path : Path) (text : List Char) :
    (c'.scanText path text).1.violations = (c.scanText path text).1.violations
      ∧ Alike keep c'.settings.designatedHeader (c.scanText path text).1.findings
        (c'.scanText path text).1.findings
      ∧ InStep keep (c.scanText path text).2 (c'.scanText path text).2 := by
  obtain ⟨hviolations, hfindings⟩ := h.reports c.registry ⟨path, text⟩
  rw [c.report_scanText_source ⟨path, text⟩, c'.report_scanText_source ⟨path, text⟩, h.registry]
  refine ⟨hviolations, hfindings, ?_, h.reports⟩
  rw [c.registry_scanText_source ⟨path, text⟩, c'.registry_scanText_source ⟨path, text⟩, h.registry]

/-- Visits scan the same files and leave out the same, and find alike things. -/
theorem visitAll {read : FileReader} {paths : List Path}
    (hread : ∀ path ∈ paths, readFault? read path = none) :
    Alike keep c'.settings.designatedHeader ((c.visitAll read paths).1.flatMap Visit.findings)
      ((c'.visitAll read paths).1.flatMap Visit.findings) := by
  induction paths generalizing c c' with
  | nil => rfl
  | cons path paths ih =>
    obtain ⟨hfirst, hrest⟩ := List.forall_mem_cons.mp hread
    rcases visit_cases hfirst with ⟨text, htext, hvisit⟩ | ⟨hnone, hvisit⟩
    · obtain ⟨-, hfindings, hafter⟩ := h.scanText path text
      simp only [Checker.visitAll, hvisit, List.flatMap_cons]
      exact hfindings.append (ih hafter hrest)
    · have hafter : InStep keep { c with metrics := c.metrics.countDecodeFailure }
          { c' with metrics := c'.metrics.countDecodeFailure } := ⟨h.registry, h.reports⟩
      simp only [Checker.visitAll, hvisit, List.flatMap_cons]
      exact (Alike.notUtf8 path.display).append (ih hafter hrest)

theorem scanFile (read : FileReader) (path : Path) :
    (∃ report report', (c.scanFile read path).1 = .ok report
      ∧ (c'.scanFile read path).1 = .ok report' ∧ report'.violations = report.violations
      ∧ Alike keep c'.settings.designatedHeader report.findings report'.findings)
    ∨ ∃ failure, (c.scanFile read path).1 = .error failure
      ∧ (c'.scanFile read path).1 = .error failure := by
  rcases scanFile_cases read c path with
    ⟨cause, hread, hscan⟩ | ⟨bytes, hread, hbad, hscan⟩ | ⟨text, hread, hscan⟩
  · refine Or.inr ⟨_, congrArg Prod.fst hscan, ?_⟩
    rw [scanFile_of_unreadable hread]
  · have hundecodable := isUndecodable_eq_true_iff.mpr ⟨bytes, hread, hbad⟩
    refine Or.inr ⟨_, congrArg Prod.fst hscan, ?_⟩
    rw [scanFile_of_undecodable hundecodable]
  · have htext := readText?_eq_some_iff.mpr hread
    obtain ⟨hviolations, hfindings, -⟩ := h.scanText path text
    refine Or.inl ⟨_, _, congrArg Prod.fst hscan, ?_, hviolations, hfindings⟩
    rw [scanFile_of_text htext]

/-- Runs end alike, with the same summary or the same failure. -/
theorem checkFiles (read : FileReader) (paths : List Path) :
    (c'.checkFiles read paths).1.result = (c.checkFiles read paths).1.result
      ∧ Alike keep c'.settings.designatedHeader (c.checkFiles read paths).1.findings
        (c'.checkFiles read paths).1.findings := by
  constructor
  · rw [result_checkFiles, result_checkFiles, h.registry, Scan.map_violations_reports h.reports]
  · rw [checkFiles_eq, checkFiles_eq]
    exact h.visitAll readable_of_mem_readPart

theorem answer (q : Request) :
    (c'.answer q).outcome = (c.answer q).outcome
      ∧ Alike keep c'.settings.designatedHeader (c.answer q).findings (c'.answer q).findings := by
  obtain ⟨read, call⟩ := q
  cases call with
  | scanText path text =>
    obtain ⟨hviolations, hfindings, -⟩ := h.scanText path text
    exact ⟨congrArg (fun n => Outcome.scan (.ok n)) hviolations, hfindings⟩
  | scanFile path =>
    rcases h.scanFile read path with
      ⟨report, report', hscan, hscan', hviolations, hfindings⟩ | ⟨failure, hscan, hscan'⟩
    · simp only [Checker.answer, hscan, hscan', hviolations]
      exact ⟨trivial, hfindings⟩
    · simp only [Checker.answer, hscan, hscan']
      exact ⟨trivial, rfl⟩
  | checkFiles paths =>
    obtain ⟨hresult, hfindings⟩ := h.checkFiles read paths
    exact ⟨congrArg Outcome.run hresult, hfindings⟩

theorem perform (q : Request) :
    InStep keep (c.perform q.read q.call) (c'.perform q.read q.call) where
  registry := by
    rw [registry_perform_request, registry_perform_request, h.registry]
  reports := by
    rw [settings_perform_request, settings_perform_request]
    exact h.reports

/-- Sessions are answered alike. -/
theorem serve (requests : List Request) :
    (c'.serve requests).1.map Answer.outcome = (c.serve requests).1.map Answer.outcome
      ∧ (c'.serve requests).1.map (fun a => a.findings.filter keep)
        = (c.serve requests).1.map fun a =>
          (a.findings.filter keep).map (Finding.naming c'.settings.designatedHeader) := by
  induction requests generalizing c c' with
  | nil => exact ⟨rfl, rfl⟩
  | cons q rest ih =>
    obtain ⟨houtcome, hfindings⟩ := h.answer q
    obtain ⟨houtcomes, hall⟩ := ih (h.perform q)
    rw [settings_perform_request] at hall
    rw [serve_cons, serve_cons]
    simp only [List.map_cons, houtcome, houtcomes, hall]
    exact ⟨trivial, congrArg (· :: _) hfindings⟩

end InStep

/-- **What settings can influence.**  Under settings that know the same set of headers a session
registers the same, whatever the rest of them says.  If they recognise related headers alike, too,
every call comes to the same count, summary or failure, and finds the same but for constructs and
for the designated header in the text; and the constructs are the same if the set of their markers
is. -/
theorem influence_of_settings {s s' : Settings} {c c' : Checker} (h : start s = .ok c)
    (h' : start s' = .ok c') (hknown : ∀ name, name ∈ s.knownHeaders ↔ name ∈ s'.knownHeaders)
    (requests : List Request) :
    (∀ n, (c'.serve (requests.take n)).2.registry = (c.serve (requests.take n)).2.registry)
    ∧ (s.secondaryMarker = s'.secondaryMarker →
      (∀ path, path ∈ s.secondaryExempt ↔ path ∈ s'.secondaryExempt) →
      (c'.serve requests).1.map Answer.outcome = (c.serve requests).1.map Answer.outcome
      ∧ (c'.serve requests).1.map
          (fun a => a.findings.filter fun f => !f.isKind .constructFirst)
        = (c.serve requests).1.map (fun a =>
          (a.findings.filter fun f => !f.isKind .constructFirst).map
            (Finding.naming s'.designatedHeader))
      ∧ ((∀ marker, marker ∈ s.constructMarkers ↔ marker ∈ s'.constructMarkers) →
        (c'.serve requests).1.map Answer.findings
          = (c.serve requests).1.map fun a =>
            a.findings.map (Finding.naming s'.designatedHeader))) := by
  obtain ⟨valid, hc⟩ := start_eq_ok_iff.mp h
  obtain ⟨valid', hc'⟩ := start_eq_ok_iff.mp h'
  have hregistry : c'.registry = c.registry := by
    rw [hc, hc']
    apply Registry.ext
    intro name
    rw [Registry.mem_ofList, Registry.mem_ofList, hknown]
  have hdesignated : c'.settings.designatedHeader = s'.designatedHeader := by rw [hc']
  have hstep : ∀ keep, Scan.ReportsAlike keep s s' → InStep keep c c' := by
    intro keep hreports
    refine ⟨hregistry, ?_⟩
    rw [hc, hc']
    exact hreports
  refine ⟨?_, ?_⟩
  · intro n
    rw [registry_serve, registry_serve, hregistry]
  · intro hmarker hexempt
    have hsecondary := Scan.related_congr hmarker hexempt
    obtain ⟨houtcomes, hfindings⟩ :=
      (hstep _ (Scan.reportsAlike_of_secondary hsecondary)).serve requests
    rw [hdesignated] at hfindings
    refine ⟨houtcomes, hfindings, ?_⟩
    intro hmarkers
    have hconstruct := Scan.holdsConstruct_congr hmarkers
    have hall := ((hstep _ (Scan.reportsAlike_of_secondary_of_construct hsecondary
      hconstruct)).serve requests).2
    rw [hdesignated] at hall
    simpa only [List.filter_true] using hall

/-- The same known headers, exemptions and markers in other orders and numbers, and another header
designated: a run that stops at a missing file, and then a scan. -/
theorem influence_of_settings_relabelled :
    let s := Settings.standard
    let s' := { s with
      designatedHeader := "ni_support.h"
      knownHeaders := s.knownHeaders.reverse ++ ["Python.h"]
      secondaryExempt := s.secondaryExempt ++ s.secondaryExempt
      constructMarkers := s.constructMarkers.reverse }
    let disorder := Source.typed "a.c" "npy_intp n;\n#include <stdio.h>\n#include <Python.h>\n"
    let read := (FileTree.ofSources [disorder]).read
    let requests : List Request :=
      [⟨read, .checkFiles (["a.c", "m.c"].map Path.ofString)⟩,
        ⟨read, .scanText (.ofString "b.c") "#include <numpy/x.h>\n#include \"a.c\"\n".toList⟩]
    ∃ c c', start s = .ok c ∧ start s' = .ok c'
      ∧ (c'.serve requests).2.registry = (c.serve requests).2.registry
      ∧ (c'.serve requests).1.map Answer.outcome
        = [.run (.error (.unreadable "m.c" .missing)), .scan (.ok 0)]
      ∧ (c'.serve requests).1.map Answer.findings
        = [[.constructFirst "a.c" 1, .outOfOrder "a.c" "ni_support.h" 3 [2]],
          [.secondaryFirst "b.c" "ni_support.h" "numpy/x.h" 1]] := by
  intro s s' disorder read requests
  have valid' : s'.Valid := by decide +kernel
  have hstart : start s = .ok Checker.standard := start_eq_ok_iff.mpr ⟨Settings.standard_valid, rfl⟩
  have hstart' : start s' = .ok ⟨s', valid', .ofList s'.knownHeaders,
      Metrics.zero.announceSize (Registry.ofList s'.knownHeaders).size⟩ :=
    start_eq_ok_iff.mpr ⟨valid', rfl⟩
  have hknown : ∀ name, name ∈ s.knownHeaders ↔ name ∈ s'.knownHeaders := by
    intro name
    have hdesignated : "Python.h" ∈ s.knownHeaders := by decide
    simp only [s', List.mem_append, List.mem_reverse, List.mem_singleton]
    exact ⟨Or.inl, fun hname => hname.elim id fun heq => heq ▸ hdesignated⟩
  obtain ⟨hregistry, hrest⟩ := influence_of_settings hstart hstart' hknown requests
  obtain ⟨houtcomes, -, hfindings⟩ := hrest rfl (by simp [s'])
  refine ⟨_, _, hstart, hstart', hregistry 2, ?_, ?_⟩
  · rw [houtcomes]
    decide +kernel
  · rw [hfindings (by simp [s'])]
    decide +kernel

end Checker

end IncludeOrder
