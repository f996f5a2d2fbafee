import IncludeOrder.Proofs.Findings
import IncludeOrder.Proofs.Sessions

/-!
# Larger registries

What a file gains when more headers are registered before it is scanned.  The designated line can
only move up, so that fewer lines precede it: the lines before it under the larger registry are a
prefix of those under the smaller one (`prefix_preceding`), and everything a scan finds is read off
these lines.  Related headers and constructs are therefore never found anew.

Headers out of order are another matter, since they count only in a file that has a designated
line.  As long as there is one under the smaller registry, the count can only fall; a file that
gets its first designated line from the larger registry may be found out of order for the first
time.
-/

set_option autoImplicit false

namespace IncludeOrder

namespace ScanReport

/-- The related headers and the construct that a report finds. -/
def warnings (report : ScanReport) : List Finding :=
  report.findings.filter fun f => f.isKind .secondaryFirst || f.isKind .constructFirst

/-- The lines of the headers that a report finds out of order. -/
def others (report : ScanReport) : List Nat := report.findings.flatMap Finding.others

end ScanReport

/-! ## The lines before the designated one -/

namespace Scan

variable {s : Settings} {r r' : Registry} {label : Label}
  {lines lines' live : List (List Char × Nat)}

section Larger

variable (hsub : ∀ name, name ∈ r → name ∈ r')

include hsub

/-- A line that names no header of the larger registry names none of the smaller one. -/
theorem not_designates_of_larger {numbered : List Char × Nat}
    (h : designates r' numbered = false) : designates r numbered = false := by
  rw [Bool.eq_false_iff] at h ⊢
  intro hknown
  obtain ⟨header, hheader, hmem⟩ := designates_eq_true_iff.mp hknown
  exact h (designates_eq_true_iff.mpr ⟨header, hheader, hsub header hmem⟩)

/-- The designated line comes no later under the larger registry. -/
theorem designated?_mono (hascending : live.Pairwise fun l m => l.2 < m.2) {line : Nat}
    (h : designated? r live = some line) : ∃ line' ≤ line, designated? r' live = some line' := by
  induction live with
  | nil => simp [designated?] at h
  | cons first rest ih =>
    rw [List.pairwise_cons] at hascending
    cases hfirst' : designates r' first with
    | true =>
      obtain ⟨numbered, hfind, rfl⟩ := Option.map_eq_some_iff.mp h
      refine ⟨first.2, ?_, by simp [designated?, hfirst']⟩
      rcases List.mem_cons.mp (List.mem_of_find?_eq_some hfind) with rfl | hrest
      · exact Nat.le_refl _
      · exact Nat.le_of_lt (hascending.1 numbered hrest)
    | false =>
      have hfirst : designates r first = false := not_designates_of_larger hsub hfirst'
      have hline : designated? r rest = some line := by simpa [designated?, hfirst] using h
      simpa [designated?, hfirst'] using ih hascending.2 hline

/-- Fewer lines precede the designated one under the larger registry. -/
theorem prefix_preceding (live : List (List Char × Nat)) :
    preceding r' live <+: preceding r live := by
  induction live with
  | nil => exact List.prefix_rfl
  | cons first rest ih =>
    unfold preceding at ih ⊢
    cases hfirst' : designates r' first with
    | true =>
      rw [List.takeWhile_cons_of_neg (by simp [hfirst'])]
      exact List.nil_prefix
    | false =>
      have hfirst : designates r first = false := not_designates_of_larger hsub hfirst'
      rw [List.takeWhile_cons_of_pos (by simp [hfirst']),
        List.takeWhile_cons_of_pos (by simp [hfirst])]
      exact (List.prefix_cons_inj first).mpr ih

end Larger

/-! ## What is found on them -/

theorem prefix_otherLines (h : lines' <+: lines) : otherLines s lines' <+: otherLines s lines := by
  obtain ⟨rest, rfl⟩ := h
  rw [otherLines_append]
  exact List.prefix_append _ _

theorem prefix_early (hascending : lines.Pairwise fun l m => l.2 < m.2) (h : lines' <+: lines) :
    early s label lines' <+: early s label lines := by
  obtain ⟨rest, rfl⟩ := h
  have hcut : ∀ l ∈ lines', ∀ m ∈ rest, l.2 < m.2 := (List.pairwise_append.mp hascending).2.2
  exact ⟨_, (merged_append hcut false).symm⟩

theorem warnings_verdict :
    (verdict s r label live).warnings = early s label (preceding r live) := by
  rw [ScanReport.warnings, verdict, List.filter_append]
  have hearly : (early s label (preceding r live)).filter
      (fun f => f.isKind .secondaryFirst || f.isKind .constructFirst)
      = early s label (preceding r live) := by
    apply List.filter_eq_self.mpr
    intro f hf
    rcases (mem_early hf).1 with hkind | hkind <;> simp [Finding.isKind, hkind]
  have hlate : (late s label (otherLines s (preceding r live)) (designated? r live)).filter
      (fun f => f.isKind .secondaryFirst || f.isKind .constructFirst) = [] := by
    apply List.filter_eq_nil_iff.mpr
    intro f hf
    obtain ⟨-, line, -, rfl⟩ := mem_late hf
    simp [Finding.isKind, Finding.kind]
  rw [hearly, hlate, List.append_nil]

/-- Without a designated line no header is found out of order. -/
theorem others_verdict_eq :
    (verdict s r label live).others
      = if (designated? r live).isSome then otherLines s (preceding r live) else [] := by
  rw [ScanReport.others, verdict, List.flatMap_append]
  have hearly : (early s label (preceding r live)).flatMap Finding.others = [] := by
    apply List.flatMap_eq_nil_iff.mpr
    intro f hf
    exact (mem_early hf).2
  rw [hearly, List.nil_append]
  cases designated? r live with
  | none => rfl
  | some line => cases otherLines s (preceding r live) <;> simp [late, Finding.others]

theorem violations_verdict :
    (verdict s r label live).violations = (verdict s r label live).others.length := by
  rw [others_verdict_eq]
  cases hline : designated? r live <;> simp [verdict, hline]

/-- In a file that has a designated line already, a larger registry finds fewer headers out of
order. -/
theorem prefix_others_verdict (hsub : ∀ name, name ∈ r → name ∈ r')
    (h : (designated? r live).isSome = true) :
    (verdict s r' label live).others <+: (verdict s r label live).others := by
  rw [others_verdict_eq, others_verdict_eq, if_pos h]
  split
  · exact prefix_otherLines (prefix_preceding hsub live)
  · exact List.nil_prefix

end Scan

/-! ## Scans under two registries -/

/-- What a larger registry learns holds what the smaller one learns. -/
theorem Registry.learn_mono {r r' : Registry} {f : Source} (hsub : ∀ name, name ∈ r → name ∈ r') :
    ∀ name, name ∈ r.learn f → name ∈ r'.learn f := by
  intro name hname
  rcases mem_learn.mp hname with hold | ⟨hconfirms, rfl⟩
  · exact mem_learn_of_mem (hsub name hold)
  · exact baseName_mem_learn (confirms_mono hsub hconfirms)

/-- **A larger registry can only help a file.**  If more headers are registered, the designated line
of a text comes no later, and no name less is registered after the scan.  No related header and no
construct is found that was not found before: what is left of them are the first ones.  If there
was a designated line before, no more headers are counted than then, and those found out of order
are the first ones of then; so only a text that had no designated line can be counted for the first
time. -/
theorem Checker.larger_registry_helps {c c' : Checker} (hsettings : c'.settings = c.settings)
    (hsub : ∀ name, name ∈ c.registry → name ∈ c'.registry) (path : Path) (text : List Char) :
    (∀ line, Scan.designated? c.registry (Scan.liveLines text) = some line →
      ∃ line' ≤ line, Scan.designated? c'.registry (Scan.liveLines text) = some line')
    ∧ (∀ name, name ∈ (c.scanText path text).2.registry →
      name ∈ (c'.scanText path text).2.registry)
    ∧ (c'.scanText path text).1.warnings <+: (c.scanText path text).1.warnings
    ∧ ((Scan.designated? c.registry (Scan.liveLines text)).isSome = true →
      (c'.scanText path text).1.violations ≤ (c.scanText path text).1.violations
        ∧ (c'.scanText path text).1.others <+: (c.scanText path text).1.others)
    ∧ ((c.scanText path text).1.violations = 0 → 0 < (c'.scanText path text).1.violations →
      Scan.designated? c.registry (Scan.liveLines text) = none) := by
  have hascending := Scan.ascending_liveLines text
  have hfewer : (Scan.designated? c.registry (Scan.liveLines text)).isSome = true →
      (c'.scanText path text).1.violations ≤ (c.scanText path text).1.violations
        ∧ (c'.scanText path text).1.others <+: (c.scanText path text).1.others := by
    intro hdesignated
    rw [report_scanText, report_scanText, hsettings, Scan.violations_verdict,
      Scan.violations_verdict]
    have hothers : (Scan.verdict c.settings c'.registry path.label (Scan.liveLines text)).others
        <+: (Scan.verdict c.settings c.registry path.label (Scan.liveLines text)).others :=
      Scan.prefix_others_verdict hsub hdesignated
    exact ⟨hothers.length_le, hothers⟩
  refine ⟨?_, ?_, ?_, hfewer, ?_⟩
  · intro line hline
    exact Scan.designated?_mono hsub hascending hline
  · rw [c.registry_scanText_source ⟨path, text⟩, c'.registry_scanText_source ⟨path, text⟩]
    exact Registry.learn_mono hsub
  · rw [report_scanText, report_scanText, hsettings, Scan.warnings_verdict, Scan.warnings_verdict]
    exact Scan.prefix_early (hascending.sublist (List.takeWhile_sublist _))
      (Scan.prefix_preceding hsub _)
  · intro hzero hpositive
    rw [← Option.not_isSome_iff_eq_none]
    intro hdesignated
    have hle := (hfewer hdesignated).1
    omega

/-- One more header registered takes a construct and two of three headers off the findings of one
text, and has another text counted that was not counted before. -/
theorem Checker.larger_registry_helps_one_more :
    let c := Checker.standard
    let c' := c.knowing (c.registry.insert "a.h")
    let path := Path.ofString "m.c"
    let text := ("#include <stdio.h>\n#include \"a.h\"\nnpy_intp n;\n"
      ++ "#include <math.h>\n#include <Python.h>\n").toList
    let first := "#include <stdio.h>\n#include \"a.h\"\n".toList
    c'.settings = c.settings ∧ (∀ name, name ∈ c.registry → name ∈ c'.registry)
      ∧ Scan.designated? c.registry (Scan.liveLines text) = some 5
      ∧ (∃ line' ≤ 5, Scan.designated? c'.registry (Scan.liveLines text) = some line')
      ∧ (c.scanText path text).1.findings
        = [.constructFirst "m.c" 3, .outOfOrder "m.c" "Python.h" 5 [1, 2, 4]]
      ∧ (c'.scanText path text).1.findings = [.outOfOrder "m.c" "Python.h" 2 [1]]
      ∧ (c'.scanText path text).1.others <+: (c.scanText path text).1.others
      ∧ (c.scanText path first).1.violations = 0 ∧ (c'.scanText path first).1.violations = 1
      ∧ Scan.designated? c.registry (Scan.liveLines first) = none := by
  intro c c' path text first
  have hsettings : c'.settings = c.settings := rfl
  have hsub : ∀ name, name ∈ c.registry → name ∈ c'.registry :=
    fun _ hname => Registry.mem_insert.mpr (Or.inr hname)
  have hline : Scan.designated? c.registry (Scan.liveLines text) = some 5 := by decide +kernel
  obtain ⟨hearlier, -, -, hfewer, -⟩ := larger_registry_helps hsettings hsub path text
  obtain ⟨-, -, -, -, hfirst⟩ := larger_registry_helps hsettings hsub path first
  have hzero : (c.scanText path first).1.violations = 0 := by decide +kernel
  have hone : (c'.scanText path first).1.violations = 1 := by decide +kernel
  refine ⟨hsettings, hsub, hline, hearlier 5 hline, by decide +kernel, by decide +kernel,
    (hfewer (by rw [hline]; rfl)).2, hzero, hone, hfirst hzero (by rw [hone]; decide)⟩

end IncludeOrder
