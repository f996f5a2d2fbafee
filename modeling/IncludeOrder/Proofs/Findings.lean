import IncludeOrder.Proofs.Verdict
import Mathlib.Algebra.GroupWithZero.Nat

/-!
# The findings of a scan

A report counts on one channel what its findings say on another.  The two agree: there is a finding
out of order just when something is counted, it is the last one, and it names as many lines as are
counted.  Before it stand related headers and at most one construct, all findings ascend by line,
and none of them is about the encoding of the file.  `Consistent` and `WellFormed` collect this, and
every report has it (`wellFormed_verdict`).
-/

set_option autoImplicit false

namespace IncludeOrder

/-- The lines of the headers that a finding reports out of order. -/
def Finding.others : Finding → List Nat
  | outOfOrder _ _ _ others => others
  | _ => []

/-- The finding is of this kind. -/
def Finding.isKind (kind : FindingKind) (f : Finding) : Bool := f.kind == kind

theorem Finding.isKind_eq_true_iff {kind : FindingKind} {f : Finding} :
    f.isKind kind = true ↔ f.kind = kind := by
  simp [isKind]

/-- The findings of a report agree with its count. -/
structure ScanReport.Consistent (report : ScanReport) : Prop where
  ascending : report.findings.Pairwise fun f g => f.line < g.line
  outOfOrder : report.findings.countP (Finding.isKind .outOfOrder)
    = if report.violations = 0 then 0 else 1
  construct : report.findings.countP (Finding.isKind .constructFirst) ≤ 1
  total : (report.findings.map fun f => f.others.length).sum = report.violations
  others : ∀ f ∈ report.findings, f.kind = .outOfOrder →
    f.others ≠ [] ∧ f.others.Pairwise (· < ·) ∧ (∀ other ∈ f.others, other < f.line)
      ∧ report.findings.getLast? = some f

/-- A consistent report on a file that has been scanned. -/
structure ScanReport.WellFormed (report : ScanReport) : Prop extends report.Consistent where
  scanned : ∀ f ∈ report.findings, f.kind ≠ .notUtf8

namespace Scan

variable {s : Settings} {r : Registry} {label : Label} {lines live : List (List Char × Nat)}
  {f : Finding}

/-! ## What is found before the designated line -/

theorem mem_secondaryFindings (h : f ∈ secondaryFindings s label lines) :
    f.kind = .secondaryFirst ∧ f.others = [] := by
  obtain ⟨named, -, rfl⟩ := List.mem_map.mp h
  exact ⟨rfl, rfl⟩

theorem mem_early (h : f ∈ early s label lines) :
    (f.kind = .secondaryFirst ∨ f.kind = .constructFirst) ∧ f.others = [] := by
  rcases List.mem_merge.mp h with hsecondary | hconstruct
  · exact ⟨Or.inl (mem_secondaryFindings hsecondary).1, (mem_secondaryFindings hsecondary).2⟩
  · obtain ⟨line, -, rfl⟩ := List.mem_map.mp hconstruct
    exact ⟨Or.inr rfl, rfl⟩

theorem countP_constructFirst_early :
    (early s label lines).countP (Finding.isKind .constructFirst) ≤ 1 := by
  have hsecondaries : (secondaryFindings s label lines).countP
      (Finding.isKind .constructFirst) = 0 := by
    refine List.countP_eq_zero.mpr fun f hf => ?_
    simp [Finding.isKind, (mem_secondaryFindings hf).1]
  have hconstruct : ((construct? s label lines).toList.map
      (Finding.constructFirst label.display)).countP (Finding.isKind .constructFirst) ≤ 1 := by
    refine Nat.le_trans List.countP_le_length ?_
    cases construct? s label lines <;> simp
  rw [early, merged, (List.merge_perm_append _).countP_eq, List.countP_append]
  omega

/-- Findings that are told in other words, line by line, are merged in the same order. -/
theorem early_map {s' : Settings} {label' : Label} {retell : Finding → Finding}
    (hline : ∀ f, (retell f).line = f.line)
    (hsecondary : secondaryFindings s' label' lines
      = (secondaryFindings s label lines).map retell)
    (hconstruct : (construct? s' label' lines).toList.map (Finding.constructFirst label'.display)
      = ((construct? s label lines).toList.map (Finding.constructFirst label.display)).map retell) :
    early s' label' lines = (early s label lines).map retell := by
  rw [early, early, merged, merged, hsecondary, hconstruct, List.map_merge]
  intro f _ g _
  rw [hline, hline]

/-- A line is found at most once, and in its turn. -/
theorem sublist_merged (hascending : lines.Pairwise fun l m => l.2 < m.2) (warned : Bool) :
    ((merged s label lines (if warned then none else construct? s label lines)).map
      Finding.line).Sublist (lines.map Prod.snd) := by
  induction lines generalizing warned with
  | nil =>
    have hnone : construct? s label [] = none := by simp [construct?]
    simp [merged, secondaryFindings, secondaries, hnone]
  | cons first rest ih =>
    rw [List.pairwise_cons] at hascending
    have hfirst : ((merged s label [first]
        (if warned then none else construct? s label [first])).map Finding.line).Sublist
          [first.2] := by
      cases hheader : header? first with
      | some header =>
        rw [construct?_of_header hheader, ite_self, merged, secondaryFindings,
          secondaries_of_header hheader]
        cases s.isSecondary header <;> simp [Finding.line]
      | none =>
        rw [construct?_of_code hheader, merged, secondaryFindings, secondaries_of_code hheader]
        cases warned <;> cases label.namesHeader <;> cases s.marksConstruct first.1 <;>
          simp [Finding.line]
    have hcut : ∀ l ∈ [first], ∀ m ∈ rest, l.2 < m.2 := by simpa using hascending.1
    rw [← List.singleton_append, merged_append hcut warned, List.map_append, List.map_append]
    exact hfirst.append (ih hascending.2 (warned || (construct? s label [first]).isSome))

theorem sublist_early (hascending : lines.Pairwise fun l m => l.2 < m.2) :
    ((early s label lines).map Finding.line).Sublist (lines.map Prod.snd) := by
  exact sublist_merged hascending false

/-! ## What is found on it -/

theorem mem_late {others : List Nat} {designated : Option Nat}
    (h : f ∈ late s label others designated) :
    others ≠ [] ∧ ∃ line, designated = some line
      ∧ f = .outOfOrder label.display s.designatedHeader line others := by
  cases designated with
  | none => simp [late] at h
  | some line =>
    cases others with
    | nil => simp [late] at h
    | cons other others => simpa [late] using h

theorem sublist_otherLines : (otherLines s lines).Sublist (lines.map Prod.snd) := by
  induction lines with
  | nil => exact .slnil
  | cons first rest ih =>
    rw [← List.singleton_append, otherLines_append, List.map_append]
    refine List.Sublist.append ?_ ih
    cases hheader : header? first with
    | some header =>
      rw [otherLines_of_header hheader]
      cases s.isSecondary header <;> simp
    | none => simp [otherLines_of_code hheader]

/-- The designated line comes after the lines before it. -/
theorem sublist_designated {line : Nat} (h : designated? r live = some line) :
    ((preceding r live).map Prod.snd ++ [line]).Sublist (live.map Prod.snd) := by
  rcases designated_cases r live with ⟨hnone, -⟩ | ⟨numbered, after, hsome, -, hsplit⟩
  · simp [hnone] at h
  · obtain rfl : numbered.2 = line := Option.some.inj (hsome.symm.trans h)
    have hlive : live.map Prod.snd
        = (preceding r live).map Prod.snd ++ numbered.2 :: after.map Prod.snd := by
      simpa using congrArg (List.map Prod.snd) hsplit
    rw [hlive]
    exact List.Sublist.append_left (by simp) _

/-! ## Every report is well formed -/

section Verdict

variable (hascending : live.Pairwise fun l m => l.2 < m.2)

include hascending

theorem ascending_numbers : (live.map Prod.snd).Pairwise (· < ·) :=
  List.pairwise_map.mpr hascending

theorem sublist_verdict :
    ((verdict s r label live).findings.map Finding.line).Sublist (live.map Prod.snd) := by
  have hpreceding : (preceding r live).Sublist live := List.takeWhile_sublist _
  have hearly : ((early s label (preceding r live)).map Finding.line).Sublist
      ((preceding r live).map Prod.snd) :=
    sublist_early (hascending.sublist hpreceding)
  simp only [verdict, List.map_append]
  cases hline : designated? r live with
  | none => simpa [late] using hearly.trans (hpreceding.map Prod.snd)
  | some line =>
    have hlate : ((late s label (otherLines s (preceding r live)) (some line)).map
        Finding.line).Sublist [line] := by
      cases otherLines s (preceding r live) <;> simp [late, Finding.line]
    exact (hearly.append hlate).trans (sublist_designated hline)

theorem others_verdict (hf : f ∈ (verdict s r label live).findings)
    (hkind : f.kind = .outOfOrder) :
    f.others ≠ [] ∧ f.others.Pairwise (· < ·) ∧ (∀ other ∈ f.others, other < f.line)
      ∧ (verdict s r label live).findings.getLast? = some f := by
  rcases List.mem_append.mp hf with hearly | hlate
  · rcases (mem_early hearly).1 with hother | hother <;> simp [hother] at hkind
  · obtain ⟨hne, line, hline, rfl⟩ := mem_late hlate
    have hnumbers := (ascending_numbers hascending).sublist (sublist_designated hline)
    obtain ⟨hbefore, -, hbelow⟩ := List.pairwise_append.mp hnumbers
    refine ⟨hne, hbefore.sublist sublist_otherLines, fun other hother => ?_, ?_⟩
    · exact hbelow other (sublist_otherLines.subset hother) line (by simp)
    · simp [verdict, hline, late, hne]

theorem wellFormed_verdict : (verdict s r label live).WellFormed where
  ascending :=
    List.pairwise_map.mp ((ascending_numbers hascending).sublist (sublist_verdict hascending))
  scanned f hf := by
    rcases List.mem_append.mp hf with hearly | hlate
    · rcases (mem_early hearly).1 with hkind | hkind <;> simp [hkind]
    · obtain ⟨-, line, -, rfl⟩ := mem_late hlate
      simp [Finding.kind]
  outOfOrder := by
    have hearly : (early s label (preceding r live)).countP (Finding.isKind .outOfOrder) = 0 := by
      refine List.countP_eq_zero.mpr fun f hf => ?_
      rcases (mem_early hf).1 with hkind | hkind <;> simp [Finding.isKind, hkind]
    rw [verdict, List.countP_append, hearly]
    cases designated? r live with
    | none => simp [late]
    | some line =>
      cases otherLines s (preceding r live) <;> simp [late, Finding.isKind, Finding.kind]
  construct := by
    have hlate : (late s label (otherLines s (preceding r live)) (designated? r live)).countP
        (Finding.isKind .constructFirst) = 0 := by
      refine List.countP_eq_zero.mpr fun f hf => ?_
      obtain ⟨-, line, -, rfl⟩ := mem_late hf
      simp [Finding.isKind, Finding.kind]
    rw [verdict, List.countP_append, hlate]
    exact countP_constructFirst_early
  total := by
    have hearly : ((early s label (preceding r live)).map fun f => f.others.length).sum = 0 := by
      refine List.sum_eq_zero_iff_forall_eq_nat.mpr fun n hn => ?_
      obtain ⟨f, hf, rfl⟩ := List.mem_map.mp hn
      simp [(mem_early hf).2]
    rw [verdict, List.map_append, List.sum_append, hearly]
    cases designated? r live with
    | none => simp [late]
    | some line =>
      cases otherLines s (preceding r live) <;> simp [late, Finding.others]
  others f hf hkind := others_verdict hascending hf hkind

end Verdict

end Scan

theorem Checker.wellFormed_scanText (c : Checker) (path : Path) (text : List Char) :
    (c.scanText path text).1.WellFormed := by
  rw [report_scanText]
  exact Scan.wellFormed_verdict (Scan.ascending_liveLines text)

end IncludeOrder
