import IncludeOrder.Proofs.Sessions
import Mathlib.Data.List.FinRange
import Mathlib.Algebra.BigOperators.Group.List.Basic

/-!
# Scans that commute

Two sources depend on each other when one of them names the base name of the other.  A scan
changes the registry at the base name of its source only, and reads it at the headers that the
source names only; independent sources can therefore be scanned in either order.

A reordering that keeps dependent sources in their order is undone from the front: whatever stands
before the first source in the new order does not depend on it, so that source moves to the front
without any effect on a report (`reports_move`).  What is left is a reordering of the same kind
(`exists_report`).
-/

set_option autoImplicit false

namespace IncludeOrder

/-- One of the sources names the base name of the other. -/
def Source.Dependent (f g : Source) : Prop :=
  g.baseName ∈ f.headers ∨ f.baseName ∈ g.headers

instance (f g : Source) : Decidable (f.Dependent g) :=
  inferInstanceAs (Decidable (_ ∨ _))

/-! ## Two sources -/

namespace Registry

variable {r : Registry} {f g : Source} {files : List Source}

/-- Learning changes nothing but the base name that is learned. -/
theorem mem_learn_of_not_named (h : g.baseName ∉ f.headers) {header : String}
    (hheader : header ∈ f.headers) : header ∈ r ↔ header ∈ r.learn g := by
  rw [mem_learn]
  constructor
  · exact Or.inl
  · rintro (hold | ⟨-, rfl⟩)
    · exact hold
    · exact absurd hheader h

theorem confirms_learn (h : ¬ f.Dependent g) : (r.learn g).confirms f = r.confirms f :=
  (confirms_congr fun _ => mem_learn_of_not_named fun hnamed => h (Or.inl hnamed)).symm

theorem learn_comm (h : ¬ f.Dependent g) : (r.learn f).learn g = (r.learn g).learn f := by
  have hsymm : ¬ g.Dependent f := fun hdep => h hdep.symm
  refine ext fun name => ?_
  simp only [mem_learn, confirms_learn h, confirms_learn hsymm]
  exact or_right_comm

theorem learn_learnAll (h : ∀ g ∈ files, ¬ f.Dependent g) :
    (r.learn f).learnAll files = (r.learnAll files).learn f := by
  induction files generalizing r with
  | nil => rfl
  | cons g files ih =>
    obtain ⟨hg, hrest⟩ := List.forall_mem_cons.mp h
    rw [learnAll_cons, learnAll_cons, learn_comm hg, ih hrest]

end Registry

namespace Scan

variable {r : Registry} {f g : Source} {files : List Source}

theorem report_learn (s : Settings) (h : ¬ f.Dependent g) :
    report s (r.learn g) f = report s r f :=
  (report_congr s fun _ =>
    Registry.mem_learn_of_not_named fun hnamed => h (Or.inl hnamed)).symm

theorem report_learnAll (s : Settings) (h : ∀ g ∈ files, ¬ f.Dependent g) :
    report s (r.learnAll files) f = report s r f := by
  induction files generalizing r with
  | nil => rfl
  | cons g files ih =>
    obtain ⟨hg, hrest⟩ := List.forall_mem_cons.mp h
    rw [Registry.learnAll_cons, ih hrest, report_learn s hg]

theorem reports_learn (s : Settings) (h : ∀ g ∈ files, ¬ f.Dependent g) :
    reports s (r.learn f) files = reports s r files := by
  induction files generalizing r with
  | nil => rfl
  | cons g files ih =>
    obtain ⟨hg, hrest⟩ := List.forall_mem_cons.mp h
    have hsymm : ¬ g.Dependent f := fun hdep => hg hdep.symm
    rw [reports, reports, report_learn s hsymm, Registry.learn_comm hg, ih hrest]

/-- A source that depends on nothing before it may as well be scanned first. -/
theorem reports_move (s : Settings) (h : ∀ g ∈ files, ¬ f.Dependent g) (later : List Source) :
    reports s r (files ++ f :: later)
      = reports s (r.learn f) files
        ++ report s r f :: reports s ((r.learn f).learnAll files) later := by
  rw [reports_append, reports, report_learnAll s h, reports_learn s h, Registry.learn_learnAll h]

end Scan

/-! ## Reorderings -/

section Reordering

variable {ι : Type} [LinearOrder ι] {call : ι → Source}

/-- A reordering may put something before `i` that stood after it only if the two are
independent. -/
theorem not_dependent_of_keeps {i : ι} {earlier later : List ι}
    (hkeeps : (earlier ++ i :: later).Pairwise fun j k => (call j).Dependent (call k) → j < k)
    (hafter : ∀ j ∈ earlier, i < j) : ∀ g ∈ earlier.map call, ¬ (call i).Dependent g := by
  intro g hg hdep
  obtain ⟨j, hj, rfl⟩ := List.mem_map.mp hg
  have hback : j < i := (List.pairwise_append.mp hkeeps).2.2 j hj i List.mem_cons_self hdep.symm
  exact lt_asymm hback (hafter j hj)

/-- In an ascending list every position is scanned with the same report as in a list that has the
same positions and keeps the dependent ones ascending. -/
theorem exists_report (s : Settings) {xs ys : List ι} (r : Registry)
    (hascending : xs.Pairwise (· < ·)) (hperm : ys.Perm xs)
    (hkeeps : ys.Pairwise fun i j => (call i).Dependent (call j) → i < j) :
    ∃ report : ι → ScanReport,
      Scan.reports s r (xs.map call) = xs.map report
        ∧ Scan.reports s r (ys.map call) = ys.map report
        ∧ r.learnAll (ys.map call) = r.learnAll (xs.map call) := by
  induction xs generalizing ys r with
  | nil =>
    rw [List.perm_nil.mp hperm]
    exact ⟨fun _ => default, rfl, rfl, rfl⟩
  | cons i xs ih =>
    rw [List.pairwise_cons] at hascending
    obtain ⟨earlier, later, rfl⟩ := List.append_of_mem (hperm.mem_iff.mpr List.mem_cons_self)
    have hrest : (earlier ++ later).Perm xs :=
      (List.perm_middle.symm.trans hperm).cons_inv
    have hne : ∀ j ∈ earlier ++ later, j ≠ i := fun j hj =>
      (ne_of_lt (hascending.1 j (hrest.mem_iff.mp hj))).symm
    -- whatever stands before `i` in the new order comes after it in the old one
    have hindependent : ∀ g ∈ earlier.map call, ¬ (call i).Dependent g :=
      not_dependent_of_keeps hkeeps fun j hj =>
        hascending.1 j (hrest.mem_iff.mp (List.mem_append_left _ hj))
    have hkeeps' : (earlier ++ later).Pairwise fun j k =>
        (call j).Dependent (call k) → j < k :=
      hkeeps.sublist (List.Sublist.append_left (List.sublist_cons_self i later) earlier)
    obtain ⟨report, hxs, hys, hregistry⟩ := ih (r.learn (call i)) hascending.2 hrest hkeeps'
    rw [List.map_append, Scan.reports_append, List.map_append] at hys
    obtain ⟨hearlier, hlater⟩ := List.append_inj hys (by simp [Scan.length_reports])
    rw [List.map_append, Registry.learnAll_append] at hregistry
    let full := Function.update report i (Scan.report s r (call i))
    have hfull : ∀ part : List ι, (∀ j ∈ part, j ≠ i) → part.map full = part.map report :=
      fun part hpart => List.map_congr_left fun j hj => Function.update_of_ne (hpart j hj) _ _
    have hi : full i = Scan.report s r (call i) := Function.update_self ..
    refine ⟨full, ?_, ?_, ?_⟩
    · rw [List.map_cons, List.map_cons, Scan.reports, hi, hxs,
        hfull xs fun j hj => hne j (hrest.mem_iff.mpr hj)]
    · rw [List.map_append, List.map_cons, Scan.reports_move s hindependent, hearlier, hlater,
        List.map_append, List.map_cons, hi,
        hfull earlier fun j hj => hne j (List.mem_append_left _ hj),
        hfull later fun j hj => hne j (List.mem_append_right _ hj)]
    · rw [List.map_append, List.map_cons, List.map_cons, Registry.learnAll_append,
        Registry.learnAll_cons, ← Registry.learn_learnAll hindependent, hregistry,
        Registry.learnAll_cons]

end Reordering

/-- In the sequence whose place `i` holds call `order i`, calls that depend on each other stand in
the order in which they stood. -/
def KeepsDependent {n : Nat} (calls : Fin n → Source) (order : Equiv.Perm (Fin n)) : Prop :=
  ∀ i j, i < j → (calls (order i)).Dependent (calls (order j)) → order i < order j

instance {n : Nat} (calls : Fin n → Source) (order : Equiv.Perm (Fin n)) :
    Decidable (KeepsDependent calls order) :=
  inferInstanceAs (Decidable (∀ i j, i < j → (calls (order i)).Dependent (calls (order j)) →
    order i < order j))

/-- The reports of two sequences of scans of which one reorders the other. -/
theorem reports_ofFn_comp (s : Settings) (r : Registry) {n : Nat} {calls : Fin n → Source}
    {order : Equiv.Perm (Fin n)} (hkeeps : KeepsDependent calls order) :
    ∃ report : Fin n → ScanReport,
      Scan.reports s r (List.ofFn calls) = List.ofFn report
        ∧ Scan.reports s r (List.ofFn (calls ∘ order)) = List.ofFn (report ∘ order)
        ∧ r.learnAll (List.ofFn (calls ∘ order)) = r.learnAll (List.ofFn calls) := by
  have hpairwise : ((List.finRange n).map order).Pairwise fun i j =>
      (calls i).Dependent (calls j) → i < j := by
    rw [List.pairwise_map]
    exact (List.pairwise_lt_finRange n).imp fun hlt => hkeeps _ _ hlt
  have hcomp : ∀ {α : Type} (f : Fin n → α),
      List.ofFn (f ∘ order) = ((List.finRange n).map order).map f := by
    intro α f
    rw [List.ofFn_eq_map, List.map_map]
  obtain ⟨report, hcalls, hreordered, hregistry⟩ :=
    exists_report s r (List.pairwise_lt_finRange n) order.map_finRange_perm hpairwise
  refine ⟨report, ?_, ?_, ?_⟩
  · rw [List.ofFn_eq_map, List.ofFn_eq_map, hcalls]
  · rw [hcomp, hcomp, hreordered]
  · rw [hcomp, List.ofFn_eq_map, hregistry]

theorem Summary.total_perm {reports others : List ScanReport} (h : reports.Perm others) :
    total reports = total others := by
  unfold total
  rw [h.length_eq, (h.map ScanReport.violations).sum_eq]

/-- **Independent scans commute.**  When a sequence of scans is reordered and every two of them
that depend on each other keep their order, each scan has the report it had before and the registry
ends up the same.  So two runs over readable files whose orders are such reorderings of each other
come to the same summary, with it to the same exit status, and to the same findings file by file. -/
theorem Checker.scans_commute (c : Checker) {n : Nat} {calls : Fin n → Source}
    {order : Equiv.Perm (Fin n)} (hkeeps : KeepsDependent calls order) :
    ∃ report : Fin n → ScanReport,
      (c.scanAll (List.ofFn calls)).1 = List.ofFn report
      ∧ (c.scanAll (List.ofFn (calls ∘ order))).1 = List.ofFn (report ∘ order)
      ∧ (c.scanAll (List.ofFn (calls ∘ order))).2.registry
        = (c.scanAll (List.ofFn calls)).2.registry
      ∧ ∀ (read : FileReader) (files reordered : List Source), Serves read files →
        headersFirst Source.path files = List.ofFn calls →
        headersFirst Source.path reordered = List.ofFn (calls ∘ order) →
        (c.checkFiles read (files.map Source.path)).1
          = ⟨.ok (.total (List.ofFn report)), (List.ofFn report).flatMap ScanReport.findings⟩
        ∧ (c.checkFiles read (reordered.map Source.path)).1
          = ⟨.ok (.total (List.ofFn report)),
            (List.ofFn (report ∘ order)).flatMap ScanReport.findings⟩
        ∧ (c.checkFiles read (reordered.map Source.path)).2.registry
          = (c.checkFiles read (files.map Source.path)).2.registry := by
  obtain ⟨report, hcalls, hreordered, hregistry⟩ :=
    reports_ofFn_comp c.settings c.registry hkeeps
  refine ⟨report, ?_, ?_, ?_, ?_⟩
  · rw [(c.scanAll_eq _).1, hcalls]
  · rw [(c.scanAll_eq _).1, hreordered]
  · rw [(c.scanAll_eq _).2.1, (c.scanAll_eq _).2.1, hregistry]
  · intro read files reordered hserves hfiles hothers
    have hmembers : ∀ f ∈ reordered, f ∈ files := by
      intro f hf
      have hcomp : f ∈ List.ofFn (calls ∘ order) := hothers ▸ mem_headersFirst.mpr hf
      obtain ⟨i, rfl⟩ := List.mem_ofFn.mp hcomp
      exact mem_headersFirst.mp (hfiles ▸ List.mem_ofFn.mpr ⟨order i, rfl⟩)
    have hserves' : Serves read reordered := hserves.of_subset hmembers
    refine ⟨?_, ?_, ?_⟩
    · rw [report_checkFiles hserves, hfiles, hcalls, RunReport.total]
    · rw [report_checkFiles hserves', hothers, hreordered, RunReport.total,
        Summary.total_perm (order.ofFn_comp_perm report)]
    · rw [registry_checkFiles hserves', registry_checkFiles hserves, hfiles, hothers, hregistry]

/-- Two sources that have nothing to do with each other may be listed either way, after the header
that one of them includes. -/
theorem Checker.scans_commute_swap :
    let calls : Fin 3 → Source := fun i =>
      [Source.typed "a.h" "#include <Python.h>\n", .typed "b.c" "#include \"a.h\"\nnpy_intp n;\n",
        .typed "u.c" "#include <stdio.h>\n#include <Python.h>\n"].get i
    let order : Equiv.Perm (Fin 3) := Equiv.swap 1 2
    let files := [calls 0, calls 1, calls 2]
    let reordered := [calls 2, calls 0, calls 1]
    let read := (FileTree.ofSources files).read
    KeepsDependent calls order ∧ (calls 0).Dependent (calls 1) ∧ Serves read files
      ∧ headersFirst Source.path files = List.ofFn calls
      ∧ headersFirst Source.path reordered = List.ofFn (calls ∘ order)
      ∧ (Checker.standard.checkFiles read (reordered.map Source.path)).1.result
        = (Checker.standard.checkFiles read (files.map Source.path)).1.result
      ∧ (Checker.standard.checkFiles read (reordered.map Source.path)).2.registry
        = (Checker.standard.checkFiles read (files.map Source.path)).2.registry := by
  intro calls order files reordered read
  have hkeeps : KeepsDependent calls order := by decide +kernel
  have hserves : Serves read files := by decide +kernel
  have hfiles : headersFirst Source.path files = List.ofFn calls := by decide +kernel
  have hreordered : headersFirst Source.path reordered = List.ofFn (calls ∘ order) := by
    decide +kernel
  obtain ⟨report, -, -, -, hruns⟩ := Checker.standard.scans_commute hkeeps
  obtain ⟨hrun, hrun', hregistry⟩ := hruns read files reordered hserves hfiles hreordered
  refine ⟨hkeeps, by decide +kernel, hserves, hfiles, hreordered, ?_, hregistry⟩
  rw [hrun, hrun']

end IncludeOrder
