import IncludeOrder.Proofs.Closure

/-!
# Dependencies before dependents

Runs scan headers first so that a header is known by the time a file that includes it is scanned.
This module says when that is enough.  If every file comes after the files whose base names it
includes, then at the moment a file is scanned the registry already agrees with the closure on the
headers that the file names (`known_of_brings`): each of them was registered from the start or is
the base name of an earlier file, which was scanned under the same circumstances.  One run then
ends at the closure and treats every file as a scan under the whole closure would.
-/

set_option autoImplicit false

namespace IncludeOrder

/-- In this order no file includes itself, and every file that another one includes comes before
it. -/
structure DependenciesFirst (order : List Source) : Prop where
  not_itself : ∀ f ∈ order, f.baseName ∉ f.headers
  before : ∀ f ∈ order, ∀ g ∈ order, g ≠ f → g.baseName ∈ f.headers →
    order.idxOf g < order.idxOf f

instance (order : List Source) : Decidable (DependenciesFirst order) :=
  decidable_of_iff
    ((∀ f ∈ order, f.baseName ∉ f.headers) ∧ ∀ f ∈ order, ∀ g ∈ order, g ≠ f →
      g.baseName ∈ f.headers → order.idxOf g < order.idxOf f)
    ⟨fun h => ⟨h.1, h.2⟩, fun h => ⟨h.not_itself, h.before⟩⟩

namespace DependenciesFirst

variable {r : Registry} {order earlier later : List Source} {f g : Source} {name : String}

/-- What is known before the first scan of a file is known before its other scans. -/
theorem mem_learnAll_of_mem_take (hsplit : order = earlier ++ f :: later)
    (h : name ∈ r.learnAll (order.take (order.idxOf f))) : name ∈ r.learnAll earlier := by
  have hindex : order.idxOf f ≤ earlier.length := by
    rw [hsplit, List.idxOf_append]
    split
    · exact Nat.le_of_lt (List.idxOf_lt_length_of_mem ‹_›)
    · simp
  have htake : order.take (order.idxOf f) = earlier.take (order.idxOf f) := by
    calc order.take (order.idxOf f)
        = (earlier ++ f :: later).take (order.idxOf f) := congrArg _ hsplit
      _ = earlier.take (order.idxOf f) := List.take_append_of_le_length hindex
  rw [htake] at h
  rw [← List.take_append_drop (order.idxOf f) earlier, Registry.learnAll_append]
  exact Registry.mem_learnAll_of_mem h

/-- A file that has been confirmed is registered before the first scan of any file after it. -/
theorem baseName_mem_of_idxOf_lt (hg : g ∈ order) (hlt : order.idxOf g < order.idxOf f)
    (hconfirms : (r.learnAll (order.take (order.idxOf g))).confirms g = true) :
    g.baseName ∈ r.learnAll (order.take (order.idxOf f)) := by
  have hbound : order.idxOf g < order.length := List.idxOf_lt_length_of_mem hg
  have hnext : order.take (order.idxOf g + 1) = order.take (order.idxOf g) ++ [g] := by
    rw [List.take_succ_eq_append_getElem hbound, List.getElem_idxOf]
  obtain ⟨between, hbetween⟩ := List.take_prefix_take_left (l := order) (Nat.succ_le_of_lt hlt)
  rw [← hbetween, Nat.succ_eq_add_one, hnext, Registry.learnAll_append, Registry.learnAll_append]
  exact Registry.mem_learnAll_of_mem (Registry.baseName_mem_learn hconfirms)

/-- Whatever brings the designated header and is named by a file is known when that file is
scanned for the first time. -/
theorem known_of_brings (h : DependenciesFirst order) (hf : f ∈ order)
    (hname : name ∈ f.headers) (hbrings : Brings r order name) :
    name ∈ r.learnAll (order.take (order.idxOf f)) := by
  -- on the chain of files that brings the name; each of them is scanned before the one it is for
  induction hbrings generalizing f with
  | known hknown => exact Registry.mem_learnAll_of_mem hknown
  | @includes g header hg hheader _ ih =>
    have hne : g ≠ f := fun heq => h.not_itself f hf (heq ▸ hname)
    have hlt : order.idxOf g < order.idxOf f := h.before f hf g hg hne hname
    have hconfirms : (r.learnAll (order.take (order.idxOf g))).confirms g = true :=
      Registry.confirms_eq_true_iff.mpr ⟨header, hheader, ih hg hheader⟩
    exact baseName_mem_of_idxOf_lt hg hlt hconfirms

/-- At every scan of a file the registry agrees with the closure on the headers it names. -/
theorem known_iff_brings (h : DependenciesFirst order) (hsplit : order = earlier ++ f :: later)
    (hname : name ∈ f.headers) : name ∈ r.learnAll earlier ↔ Brings r order name := by
  have hf : f ∈ order := by simp [hsplit]
  have hearlier : ∀ g ∈ earlier, g ∈ order := by
    intro g hg
    rw [hsplit]
    exact List.mem_append_left _ hg
  constructor
  · exact Registry.brings_of_mem_learnAll hearlier fun _ => .known
  · intro hbrings
    exact mem_learnAll_of_mem_take hsplit (h.known_of_brings hf hname hbrings)

/-- One pass in such an order ends at the closure. -/
theorem mem_learnAll_iff_brings (h : DependenciesFirst order) :
    name ∈ r.learnAll order ↔ Brings r order name := by
  constructor
  · exact Registry.brings_of_mem_learnAll (fun _ hf => hf) fun _ => .known
  · intro hbrings
    cases hbrings with
    | known hknown => exact Registry.mem_learnAll_of_mem hknown
    | @includes f header hf hheader hbrings =>
      obtain ⟨earlier, later, hsplit⟩ := List.append_of_mem hf
      have hconfirms : (r.learnAll earlier).confirms f = true :=
        Registry.confirms_eq_true_iff.mpr
          ⟨header, hheader, (h.known_iff_brings hsplit hheader).mpr hbrings⟩
      rw [hsplit, Registry.learnAll_append, Registry.learnAll_cons]
      exact Registry.mem_learnAll_of_mem (Registry.baseName_mem_learn hconfirms)

/-- In such an order every file is reported on as the closure itself would have it. -/
theorem report_eq (h : DependenciesFirst order) (hsplit : order = earlier ++ f :: later)
    (s : Settings) :
    Scan.report s (r.learnAll earlier) f = Scan.report s (r.learnAll order) f := by
  refine Scan.report_congr s fun header hheader => ?_
  rw [h.known_iff_brings hsplit hheader, h.mem_learnAll_iff_brings]

end DependenciesFirst

/-- **One run is enough when dependencies come first.**  If in the order of runs every file comes
after the files whose base names it includes, then a single run ends at the closure, and each of
the files is given the count and the findings that a scan of it would come to if the whole closure
were registered from the start. -/
theorem Checker.one_run_reaches_closure (c : Checker) {read : FileReader} {files : List Source}
    (h : Serves read files) (hfirst : DependenciesFirst (headersFirst Source.path files)) :
    (∀ name, name ∈ (c.checkFiles read (files.map Source.path)).2.registry
      ↔ Brings c.registry files name)
    ∧ (∀ earlier f later, headersFirst Source.path files = earlier ++ f :: later →
      ((c.runFrom read .zero [] (earlier.map Source.path)).2.scanFile read f.path).1
        = .ok ((c.knowing (c.checkFiles read (files.map Source.path)).2.registry).scanText
          f.path f.text).1)
    ∧ (c.checkFiles read (files.map Source.path)).1
      = .total ((headersFirst Source.path files).map fun f =>
          ((c.knowing (c.checkFiles read (files.map Source.path)).2.registry).scanText
            f.path f.text).1) := by
  rw [registry_checkFiles h]
  have hknowing : ∀ (r : Registry) (f : Source),
      ((c.knowing r).scanText f.path f.text).1 = Scan.report c.settings r f :=
    fun r f => (c.knowing r).report_scanText_source f
  refine ⟨fun name => ?_, fun earlier f later hsplit => ?_, ?_⟩
  · rw [hfirst.mem_learnAll_iff_brings]
    exact ⟨Brings.mono fun _ => mem_headersFirst.mp, Brings.mono fun _ => mem_headersFirst.mpr⟩
  · have hfiles : ∀ g ∈ earlier ++ f :: later, g ∈ files := fun g hg =>
      mem_headersFirst.mp (hsplit ▸ hg)
    have hearlier : Serves read earlier :=
      h.of_subset fun g hg => hfiles g (List.mem_append_left _ hg)
    obtain ⟨-, hregistry, hsettings⟩ := c.scanAll_eq earlier
    rw [runFrom_of_serves hearlier, h.scanFile (hfiles f (by simp)), report_scanText_source,
      hregistry, hsettings, hfirst.report_eq hsplit, hknowing]
  · rw [report_checkFiles h, Scan.reports_eq_map fun _ _ _ hsplit => hfirst.report_eq hsplit _]
    simp only [hknowing]

/-- A header listed after the source that includes it is scanned first all the same, and the
source is then found to have its headers out of order. -/
theorem Checker.one_run_reaches_closure_sorted :
    let source := Source.typed "m.c" "#include <stdio.h>\n#include \"a.h\"\n"
    let header := Source.typed "b/a.h" "#include \"Python.h\"\n"
    let files := [source, header]
    let read := (FileTree.ofSources files).read
    let checked := Checker.standard.checkFiles read (files.map Source.path)
    Serves read files ∧ DependenciesFirst (headersFirst Source.path files)
      ∧ (∀ name, name ∈ checked.2.registry ↔ Brings Checker.standard.registry files name)
      ∧ headersFirst Source.path files = [header] ++ source :: []
      ∧ ((Checker.standard.runFrom read .zero [] [header.path]).2.scanFile read source.path).1
        = .ok ((Checker.standard.knowing checked.2.registry).scanText source.path source.text).1
      ∧ checked.1.findings = [.outOfOrder "m.c" "Python.h" 2 [1]] := by
  intro source header files read checked
  have hserves : Serves read files := by decide +kernel
  have hfirst : DependenciesFirst (headersFirst Source.path files) := by decide +kernel
  have hsplit : headersFirst Source.path files = [header] ++ source :: [] := by decide +kernel
  obtain ⟨hclosure, hfiles, -⟩ := Checker.standard.one_run_reaches_closure hserves hfirst
  exact ⟨hserves, hfirst, hclosure, hsplit, hfiles [header] source [] hsplit, by decide +kernel⟩

end IncludeOrder
