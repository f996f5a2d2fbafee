import IncludeOrder.Proofs.Sessions
import Mathlib.Logic.Function.Iterate

/-!
# The closure of a registry under files

Some names bring the designated header: the registered ones, and the base name of every file with
a live directive that names a header which does.  `Brings` is the least such set.  Scans of the
files stay inside it whatever their order and number, since each of them registers a name for a
reason; and no name in it is missed for ever, since a run over all files that registers nothing new
leaves a registry that is closed under them.

Each run that does not find the registry closed registers the base name of a file that lacked it,
so as many runs as there are files are enough (`closed_iterate`), and every later run is the same.
-/

set_option autoImplicit false

namespace IncludeOrder

/-- The name brings the designated header to a file that includes it: it is registered, or it is
the base name of one of the files and this file names a header that brings it. -/
inductive Brings (r : Registry) (files : List Source) : String → Prop where
  /-- the name is registered -/
  | known {name : String} : name ∈ r → Brings r files name
  /-- the file names a header that brings the designated header -/
  | includes {f : Source} {header : String} :
      f ∈ files → header ∈ f.headers → Brings r files header → Brings r files f.baseName

/-- More files bring no less. -/
theorem Brings.mono {r : Registry} {files more : List Source} (hsub : ∀ f ∈ files, f ∈ more)
    {name : String} (h : Brings r files name) : Brings r more name := by
  induction h with
  | known hknown => exact .known hknown
  | includes hf hheader _ ih => exact .includes (hsub _ hf) hheader ih

namespace Registry

variable {r : Registry} {files visited : List Source} {name : String}

/-- Every file that the registry confirms is registered already. -/
def Closed (r : Registry) (files : List Source) : Prop :=
  ∀ f ∈ files, r.confirms f = true → f.baseName ∈ r

/-! ## Soundness -/

theorem brings_of_mem_learnAll (hvisited : ∀ f ∈ visited, f ∈ files) {r' : Registry}
    (hsound : ∀ name, name ∈ r' → Brings r files name) (h : name ∈ r'.learnAll visited) :
    Brings r files name := by
  induction visited generalizing r' with
  | nil => exact hsound name h
  | cons f visited ih =>
    obtain ⟨hf, hrest⟩ := List.forall_mem_cons.mp hvisited
    refine ih hrest (fun learned hlearned => ?_) h
    rcases mem_learn.mp hlearned with hold | ⟨hconfirms, rfl⟩
    · exact hsound learned hold
    · obtain ⟨header, hheader, hknown⟩ := confirms_eq_true_iff.mp hconfirms
      exact .includes hf hheader (hsound header hknown)

/-! ## Closed registries -/

/-- A closed registry holds everything that some registry inside it can bring. -/
theorem mem_of_brings {r' : Registry} (hclosed : r'.Closed files)
    (hsub : ∀ name, name ∈ r → name ∈ r') (h : Brings r files name) : name ∈ r' := by
  induction h with
  | known hname => exact hsub _ hname
  | includes hf hheader _ ih =>
    exact hclosed _ hf (confirms_eq_true_iff.mpr ⟨_, hheader, ih⟩)

theorem learnAll_of_closed (hclosed : r.Closed files) (hvisited : ∀ f ∈ visited, f ∈ files) :
    r.learnAll visited = r := by
  induction visited with
  | nil => rfl
  | cons f visited ih =>
    obtain ⟨hf, hrest⟩ := List.forall_mem_cons.mp hvisited
    rw [learnAll_cons, learn_eq_self (hclosed f hf), ih hrest]

/-- A file that was confirmed at the start is registered by the end, wherever it stands. -/
theorem baseName_mem_learnAll {f : Source} (hf : f ∈ visited) (h : r.confirms f = true) :
    f.baseName ∈ r.learnAll visited := by
  obtain ⟨before, after, rfl⟩ := List.append_of_mem hf
  rw [learnAll_append, learnAll_cons]
  have hgrown : (r.learnAll before).confirms f = true :=
    confirms_mono (fun _ => mem_learnAll_of_mem) h
  exact mem_learnAll_of_mem (baseName_mem_learn hgrown)

/-! ## Convergence -/

/-- How many of the files are not registered under their base name. -/
def missing (r : Registry) (files : List Source) : Nat :=
  files.countP fun f => !r.contains f.baseName

theorem missing_lt {r' : Registry} {f : Source} (hsub : ∀ name, name ∈ r → name ∈ r')
    (hf : f ∈ files) (hold : f.baseName ∉ r) (hnew : f.baseName ∈ r') :
    r'.missing files < r.missing files := by
  have hmono : ∀ part : List Source, r'.missing part ≤ r.missing part := by
    intro part
    refine List.countP_mono_left fun g _ hg => ?_
    rw [Bool.not_eq_true', contains_eq_false_iff] at hg ⊢
    exact fun hmem => hg (hsub _ hmem)
  obtain ⟨before, after, rfl⟩ := List.append_of_mem hf
  have hbefore := hmono before
  have hafter := hmono after
  simp only [missing, List.countP_append, List.countP_cons] at hbefore hafter ⊢
  have holdCount : (if (!r.contains f.baseName) = true then 1 else 0) = 1 := by simp [hold]
  have hnewCount : (if (!r'.contains f.baseName) = true then 1 else 0) = 0 := by simp [hnew]
  omega

/-- A run over all files either finds the registry closed or registers a missing name. -/
theorem closed_or_missing_lt (r : Registry) (hall : ∀ f ∈ files, f ∈ visited) :
    r.Closed files ∨ (r.learnAll visited).missing files < r.missing files := by
  by_cases hclosed : r.Closed files
  · exact Or.inl hclosed
  · simp only [Closed, not_forall] at hclosed
    obtain ⟨f, hf, hconfirms, hold⟩ := hclosed
    exact Or.inr (missing_lt (fun _ => mem_learnAll_of_mem) hf hold
      (baseName_mem_learnAll (hall f hf) hconfirms))

/-- As many runs as there are missing names lead to a closed registry. -/
theorem closed_iterate (hall : ∀ f, f ∈ visited ↔ f ∈ files) (n : Nat) (r : Registry)
    (hn : r.missing files ≤ n) : ((fun r => r.learnAll visited)^[n] r).Closed files := by
  -- every run that finds the registry open takes one from the measure, so `n` runs use it up
  induction n generalizing r with
  | zero =>
    intro f hf _
    have hnone := List.countP_eq_zero.mp (Nat.le_zero.mp hn) f hf
    simpa using hnone
  | succ n ih =>
    rcases closed_or_missing_lt r fun f hf => (hall f).mpr hf with hclosed | hlt
    · have hfixed : r.learnAll visited = r :=
        learnAll_of_closed hclosed fun f hf => (hall f).mp hf
      rw [Function.iterate_fixed hfixed]
      exact hclosed
    · rw [Function.iterate_succ_apply]
      exact ih _ (by omega)

theorem mem_iterate_learnAll_of_mem (n : Nat) (h : name ∈ r) :
    name ∈ (fun r => r.learnAll visited)^[n] r := by
  induction n generalizing r with
  | zero => exact h
  | succ n ih =>
    rw [Function.iterate_succ_apply]
    exact ih (mem_learnAll_of_mem h)

theorem brings_of_mem_iterate (hvisited : ∀ f ∈ visited, f ∈ files) {r' : Registry}
    (hsound : ∀ name, name ∈ r' → Brings r files name) (n : Nat)
    (h : name ∈ (fun r => r.learnAll visited)^[n] r') : Brings r files name := by
  induction n generalizing r' with
  | zero => exact hsound name h
  | succ n ih =>
    rw [Function.iterate_succ_apply] at h
    exact ih (fun _ hlearned => brings_of_mem_learnAll hvisited hsound hlearned) h

/-- After as many runs over all files as there are files, the registry is the closure. -/
theorem mem_iterate_iff_brings (hall : ∀ f, f ∈ visited ↔ f ∈ files) {n : Nat}
    (hn : files.length ≤ n) :
    name ∈ (fun r => r.learnAll visited)^[n] r ↔ Brings r files name := by
  constructor
  · exact brings_of_mem_iterate (fun f hf => (hall f).mp hf) (fun _ => .known) n
  · have hmissing : r.missing files ≤ n := Nat.le_trans List.countP_le_length hn
    exact mem_of_brings (closed_iterate hall n r hmissing) fun _ =>
      mem_iterate_learnAll_of_mem n

end Registry

/-! ## Repeated runs -/

namespace Checker

variable {read : FileReader} {files : List Source}

/-- The checker after so many runs over the same paths. -/
def runs (read : FileReader) (paths : List Path) (n : Nat) (c : Checker) : Checker :=
  (fun c => (c.checkFiles read paths).2)^[n] c

theorem runs_eq (h : Serves read files) (n : Nat) (c : Checker) :
    (c.runs read (files.map Source.path) n).settings = c.settings
      ∧ (c.runs read (files.map Source.path) n).registry
        = (fun r => r.learnAll (headersFirst Source.path files))^[n] c.registry := by
  induction n generalizing c with
  | zero => exact ⟨rfl, rfl⟩
  | succ n ih =>
    obtain ⟨hsettings, hregistry⟩ := ih (c.checkFiles read (files.map Source.path)).2
    rw [settings_checkFiles h] at hsettings
    rw [registry_checkFiles h] at hregistry
    exact ⟨hsettings, hregistry⟩

section Settled

variable {listing : List Source} (hserves : Serves read listing) (hperm : listing.Perm files)
  (c : Checker) {n : Nat} (hn : files.length ≤ n)

include hserves hperm hn

/-- As many runs as there are files end at the closure. -/
theorem mem_registry_runs {name : String} :
    name ∈ (c.runs read (listing.map Source.path) n).registry
      ↔ Brings c.registry files name := by
  have hall : ∀ f, f ∈ headersFirst Source.path listing ↔ f ∈ files := fun f =>
    mem_headersFirst.trans hperm.mem_iff
  rw [(runs_eq hserves n c).2]
  exact Registry.mem_iterate_iff_brings hall hn

/-- More runs than there are files add nothing. -/
theorem registry_runs :
    (c.runs read (listing.map Source.path) n).registry
      = (c.runs read (listing.map Source.path) files.length).registry := by
  refine Registry.ext fun name => ?_
  rw [mem_registry_runs hserves hperm c hn,
    mem_registry_runs hserves hperm c (Nat.le_refl files.length)]

/-- Every run after as many as there are files reports the same. -/
theorem report_runs :
    ((c.runs read (listing.map Source.path) n).checkFiles read (listing.map Source.path)).1
      = .total (Scan.reports c.settings
        (c.runs read (listing.map Source.path) files.length).registry
        (headersFirst Source.path listing)) := by
  rw [report_checkFiles hserves, registry_runs hserves hperm c hn, (runs_eq hserves n c).1]

end Settled

/-- **Registries tend to the closure.**  Whatever scans of the files a session makes, its registry
keeps the names it started with and holds only names that bring the designated header.  After as
many runs over all files as there are files it holds every such name, in whatever order the files
are listed, and from then on every run leaves it as it is and reports the same. -/
theorem registry_tends_to_closure (c : Checker) (h : Serves read files) :
    (∀ calls : List Call, (∀ call ∈ calls, call.DrawnFrom files) →
      (∀ name, name ∈ c.registry → name ∈ (c.performAll read calls).registry)
        ∧ ∀ name, name ∈ (c.performAll read calls).registry → Brings c.registry files name)
    ∧ ∀ listing : List Source, listing.Perm files →
      (∀ name, name ∈ (c.runs read (listing.map Source.path) files.length).registry
        ↔ Brings c.registry files name)
      ∧ ∃ summary findings, ∀ n, files.length ≤ n →
        (c.runs read (listing.map Source.path) n).registry
          = (c.runs read (listing.map Source.path) files.length).registry
        ∧ ((c.runs read (listing.map Source.path) n).checkFiles read
            (listing.map Source.path)).1 = ⟨.ok summary, findings⟩ := by
  constructor
  · intro calls hdrawn
    obtain ⟨visited, hvisited, hregistry⟩ := registry_performAll h c hdrawn
    rw [hregistry]
    exact ⟨fun _ => Registry.mem_learnAll_of_mem,
      fun _ => Registry.brings_of_mem_learnAll hvisited fun _ => .known⟩
  · intro listing hperm
    have hserves : Serves read listing := h.of_subset fun f hf => hperm.mem_iff.mp hf
    exact ⟨fun _ => mem_registry_runs hserves hperm c (Nat.le_refl _), _, _, fun _ hn =>
      ⟨registry_runs hserves hperm c hn, report_runs hserves hperm c hn⟩⟩

/-- A header that includes a later one is missed by the first run and found by the second. -/
theorem registry_tends_to_closure_chain :
    let files := [Source.typed "x.h" "#include \"y.h\"\n", .typed "y.h" "#include <Python.h>\n"]
    let read := (FileTree.ofSources files).read
    let paths := files.map Source.path
    let calls := [Call.checkFiles paths, .scanFile (.ofString "x.h")]
    Serves read files ∧ (∀ call ∈ calls, call.DrawnFrom files)
      ∧ (∀ name, name ∈ (Checker.standard.performAll read calls).registry →
        Brings Checker.standard.registry files name)
      ∧ "x.h" ∉ (Checker.standard.runs read paths 1).registry
      ∧ "x.h" ∈ (Checker.standard.runs read paths 2).registry
      ∧ ∀ name, name ∈ (Checker.standard.runs read paths 2).registry
        ↔ Brings Checker.standard.registry files name := by
  intro files read paths calls
  have hserves : Serves read files := by decide +kernel
  have hdrawn : ∀ call ∈ calls, call.DrawnFrom files := by decide +kernel
  obtain ⟨hsound, hcomplete⟩ := registry_tends_to_closure Checker.standard hserves
  exact ⟨hserves, hdrawn, (hsound calls hdrawn).2, by decide +kernel, by decide +kernel,
    (hcomplete files (.refl files)).1⟩

end Checker

end IncludeOrder
