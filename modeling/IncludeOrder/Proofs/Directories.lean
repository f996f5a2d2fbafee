import IncludeOrder.Proofs.Tallies

/-!
# Directories

A path says more than the name of its file, and messages show all of it.  To a scan the rest means
nothing: it takes the shown path into its findings and decides by the name (`scanText_of_baseName`).
Two paths with one name get the same count, leave the same checker and get the same findings, each
under its own path.

The name is the last part of a path that names anything.  A directory in front of the path comes
before this part, and the parts that slashes and single dots behind the path add name nothing, so
the name stays (`fileName?_of_relocated`).
-/

set_option autoImplicit false

namespace IncludeOrder

/-! ## Findings under another path -/

/-- The finding about a file that is shown like this. -/
def Finding.showing (display : String) : Finding → Finding
  | outOfOrder _ designated line others => outOfOrder display designated line others
  | secondaryFirst _ designated header line => secondaryFirst display designated header line
  | constructFirst _ line => constructFirst display line
  | notUtf8 _ => notUtf8 display

namespace Finding

variable (display : String) (f : Finding)

theorem line_showing : (f.showing display).line = f.line := by
  cases f <;> rfl

theorem kind_showing : (f.showing display).kind = f.kind := by
  cases f <;> rfl

theorem path_showing : (f.showing display).path = display := by
  cases f <;> rfl

end Finding

/-- The report on a file that is shown like this. -/
def ScanReport.showing (display : String) (report : ScanReport) : ScanReport :=
  ⟨report.violations, report.findings.map (Finding.showing display)⟩

namespace Scan

variable {s : Settings} {r : Registry} {label label' : Label} {lines live : List (List Char × Nat)}

section Early

variable (h : label'.baseName = label.baseName)

include h

/-- The name of a file says whether it is a header, in which no constructs are found. -/
theorem construct?_of_baseName : construct? s label' lines = construct? s label lines := by
  have hheader : IsHeader label' = IsHeader label := by rw [IsHeader, IsHeader, h]
  simp only [construct?, hheader]

theorem early_showing :
    early s label' lines = (early s label lines).map (Finding.showing label'.display) := by
  apply early_map (Finding.line_showing label'.display)
  · rw [secondaryFindings, secondaryFindings, List.map_map]
    rfl
  · rw [construct?_of_baseName h, List.map_map]
    rfl

end Early

theorem late_showing (s : Settings) (label label' : Label) (others : List Nat)
    (designated : Option Nat) :
    late s label' others designated
      = (late s label others designated).map (Finding.showing label'.display) := by
  cases designated with
  | none => rfl
  | some line => cases others <;> rfl

/-- The verdict on a file with the same name that is shown in another way. -/
theorem verdict_showing (h : label'.baseName = label.baseName) :
    verdict s r label' live = (verdict s r label live).showing label'.display := by
  simp only [verdict, ScanReport.showing, early_showing h, late_showing s label label',
    List.map_append]

/-- Every finding shows the path of the scanned file. -/
theorem path_of_mem_verdict {f : Finding} (hf : f ∈ (verdict s r label live).findings) :
    f.path = label.display := by
  have hsame : verdict s r label live = (verdict s r label live).showing label.display :=
    verdict_showing rfl
  rw [hsame] at hf
  obtain ⟨g, -, rfl⟩ := List.mem_map.mp hf
  exact g.path_showing label.display

end Scan

/-- Metrics count findings by their kinds, and know no paths. -/
theorem Metrics.foldl_record_showing (display : String) (findings : List Finding) (m : Metrics) :
    ((findings.map (Finding.showing display)).map Scan.Event.found).foldl record m
      = (findings.map Scan.Event.found).foldl record m := by
  have hkind : ∀ kind, Finding.isKind kind ∘ Finding.showing display = Finding.isKind kind := by
    intro kind
    funext f
    rw [Function.comp_apply, Finding.isKind, Finding.isKind, f.kind_showing]
  simp only [foldl_record_found, List.countP_map, hkind]

/-! ## Paths with the same name -/

namespace Checker

/-- The metrics after a scan count its findings, a registration, and the scan. -/
theorem metrics_scanText_eq (c : Checker) (path : Path) (text : List Char) :
    (c.scanText path text).2.metrics
      = ((if (Scan.designated? c.registry (Scan.liveLines text)).isSome then
            Scan.registration c.registry path.label
          else []).foldl Metrics.record
        (((c.scanText path text).1.findings.map Scan.Event.found).foldl Metrics.record
          c.metrics)).countScan (c.scanText path text).1.violations := by
  rw [report_scanText]
  simp only [scanText_eq, conclude, Scan.run_eq, Scan.eventsOf, List.foldl_append,
    Scan.State.violations, Scan.verdict]

/-- Files with one name are the same to a scan, but for the path that is shown. -/
theorem scanText_of_baseName {p q : Path} (h : q.baseName = p.baseName) (c : Checker)
    (text : List Char) :
    c.scanText q text = ((c.scanText p text).1.showing q.display, (c.scanText p text).2) := by
  have hname : q.label.baseName = p.label.baseName := h
  have hreport : (c.scanText q text).1 = (c.scanText p text).1.showing q.display := by
    rw [report_scanText, report_scanText, Scan.verdict_showing hname, Path.label]
  have hregistry : (c.scanText q text).2.registry = (c.scanText p text).2.registry := by
    rw [registry_scanText, registry_scanText, Scan.registryAfter, Scan.registryAfter, hname]
  have hmetrics : (c.scanText q text).2.metrics = (c.scanText p text).2.metrics := by
    rw [metrics_scanText_eq, metrics_scanText_eq, hreport, ScanReport.showing,
      Metrics.foldl_record_showing, Scan.registration, Scan.registration, hname]
  have hchecker : (c.scanText q text).2 = (c.scanText p text).2 :=
    congrArg₂ (Checker.mk c.settings c.valid) hregistry hmetrics
  exact Prod.ext hreport hchecker

end Checker

/-! ## The same name in other places -/

namespace Path

/-- The parts of a path that name something, dots that lead upwards included. -/
def named (bytes : List UInt8) : List (List UInt8) :=
  (cutSlashes bytes).filter fun part => part ≠ [] ∧ part ≠ dot

theorem cutSlashes_append_slash (before after : List UInt8) :
    cutSlashes (before ++ 0x2F :: after) = cutSlashes before ++ cutSlashes after := by
  induction before with
  | nil => simp [cutSlashes]
  | cons b rest ih =>
    obtain ⟨part, parts, hparts⟩ := List.exists_cons_of_ne_nil (cutSlashes_ne_nil rest)
    rw [hparts] at ih
    by_cases hb : b = 0x2F
    · simp [cutSlashes, hb, ih, hparts]
    · simp [cutSlashes, hb, ih, hparts]

theorem named_append_slash (before after : List UInt8) :
    named (before ++ 0x2F :: after) = named before ++ named after := by
  rw [named, cutSlashes_append_slash, List.filter_append, named, named]

/-- The path leads to a file of the same name: it has been put into directories, and slashes or
single dots have been put behind it. -/
inductive Relocated (p : Path) : Path → Prop where
  /-- the path itself -/
  | here : Relocated p p
  /-- in a directory -/
  | inside {q : Path} (directory : List UInt8) :
    Relocated p q → Relocated p ⟨directory ++ 0x2F :: q.bytes⟩
  /-- with a slash behind it -/
  | slash {q : Path} : Relocated p q → Relocated p ⟨q.bytes ++ [0x2F]⟩
  /-- with a slash and a dot behind it -/
  | slashDot {q : Path} : Relocated p q → Relocated p ⟨q.bytes ++ [0x2F, 0x2E]⟩

/-- Only the parts that name something matter to the name of the file, and of these the last. -/
theorem fileName?_congr {p q : Path} (h : (named q.bytes).getLast? = (named p.bytes).getLast?) :
    q.fileName? = p.fileName? := by
  unfold named at h
  rw [fileName?, fileName?, parts, parts, h]

theorem named_ne_nil_of_fileName? {p : Path} (h : p.fileName? ≠ none) : named p.bytes ≠ [] := by
  intro hnil
  unfold named at hnil
  apply h
  rw [fileName?, parts, hnil]
  rfl

/-- A file keeps its name in a directory, and with slashes and single dots behind it. -/
theorem fileName?_of_relocated {p q : Path} (hname : p.fileName? ≠ none) (h : Relocated p q) :
    q.fileName? = p.fileName? := by
  induction h with
  | here => rfl
  | @inside q directory _ ih =>
    rw [← ih] at hname ⊢
    obtain ⟨last, hlast⟩ := List.getLast?_isSome.mpr (named_ne_nil_of_fileName? hname)
      |> Option.isSome_iff_exists.mp
    apply fileName?_congr
    rw [named_append_slash, List.getLast?_append, hlast, Option.some_or]
  | slash _ ih =>
    rw [← ih]
    apply fileName?_congr
    rw [named_append_slash]
    simp [named, cutSlashes]
  | slashDot _ ih =>
    rw [← ih]
    apply fileName?_congr
    rw [named_append_slash]
    simp [named, cutSlashes, dot]

theorem baseName_of_relocated {p q : Path} (hname : p.fileName? ≠ none) (h : Relocated p q) :
    q.baseName = p.baseName := by
  rw [baseName, baseName, fileName?_of_relocated hname h]

end Path

namespace Checker

/-- **Directories do not influence a scan.**  Scans of one text under two paths with the same name
come to the same count, leave the same checker, and find the same but for the path, which every
finding shows as it is given.  The name is kept when a path that has one is put into a directory,
or gets slashes or single dots behind it. -/
theorem directories_unseen :
    (∀ (c : Checker) (text : List Char) (p q : Path), q.baseName = p.baseName →
      c.scanText q text = ((c.scanText p text).1.showing q.display, (c.scanText p text).2))
    ∧ (∀ (c : Checker) (text : List Char) (p : Path), ∀ f ∈ (c.scanText p text).1.findings,
      f.path = Utf8.decodeLossy p.bytes)
    ∧ ∀ p q : Path, p.fileName? ≠ none → p.Relocated q →
      q.fileName? = p.fileName?
      ∧ ∀ (c : Checker) (text : List Char),
        c.scanText q text = ((c.scanText p text).1.showing q.display, (c.scanText p text).2) := by
  refine ⟨?_, ?_, ?_⟩
  · intro c text p q hname
    exact scanText_of_baseName hname c text
  · intro c text p f hf
    rw [report_scanText] at hf
    exact Scan.path_of_mem_verdict hf
  · intro p q hname hrelocated
    refine ⟨Path.fileName?_of_relocated hname hrelocated, ?_⟩
    exact scanText_of_baseName (Path.baseName_of_relocated hname hrelocated)

/-- A file in a directory below another one, and two names that are read alike without being
UTF-8. -/
theorem directories_unseen_elsewhere :
    let c := Checker.standard
    let text := "#include <stdio.h>\n#include <Python.h>\n".toList
    let p := Path.ofString "a.c"
    let q : Path := ⟨(Path.ofString "../src").bytes ++ 0x2F :: p.bytes ++ [0x2F, 0x2E] ++ [0x2F]⟩
    let first : Path := ⟨0xFF :: (Path.ofString ".c").bytes⟩
    let second : Path := ⟨[0x61, 0x2F, 0xC3] ++ (Path.ofString ".c").bytes⟩
    (p.fileName? ≠ none ∧ p.Relocated q)
      ∧ (c.scanText q text).1 = ⟨1, [.outOfOrder "../src/a.c/./" "Python.h" 2 [1]]⟩
      ∧ (c.scanText q text).2 = (c.scanText p text).2
      ∧ second.baseName = first.baseName
      ∧ c.scanText second text
        = ((c.scanText first text).1.showing "a/\uFFFD.c", (c.scanText first text).2) := by
  intro c text p q first second
  obtain ⟨hsame, -, hplace⟩ := directories_unseen
  have hname : p.fileName? ≠ none := by decide +kernel
  have hrelocated : p.Relocated q := .slash (.slashDot (.inside _ .here))
  have hfound : (c.scanText p text).1 = ⟨1, [.outOfOrder "a.c" "Python.h" 2 [1]]⟩ := by
    decide +kernel
  have hshown : q.display = "../src/a.c/./" := by decide +kernel
  have hscan := (hplace p q hname hrelocated).2 c text
  rw [hfound, hshown] at hscan
  have hlossy : second.baseName = first.baseName := by decide +kernel
  have hsecond : second.display = "a/\uFFFD.c" := by decide +kernel
  have hother := hsame c text first second hlossy
  rw [hsecond] at hother
  obtain ⟨hreport, hafter⟩ := Prod.ext_iff.mp hscan
  exact ⟨⟨hname, hrelocated⟩, hreport, hafter, hlossy, hother⟩

end Checker

end IncludeOrder
