import IncludeOrder.Proofs.Answers
import IncludeOrder.Proofs.Directives
import Mathlib.Data.Set.Defs

/-!
# Names that take effect

Files are registered under whatever their base names are, and looked up under what directives can
name, which is a header path.  A base name that is no header path stays in the registry without
effect: no directive names it, so no report depends on it (`AddsInert.reports`), and a session
answers as if it were not there.

A base name that is a header path takes effect in every file that includes it.  If this is the
first directive of the file and no construct stands before it, the file is confirmed there with
nothing found (`report_of_first_directive`).
-/

set_option autoImplicit false

namespace IncludeOrder

open Text

/-! ## What is no header path -/

section Grammar

variable {path before extension : List Char}

theorem dot_not_mem_extension (h : isExtension extension = true) : '.' ∉ extension := by
  intro hdot
  exact absurd (Directive.isExtensionLetter_of_mem_extension h hdot) (by decide)

theorem isExtension_of_isHeaderPathFrom {named : Bool}
    (h : isHeaderPathFrom named (before ++ '.' :: extension) = true) :
    isExtension extension = true := by
  induction before generalizing named with
  | nil =>
    have hboth : named = true ∧ isExtension extension = true := by
      simpa [isHeaderPathFrom, isWord_dot] using h
    exact hboth.2
  | cons c before ih =>
    simp only [List.cons_append, isHeaderPathFrom] at h
    split at h
    · exact ih h
    · split at h
      · exact ih (Bool.and_eq_true_iff.mp h).2
      · split at h
        · -- a dot before this one would have put this one into its extension
          have hextension := (Bool.and_eq_true_iff.mp h).2
          exact absurd (by simp) (dot_not_mem_extension hextension)
        · cases h

/-- What follows a dot in a header path is its extension. -/
theorem isExtension_of_headerPath (h : HeaderPath (before ++ '.' :: extension)) :
    isExtension extension = true :=
  isExtension_of_isHeaderPathFrom ((isHeaderPath_eq_true_iff _).mpr h)

theorem count_dot_le_one (h : HeaderPath path) : path.count '.' ≤ 1 := by
  by_cases hdot : '.' ∈ path
  · obtain ⟨before, extension, rfl, hbefore⟩ := List.eq_append_cons_of_mem hdot
    have hafter := dot_not_mem_extension (isExtension_of_headerPath h)
    rw [List.count_append, List.count_cons_self, List.count_eq_zero.mpr hbefore,
      List.count_eq_zero.mpr hafter]
  · rw [List.count_eq_zero.mpr hdot]
    exact Nat.zero_le 1

/-- Names without effect: the empty one, and those with a hyphen, with two dots, with the ending of
a source, or with a replacement character. -/
theorem not_headerPath_of_shape
    (h : path = [] ∨ '-' ∈ path ∨ 2 ≤ path.count '.' ∨ ['.', 'c'] <:+ path ∨ '\ufffd' ∈ path) :
    ¬ HeaderPath path := by
  intro hpath
  have hforeign : ∀ c ∈ path, c ≠ '-' ∧ c ≠ '\ufffd' := by
    intro c hc
    rcases Directive.isWord_or_mark_of_mem_headerPath hpath c hc with hword | rfl | rfl | rfl
    · constructor <;> (rintro rfl; exact absurd hword (by decide))
    · decide
    · decide
    · decide
  rcases h with rfl | hhyphen | hdots | ⟨before, rfl⟩ | hreplacement
  · exact absurd ((isHeaderPath_eq_true_iff _).mpr hpath) (by decide)
  · exact (hforeign _ hhyphen).1 rfl
  · exact absurd (count_dot_le_one hpath) (Nat.not_le_of_lt hdots)
  · exact absurd (isExtension_of_headerPath hpath) (by decide)
  · exact (hforeign _ hreplacement).2 rfl

end Grammar

/-- Directives name header paths and nothing else. -/
theorem Source.headerPath_of_mem_headers {f : Source} {header : String} (h : header ∈ f.headers) :
    HeaderPath header.toList := by
  obtain ⟨numbered, -, hheader⟩ := List.mem_filterMap.mp h
  obtain ⟨path, hpath, rfl⟩ := Option.map_eq_some_iff.mp hheader
  simpa using Directive.headerPath_of_headerPath? hpath

/-! ## Names that are never looked up -/

/-- The second registry is the first with names added that are no header paths. -/
structure Registry.AddsInert (names : Set String) (r r' : Registry) : Prop where
  inert : ∀ name ∈ names, ¬ HeaderPath name.toList
  mem_iff : ∀ name, name ∈ r' ↔ name ∈ r ∨ name ∈ names

namespace Registry.AddsInert

variable {names : Set String} {r r' : Registry} (h : r.AddsInert names r')

include h

/-- On the headers of a source the two registries agree. -/
theorem mem_iff_of_mem_headers {f : Source} {header : String} (hheader : header ∈ f.headers) :
    header ∈ r' ↔ header ∈ r := by
  rw [h.mem_iff]
  refine ⟨?_, Or.inl⟩
  rintro (hknown | hadded)
  · exact hknown
  · exact absurd (Source.headerPath_of_mem_headers hheader) (h.inert header hadded)

/-- A scan teaches both the same. -/
theorem learn (f : Source) : (r.learn f).AddsInert names (r'.learn f) where
  inert := h.inert
  mem_iff name := by
    have hconfirms : r'.confirms f = r.confirms f :=
      confirms_congr fun _ => h.mem_iff_of_mem_headers
    rw [mem_learn, mem_learn, hconfirms, h.mem_iff]
    exact or_right_comm

theorem learnAll (files : List Source) :
    (r.learnAll files).AddsInert names (r'.learnAll files) := by
  induction files generalizing r r' with
  | nil => exact h
  | cons f files ih => exact ih (h.learn f)

theorem reports (s : Settings) (files : List Source) :
    Scan.reports s r' files = Scan.reports s r files := by
  induction files generalizing r r' with
  | nil => rfl
  | cons f files ih =>
    have hreport : Scan.report s r' f = Scan.report s r f :=
      Scan.report_congr s fun _ => h.mem_iff_of_mem_headers
    rw [Scan.reports, Scan.reports, hreport, ih (h.learn f)]

end Registry.AddsInert

/-! ## Names that are looked up first -/

namespace Scan

variable {s : Settings} {r : Registry} {label : Label} {live before after : List (List Char × Nat)}
  {numbered : List Char × Nat}

/-- If the first directive of a file names a registered header, the file has nothing else before
it that could be found than a construct. -/
theorem verdict_of_first_directive (hlive : live = before ++ numbered :: after)
    (hfirst : ∀ l ∈ before, header? l = none)
    (hplain : ∀ l ∈ before, ¬ HoldsConstruct s l.1)
    (hknown : designates r numbered = true) :
    verdict s r label live = ⟨0, []⟩ ∧ designated? r live = some numbered.2 := by
  have hnone : ∀ l ∈ before, designates r l = false := by
    exact fun l hl => designates_of_code (hfirst l hl)
  have hdesignated : designated? r live = some numbered.2 := by
    have hskip : before.find? (designates r) = none := by simpa using hnone
    simp [designated?, hlive, List.find?_append, hskip, hknown]
  have hpreceding : preceding r live = before := by
    rw [preceding, hlive, List.takeWhile_append_of_pos (by simpa using hnone),
      List.takeWhile_cons_of_neg (by simp [hknown]), List.append_nil]
  have hothers : otherLines s before = [] := by
    apply List.filterMap_eq_nil_iff.mpr
    intro l hl
    simp [hfirst l hl]
  have hsecondaries : secondaryFindings s label before = [] := by
    rw [secondaryFindings, List.map_eq_nil_iff]
    apply List.filterMap_eq_nil_iff.mpr
    intro l hl
    simp [hfirst l hl]
  have hconstruct : construct? s label before = none := by
    have hfind : before.find? (fun l => header? l = none ∧ HoldsConstruct s l.1) = none := by
      apply List.find?_eq_none.mpr
      intro l hl
      simp [hplain l hl]
    rw [construct?, hfind]
    split <;> rfl
  refine ⟨?_, hdesignated⟩
  rw [verdict, hdesignated, hpreceding, early, merged, hothers, hsecondaries, hconstruct]
  simp [late]

/-- A file whose first directive names a registered header is confirmed with nothing found. -/
theorem report_of_first_directive {g : Source} {d : Directive.Rendering} {line : Nat}
    (hlive : g.live = before ++ (d.line, line) :: after)
    (hfirst : ∀ l ∈ before, header? l = none)
    (hplain : ∀ l ∈ before, ¬ HoldsConstruct s l.1) (hknown : String.ofList d.path ∈ r) :
    report s r g = ⟨0, []⟩ ∧ r.confirms g = true := by
  have hheader : header? (d.line, line) = some (String.ofList d.path) := by
    rw [header?, Directive.headerPath?_eq_some_iff.mpr ⟨d, rfl, rfl⟩]
    rfl
  have hdesignates : designates r (d.line, line) = true := by
    rwa [designates_of_header hheader, Registry.contains_eq_true_iff]
  have hverdict : verdict s r g.path.label g.live = ⟨0, []⟩
      ∧ designated? r g.live = some line :=
    verdict_of_first_directive hlive hfirst hplain hdesignates
  refine ⟨hverdict.1, ?_⟩
  rw [← isSome_designated?, hverdict.2]
  rfl

end Scan

/-! ## Sessions -/

/-- **Which registered names take effect.**  Names that are no header paths have none, as are the
empty name and names with a hyphen, a second dot, the ending of a source or a replacement character:
if they are added to a registry, any session answers as it did, and registers the same besides them.
A header path has one: directives can name it, and once a file with this base name has been
confirmed, a scan in which the first directive names it finds nothing, unless a construct stands
before that line, counts nothing, and registers its file. -/
theorem Checker.names_taking_effect (c : Checker) :
    (∀ name : String, name = "" ∨ '-' ∈ name.toList ∨ 2 ≤ name.toList.count '.'
      ∨ ['.', 'c'] <:+ name.toList ∨ '\ufffd' ∈ name.toList → ¬ HeaderPath name.toList)
    ∧ (∀ (names : Set String) (c' : Checker), (∀ name ∈ names, ¬ HeaderPath name.toList) →
      c'.settings = c.settings → (∀ name, name ∈ c'.registry ↔ name ∈ c.registry ∨ name ∈ names) →
      ∀ requests : List Request, (c'.serve requests).1 = (c.serve requests).1
        ∧ ∀ n, ∀ name ∉ names, name ∈ (c'.serve (requests.take n)).2.registry
          ↔ name ∈ (c.serve (requests.take n)).2.registry)
    ∧ ∀ f : Source, (Scan.designated? c.registry f.live).isSome = true →
      HeaderPath f.baseName.toList →
      (∃ d : Directive.Rendering, d.path = f.baseName.toList)
      ∧ ∀ (requests : List Request) (g : Source) (d : Directive.Rendering) (line : Nat)
        (before after : List (List Char × Nat)),
        g.live = before ++ (d.line, line) :: after → d.path = f.baseName.toList →
        (∀ l ∈ before, Scan.header? l = none) →
        (∀ l ∈ before, ¬ Scan.HoldsConstruct c.settings l.1) →
        let later := ((c.scanText f.path f.text).2.serve requests).2
        (later.scanText g.path g.text).1 = ⟨0, []⟩
          ∧ g.baseName ∈ (later.scanText g.path g.text).2.registry := by
  refine ⟨?_, ?_, ?_⟩
  · intro name hshape
    apply not_headerPath_of_shape
    simpa using hshape
  · intro names c' hinert hsettings hunion requests
    have hadds : c.registry.AddsInert names c'.registry := ⟨hinert, hunion⟩
    constructor
    · apply serve_congr
      rw [hsettings]
      exact hadds.reports c.settings _
    · intro n name hname
      rw [registry_serve, registry_serve, (hadds.learnAll _).mem_iff]
      exact ⟨fun h => h.resolve_right hname, Or.inl⟩
  · intro f hconfirmed hgrammar
    refine ⟨Directive.exists_rendering_iff.mpr hgrammar, ?_⟩
    intro requests g d line before after hlive hpath hfirst hplain later
    have hsettings : later.settings = c.settings := by
      rw [settings_serve, settings_scanText_source]
    have hknown : String.ofList d.path ∈ later.registry := by
      rw [hpath, String.ofList_toList, registry_serve, registry_scanText_source]
      rw [Scan.isSome_designated?] at hconfirmed
      exact Registry.mem_learnAll_of_mem (Registry.baseName_mem_learn hconfirmed)
    rw [report_scanText_source, registry_scanText_source, hsettings]
    obtain ⟨hreport, hconfirms⟩ := Scan.report_of_first_directive hlive hfirst hplain hknown
    exact ⟨hreport, Registry.baseName_mem_learn hconfirms⟩

/-- A header with a hyphen in its name is registered in vain, and one in a directory is found by its
base name, after a run in which it stood. -/
theorem Checker.names_taking_effect_hyphen :
    let c := Checker.standard
    let names : Set String := fun name => name = "my-api.h" ∨ name = ""
    let c' := c.knowing ((c.registry.insert "my-api.h").insert "")
    let hyphen := Source.typed "m.c" "#include <math.h>\n#include \"my-api.h\"\nnpy_intp n;\n"
    let header := Source.typed "inc/api.h" "#include <math.h>\n#include <Python.h>\n"
    let read := (FileTree.ofSources [hyphen, header]).read
    let requests : List Request :=
      [⟨read, .checkFiles [hyphen.path, header.path]⟩, ⟨read, .scanFile (.ofString "no.c")⟩]
    let g := Source.typed "g.c"
      "/* npy_ */\nint x;\n#include \"api.h\"\n#include <math.h>\nnpy_intp n;\n"
    let d : Directive.Rendering := ⟨[], [], [' '], '"', "api.h".toList, '"', [], rfl, rfl, rfl, rfl,
      by decide +kernel, rfl, rfl⟩
    let before := [("int x;".toList, 2)]
    let after := [("#include <math.h>".toList, 4), ("npy_intp n;".toList, 5)]
    let later := ((c.scanText header.path header.text).2.serve requests).2
    (∀ name ∈ names, ¬ HeaderPath name.toList) ∧ c'.settings = c.settings
      ∧ (∀ name, name ∈ c'.registry ↔ name ∈ c.registry ∨ name ∈ names)
      ∧ (c'.serve requests).1 = (c.serve requests).1
      ∧ (Scan.designated? c.registry header.live).isSome = true
      ∧ HeaderPath header.baseName.toList
      ∧ g.live = before ++ (d.line, 3) :: after ∧ d.path = header.baseName.toList
      ∧ (∀ l ∈ before, Scan.header? l = none)
      ∧ (∀ l ∈ before, ¬ Scan.HoldsConstruct c.settings l.1)
      ∧ (later.scanText g.path g.text).1 = ⟨0, []⟩
      ∧ "g.c" ∈ (later.scanText g.path g.text).2.registry := by
  intro c names c' hyphen header read requests g d before after later
  obtain ⟨hshapes, hinert, heffect⟩ := names_taking_effect c
  have hnames : ∀ name ∈ names, ¬ HeaderPath name.toList := by
    rintro name (rfl | rfl)
    · exact hshapes _ (Or.inr (Or.inl (by decide)))
    · exact hshapes _ (Or.inl rfl)
  have hsettings : c'.settings = c.settings := rfl
  have hunion : ∀ name, name ∈ c'.registry ↔ name ∈ c.registry ∨ name ∈ names := by
    intro name
    have hadded : name ∈ c'.registry ↔ name = "" ∨ name = "my-api.h" ∨ name ∈ c.registry :=
      Registry.mem_insert.trans (or_congr_right Registry.mem_insert)
    have hnamed : name ∈ names ↔ name = "my-api.h" ∨ name = "" := Iff.rfl
    rw [hadded, hnamed]
    tauto
  have hdesignated : (Scan.designated? c.registry header.live).isSome = true := by decide +kernel
  have hgrammar : HeaderPath header.baseName.toList := by decide +kernel
  have hlive : g.live = before ++ (d.line, 3) :: after := by decide +kernel
  have hpath : d.path = header.baseName.toList := by decide +kernel
  have hfirst : ∀ l ∈ before, Scan.header? l = none := by decide +kernel
  have hplain : ∀ l ∈ before, ¬ Scan.HoldsConstruct c.settings l.1 := by decide +kernel
  obtain ⟨-, hlater⟩ := heffect header hdesignated hgrammar
  obtain ⟨hreport, hregistered⟩ := hlater requests g d 3 before after hlive hpath hfirst hplain
  have hname : g.baseName = "g.c" := by decide +kernel
  exact ⟨hnames, hsettings, hunion, (hinert names c' hnames hsettings hunion requests).1,
    hdesignated, hgrammar, hlive, hpath, hfirst, hplain, hreport, hname ▸ hregistered⟩

end IncludeOrder
