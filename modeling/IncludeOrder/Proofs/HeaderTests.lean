import IncludeOrder.Proofs.AsciiBytes
import IncludeOrder.Proofs.TwoGroups
import Mathlib.Data.List.Infix

/-!
# The two tests for headers

A run asks twice whether a file is a header.  The order of the run asks for a letter h in the path;
a scan asks for `.h` in the name of the file, and finds no constructs in a file that has it.  Both
ask the text that the bytes are read as.  Since decoding keeps ASCII as it stands, the answers are
those of the bytes (`isProbableHeader_iff`, `namesHeader_iff`).

The name of a file is a stretch of its path, so the second test is the stricter one: a file in which
no constructs are found is a probable header, and a run scans it before all files that are none.
-/

set_option autoImplicit false

namespace IncludeOrder

/-! ## Names of files -/

namespace Path

theorem mem_intersperse {α : Type} {separator item : α} {items : List α} (h : item ∈ items) :
    item ∈ items.intersperse separator := by
  induction items with
  | nil => cases h
  | cons first rest ih =>
    cases rest with
    | nil => exact h
    | cons second rest =>
      rw [List.intersperse_cons_cons]
      rcases List.mem_cons.mp h with rfl | hrest
      · exact List.mem_cons_self
      · exact List.mem_cons_of_mem _ (List.mem_cons_of_mem _ (ih hrest))

/-- A part between slashes is a stretch of the bytes, since the parts with the slashes are all of
them. -/
theorem infix_of_mem_cutSlashes {bytes part : List UInt8} (h : part ∈ cutSlashes bytes) :
    part <:+: bytes := by
  have hwhole : part <:+: [0x2F].intercalate (cutSlashes bytes) :=
    List.infix_of_mem_flatten (mem_intersperse h)
  rwa [intercalate_cutSlashes] at hwhole

/-- The name of a file is a stretch of its path. -/
theorem infix_of_fileName? {p : Path} {name : List UInt8} (h : p.fileName? = some name) :
    name <:+: p.bytes := by
  unfold fileName? at h
  split at h
  · rename_i part hlast
    split at h
    · cases h
    · obtain rfl := Option.some.inj h
      exact infix_of_mem_cutSlashes (List.mem_filter.mp (List.mem_of_getLast? hlast)).1
  · cases h

/-! ## What the tests ask of the bytes -/

theorem isProbableHeader_iff (p : Path) :
    p.isProbableHeader = true ↔ 0x68 ∈ p.bytes ∨ 0x48 ∈ p.bytes := by
  have hletter : ∀ b, Utf8.IsAscii b →
      (Utf8.asciiChar b ∈ p.display.toList ↔ b ∈ p.bytes) := by
    intro b hb
    have hneedle : ∀ b' ∈ [b], Utf8.IsAscii b' := by simpa using hb
    have hfound := Utf8.infix_decodeLossy_iff hneedle p.bytes
    rw [List.map_singleton, List.singleton_infix_iff, List.singleton_infix_iff] at hfound
    exact hfound
  have hlower : 'h' ∈ p.display.toList ↔ 0x68 ∈ p.bytes := hletter 0x68 (by decide)
  have hupper : 'H' ∈ p.display.toList ↔ 0x48 ∈ p.bytes := hletter 0x48 (by decide)
  rw [← hlower, ← hupper]
  simp [isProbableHeader]

theorem namesHeader_iff (p : Path) :
    p.label.namesHeader = true ↔ ∃ name, p.fileName? = some name ∧ [0x2E, 0x68] <:+: name := by
  rw [Label.namesHeader_iff]
  cases hname : p.fileName? with
  | none => simp [label, baseName, hname]
  | some name =>
    have hneedle : ∀ b ∈ [0x2E, 0x68], Utf8.IsAscii b := by simp [Utf8.IsAscii]
    have hfound : ['.', 'h'] <:+: (Utf8.decodeLossy name).toList ↔ [0x2E, 0x68] <:+: name :=
      Utf8.infix_decodeLossy_iff hneedle name
    have hbase : p.label.baseName = Utf8.decodeLossy name := by simp [label, baseName, hname]
    rw [hbase, hfound]
    simp

/-- A file in which no constructs are found is a probable header. -/
theorem isProbableHeader_of_namesHeader {p : Path} (h : p.label.namesHeader = true) :
    p.isProbableHeader = true := by
  obtain ⟨name, hname, hdot⟩ := (namesHeader_iff p).mp h
  have hletter : 0x68 ∈ name := hdot.subset (by simp)
  exact (isProbableHeader_iff p).mpr (Or.inl ((infix_of_fileName? hname).subset hletter))

end Path

/-! ## Files in which no constructs are found -/

namespace Checker

variable {read : FileReader} {c : Checker}

theorem kind_ne_constructFirst_of_mem_scanText {path : Path} {text : List Char} {f : Finding}
    (h : path.label.namesHeader = true) (hf : f ∈ (c.scanText path text).1.findings) :
    f.kind ≠ .constructFirst := by
  rw [report_scanText] at hf
  rcases List.mem_append.mp hf with hearly | hlate
  · have hnone : ∀ lines, Scan.construct? c.settings path.label lines = none := by
      intro lines
      rw [Scan.construct?, if_pos ((Scan.isHeader_iff path.label).mpr h)]
    rw [Scan.early, Scan.merged, hnone] at hearly
    have hsecondary := Scan.mem_secondaryFindings (by simpa using hearly)
    simp [hsecondary.1]
  · obtain ⟨-, line, -, rfl⟩ := Scan.mem_late hlate
    simp [Finding.kind]

theorem kind_ne_constructFirst_of_mem_visitAll {paths : List Path} {v : Visit} {f : Finding}
    (hv : v ∈ (c.visitAll read paths).1) (h : v.path.label.namesHeader = true)
    (hf : f ∈ v.findings) : f.kind ≠ .constructFirst := by
  obtain ⟨c', path, rfl⟩ := exists_visit_of_mem_visitAll hv
  rcases scanFile_cases read c' path with
    ⟨cause, -, hscan⟩ | ⟨bytes, -, -, hscan⟩ | ⟨text, -, hscan⟩
  · obtain rfl : f = .notUtf8 path.display := by simpa [visit, hscan, Visit.findings] using hf
    simp [Finding.kind]
  · obtain rfl : f = .notUtf8 path.display := by simpa [visit, hscan, Visit.findings] using hf
    simp [Finding.kind]
  · simp only [visit, hscan] at h
    simp only [visit, hscan, Visit.findings] at hf
    exact kind_ne_constructFirst_of_mem_scanText h hf

/-- **The two tests agree.**  A probable header is a path with a letter h among its bytes, and a file
in which no constructs are found is one with `.h` among the bytes of its name; so the second is one
of the first.  In every run the files of the second kind are visited before all files that are no
probable headers, and no construct is found in them. -/
theorem header_tests_agree :
    (∀ p : Path, p.isProbableHeader = true ↔ 0x68 ∈ p.bytes ∨ 0x48 ∈ p.bytes)
    ∧ (∀ p : Path, p.label.namesHeader = true ↔
      ∃ name, p.fileName? = some name ∧ [0x2E, 0x68] <:+: name)
    ∧ (∀ p : Path, p.label.namesHeader = true → p.isProbableHeader = true)
    ∧ ∀ (read : FileReader) (c : Checker) (paths : List Path),
      let visits := (c.visitAll read (readPart read (scanOrder paths))).1
      visits.map Visit.path = readPart read (scanOrder paths)
        ∧ (c.checkFiles read paths).1.findings = visits.flatMap Visit.findings
        ∧ visits.Pairwise (fun v w =>
          w.path.label.namesHeader = true → v.path.isProbableHeader = true)
        ∧ ∀ v ∈ visits, v.path.label.namesHeader = true →
          ∀ f ∈ v.findings, f.kind ≠ .constructFirst := by
  refine ⟨Path.isProbableHeader_iff, Path.namesHeader_iff,
    fun _ => Path.isProbableHeader_of_namesHeader, ?_⟩
  intro read c paths visits
  have hpaths : visits.map Visit.path = readPart read (scanOrder paths) := map_path_visitAll _ _ _
  refine ⟨hpaths, ?_, ?_, ?_⟩
  · rw [checkFiles_eq]
  · have horder : (visits.map Visit.path).Pairwise fun p q =>
        q.isProbableHeader = true → p.isProbableHeader = true := by
      rw [hpaths]
      exact (pairwise_scanOrder paths).sublist (List.takeWhile_sublist _)
    refine (List.pairwise_map.mp horder).imp ?_
    intro v w hprobable hheader
    exact hprobable (Path.isProbableHeader_of_namesHeader hheader)
  · intro v hv h f hf
    exact kind_ne_constructFirst_of_mem_visitAll hv h hf

/-- A header whose name is not UTF-8, a path in which such a byte stands between the dot and the h,
and a source. -/
theorem header_tests_agree_undecodable :
    let header : Path := ⟨[0xC3, 0x2E, 0x68]⟩
    let apart : Path := ⟨[0x61, 0x2E, 0xC3, 0x68]⟩
    let source := Path.ofString "b.c"
    let files := [source, apart, header].map fun path => Source.mk path "npy_intp n;".toList
    let read := (FileTree.ofSources files).read
    let visits := (Checker.standard.visitAll read [apart, header, source]).1
    header.label.namesHeader = true ∧ header.isProbableHeader = true
      ∧ apart.label.namesHeader = false ∧ apart.isProbableHeader = true
      ∧ source.isProbableHeader = false
      ∧ (Checker.standard.checkFiles read [source, apart, header]).1.findings
        = visits.flatMap Visit.findings
      ∧ visits.Pairwise (fun v w =>
        w.path.label.namesHeader = true → v.path.isProbableHeader = true)
      ∧ (∀ v ∈ visits, v.path = header → ∀ f ∈ v.findings, f.kind ≠ .constructFirst)
      ∧ visits.flatMap Visit.findings
        = [.constructFirst apart.display 1, .constructFirst "b.c" 1] := by
  intro header apart source files read visits
  obtain ⟨hprobable, hnames, himplies, hrun⟩ := header_tests_agree
  have horder : readPart read (scanOrder [source, apart, header]) = [apart, header, source] := by
    decide +kernel
  obtain ⟨-, hfindings, hvisits, hexempt⟩ := hrun read Checker.standard [source, apart, header]
  rw [horder] at hfindings hvisits hexempt
  have hheader : header.label.namesHeader = true :=
    (hnames header).mpr ⟨header.bytes, by decide +kernel, by decide⟩
  have hsource : ¬ source.isProbableHeader = true := by
    rw [hprobable]
    decide +kernel
  refine ⟨hheader, himplies header hheader, by decide +kernel,
    (hprobable apart).mpr (by decide), by simpa using hsource, hfindings, hvisits, ?_,
    by decide +kernel⟩
  intro v hv hpath
  exact hexempt v hv (hpath ▸ hheader)

end Checker

end IncludeOrder
