import IncludeOrder.Checker
import IncludeOrder.Proofs.LiveLines
import Mathlib.Data.List.Infix
import Mathlib.Data.List.TakeWhile

/-!
# The verdict on a file

What a scan comes to, said without a state.  Let the designated line be the first live line that
names a header registered before the scan.  The live lines before it decide everything: the related
headers and the first construct among them are found on the spot, in the order of their lines; the
other headers are found out of order when the designated line comes at last, and count for nothing
if it never does.  Nothing after the designated line matters, not even the file's own name, which
is registered at that line and may be named from there on.

What a related header, a construct and a header file are is said by substrings and membership
(`Related`, `HoldsConstruct`, `IsHeader`), not by the tests that the scan makes.

`run_eq` gives every part of the state after a scan in these terms, `report_scanText` what a checker
reports, and `registry_scanText` what it has registered then.
-/

set_option autoImplicit false

namespace IncludeOrder

/-- The line a finding is about; a file that is left out has none. -/
def Finding.line : Finding → Nat
  | outOfOrder _ _ line _ => line
  | secondaryFirst _ _ _ line => line
  | constructFirst _ line => line
  | notUtf8 _ => 0

namespace Scan

/-! ## The rules -/

section Rules

variable (s : Settings) (label : Label) (header : String) (line : List Char)

/-- A header is related if its path contains the marker and is not exempt. -/
def Related : Prop := s.secondaryMarker.toList <:+: header.toList ∧ header ∉ s.secondaryExempt

/-- The line contains one of the substrings that mark code in need of the designated header. -/
def HoldsConstruct : Prop := ∃ marker ∈ s.constructMarkers, marker.toList <:+: line

/-- The file is itself a header: its base name contains `.h`. -/
def IsHeader : Prop := ['.', 'h'] <:+: label.baseName.toList

instance : Decidable (Related s header) := inferInstanceAs (Decidable (_ ∧ _))

instance : Decidable (HoldsConstruct s line) := inferInstanceAs (Decidable (∃ marker ∈ _, _))

instance : Decidable (IsHeader label) := inferInstanceAs (Decidable (_ <:+: _))

theorem related_iff : Related s header ↔ s.isSecondary header = true :=
  (s.isSecondary_iff header).symm

theorem holdsConstruct_iff : HoldsConstruct s line ↔ s.marksConstruct line = true :=
  (s.marksConstruct_iff line).symm

theorem isHeader_iff : IsHeader label ↔ label.namesHeader = true := label.namesHeader_iff.symm

end Rules

/-! ## The lines that decide -/

/-- The line is a directive that names a registered header. -/
def designates (r : Registry) (numbered : List Char × Nat) : Bool :=
  ∃ header ∈ header? numbered, header ∈ r

theorem designates_eq_true_iff {r : Registry} {numbered : List Char × Nat} :
    designates r numbered = true ↔ ∃ header, header? numbered = some header ∧ header ∈ r :=
  decide_eq_true_iff

/-- The number of the first line that names a registered header. -/
def designated? (r : Registry) (live : List (List Char × Nat)) : Option Nat :=
  (live.find? (designates r)).map Prod.snd

/-- The lines before the designated line; all of them when there is none. -/
def preceding (r : Registry) (live : List (List Char × Nat)) : List (List Char × Nat) :=
  live.takeWhile fun numbered => !designates r numbered

/-- The related headers that lines name, each with its line. -/
def secondaries (s : Settings) (lines : List (List Char × Nat)) : List (String × Nat) :=
  lines.filterMap fun numbered =>
    ((header? numbered).filter fun header => Related s header).map fun header =>
      (header, numbered.2)

/-- The lines that name any other header. -/
def otherLines (s : Settings) (lines : List (List Char × Nat)) : List Nat :=
  lines.filterMap fun numbered =>
    ((header? numbered).filter fun header => ¬ Related s header).map fun _ => numbered.2

/-- The first line of code in need of the designated header; none in a file that is a header. -/
def construct? (s : Settings) (label : Label) (lines : List (List Char × Nat)) : Option Nat :=
  if IsHeader label then none
  else (lines.find? fun numbered =>
    header? numbered = none ∧ HoldsConstruct s numbered.1).map Prod.snd

/-! ## The findings they give -/

/-- The findings of the related headers that lines name. -/
def secondaryFindings (s : Settings) (label : Label) (lines : List (List Char × Nat)) :
    List Finding :=
  (secondaries s lines).map fun named =>
    .secondaryFirst label.display s.designatedHeader named.1 named.2

/-- The findings of the related headers and of a construct, merged by ascending line. -/
def merged (s : Settings) (label : Label) (lines : List (List Char × Nat))
    (construct : Option Nat) : List Finding :=
  (secondaryFindings s label lines).merge
    (construct.toList.map (Finding.constructFirst label.display)) fun f g => f.line ≤ g.line

/-- What is found before the designated line. -/
def early (s : Settings) (label : Label) (lines : List (List Char × Nat)) : List Finding :=
  merged s label lines (construct? s label lines)

/-- What is found on the designated line, if there is one: the other headers before it. -/
def late (s : Settings) (label : Label) (others : List Nat) : Option Nat → List Finding
  | some line =>
    if others.isEmpty then []
    else [.outOfOrder label.display s.designatedHeader line others]
  | none => []

/-- The registration of a file that is confirmed. -/
def registration (r : Registry) (label : Label) : List Event :=
  if r.contains label.baseName then [] else [.registered (r.insert label.baseName).size]

/-! ## Merging along a cut -/

section Merge

variable {α : Type} {le : α → α → Bool}

theorem append_merge {xs xs' ys : List α} (h : ∀ x ∈ xs, ∀ y ∈ ys, le x y = true) :
    (xs ++ xs').merge ys le = xs ++ xs'.merge ys le := by
  induction xs with
  | nil => rfl
  | cons x xs ih =>
    have hrest := ih fun z hz => h z (List.mem_cons_of_mem _ hz)
    cases ys with
    | nil => simp
    | cons y ys =>
      have hfirst : le x y = true := h x List.mem_cons_self y List.mem_cons_self
      simpa [List.cons_merge_cons, hfirst] using hrest

theorem merge_append {xs ys ys' : List α} (h : ∀ x ∈ xs, ∀ y ∈ ys, le x y = false) :
    xs.merge (ys ++ ys') le = ys ++ xs.merge ys' le := by
  induction ys with
  | nil => rfl
  | cons y ys ih =>
    have hrest := ih fun x hx z hz => h x hx z (List.mem_cons_of_mem _ hz)
    cases xs with
    | nil => simp
    | cons x xs =>
      have hfirst : le x y = false := h x List.mem_cons_self y List.mem_cons_self
      simpa [List.cons_merge_cons, hfirst] using hrest

/-- What lies before a cut and what lies after it are merged separately. -/
theorem append_merge_append {xs ys xs' ys' : List α}
    (hbefore : ∀ x ∈ xs, ∀ y ∈ ys', le x y = true)
    (hafter : ∀ x ∈ xs', ∀ y ∈ ys, le x y = false) :
    (xs ++ xs').merge (ys ++ ys') le = xs.merge ys le ++ xs'.merge ys' le := by
  fun_induction List.merge xs ys le with
  | case1 ys => exact merge_append hafter
  | case2 xs => simpa using append_merge hbefore
  | case3 x xs y ys hle ih =>
    have hrest := ih (fun z hz => hbefore z (List.mem_cons_of_mem _ hz)) hafter
    simpa [List.cons_merge_cons, hle] using hrest
  | case4 x xs y ys hle ih =>
    have hrest := ih hbefore fun z hz w hw => hafter z hz w (List.mem_cons_of_mem _ hw)
    simpa [List.cons_merge_cons, hle] using hrest

end Merge

/-! ## Before the designated line -/

section Passing

variable {s : Settings} {label : Label} {lines rest : List (List Char × Nat)}

theorem number_of_mem_secondaryFindings {f : Finding}
    (h : f ∈ secondaryFindings s label lines) : ∃ numbered ∈ lines, numbered.2 = f.line := by
  obtain ⟨named, hnamed, rfl⟩ := List.mem_map.mp h
  obtain ⟨numbered, hmem, hsome⟩ := List.mem_filterMap.mp hnamed
  obtain ⟨header, -, rfl⟩ := Option.map_eq_some_iff.mp hsome
  exact ⟨numbered, hmem, rfl⟩

theorem number_of_construct? {line : Nat} (h : construct? s label lines = some line) :
    ∃ numbered ∈ lines, numbered.2 = line := by
  unfold construct? at h
  split at h
  · cases h
  · obtain ⟨numbered, hfind, rfl⟩ := Option.map_eq_some_iff.mp h
    exact ⟨numbered, List.mem_of_find?_eq_some hfind, rfl⟩

theorem secondaryFindings_append :
    secondaryFindings s label (lines ++ rest)
      = secondaryFindings s label lines ++ secondaryFindings s label rest := by
  simp [secondaryFindings, secondaries]

theorem otherLines_append :
    otherLines s (lines ++ rest) = otherLines s lines ++ otherLines s rest :=
  List.filterMap_append

theorem construct?_append :
    construct? s label (lines ++ rest)
      = (construct? s label lines).or (construct? s label rest) := by
  unfold construct?
  split
  · rfl
  · rw [List.find?_append]
    cases List.find? _ lines <;> rfl

/-- The findings on lines that are cut in two: a construct is found in the second part only if
there was none in the first. -/
theorem merged_append (hcut : ∀ l ∈ lines, ∀ m ∈ rest, l.2 < m.2) (warned : Bool) :
    merged s label (lines ++ rest) (if warned then none else construct? s label (lines ++ rest))
      = merged s label lines (if warned then none else construct? s label lines)
        ++ merged s label rest
          (if warned || (construct? s label lines).isSome then none
            else construct? s label rest) := by
  unfold merged
  rw [secondaryFindings_append, construct?_append]
  cases warned with
  | true => simp
  | false =>
    cases hfirst : construct? s label lines with
    | none =>
      have hbefore : ∀ x ∈ secondaryFindings s label lines,
          ∀ y ∈ (construct? s label rest).toList.map (Finding.constructFirst label.display),
          decide (x.line ≤ y.line) = true := by
        intro x hx y hy
        obtain ⟨l, hl, hlx⟩ := number_of_mem_secondaryFindings hx
        obtain ⟨line, hline, rfl⟩ := List.mem_map.mp hy
        obtain ⟨m, hm, rfl⟩ := number_of_construct? (Option.mem_toList.mp hline)
        rw [← hlx]
        exact decide_eq_true (Nat.le_of_lt (hcut l hl m hm))
      simpa using append_merge hbefore
    | some line =>
      have hafter : ∀ x ∈ secondaryFindings s label rest,
          ∀ y ∈ [Finding.constructFirst label.display line],
          decide (x.line ≤ y.line) = false := by
        intro x hx y hy
        obtain ⟨m, hm, hmx⟩ := number_of_mem_secondaryFindings hx
        obtain ⟨l, hl, rfl⟩ := number_of_construct? hfirst
        rw [List.mem_singleton.mp hy, ← hmx]
        exact decide_eq_false (Nat.not_le_of_lt (hcut l hl m hm))
      have hnone : ∀ x ∈ secondaryFindings s label lines, ∀ y ∈ ([] : List Finding),
          decide (x.line ≤ y.line) = true := by simp
      simpa using append_merge_append hnone hafter

/-- The state after lines that name no registered header. -/
def State.pass (s : Settings) (label : Label) (lines : List (List Char × Nat)) (st : State) :
    State :=
  { st with
    others := st.others ++ otherLines s lines
    warned := st.warned || (construct? s label lines).isSome
    events := st.events ++ (merged s label lines
      (if st.warned then none else construct? s label lines)).map .found }

theorem State.pass_append (hcut : ∀ l ∈ lines, ∀ m ∈ rest, l.2 < m.2) (st : State) :
    (st.pass s label lines).pass s label rest = st.pass s label (lines ++ rest) := by
  simp only [pass, State.mk.injEq, true_and]
  refine ⟨?_, ?_, ?_⟩
  · rw [otherLines_append, List.append_assoc]
  · rw [construct?_append, Option.isSome_or, Bool.or_assoc]
  · rw [merged_append hcut, List.map_append, ← List.append_assoc]
    rfl

theorem State.pass_nil (st : State) : st.pass s label [] = st := by
  have hnone : construct? s label [] = none := by simp [construct?]
  simp [pass, merged, secondaryFindings, secondaries, otherLines, hnone]

section OneLine

variable {numbered : List Char × Nat} {header : String}

theorem designates_of_header {r : Registry} (h : header? numbered = some header) :
    designates r numbered = r.contains header := by
  rw [Bool.eq_iff_iff, Registry.contains_eq_true_iff]
  simp [designates, h]

theorem designates_of_code {r : Registry} (h : header? numbered = none) :
    designates r numbered = false := by
  simp [designates, h]

theorem secondaries_of_header (h : header? numbered = some header) :
    secondaries s [numbered] = if s.isSecondary header then [(header, numbered.2)] else [] := by
  cases hsecondary : s.isSecondary header <;>
    simp [secondaries, Option.filter, h, related_iff, hsecondary]

theorem otherLines_of_header (h : header? numbered = some header) :
    otherLines s [numbered] = if s.isSecondary header then [] else [numbered.2] := by
  cases hsecondary : s.isSecondary header <;>
    simp [otherLines, Option.filter, h, related_iff, hsecondary]

theorem construct?_of_header (h : header? numbered = some header) :
    construct? s label [numbered] = none := by
  simp [construct?, h]

theorem secondaries_of_code (h : header? numbered = none) : secondaries s [numbered] = [] := by
  simp [secondaries, h]

theorem otherLines_of_code (h : header? numbered = none) : otherLines s [numbered] = [] := by
  simp [otherLines, h]

theorem construct?_of_code (h : header? numbered = none) :
    construct? s label [numbered]
      = if label.namesHeader then none
        else if s.marksConstruct numbered.1 then some numbered.2 else none := by
  cases hmarks : s.marksConstruct numbered.1 <;>
    simp [construct?, h, isHeader_iff, holdsConstruct_iff, hmarks]

end OneLine

/-- One line that names no registered header, in a file that is not confirmed yet. -/
theorem State.seeLive_eq_pass {st : State} {numbered : List Char × Nat}
    (hnone : designates st.registry numbered = false) (hopen : st.confirmed = false) :
    st.seeLive s label numbered = st.pass s label [numbered] := by
  obtain ⟨registry, mode, confirmed, others, warned, events⟩ := st
  simp only at hnone hopen
  subst hopen
  cases hheader : header? numbered with
  | some header =>
    have hunknown : registry.contains header = false := by
      rwa [designates_of_header hheader] at hnone
    simp only [seeLive, seeHeader, pass, merged, secondaryFindings, hheader, hunknown,
      secondaries_of_header hheader, otherLines_of_header hheader, construct?_of_header hheader]
    cases s.isSecondary header <;> simp [log]
  | none =>
    simp only [seeLive, seeCode, pass, merged, secondaryFindings, hheader,
      secondaries_of_code hheader, otherLines_of_code hheader, construct?_of_code hheader]
    cases warned <;> cases label.namesHeader <;> cases s.marksConstruct numbered.1 <;> simp [log]

/-- Lines that name no registered header, in a file that is not confirmed yet. -/
theorem State.foldl_seeLive_eq_pass {st : State}
    (hnone : ∀ l ∈ lines, designates st.registry l = false) (hopen : st.confirmed = false)
    (hascending : lines.Pairwise fun l m => l.2 < m.2) :
    lines.foldl (seeLive s label) st = st.pass s label lines := by
  induction lines generalizing st with
  | nil => exact st.pass_nil.symm
  | cons numbered lines ih =>
    rw [List.pairwise_cons] at hascending
    have hfirst : designates st.registry numbered = false := hnone numbered List.mem_cons_self
    have hrest : lines.foldl (seeLive s label) (st.pass s label [numbered])
        = (st.pass s label [numbered]).pass s label lines :=
      ih (fun l hl => hnone l (List.mem_cons_of_mem _ hl)) hopen hascending.2
    rw [List.foldl_cons, seeLive_eq_pass hfirst hopen, hrest]
    exact pass_append (by simpa using hascending.1) st

end Passing

/-! ## The designated line and after it -/

/-- The line that names a registered header for the first time confirms and registers the file. -/
theorem State.seeLive_of_designates {s : Settings} {label : Label} {st : State}
    {numbered : List Char × Nat} (hknown : designates st.registry numbered = true)
    (hopen : st.confirmed = false) :
    st.seeLive s label numbered
      = { st with
          registry := st.registry.insert label.baseName
          confirmed := true
          events := st.events ++ (late s label st.others (some numbered.2)).map .found
            ++ registration st.registry label } := by
  obtain ⟨registry, mode, confirmed, others, warned, events⟩ := st
  simp only at hknown hopen
  subst hopen
  obtain ⟨header, hheader, hmem⟩ := designates_eq_true_iff.mp hknown
  have hcontains : registry.contains header = true := Registry.contains_eq_true_iff.mpr hmem
  cases hname : registry.contains label.baseName <;> cases others <;>
    simp [seeLive, seeHeader, confirm, register, Registry.register_eq, late, registration, log,
      hheader, hcontains, hname]

/-- A confirmed file whose name is registered is read to its end without any effect. -/
theorem State.foldl_seeLive_of_confirmed {s : Settings} {label : Label} {st : State}
    (lines : List (List Char × Nat)) (hconfirmed : st.confirmed = true)
    (hname : label.baseName ∈ st.registry) : lines.foldl (seeLive s label) st = st := by
  have hstep : ∀ numbered, st.seeLive s label numbered = st := by
    intro numbered
    obtain ⟨registry, mode, confirmed, others, warned, events⟩ := st
    simp only at hconfirmed hname
    subst hconfirmed
    have hcontains : registry.contains label.baseName = true :=
      Registry.contains_eq_true_iff.mpr hname
    cases hheader : header? numbered with
    | some header =>
      cases hknown : registry.contains header <;>
        simp [seeLive, seeHeader, confirm, register, Registry.register_eq, hheader, hknown,
          hcontains, Registry.insert_of_mem hname]
    | none => simp [seeLive, seeCode, hheader]
  induction lines with
  | nil => rfl
  | cons numbered rest ih => rw [List.foldl_cons, hstep, ih]

/-! ## The whole file -/

/-- The live lines up to the designated line. -/
theorem designated_cases (r : Registry) (live : List (List Char × Nat)) :
    (designated? r live = none ∧ preceding r live = live) ∨
      ∃ numbered after, designated? r live = some numbered.2 ∧
        designates r numbered = true ∧ live = preceding r live ++ numbered :: after := by
  induction live with
  | nil => exact Or.inl ⟨rfl, rfl⟩
  | cons first rest ih =>
    cases hfirst : designates r first with
    | true =>
      refine Or.inr ⟨first, rest, ?_, hfirst, ?_⟩
      · simp [designated?, hfirst]
      · simp [preceding, hfirst]
    | false =>
      have hpreceding : preceding r (first :: rest) = first :: preceding r rest := by
        simp [preceding, hfirst]
      have hline : designated? r (first :: rest) = designated? r rest := by
        simp [designated?, hfirst]
      rw [hpreceding, hline]
      rcases ih with ⟨hnone, hall⟩ | ⟨numbered, after, hsome, hknown, hsplit⟩
      · exact Or.inl ⟨hnone, by rw [hall]⟩
      · exact Or.inr ⟨numbered, after, hsome, hknown, congrArg (first :: ·) hsplit⟩

theorem not_designates_of_mem_preceding {r : Registry} {live : List (List Char × Nat)}
    {numbered : List Char × Nat} (h : numbered ∈ preceding r live) :
    designates r numbered = false := by
  have := List.mem_takeWhile_imp h
  simpa using this

/-- The registry after a scan: the file's own name is added if there is a designated line. -/
def registryAfter (r : Registry) (label : Label) (designated : Option Nat) : Registry :=
  if designated.isSome then r.insert label.baseName else r

/-- The events of a scan in order: what is found before the designated line, what is found on it,
and the registration. -/
def eventsOf (s : Settings) (r : Registry) (label : Label)
    (live : List (List Char × Nat)) : List Event :=
  (early s label (preceding r live)
      ++ late s label (otherLines s (preceding r live)) (designated? r live)).map .found
    ++ if (designated? r live).isSome then registration r label else []

/-- A registration is no finding, so the findings of a scan are the early and the late ones. -/
theorem findings_eventsOf (s : Settings) (r : Registry) (label : Label)
    (live : List (List Char × Nat)) :
    (eventsOf s r label live).filterMap Event.finding?
      = early s label (preceding r live)
        ++ late s label (otherLines s (preceding r live)) (designated? r live) := by
  have hregistration : (if (designated? r live).isSome then registration r label
      else []).filterMap Event.finding? = [] := by
    unfold registration
    repeat' split
    all_goals rfl
  have hfound : Event.finding? ∘ Event.found = some := rfl
  rw [eventsOf, List.filterMap_append, hregistration, List.append_nil, List.filterMap_map,
    hfound, List.filterMap_some]

/-- Reading all live lines, in the mode the scan starts in. -/
theorem State.foldl_seeLive_start (s : Settings) (r : Registry) (label : Label)
    {live : List (List Char × Nat)} (hascending : live.Pairwise fun l m => l.2 < m.2) :
    live.foldl (seeLive s label) (start r)
      = { registry := registryAfter r label (designated? r live)
          mode := .code
          confirmed := (designated? r live).isSome
          others := otherLines s (preceding r live)
          warned := (construct? s label (preceding r live)).isSome
          events := eventsOf s r label live } := by
  have hbefore : (preceding r live).foldl (seeLive s label) (start r)
      = (start r).pass s label (preceding r live) :=
    foldl_seeLive_eq_pass (fun _ hl => not_designates_of_mem_preceding hl) rfl
      (hascending.sublist (List.takeWhile_sublist _))
  rcases designated_cases r live with ⟨hnone, hall⟩ | ⟨numbered, after, hsome, hknown, hsplit⟩
  · rw [hall] at hbefore
    rw [hbefore, eventsOf, hnone, hall]
    simp [pass, start, registryAfter, early, late]
  · have hline : (((start r).pass s label (preceding r live)).seeLive s label numbered)
        = { (start r).pass s label (preceding r live) with
            registry := r.insert label.baseName
            confirmed := true
            events := eventsOf s r label live } := by
      rw [seeLive_of_designates hknown rfl, eventsOf, hsome]
      simp [pass, start, early]
    have hall : live.foldl (seeLive s label) (start r)
        = (preceding r live ++ numbered :: after).foldl (seeLive s label) (start r) := by
      rw [← hsplit]
    rw [hall, List.foldl_append, hbefore, List.foldl_cons, hline,
      foldl_seeLive_of_confirmed after rfl (Registry.mem_insert.mpr (Or.inl rfl)), hsome]
    simp [pass, start, registryAfter]

/-- Everything a scan comes to. -/
theorem run_eq (s : Settings) (r : Registry) (label : Label) (text : List Char) :
    run s r label text
      = { registry := registryAfter r label (designated? r (liveLines text))
          mode := modeAfter .code ((Text.lines text).zipIdx 1)
          confirmed := (designated? r (liveLines text)).isSome
          others := otherLines s (preceding r (liveLines text))
          warned := (construct? s label (preceding r (liveLines text))).isSome
          events := eventsOf s r label (liveLines text) } := by
  have hlive := State.foldl_seeLive_start s r label (ascending_liveLines text)
  rw [run_eq_foldl, foldl_seeLine]
  exact congrArg
    (fun st : State => { st with mode := modeAfter .code ((Text.lines text).zipIdx 1) }) hlive

/-- The report on a file that has these live lines, when these headers are registered. -/
def verdict (s : Settings) (r : Registry) (label : Label) (live : List (List Char × Nat)) :
    ScanReport where
  violations :=
    if (designated? r live).isSome then (otherLines s (preceding r live)).length else 0
  findings :=
    early s label (preceding r live)
      ++ late s label (otherLines s (preceding r live)) (designated? r live)

end Scan

namespace Checker

theorem report_scanText (c : Checker) (path : Path) (text : List Char) :
    (c.scanText path text).1
      = Scan.verdict c.settings c.registry path.label (Scan.liveLines text) := by
  simp only [scanText_eq, conclude, Scan.run_eq, Scan.State.violations, Scan.State.findings,
    Scan.findings_eventsOf, Scan.verdict]

theorem registry_scanText (c : Checker) (path : Path) (text : List Char) :
    (c.scanText path text).2.registry
      = Scan.registryAfter c.registry path.label
        (Scan.designated? c.registry (Scan.liveLines text)) := by
  simp only [scanText_eq, conclude, Scan.run_eq]

/-- Texts with the same live lines are the same to a scan. -/
theorem scanText_congr {text text' : List Char} (h : Scan.liveLines text' = Scan.liveLines text)
    (c : Checker) (path : Path) : c.scanText path text' = c.scanText path text := by
  simp only [scanText_eq, conclude, Scan.run_eq, Scan.State.violations, Scan.State.findings, h]

/-- **The verdict on a file.**  Counted are the other headers before the designated line, if there
is one.  Found are the related headers and the first construct before it, by ascending line, and
last the other headers, if there are any and the line is there.  Registered is then the base name of
the file, and otherwise nothing. -/
theorem scanText_verdict (c : Checker) (path : Path) (text : List Char) :
    (c.scanText path text).1.violations
        = (if (Scan.designated? c.registry (Scan.liveLines text)).isSome then
            (Scan.otherLines c.settings
              (Scan.preceding c.registry (Scan.liveLines text))).length
          else 0)
      ∧ (c.scanText path text).1.findings
        = Scan.early c.settings path.label (Scan.preceding c.registry (Scan.liveLines text))
          ++ Scan.late c.settings path.label
            (Scan.otherLines c.settings (Scan.preceding c.registry (Scan.liveLines text)))
            (Scan.designated? c.registry (Scan.liveLines text))
      ∧ (c.scanText path text).2.registry
        = if (Scan.designated? c.registry (Scan.liveLines text)).isSome then
            c.registry.insert path.baseName
          else c.registry := by
  rw [report_scanText, registry_scanText]
  exact ⟨rfl, rfl, rfl⟩

/-- A related header, an exempt one, a construct and a fourth header, all before the designated
line; and the same text in a file that is a header, where the construct is allowed. -/
theorem scanText_verdict_mixed :
    let text := ("#include <numpy/a.h>\n#include <numpy/utils.h>\nnpy_t n;\n#include <m.h>\n"
      ++ "#include <Python.h>").toList
    let before := [("#include <numpy/a.h>".toList, 1), ("#include <numpy/utils.h>".toList, 2),
      ("npy_t n;".toList, 3), ("#include <m.h>".toList, 4)]
    let live := before ++ [("#include <Python.h>".toList, 5)]
    let source := Path.ofString "b/m.c"
    let header := Path.ofString "b/m.h"
    let c := standard
    Scan.liveLines text = live
      ∧ Scan.designated? c.registry live = some 5
      ∧ Scan.preceding c.registry live = before
      ∧ Scan.secondaries c.settings before = [("numpy/a.h", 1)]
      ∧ Scan.otherLines c.settings before = [2, 4]
      ∧ Scan.construct? c.settings source.label before = some 3
      ∧ Scan.construct? c.settings header.label before = none
      ∧ (c.scanText source text).1.violations = 2
      ∧ (c.scanText source text).1.findings
        = [.secondaryFirst "b/m.c" "Python.h" "numpy/a.h" 1, .constructFirst "b/m.c" 3,
          .outOfOrder "b/m.c" "Python.h" 5 [2, 4]]
      ∧ (c.scanText source text).2.registry = c.registry.insert "m.c"
      ∧ (c.scanText header text).1.findings
        = [.secondaryFirst "b/m.h" "Python.h" "numpy/a.h" 1,
          .outOfOrder "b/m.h" "Python.h" 5 [2, 4]] := by
  intro text before live source header c
  have hlive : Scan.liveLines text = live := by decide +kernel
  have hline : Scan.designated? c.registry live = some 5 := by decide +kernel
  have hbefore : Scan.preceding c.registry live = before := by decide +kernel
  have hsecondaries : Scan.secondaries c.settings before = [("numpy/a.h", 1)] := by
    decide +kernel
  have hothers : Scan.otherLines c.settings before = [2, 4] := by decide +kernel
  have hconstruct : Scan.construct? c.settings source.label before = some 3 := by decide +kernel
  have hallowed : Scan.construct? c.settings header.label before = none := by decide +kernel
  obtain ⟨hcount, hfindings, hregistry⟩ := c.scanText_verdict source text
  obtain ⟨-, hfindings', -⟩ := c.scanText_verdict header text
  rw [hlive, hline, hbefore, hothers] at hcount
  rw [hlive, hline, hbefore, hothers, Scan.early, Scan.merged, Scan.secondaryFindings,
    hsecondaries] at hfindings hfindings'
  rw [hconstruct] at hfindings
  rw [hallowed] at hfindings'
  rw [hlive, hline] at hregistry
  have hsource : source.label.display = "b/m.c" := by decide +kernel
  have hheader : header.label.display = "b/m.h" := by decide +kernel
  have hname : source.baseName = "m.c" := by decide +kernel
  have hdesignated : c.settings.designatedHeader = "Python.h" := rfl
  refine ⟨hlive, hline, hbefore, hsecondaries, hothers, hconstruct, hallowed, hcount, ?_, ?_, ?_⟩
  · simpa [Scan.late, Finding.line, hsource, hdesignated] using hfindings
  · simpa [hname] using hregistry
  · simpa [Scan.late, hheader, hdesignated] using hfindings'

end Checker

end IncludeOrder
