import IncludeOrder.Checker
import IncludeOrder.Proofs.LiveLines

/-!
# Other numbers for the lines

A scan looks at the text of a line and never at its number: numbers are only kept, in the lines of
other headers and in findings.  So the same lines under other numbers lead to the same state but for
the numbers in it (`State.seeLive_renumber` for one line), whatever the numbers are.  The count of
violations, the registry and the metrics hold no line numbers and stay as they are
(`conclude_renumber`).
-/

set_option autoImplicit false

namespace IncludeOrder

/-- The finding with other line numbers. -/
def Finding.renumber (number : Nat → Nat) : Finding → Finding
  | outOfOrder path designated line others =>
    outOfOrder path designated (number line) (others.map number)
  | secondaryFirst path designated header line =>
    secondaryFirst path designated header (number line)
  | constructFirst path line => constructFirst path (number line)
  | notUtf8 path => notUtf8 path

theorem Finding.kind_renumber (number : Nat → Nat) (f : Finding) :
    (f.renumber number).kind = f.kind := by
  cases f <;> rfl

namespace Scan

/-- The event with other line numbers. -/
def Event.renumber (number : Nat → Nat) : Event → Event
  | found finding => found (finding.renumber number)
  | registered size => registered size

/-- The state with other line numbers. -/
def State.renumber (number : Nat → Nat) (st : State) : State :=
  { st with
    others := st.others.map number
    events := st.events.map (Event.renumber number) }

/-- The line under another number. -/
def renumbered (number : Nat → Nat) (numbered : List Char × Nat) : List Char × Nat :=
  (numbered.1, number numbered.2)

section Renumber

variable (number : Nat → Nat) (s : Settings) (label : Label) (st : State) (line : Nat)

@[simp] theorem State.registry_renumber : (st.renumber number).registry = st.registry := rfl

@[simp] theorem State.confirmed_renumber : (st.renumber number).confirmed = st.confirmed := rfl

@[simp] theorem State.others_renumber :
    (st.renumber number).others = st.others.map number := rfl

@[simp] theorem State.warned_renumber : (st.renumber number).warned = st.warned := rfl

/-! ## One line -/

theorem State.log_renumber (event : Event) :
    (st.renumber number).log (event.renumber number) = (st.log event).renumber number := by
  simp [log, renumber]

theorem State.register_renumber :
    (st.renumber number).register label = (st.register label).renumber number := by
  rw [register, register, registry_renumber]
  cases st.registry.register label.baseName with
  | mk isNew registry =>
    cases isNew with
    | true => exact log_renumber number { st with registry } (.registered registry.size)
    | false => rfl

theorem State.confirm_renumber :
    (st.renumber number).confirm s label (number line)
      = (st.confirm s label line).renumber number := by
  have hlog := log_renumber number st
    (.found (.outOfOrder label.display s.designatedHeader line st.others))
  rw [Event.renumber, Finding.renumber] at hlog
  rw [confirm, confirm, confirmed_renumber, others_renumber, List.isEmpty_map]
  cases st.confirmed || st.others.isEmpty with
  | true => exact register_renumber number label { st with confirmed := true }
  | false =>
    simp only [Bool.false_eq_true, if_false, hlog]
    exact register_renumber number label
      { st.log (.found (.outOfOrder label.display s.designatedHeader line st.others)) with
        confirmed := true }

theorem State.seeHeader_renumber (header : String) :
    (st.renumber number).seeHeader s label (number line) header
      = (st.seeHeader s label line header).renumber number := by
  rw [seeHeader, seeHeader, registry_renumber, confirmed_renumber]
  cases st.registry.contains header with
  | true => exact confirm_renumber number s label st line
  | false =>
    cases st.confirmed with
    | true => rfl
    | false =>
      cases s.isSecondary header with
      | true =>
        exact log_renumber number st
          (.found (.secondaryFirst label.display s.designatedHeader header line))
      | false => simp [renumber]

theorem State.seeCode_renumber (text : List Char) :
    (st.renumber number).seeCode s label (number line) text
      = (st.seeCode s label line text).renumber number := by
  rw [seeCode, seeCode, confirmed_renumber, warned_renumber]
  cases st.confirmed || st.warned || label.namesHeader with
  | true => rfl
  | false =>
    cases s.marksConstruct text with
    | true =>
      exact log_renumber number { st with warned := true }
        (.found (.constructFirst label.display line))
    | false => rfl

/-- A step over a live line with another number is the same step, in other numbers. -/
theorem State.seeLive_renumber (text : List Char) :
    (st.renumber number).seeLive s label (text, number line)
      = (st.seeLive s label (text, line)).renumber number := by
  have hheader : header? (text, number line) = header? (text, line) := rfl
  rw [seeLive, seeLive, hheader]
  cases header? (text, line) with
  | some header => exact seeHeader_renumber number s label st line header
  | none => exact seeCode_renumber number s label st line text

/-- And so is a step over any line, which does the same to the mode. -/
theorem State.seeLine_renumber (text : List Char) :
    (st.renumber number).seeLine s label (text, number line)
      = (st.seeLine s label (text, line)).renumber number := by
  cases hskips : st.mode.skips text with
  | true =>
    have hskips' : (st.renumber number).mode.skips text = true := hskips
    rw [seeLine_of_skips hskips, seeLine_of_skips hskips']
    rfl
  | false =>
    have hskips' : (st.renumber number).mode.skips text = false := hskips
    rw [seeLine_of_not_skips hskips, seeLine_of_not_skips hskips', seeLive_renumber]
    rfl

/-! ## All lines -/

theorem State.foldl_seeLive_renumber (lines : List (List Char × Nat)) :
    (lines.map (renumbered number)).foldl (seeLive s label) (st.renumber number)
      = (lines.foldl (seeLive s label) st).renumber number := by
  induction lines generalizing st with
  | nil => rfl
  | cons numbered lines ih =>
    rw [List.map_cons, List.foldl_cons, List.foldl_cons, ← ih, renumbered, seeLive_renumber]

theorem State.violations_renumber : (st.renumber number).violations = st.violations := by
  simp [violations]

theorem State.findings_renumber :
    (st.renumber number).findings = st.findings.map (Finding.renumber number) := by
  simp only [findings, renumber, List.filterMap_map, List.map_filterMap]
  congr 1
  funext event
  cases event <;> rfl

end Renumber

end Scan

/-- The metrics count findings by kind and know no line numbers. -/
theorem Metrics.foldl_record_renumber (number : Nat → Nat) (events : List Scan.Event)
    (m : Metrics) : (events.map (Scan.Event.renumber number)).foldl record m
      = events.foldl record m := by
  induction events generalizing m with
  | nil => rfl
  | cons event events ih =>
    rw [List.map_cons, List.foldl_cons, List.foldl_cons, ih]
    cases event with
    | found finding => rw [Scan.Event.renumber, record, record, finding.kind_renumber]
    | registered size => rfl

namespace Checker

/-- A scan that ends in other numbers finds the same in other numbers, and is the same to the
checker. -/
theorem conclude_renumber (c : Checker) (number : Nat → Nat) (st : Scan.State) :
    c.conclude (st.renumber number)
      = (⟨(c.conclude st).1.violations, (c.conclude st).1.findings.map (Finding.renumber number)⟩,
        (c.conclude st).2) := by
  have hmetrics := Metrics.foldl_record_renumber number st.events c.metrics
  simp only [conclude, Scan.State.violations_renumber, Scan.State.findings_renumber]
  rw [← hmetrics]
  rfl

/-- A text with the live lines of another one, under other numbers. -/
theorem scanText_renumber {text text' : List Char} {number : Nat → Nat}
    (h : Scan.liveLines text' = (Scan.liveLines text).map (Scan.renumbered number)) (c : Checker)
    (path : Path) :
    c.scanText path text'
      = (⟨(c.scanText path text).1.violations,
          (c.scanText path text).1.findings.map (Finding.renumber number)⟩,
        (c.scanText path text).2) := by
  have hfold := Scan.State.foldl_seeLive_renumber number c.settings path.label
    (.start c.registry) (Scan.liveLines text)
  rw [← h] at hfold
  rw [scanText_eq, scanText_eq, Scan.run_eq_foldl, Scan.run_eq_foldl, Scan.foldl_seeLine,
    Scan.foldl_seeLine]
  exact (congrArg c.conclude hfold).trans (c.conclude_renumber number _)

end Checker

end IncludeOrder
