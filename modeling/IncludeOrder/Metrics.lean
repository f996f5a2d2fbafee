import IncludeOrder.Finding

/-!
# Metrics

Four counters and one gauge that a checker keeps while it works.  The counters only grow; the gauge
holds the size of the registry as it was last announced.  Findings are counted by kind.
-/

set_option autoImplicit false

namespace IncludeOrder

/-- What has been counted so far. -/
structure Metrics where
  filesScanned : Nat
  decodeFailures : Nat
  violations : Nat
  findings : FindingKind → Nat
  registrySize : Nat

namespace Metrics

/-- Nothing has been counted. -/
def zero : Metrics := ⟨0, 0, 0, fun _ => 0, 0⟩

instance : Inhabited Metrics := ⟨zero⟩

/-- One finding more of its kind. -/
def countFinding (m : Metrics) (kind : FindingKind) : Metrics :=
  { m with findings := fun k => if k = kind then m.findings k + 1 else m.findings k }

/-- A scan has ended, with so many violations. -/
def countScan (m : Metrics) (violations : Nat) : Metrics :=
  { m with filesScanned := m.filesScanned + 1, violations := m.violations + violations }

/-- A file has been left out of a run. -/
def countDecodeFailure (m : Metrics) : Metrics :=
  { m with decodeFailures := m.decodeFailures + 1 }

/-- The registry has this size now. -/
def announceSize (m : Metrics) (size : Nat) : Metrics := { m with registrySize := size }

def filesScannedName : String := "pyfirst_files_scanned_total"

def decodeFailuresName : String := "pyfirst_decode_failures_total"

def violationsName : String := "pyfirst_violations_total"

def findingsName : String := "pyfirst_diagnostics_total"

def registrySizeName : String := "pyfirst_registry_size"

/-- The label under which findings are told apart. -/
def kindLabel : String := "kind"

/-- The name of the counter of one kind. -/
def findingsNameOf (kind : FindingKind) : String :=
  findingsName ++ "\x7b" ++ kindLabel ++ "=" ++ kind.name ++ "\x7d"

/-- The counters and the gauge by name, without those that are zero. -/
def entries (m : Metrics) : List (String × Nat) :=
  let kinds := [FindingKind.outOfOrder, .secondaryFirst, .constructFirst, .notUtf8]
  ([(filesScannedName, m.filesScanned), (decodeFailuresName, m.decodeFailures),
      (violationsName, m.violations)]
    ++ kinds.map (fun kind => (findingsNameOf kind, m.findings kind))
    ++ [(registrySizeName, m.registrySize)]).filter fun entry => entry.2 ≠ 0

end Metrics

end IncludeOrder
