import IncludeOrder.Finding

/-!
# The console

Findings are written to two streams, each to the stream of its channel and followed by a line
break.  A stream may be broken; then it takes nothing and cannot be flushed, and the other one
works as before.
-/

set_option autoImplicit false

namespace IncludeOrder

/-- A stream and what it has taken. -/
structure Stream where
  written : String
  broken : Bool
  deriving DecidableEq, Repr, Inhabited

/-- A stream that has taken nothing yet and works. -/
def Stream.fresh : Stream := ⟨"", false⟩

/-- A stream that takes nothing. -/
def Stream.unusable : Stream := ⟨"", true⟩

/-- Writes a text. -/
def Stream.write (s : Stream) (text : String) : Stream :=
  if s.broken then s else { s with written := s.written ++ text }

@[simp] theorem Stream.written_write_fresh (text : String) : (fresh.write text).written = text := by
  simp [write, fresh]

theorem Stream.write_empty (s : Stream) : s.write "" = s := by
  simp [write]

theorem Stream.write_write (s : Stream) (first second : String) :
    (s.write first).write second = s.write (first ++ second) := by
  unfold write
  cases hbroken : s.broken <;> simp [hbroken, String.append_assoc]

/-- The two streams of a program. -/
structure Console where
  out : Stream
  err : Stream
  deriving DecidableEq, Repr, Inhabited

namespace Console

/-- Two fresh streams. -/
def fresh : Console := ⟨.fresh, .fresh⟩

/-- Writes a text to the stream of a channel. -/
def write (c : Console) (channel : Channel) (text : String) : Console :=
  match channel with
  | .out => { c with out := c.out.write text }
  | .err => { c with err := c.err.write text }

/-- Writes a text and a line break. -/
def writeLine (c : Console) (channel : Channel) (text : String) : Console :=
  c.write channel (text ++ "\n")

/-- Writes a finding to its stream. -/
def present (c : Console) (finding : Finding) : Console :=
  c.writeLine finding.channel finding.message

/-- Writes findings in order. -/
def presentAll (c : Console) (findings : List Finding) : Console := findings.foldl present c

/-- Both streams can be flushed. -/
def canFlush (c : Console) : Bool := !c.out.broken && !c.err.broken

@[simp] theorem presentAll_nil (c : Console) : c.presentAll [] = c := rfl

end Console

end IncludeOrder
