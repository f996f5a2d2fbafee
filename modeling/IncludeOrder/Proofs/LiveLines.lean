import IncludeOrder.Scan

/-!
# Live lines

A scan passes over every line that a block comment touches.  The others are its live lines, and
which lines those are depends on the text alone: the comment mode is carried from line to line
whatever the scan has found or registered.  A scan is therefore a fold over the live lines, by a
step that knows no mode (`foldl_seeLine`), and everything that follows reasons about that fold.
-/

set_option autoImplicit false

namespace IncludeOrder.Scan

/-! ## The lines a scan looks at -/

/-- The lines that are not passed over when the first of them starts in `mode`. -/
def liveFrom : Comment.Mode → List (List Char × Nat) → List (List Char × Nat)
  | _, [] => []
  | mode, numbered :: rest =>
    if mode.skips numbered.1 then liveFrom (mode.next numbered.1) rest
    else numbered :: liveFrom (mode.next numbered.1) rest

/-- The live lines of a text and their numbers, counted from 1. -/
def liveLines (text : List Char) : List (List Char × Nat) :=
  liveFrom .code ((Text.lines text).zipIdx 1)

/-- The header that a live line names; none when the line is no directive. -/
def header? (numbered : List Char × Nat) : Option String :=
  (Directive.headerPath? numbered.1).map String.ofList

theorem sublist_liveFrom (mode : Comment.Mode) (lines : List (List Char × Nat)) :
    (liveFrom mode lines).Sublist lines := by
  induction lines generalizing mode with
  | nil => exact .slnil
  | cons numbered rest ih =>
    simp only [liveFrom]
    split
    · exact (ih _).cons _
    · exact (ih _).cons_cons _

theorem ascending_zipIdx (lines : List (List Char)) (first : Nat) :
    (lines.zipIdx first).Pairwise fun l m => l.2 < m.2 := by
  have hnumbers : ((lines.zipIdx first).map Prod.snd).Pairwise (· < ·) := by
    rw [List.zipIdx_map_snd]
    exact List.pairwise_lt_range'
  exact List.pairwise_map.mp hnumbers

/-- The numbers of the live lines ascend. -/
theorem ascending_liveLines (text : List Char) :
    (liveLines text).Pairwise fun l m => l.2 < m.2 :=
  (ascending_zipIdx _ 1).sublist (sublist_liveFrom _ _)

/-! ## A scan as a fold over them -/

namespace State

/-- Takes the state over a live line. -/
def seeLive (s : Settings) (label : Label) (st : State) (numbered : List Char × Nat) : State :=
  match header? numbered with
  | some header => st.seeHeader s label numbered.2 header
  | none => st.seeCode s label numbered.2 numbered.1

/-- What a live line does to the state has nothing to do with the mode. -/
theorem seeLive_with_mode (s : Settings) (label : Label) (st : State)
    (numbered : List Char × Nat) (mode : Comment.Mode) :
    ({ st with mode } : State).seeLive s label numbered
      = { st.seeLive s label numbered with mode } := by
  cases hheader : header? numbered with
  | some header =>
    simp only [seeLive, hheader, seeHeader, confirm, register, log]
    repeat' split
    all_goals simp_all
  | none =>
    simp only [seeLive, hheader, seeCode, log]
    repeat' split
    all_goals rfl

theorem seeLine_of_skips {s : Settings} {label : Label} {st : State}
    {numbered : List Char × Nat} (h : st.mode.skips numbered.1 = true) :
    st.seeLine s label numbered = { st with mode := st.mode.next numbered.1 } := by
  simp [seeLine, LineKind.of, h]

theorem seeLine_of_not_skips {s : Settings} {label : Label} {st : State}
    {numbered : List Char × Nat} (h : st.mode.skips numbered.1 = false) :
    st.seeLine s label numbered
      = { st.seeLive s label numbered with mode := st.mode.next numbered.1 } := by
  cases hpath : Directive.headerPath? numbered.1 <;>
    simp [seeLine, LineKind.of, seeLive, header?, h, hpath]

theorem foldl_seeLive_with_mode (s : Settings) (label : Label)
    (lines : List (List Char × Nat)) (st : State) (mode : Comment.Mode) :
    lines.foldl (seeLive s label) { st with mode }
      = { lines.foldl (seeLive s label) st with mode } := by
  induction lines generalizing st with
  | nil => rfl
  | cons numbered rest ih =>
    rw [List.foldl_cons, List.foldl_cons, seeLive_with_mode, ih]

end State

/-- The mode in which the line after these starts. -/
def modeAfter (mode : Comment.Mode) (lines : List (List Char × Nat)) : Comment.Mode :=
  lines.foldl (fun mode numbered => mode.next numbered.1) mode

/-- Reading all lines is reading the live ones and keeping track of the mode. -/
theorem foldl_seeLine (s : Settings) (label : Label) (lines : List (List Char × Nat))
    (st : State) :
    lines.foldl (State.seeLine s label) st
      = { (liveFrom st.mode lines).foldl (State.seeLive s label) st with
          mode := modeAfter st.mode lines } := by
  induction lines generalizing st with
  | nil => rfl
  | cons numbered rest ih =>
    rw [List.foldl_cons, ih]
    cases hskips : st.mode.skips numbered.1 with
    | true =>
      rw [State.seeLine_of_skips hskips]
      simp only [liveFrom, hskips, if_true, modeAfter, List.foldl_cons]
      rw [State.foldl_seeLive_with_mode]
    | false =>
      rw [State.seeLine_of_not_skips hskips]
      simp only [liveFrom, hskips, modeAfter, List.foldl_cons]
      rw [State.foldl_seeLive_with_mode]
      rfl

end IncludeOrder.Scan
