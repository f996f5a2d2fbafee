/-!
# Patterns

Regular expressions with one remembered group, matched against a whole text by trying.  Where there
is a choice, how often to repeat, the pattern prefers more and falls back on less: `ways` lists what
a pattern can take from the beginning of a text, the preferred first, and the first way that leaves
nothing of the text decides what is remembered (`remembered?`).

Next to it stands what a pattern can read, without any order (`Reads`).  The ways of a pattern are
the readings of beginnings (`mem_ways_iff`), so the order of preference matters only where a text
has several readings, and what is remembered is always that of one of them
(`remembered?_cases`).
-/

set_option autoImplicit false

namespace IncludeOrder

/-- What a text may be matched against. -/
inductive Pattern where
  /-- the empty text -/
  | nothing
  /-- one character of a class -/
  | one (accepts : Char → Bool)
  /-- one pattern after the other -/
  | seq (first second : Pattern)
  /-- a pattern repeated, at most so many times if there is a limit -/
  | many (limit : Option Nat) (item : Pattern)
  /-- a pattern, and the text it takes is remembered -/
  | group (inner : Pattern)

namespace Pattern

/-- A way to match the beginning of a text. -/
structure Way where
  taken : List Char
  /-- the text of the last group in it -/
  memory : Option (List Char)
  /-- the text that is left -/
  rest : List Char
  deriving DecidableEq, Repr, Inhabited

/-- One way after another. -/
def Way.andThen (w v : Way) : Way := ⟨w.taken ++ v.taken, v.memory.or w.memory, v.rest⟩

/-- At most so many repetitions of an item, more of them preferred. A repetition that takes nothing
is not tried. -/
def repetitions (item : List Char → List Way) : Nat → List Char → List Way
  | 0, text => [⟨[], none, text⟩]
  | n + 1, text =>
    ((item text).filter fun w => !w.taken.isEmpty).flatMap
      (fun w => (repetitions item n w.rest).map w.andThen) ++ [⟨[], none, text⟩]

/-- The ways to match the beginning of a text, the preferred ones first. No more repetitions are
possible than there are characters. -/
def ways : Pattern → List Char → List Way
  | nothing, text => [⟨[], none, text⟩]
  | one _, [] => []
  | one accepts, c :: rest => if accepts c then [⟨[c], none, rest⟩] else []
  | seq first second, text =>
    (ways first text).flatMap fun w => (ways second w.rest).map w.andThen
  | many limit item, text => repetitions (ways item) (limit.getD text.length) text
  | group inner, text => (ways inner text).map fun w => { w with memory := some w.taken }

/-- What is remembered from a whole text, in the preferred way to match it. -/
def remembered? (p : Pattern) (text : List Char) : Option (List Char) :=
  ((p.ways text).find? fun w => w.rest.isEmpty).bind Way.memory

/-- The characters of a word, one after the other. -/
def literal : List Char → Pattern
  | [] => nothing
  | c :: rest => seq (one (· == c)) (literal rest)

/-! ## Readings -/

/-- The text is made of so many non-empty texts of the items. -/
inductive Repeats (item : List Char → Option (List Char) → Prop) :
    Nat → List Char → Option (List Char) → Prop where
  /-- no text at all -/
  | stop : Repeats item 0 [] none
  /-- one text more, in front -/
  | more {n : Nat} {first rest : List Char} {memory memory' : Option (List Char)} :
      first ≠ [] → item first memory → Repeats item n rest memory' →
      Repeats item (n + 1) (first ++ rest) (memory'.or memory)

/-- The pattern can read the text and remember this. -/
def Reads : Pattern → List Char → Option (List Char) → Prop
  | nothing, text, memory => text = [] ∧ memory = none
  | one accepts, text, memory => ∃ c, accepts c = true ∧ text = [c] ∧ memory = none
  | seq first second, text, memory =>
    ∃ before after earlier later, text = before ++ after ∧ memory = Option.or later earlier
      ∧ Reads first before earlier ∧ Reads second after later
  | many limit item, text, memory =>
    ∃ n, (∀ most, limit = some most → n ≤ most) ∧ Repeats (Reads item) n text memory
  | group inner, text, memory => memory = some text ∧ ∃ inside, Reads inner text inside

theorem Repeats.le_length {item : List Char → Option (List Char) → Prop} {n : Nat}
    {text : List Char} {memory : Option (List Char)} (h : Repeats item n text memory) :
    n ≤ text.length := by
  induction h with
  | stop => exact Nat.le_refl 0
  | @more n first rest memory memory' hfirst _ _ ih =>
    have hpos : 0 < first.length := List.length_pos_iff.mpr hfirst
    rw [List.length_append]
    omega

section Repetition

variable {item : List Char → List Way} {reads : List Char → Option (List Char) → Prop}

/-- If the ways of the items are readings of beginnings, so are those of repetitions. -/
theorem repeats_of_mem_repetitions
    (hitem : ∀ text w, w ∈ item text → text = w.taken ++ w.rest ∧ reads w.taken w.memory)
    {limit : Nat} {text : List Char} {w : Way} (h : w ∈ repetitions item limit text) :
    text = w.taken ++ w.rest ∧ ∃ n, n ≤ limit ∧ Repeats reads n w.taken w.memory := by
  induction limit generalizing text w with
  | zero =>
    obtain rfl : w = ⟨[], none, text⟩ := List.mem_singleton.mp h
    exact ⟨rfl, 0, Nat.le_refl 0, .stop⟩
  | succ limit ih =>
    rcases List.mem_append.mp h with hmore | hstop
    · obtain ⟨u, hu, hw⟩ := List.mem_flatMap.mp hmore
      obtain ⟨huitem, hutaken⟩ := List.mem_filter.mp hu
      obtain ⟨v, hv, rfl⟩ := List.mem_map.mp hw
      obtain ⟨htext, hread⟩ := hitem text u huitem
      obtain ⟨hrest, n, hn, hrepeats⟩ := ih hv
      refine ⟨?_, n + 1, Nat.succ_le_succ hn, .more ?_ hread hrepeats⟩
      · rw [htext, hrest, Way.andThen, List.append_assoc]
      · simpa using hutaken
    · obtain rfl : w = ⟨[], none, text⟩ := List.mem_singleton.mp hstop
      exact ⟨rfl, 0, Nat.zero_le _, .stop⟩

/-- If every reading of a beginning by the item is among its ways, so is every repetition. -/
theorem mem_repetitions_of_repeats
    (hitem : ∀ taken memory rest, reads taken memory → ⟨taken, memory, rest⟩ ∈ item (taken ++ rest))
    {n limit : Nat} {taken : List Char} {memory : Option (List Char)} (hn : n ≤ limit)
    (h : Repeats reads n taken memory) (rest : List Char) :
    ⟨taken, memory, rest⟩ ∈ repetitions item limit (taken ++ rest) := by
  induction h generalizing limit with
  | stop => cases limit <;> simp [repetitions]
  | @more n first others earlier later hfirst hread _ ih =>
    obtain ⟨limit, rfl⟩ : ∃ m, limit = m + 1 := ⟨limit - 1, by omega⟩
    apply List.mem_append_left
    apply List.mem_flatMap.mpr
    refine ⟨⟨first, earlier, others ++ rest⟩, ?_, ?_⟩
    · rw [List.append_assoc]
      exact List.mem_filter.mpr ⟨hitem _ _ _ hread, by simpa using hfirst⟩
    · exact List.mem_map.mpr ⟨⟨others, later, rest⟩, ih (Nat.le_of_succ_le_succ hn), rfl⟩

end Repetition

/-- The ways to match the beginning of a text are the readings of its beginnings. -/
theorem mem_ways_iff (p : Pattern) (text : List Char) (w : Way) :
    w ∈ p.ways text ↔ text = w.taken ++ w.rest ∧ p.Reads w.taken w.memory := by
  -- the text is arbitrary: the second part of a sequence starts where the first one ends
  induction p generalizing text w with
  | nothing =>
    obtain ⟨taken, memory, rest⟩ := w
    simp only [ways, Reads, List.mem_singleton, Way.mk.injEq]
    constructor
    · rintro ⟨rfl, rfl, rfl⟩
      exact ⟨rfl, rfl, rfl⟩
    · rintro ⟨rfl, rfl, rfl⟩
      exact ⟨rfl, rfl, rfl⟩
  | one accepts =>
    obtain ⟨taken, memory, rest⟩ := w
    cases text with
    | nil =>
      simp only [ways, Reads, List.not_mem_nil, false_iff]
      rintro ⟨htext, c, -, rfl, -⟩
      cases htext
    | cons d text =>
      simp only [ways, Reads]
      constructor
      · intro h
        split at h
        · rename_i hd
          obtain ⟨rfl, rfl, rfl⟩ := Way.mk.inj (List.mem_singleton.mp h)
          exact ⟨rfl, d, hd, rfl, rfl⟩
        · cases h
      · rintro ⟨htext, c, hc, rfl, rfl⟩
        obtain ⟨rfl, rfl⟩ := List.cons.inj htext
        rw [if_pos hc]
        exact List.mem_singleton.mpr rfl
  | seq first second ihFirst ihSecond =>
    simp only [ways, Reads, List.mem_flatMap, List.mem_map]
    constructor
    · rintro ⟨u, hu, v, hv, rfl⟩
      obtain ⟨htext, hfirst⟩ := (ihFirst text u).mp hu
      obtain ⟨hrest, hsecond⟩ := (ihSecond u.rest v).mp hv
      refine ⟨?_, u.taken, v.taken, u.memory, v.memory, rfl, rfl, hfirst, hsecond⟩
      rw [htext, hrest, Way.andThen, List.append_assoc]
    · obtain ⟨taken, memory, rest⟩ := w
      rintro ⟨htext, before, after, earlier, later, rfl, rfl, hfirst, hsecond⟩
      refine ⟨⟨before, earlier, after ++ rest⟩, ?_, ⟨after, later, rest⟩, ?_, rfl⟩
      · exact (ihFirst text _).mpr ⟨by rw [htext, List.append_assoc], hfirst⟩
      · exact (ihSecond (after ++ rest) _).mpr ⟨rfl, hsecond⟩
  | many limit item ih =>
    simp only [ways, Reads]
    constructor
    · intro h
      obtain ⟨htext, n, hn, hrepeats⟩ :=
        repeats_of_mem_repetitions (fun text w => (ih text w).mp) h
      refine ⟨htext, n, ?_, hrepeats⟩
      rintro most rfl
      exact hn
    · obtain ⟨taken, memory, rest⟩ := w
      rintro ⟨rfl, n, hmost, hrepeats⟩
      apply mem_repetitions_of_repeats _ _ hrepeats rest
      · intro first earlier others hread
        exact (ih _ ⟨first, earlier, others⟩).mpr ⟨rfl, hread⟩
      · cases limit with
        | none =>
          have hlength := hrepeats.le_length
          rw [Option.getD_none, List.length_append]
          omega
        | some most => exact hmost most rfl
  | group inner ih =>
    simp only [ways, Reads, List.mem_map]
    constructor
    · rintro ⟨u, hu, rfl⟩
      obtain ⟨htext, hinner⟩ := (ih text u).mp hu
      exact ⟨htext, rfl, u.memory, hinner⟩
    · obtain ⟨taken, memory, rest⟩ := w
      rintro ⟨htext, hmemory, inside, hinner⟩
      refine ⟨⟨taken, inside, rest⟩, (ih text _).mpr ⟨htext, hinner⟩, ?_⟩
      exact congrArg (Way.mk taken · rest) hmemory.symm

/-- What is remembered from a whole text is remembered by one of its readings, if it has any. -/
theorem remembered?_cases (p : Pattern) (text : List Char) :
    p.Reads text (p.remembered? text)
      ∨ (∀ memory, ¬ p.Reads text memory) ∧ p.remembered? text = none := by
  unfold remembered?
  cases hfind : (p.ways text).find? fun w => w.rest.isEmpty with
  | none =>
    refine Or.inr ⟨?_, rfl⟩
    intro memory hread
    have hmem : ⟨text, memory, []⟩ ∈ p.ways text :=
      (mem_ways_iff p text _).mpr ⟨(List.append_nil text).symm, hread⟩
    simpa using List.find?_eq_none.mp hfind _ hmem
  | some w =>
    obtain ⟨taken, memory, rest⟩ := w
    have hmem := List.mem_of_find?_eq_some hfind
    obtain rfl : rest = [] := by simpa using List.find?_some hfind
    obtain ⟨htext, hread⟩ := (mem_ways_iff p text _).mp hmem
    rw [List.append_nil] at htext
    rw [htext]
    exact Or.inl hread

/-! ## Readings of common patterns -/

/-- A first part that remembers nothing leaves the second one alone. -/
theorem reads_seq_iff {first second : Pattern} {holds : List Char → Prop}
    (hfirst : ∀ {text memory}, first.Reads text memory ↔ holds text ∧ memory = none)
    {text : List Char} {memory : Option (List Char)} :
    (seq first second).Reads text memory
      ↔ ∃ before after, text = before ++ after ∧ holds before ∧ second.Reads after memory := by
  simp only [Reads]
  constructor
  · rintro ⟨before, after, earlier, later, htext, rfl, hread, hsecond⟩
    obtain ⟨hbefore, rfl⟩ := hfirst.mp hread
    rw [Option.or_none]
    exact ⟨before, after, htext, hbefore, hsecond⟩
  · rintro ⟨before, after, htext, hbefore, hsecond⟩
    exact ⟨before, after, none, memory, htext, Option.or_none.symm,
      hfirst.mpr ⟨hbefore, rfl⟩, hsecond⟩

theorem reads_one_iff {accepts : Char → Bool} {text : List Char} {memory : Option (List Char)} :
    (one accepts).Reads text memory
      ↔ (∃ c, accepts c = true ∧ text = [c]) ∧ memory = none := by
  simp only [Reads]
  constructor
  · rintro ⟨c, hc, htext, hmemory⟩
    exact ⟨⟨c, hc, htext⟩, hmemory⟩
  · rintro ⟨⟨c, hc, htext⟩, hmemory⟩
    exact ⟨c, hc, htext, hmemory⟩

/-- Characters of a class, no more of them than the limit. -/
theorem reads_many_one_iff {limit : Option Nat} {accepts : Char → Bool} {text : List Char}
    {memory : Option (List Char)} :
    (many limit (one accepts)).Reads text memory
      ↔ (∀ most, limit = some most → text.length ≤ most) ∧ (∀ c ∈ text, accepts c = true)
        ∧ memory = none := by
  simp only [Reads]
  constructor
  · rintro ⟨n, hmost, hrepeats⟩
    have hread : text.length = n ∧ (∀ c ∈ text, accepts c = true) ∧ memory = none := by
      clear hmost
      induction hrepeats with
      | stop => exact ⟨rfl, by simp, rfl⟩
      | @more n first rest earlier later _ hfirst _ ih =>
        obtain ⟨c, hc, rfl, rfl⟩ := hfirst
        obtain ⟨hlength, hrest, rfl⟩ := ih
        exact ⟨congrArg Nat.succ hlength, List.forall_mem_cons.mpr ⟨hc, hrest⟩, rfl⟩
    obtain ⟨rfl, hall, hmemory⟩ := hread
    exact ⟨hmost, hall, hmemory⟩
  · rintro ⟨hmost, hall, rfl⟩
    refine ⟨text.length, hmost, ?_⟩
    clear hmost
    induction text with
    | nil => exact .stop
    | cons c text ih =>
      obtain ⟨hc, hrest⟩ := List.forall_mem_cons.mp hall
      exact Repeats.more (List.cons_ne_nil c []) ⟨c, hc, rfl, rfl⟩ (ih hrest)

/-- A pattern or the empty text. -/
theorem reads_many_some_one_iff {item : Pattern} {text : List Char}
    {memory : Option (List Char)} :
    (many (some 1) item).Reads text memory
      ↔ text = [] ∧ memory = none ∨ text ≠ [] ∧ item.Reads text memory := by
  simp only [Reads]
  constructor
  · rintro ⟨n, hmost, hrepeats⟩
    cases hrepeats with
    | stop => exact Or.inl ⟨rfl, rfl⟩
    | more hfirst hread hrest =>
      cases hrest with
      | stop =>
        rw [List.append_nil, Option.none_or]
        exact Or.inr ⟨hfirst, hread⟩
      | more => exact absurd (hmost 1 rfl) (by omega)
  · rintro (⟨rfl, rfl⟩ | ⟨hne, hread⟩)
    · exact ⟨0, by simp, .stop⟩
    · refine ⟨1, by simp, ?_⟩
      simpa using Repeats.more hne hread .stop

theorem reads_literal_iff {word text : List Char} {memory : Option (List Char)} :
    (literal word).Reads text memory ↔ text = word ∧ memory = none := by
  induction word generalizing text memory with
  | nil => exact Iff.rfl
  | cons c word ih =>
    simp only [literal, reads_seq_iff reads_one_iff, ih, beq_iff_eq]
    constructor
    · rintro ⟨_, _, rfl, ⟨_, rfl, rfl⟩, rfl, rfl⟩
      exact ⟨rfl, rfl⟩
    · rintro ⟨rfl, rfl⟩
      exact ⟨[c], word, rfl, ⟨c, rfl, rfl⟩, rfl, rfl⟩

end Pattern

end IncludeOrder
