import IncludeOrder.Directive
import IncludeOrder.Proofs.Patterns
import Mathlib.Data.List.Basic

/-!
# The grammar of directives

Three accounts of one thing.  A rendering is a directive taken to pieces: blanks, the two
delimiters, a header path (`Rendering`).  A pattern says how a line is matched, with choices that
overlap: a name ends where a slash does not follow, and which slash is the last is found by trying
(`Pattern.directive`).  The function `headerPath?` reads a line once and has no choices.

All three agree.  A line is a directive for `path` when it is a rendering of it
(`headerPath?_eq_some_iff`), a line has one rendering at most (`line_injective`), and the preferred
way to match the pattern remembers the path that `headerPath?` gives
(`remembered?_directive`).
-/

set_option autoImplicit false

namespace IncludeOrder.Directive

open Text

/-! ## Renderings -/

/-- A directive in pieces. -/
structure Rendering where
  /-- before the number sign -/
  indent : List Char
  afterSign : List Char
  afterKeyword : List Char
  opening : Char
  path : List Char
  closing : Char
  /-- after the closing delimiter -/
  trailing : List Char
  blank_indent : isBlankText indent = true
  blank_afterSign : isBlankText afterSign = true
  blank_afterKeyword : isBlankText afterKeyword = true
  isOpening_opening : isOpening opening = true
  headerPath_path : HeaderPath path
  isClosing_closing : isClosing closing = true
  blank_trailing : isBlankText trailing = true

namespace Rendering

/-- The line that the pieces make. -/
def line (d : Rendering) : List Char :=
  d.indent ++ '#' :: (d.afterSign ++ (keyword ++ (d.afterKeyword
    ++ d.opening :: (d.path ++ d.closing :: d.trailing))))

/-- What stands before the opening delimiter. -/
def front (d : Rendering) : List Char :=
  d.indent ++ '#' :: (d.afterSign ++ (keyword ++ d.afterKeyword))

theorem line_eq_front (d : Rendering) :
    d.line = d.front ++ d.opening :: (d.path ++ d.closing :: d.trailing) := by
  simp [line, front]

end Rendering

/-! ## Which characters stand where -/

theorem isClosing_eq_true_iff {c : Char} : isClosing c = true ↔ c = '>' ∨ c = '"' := by
  simp [isClosing]

theorem isOpening_eq_true_iff {c : Char} : isOpening c = true ↔ c = '<' ∨ c = '"' := by
  simp [isOpening]

/-- No blank is a delimiter. -/
theorem isDelimiter_of_isBlank {c : Char} (h : isBlank c = true) :
    isOpening c = false ∧ isClosing c = false := by
  constructor
  · rw [Bool.eq_false_iff]
    intro hopening
    rcases isOpening_eq_true_iff.mp hopening with rfl | rfl <;> exact absurd h (by decide)
  · rw [Bool.eq_false_iff]
    intro hclosing
    rcases isClosing_eq_true_iff.mp hclosing with rfl | rfl <;> exact absurd h (by decide)

theorem isBlank_of_isOpening {c : Char} (h : isOpening c = true) : isBlank c = false := by
  rw [Bool.eq_false_iff]
  intro hblank
  rw [(isDelimiter_of_isBlank hblank).1] at h
  cases h

theorem isClosing_of_isWord {c : Char} (h : isWord c = true) : isClosing c = false := by
  rw [Bool.eq_false_iff]
  intro hclosing
  rcases isClosing_eq_true_iff.mp hclosing with rfl | rfl <;> exact absurd h (by decide)

/-- An extension is made of the letters that may follow its h, which is one of them. -/
theorem isExtensionLetter_of_mem_extension {extension : List Char}
    (h : isExtension extension = true) {c : Char} (hc : c ∈ extension) :
    isExtensionLetter c = true := by
  unfold isExtension at h
  split at h
  · rename_i letters
    simp only [Bool.and_eq_true, List.all_eq_true] at h
    rcases List.mem_cons.mp hc with rfl | hletter
    · decide
    · exact h.2 c hletter
  · cases h

/-- What stands in a header path, if it is no word character. -/
theorem isWord_or_mark_of_mem_headerPath {path : List Char} (h : HeaderPath path) :
    ∀ c ∈ path, isWord c = true ∨ c = '/' ∨ c = '.' ∨ c = '+' := by
  induction h with
  | bare hname => exact fun c hc => Or.inl (hname.2 c hc)
  | extended hname hextension =>
    intro c hc
    rcases List.mem_append.mp hc with hc | hc
    · exact Or.inl (hname.2 c hc)
    · rcases List.mem_cons.mp hc with rfl | hc
      · simp
      · have hletter := isExtensionLetter_of_mem_extension hextension hc
        simp only [isExtensionLetter, Bool.or_eq_true, beq_iff_eq] at hletter
        rcases hletter with (rfl | rfl) | rfl
        · exact Or.inl (by decide)
        · exact Or.inl (by decide)
        · simp
  | inside hname _ ih =>
    intro c hc
    rcases List.mem_append.mp hc with hc | hc
    · exact Or.inl (hname.2 c hc)
    · rcases List.mem_cons.mp hc with rfl | hc
      · simp
      · exact ih c hc

/-- No closing delimiter stands in a header path. -/
theorem isClosing_of_mem_headerPath {path : List Char} (h : HeaderPath path) :
    ∀ c ∈ path, isClosing c = false := by
  intro c hc
  rcases isWord_or_mark_of_mem_headerPath h c hc with hword | rfl | rfl | rfl
  · exact isClosing_of_isWord hword
  · decide
  · decide
  · decide

/-- A header path is a run of characters that close nothing. -/
theorem unclosed_of_headerPath {path : List Char} (h : HeaderPath path) :
    ∀ c ∈ path, (!isClosing c) = true := by
  intro c hc
  rw [isClosing_of_mem_headerPath h c hc, Bool.not_false]

/-- A run of a class ends where a character outside it stands. -/
theorem takeWhile_append_cons {p : Char → Bool} {run : List Char} {c : Char}
    (hrun : ∀ d ∈ run, p d = true) (hc : p c = false) (rest : List Char) :
    (run ++ c :: rest).takeWhile p = run ∧ (run ++ c :: rest).dropWhile p = c :: rest := by
  have hstop : ¬ p c = true := by rw [hc]; exact Bool.false_ne_true
  constructor
  · rw [List.takeWhile_append_of_pos hrun, List.takeWhile_cons_of_neg hstop, List.append_nil]
  · rw [List.dropWhile_append_of_pos hrun, List.dropWhile_cons_of_neg hstop]

/-- Two runs of a class, each ended by a character outside it, are equal if what they begin is. -/
theorem run_inj {p : Char → Bool} {run run' rest rest' : List Char} {c c' : Char}
    (hrun : ∀ d ∈ run, p d = true) (hrun' : ∀ d ∈ run', p d = true) (hc : p c = false)
    (hc' : p c' = false) (h : run ++ c :: rest = run' ++ c' :: rest') :
    run = run' ∧ c = c' ∧ rest = rest' := by
  obtain ⟨htake, hdrop⟩ := takeWhile_append_cons hrun hc rest
  obtain ⟨htake', hdrop'⟩ := takeWhile_append_cons hrun' hc' rest'
  rw [← h] at htake' hdrop'
  obtain ⟨hchar, hrest⟩ := List.cons.inj (hdrop.symm.trans hdrop')
  exact ⟨htake.symm.trans htake', hchar, hrest⟩

namespace Rendering

/-- The opening delimiter of a rendering is the first one in its line. -/
theorem isOpening_of_mem_front (d : Rendering) : ∀ c ∈ d.front, isOpening c = false := by
  have hblank : ∀ {text : List Char}, isBlankText text = true →
      ∀ c ∈ text, isOpening c = false := by
    intro text htext c hc
    exact (isDelimiter_of_isBlank (List.all_eq_true.mp htext c hc)).1
  have hkeyword : ∀ c ∈ keyword, isOpening c = false := by simp [keyword, isOpening]
  intro c hc
  simp only [front, List.mem_append, List.mem_cons] at hc
  rcases hc with hc | rfl | hc | hc | hc
  · exact hblank d.blank_indent c hc
  · decide
  · exact hblank d.blank_afterSign c hc
  · exact hkeyword c hc
  · exact hblank d.blank_afterKeyword c hc

/-- The closing delimiter of a rendering is the last one in its line. -/
theorem isClosing_of_mem_trailing (d : Rendering) : ∀ c ∈ d.trailing, isClosing c = false := by
  intro c hc
  exact (isDelimiter_of_isBlank (List.all_eq_true.mp d.blank_trailing c hc)).2

/-! ## One rendering for a line -/

theorem line_injective : Function.Injective line := by
  intro d e h
  have hblanks : ∀ {text : List Char}, isBlankText text = true → ∀ c ∈ text, isBlank c = true :=
    fun htext => List.all_eq_true.mp htext
  obtain ⟨hindent, -, h⟩ := run_inj (hblanks d.blank_indent) (hblanks e.blank_indent)
    (by decide) (by decide) h
  obtain ⟨hafterSign, -, h⟩ := run_inj (hblanks d.blank_afterSign) (hblanks e.blank_afterSign)
    (by decide) (by decide) h
  obtain ⟨hafterKeyword, hopening, h⟩ := run_inj (hblanks d.blank_afterKeyword)
    (hblanks e.blank_afterKeyword) (isBlank_of_isOpening d.isOpening_opening)
    (isBlank_of_isOpening e.isOpening_opening) (List.append_cancel_left (List.cons.inj h).2)
  obtain ⟨hpath, hclosing, htrailing⟩ := run_inj (unclosed_of_headerPath d.headerPath_path)
    (unclosed_of_headerPath e.headerPath_path) (by simp [d.isClosing_closing])
    (by simp [e.isClosing_closing]) h
  cases d
  cases e
  simp only at hindent hafterSign hafterKeyword hopening hpath hclosing htrailing
  subst hindent hafterSign hafterKeyword hopening hpath hclosing htrailing
  rfl

end Rendering

/-- Every header path can be named, and nothing else can. -/
theorem exists_rendering_iff {path : List Char} :
    (∃ d : Rendering, d.path = path) ↔ HeaderPath path := by
  constructor
  · rintro ⟨d, rfl⟩
    exact d.headerPath_path
  · intro hpath
    exact ⟨⟨[], [], [' '], '<', path, '>', [], rfl, rfl, rfl, rfl, hpath, rfl, rfl⟩, rfl⟩

/-! ## Reading a line -/

/-- A word is found after any blanks, if it does not begin with one itself. -/
theorem after?_eq_some_iff {first : Char} (hfirst : isBlank first = false)
    {word text rest : List Char} :
    after? (first :: word) text = some rest
      ↔ ∃ blanks, isBlankText blanks = true ∧ text = blanks ++ (first :: word ++ rest) := by
  rw [after?, List.isPrefixOf?_eq_some_iff_append_eq]
  constructor
  · intro h
    refine ⟨text.takeWhile isBlank, List.all_takeWhile, ?_⟩
    rw [h]
    exact List.takeWhile_append_dropWhile.symm
  · rintro ⟨blanks, hblanks, rfl⟩
    rw [dropBlanks_append_of_blank hblanks]
    exact (dropBlanks_cons_of_not_blank hfirst (word ++ rest)).symm

/-- A delimited path is a header path, a closing delimiter and blanks. -/
theorem delimited?_eq_some_iff {text path : List Char} :
    delimited? text = some path
      ↔ HeaderPath path ∧ ∃ closing trailing, isClosing closing = true
        ∧ isBlankText trailing = true ∧ text = path ++ closing :: trailing := by
  constructor
  · intro h
    unfold delimited? at h
    dsimp only at h
    split at h
    · rename_i closing trailing hdrop
      split at h
      · rename_i hboth
        obtain ⟨hpath, hblank⟩ := Bool.and_eq_true_iff.mp hboth
        obtain rfl := Option.some.inj h
        have hclosing : (!isClosing closing) = false := by
          have hhead := List.head?_dropWhile_not (fun c => !isClosing c) text
          rw [hdrop] at hhead
          exact hhead
        refine ⟨(isHeaderPath_eq_true_iff _).mp hpath, closing, trailing, ?_, hblank, ?_⟩
        · simpa using hclosing
        · rw [← hdrop]
          exact List.takeWhile_append_dropWhile.symm
      · cases h
    · cases h
  · rintro ⟨hpath, closing, trailing, hclosing, hblank, rfl⟩
    have hstop : (!isClosing closing) = false := by rw [hclosing, Bool.not_true]
    obtain ⟨htake, hdrop⟩ := takeWhile_append_cons (unclosed_of_headerPath hpath) hstop trailing
    rw [delimited?, htake, hdrop]
    simp only [(isHeaderPath_eq_true_iff path).mpr hpath, hblank, Bool.and_self, if_true]

/-- A line is a directive for a path when it is a rendering of it. -/
theorem headerPath?_eq_some_iff {line path : List Char} :
    headerPath? line = some path ↔ ∃ d : Rendering, d.line = line ∧ d.path = path := by
  constructor
  · intro h
    unfold headerPath? at h
    split at h
    · rename_i afterKeyword hwords
      obtain ⟨afterSign, hsign, hkeyword⟩ := Option.bind_eq_some_iff.mp hwords
      obtain ⟨indent, hindent, rfl⟩ := (after?_eq_some_iff (by decide)).mp hsign
      obtain ⟨spaces, hspaces, rfl⟩ := (after?_eq_some_iff (by decide)).mp hkeyword
      split at h
      · rename_i opening rest hdrop
        split at h
        · rename_i hopening
          obtain ⟨hpath, closing, trailing, hclosing, htrailing, rfl⟩ :=
            delimited?_eq_some_iff.mp h
          refine ⟨⟨indent, spaces, afterKeyword.takeWhile isBlank, opening, path, closing,
            trailing, hindent, hspaces, List.all_takeWhile, hopening, hpath, hclosing,
            htrailing⟩, ?_, rfl⟩
          have hsplit : afterKeyword
              = afterKeyword.takeWhile isBlank ++ opening :: (path ++ closing :: trailing) := by
            rw [← hdrop]
            exact List.takeWhile_append_dropWhile.symm
          conv_rhs => rw [hsplit]
          rfl
        · cases h
      · cases h
    · cases h
  · rintro ⟨d, rfl, rfl⟩
    have hsign : after? ['#'] d.line = some (d.afterSign ++ (keyword ++ (d.afterKeyword
        ++ d.opening :: (d.path ++ d.closing :: d.trailing)))) :=
      (after?_eq_some_iff (by decide)).mpr ⟨d.indent, d.blank_indent, rfl⟩
    have hkeyword : after? keyword (d.afterSign ++ (keyword ++ (d.afterKeyword
        ++ d.opening :: (d.path ++ d.closing :: d.trailing))))
        = some (d.afterKeyword ++ d.opening :: (d.path ++ d.closing :: d.trailing)) :=
      (after?_eq_some_iff (by decide)).mpr ⟨d.afterSign, d.blank_afterSign, rfl⟩
    have hopening : isBlank d.opening = false := isBlank_of_isOpening d.isOpening_opening
    have hpath : delimited? (d.path ++ d.closing :: d.trailing) = some d.path :=
      delimited?_eq_some_iff.mpr ⟨d.headerPath_path, d.closing, d.trailing, d.isClosing_closing,
        d.blank_trailing, rfl⟩
    unfold headerPath?
    rw [hsign, Option.bind_some, hkeyword]
    simp only [dropBlanks_append_of_blank d.blank_afterKeyword,
      dropBlanks_cons_of_not_blank hopening, d.isOpening_opening, if_true, hpath]

end IncludeOrder.Directive

/-! ## The pattern -/

namespace IncludeOrder.Pattern

open Directive Text

def blanks : Pattern := many none (one isBlank)

/-- One word character or more. -/
def name : Pattern := seq (one isWord) (many none (one isWord))

def directory : Pattern := seq name (one (· == '/'))

/-- A dot, an h and at most two letters more. -/
def extension : Pattern :=
  seq (one (· == '.')) (seq (one (· == 'h')) (many (some 2) (one isExtensionLetter)))

/-- A directory ends in a slash, so how many there are is found by trying: the name after the last
slash begins as one more directory would. -/
def path : Pattern := seq (many none directory) (seq name (many (some 1) extension))

/-- A line that is a directive; the path is remembered. -/
def directive : Pattern :=
  seq blanks <| seq (one (· == '#')) <| seq blanks <| seq (literal keyword) <| seq blanks <|
    seq (one isOpening) <| seq (group path) <| seq (one isClosing) blanks

section

variable {text : List Char} {memory : Option (List Char)}

theorem reads_blanks_iff :
    blanks.Reads text memory ↔ isBlankText text = true ∧ memory = none := by
  simp [blanks, reads_many_one_iff, isBlankText]

theorem reads_name_iff : name.Reads text memory ↔ IsName text ∧ memory = none := by
  simp only [name, reads_seq_iff reads_one_iff, reads_many_one_iff]
  constructor
  · rintro ⟨_, rest, rfl, ⟨c, hc, rfl⟩, -, hrest, rfl⟩
    exact ⟨⟨List.cons_ne_nil c rest, List.forall_mem_cons.mpr ⟨hc, hrest⟩⟩, rfl⟩
  · rintro ⟨⟨hne, hword⟩, rfl⟩
    obtain ⟨c, rest, rfl⟩ := List.exists_cons_of_ne_nil hne
    obtain ⟨hc, hrest⟩ := List.forall_mem_cons.mp hword
    exact ⟨[c], rest, rfl, ⟨c, hc, rfl⟩, by simp, hrest, rfl⟩

theorem reads_directory_iff :
    directory.Reads text memory
      ↔ (∃ directory, IsName directory ∧ text = directory ++ ['/']) ∧ memory = none := by
  simp only [directory, reads_seq_iff reads_name_iff, reads_one_iff, beq_iff_eq]
  constructor
  · rintro ⟨directory, _, rfl, hname, ⟨_, rfl, rfl⟩, rfl⟩
    exact ⟨⟨directory, hname, rfl⟩, rfl⟩
  · rintro ⟨⟨directory, hname, rfl⟩, rfl⟩
    exact ⟨directory, ['/'], rfl, hname, ⟨'/', rfl, rfl⟩, rfl⟩

theorem reads_extension_iff :
    extension.Reads text memory
      ↔ (∃ extension, isExtension extension = true ∧ text = '.' :: extension)
        ∧ memory = none := by
  simp only [extension, reads_seq_iff reads_one_iff, reads_many_one_iff, beq_iff_eq]
  constructor
  · rintro ⟨_, _, rfl, ⟨_, rfl, rfl⟩, _, letters, rfl, ⟨_, rfl, rfl⟩, hlength, hletters, rfl⟩
    refine ⟨⟨'h' :: letters, ?_, rfl⟩, rfl⟩
    simpa [isExtension] using ⟨hlength 2 rfl, hletters⟩
  · rintro ⟨⟨extension, hextension, rfl⟩, rfl⟩
    unfold isExtension at hextension
    split at hextension
    · rename_i letters
      simp only [Bool.and_eq_true, decide_eq_true_eq, List.all_eq_true] at hextension
      obtain ⟨hlength, hletters⟩ := hextension
      refine ⟨['.'], 'h' :: letters, rfl, ⟨'.', rfl, rfl⟩, ['h'], letters, rfl, ⟨'h', rfl, rfl⟩,
        ?_, hletters, rfl⟩
      rintro most ⟨⟩
      exact hlength
    · cases hextension

/-- Directories in front of a header path make a header path. -/
theorem headerPath_of_repeats {n : Nat} {directories : List Char}
    (h : Repeats directory.Reads n directories memory) :
    memory = none ∧ ∀ path, HeaderPath path → HeaderPath (directories ++ path) := by
  induction h with
  | stop => exact ⟨rfl, fun path hpath => hpath⟩
  | more _ hread _ ih =>
    obtain ⟨⟨directory, hname, rfl⟩, rfl⟩ := reads_directory_iff.mp hread
    obtain ⟨rfl, hrest⟩ := ih
    refine ⟨rfl, ?_⟩
    intro path hpath
    simpa using HeaderPath.inside hname (hrest path hpath)

theorem reads_directories_iff :
    (many none directory).Reads text memory
      ↔ (∃ n, Repeats directory.Reads n text none) ∧ memory = none := by
  simp only [Reads]
  constructor
  · rintro ⟨n, -, hrepeats⟩
    obtain ⟨rfl, -⟩ := headerPath_of_repeats hrepeats
    exact ⟨⟨n, hrepeats⟩, rfl⟩
  · rintro ⟨⟨n, hrepeats⟩, rfl⟩
    exact ⟨n, by simp, hrepeats⟩

/-- The pattern of paths reads the header paths. -/
theorem reads_path_iff : path.Reads text memory ↔ HeaderPath text ∧ memory = none := by
  simp only [path, reads_seq_iff reads_directories_iff, reads_seq_iff reads_name_iff,
    reads_many_some_one_iff, reads_extension_iff]
  constructor
  · rintro ⟨directories, _, rfl, ⟨n, hrepeats⟩, name, ending, rfl, hname, hending⟩
    obtain ⟨-, hinside⟩ := headerPath_of_repeats hrepeats
    rcases hending with ⟨rfl, rfl⟩ | ⟨-, ⟨extension, hextension, rfl⟩, rfl⟩
    · rw [List.append_nil]
      exact ⟨hinside name (.bare hname), rfl⟩
    · exact ⟨hinside _ (.extended hname hextension), rfl⟩
  · rintro ⟨hpath, rfl⟩
    induction hpath with
    | @bare name hname =>
      exact ⟨[], name, rfl, ⟨0, .stop⟩, name, [], (List.append_nil name).symm, hname,
        .inl ⟨rfl, rfl⟩⟩
    | @extended name extension hname hextension =>
      exact ⟨[], name ++ '.' :: extension, rfl, ⟨0, .stop⟩, name, '.' :: extension, rfl, hname,
        .inr ⟨List.cons_ne_nil _ _, ⟨extension, hextension, rfl⟩, rfl⟩⟩
    | @inside name path hname _ ih =>
      obtain ⟨directories, last, rfl, ⟨n, hrepeats⟩, hlast⟩ := ih
      have hdirectory : directory.Reads (name ++ ['/']) none :=
        reads_directory_iff.mpr ⟨⟨name, hname, rfl⟩, rfl⟩
      exact ⟨(name ++ ['/']) ++ directories, last, by simp,
        ⟨n + 1, .more (by simp) hdirectory hrepeats⟩, hlast⟩

/-- The pattern reads the renderings, and remembers their paths. -/
theorem reads_directive_iff {line : List Char} :
    directive.Reads line memory ↔ ∃ d : Rendering, d.line = line ∧ memory = some d.path := by
  -- the parts before the group, one after the other; the group itself is a part that remembers
  simp only [directive, reads_seq_iff reads_blanks_iff, reads_seq_iff reads_one_iff,
    reads_seq_iff reads_literal_iff, beq_iff_eq]
  constructor
  · rintro ⟨indent, _, rfl, hindent, _, _, rfl, ⟨_, rfl, rfl⟩, afterSign, _, rfl, hafterSign,
      _, _, rfl, rfl, afterKeyword, _, rfl, hafterKeyword, _, _, rfl, ⟨opening, hopening, rfl⟩,
      path, rest, earlier, later, rfl, rfl, ⟨rfl, inside, hpath⟩, hrest⟩
    obtain ⟨_, trailing, rfl, ⟨closing, hclosing, rfl⟩, hblanks⟩ :=
      (reads_seq_iff reads_one_iff).mp hrest
    obtain ⟨htrailing, rfl⟩ := reads_blanks_iff.mp hblanks
    exact ⟨⟨indent, afterSign, afterKeyword, opening, path, closing, trailing, hindent,
      hafterSign, hafterKeyword, hopening, (reads_path_iff.mp hpath).1, hclosing, htrailing⟩,
      rfl, rfl⟩
  · rintro ⟨d, rfl, rfl⟩
    have hrest : (seq (one isClosing) blanks).Reads (d.closing :: d.trailing) none :=
      (reads_seq_iff reads_one_iff).mpr ⟨[d.closing], d.trailing, rfl,
        ⟨d.closing, d.isClosing_closing, rfl⟩, reads_blanks_iff.mpr ⟨d.blank_trailing, rfl⟩⟩
    refine ⟨d.indent, _, rfl, d.blank_indent, ['#'], _, rfl, ⟨'#', rfl, rfl⟩, ?_⟩
    refine ⟨d.afterSign, _, rfl, d.blank_afterSign, keyword, _, rfl, rfl, ?_⟩
    refine ⟨d.afterKeyword, _, rfl, d.blank_afterKeyword, [d.opening], _, rfl,
      ⟨d.opening, d.isOpening_opening, rfl⟩, ?_⟩
    exact ⟨d.path, d.closing :: d.trailing, some d.path, none, rfl, rfl,
      ⟨rfl, none, reads_path_iff.mpr ⟨d.headerPath_path, rfl⟩⟩, hrest⟩

end

/-- Trying the pattern and reading the line once find the same path. -/
theorem remembered?_directive (line : List Char) :
    directive.remembered? line = headerPath? line := by
  rcases remembered?_cases directive line with hread | ⟨hnone, hremembered⟩
  · obtain ⟨d, hline, hpath⟩ := reads_directive_iff.mp hread
    rw [hpath]
    exact (headerPath?_eq_some_iff.mpr ⟨d, hline, rfl⟩).symm
  · rw [hremembered]
    symm
    rw [Option.eq_none_iff_forall_ne_some]
    intro path hpath
    obtain ⟨d, hline, -⟩ := headerPath?_eq_some_iff.mp hpath
    exact hnone _ (reads_directive_iff.mpr ⟨d, hline, rfl⟩)

end IncludeOrder.Pattern

namespace IncludeOrder.Directive

/-- A line names a path exactly if it is a rendering of that path, and it is a rendering in one way
only.  The path then stands between the first opening delimiter of the line and the last closing
one, and matching the line against the pattern remembers this path and no other. -/
theorem captures_unique_path (line : List Char) :
    (∀ path, headerPath? line = some path ↔ ∃ d : Rendering, d.line = line ∧ d.path = path)
      ∧ (∀ d e : Rendering, d.line = line → e.line = line → d = e)
      ∧ (∀ path, headerPath? line = some path → ∃ before opening closing after,
          line = before ++ opening :: (path ++ closing :: after)
          ∧ isOpening opening = true ∧ (∀ c ∈ before, isOpening c = false)
          ∧ isClosing closing = true ∧ ∀ c ∈ after, isClosing c = false)
      ∧ Pattern.directive.remembered? line = headerPath? line := by
  refine ⟨fun _ => headerPath?_eq_some_iff, ?_, ?_, Pattern.remembered?_directive line⟩
  · rintro d e rfl hline
    exact (Rendering.line_injective hline).symm
  · intro path hpath
    obtain ⟨d, rfl, rfl⟩ := headerPath?_eq_some_iff.mp hpath
    exact ⟨d.front, d.opening, d.closing, d.trailing, d.line_eq_front, d.isOpening_opening,
      d.isOpening_of_mem_front, d.isClosing_closing, d.isClosing_of_mem_trailing⟩

/-- A directive over two lines, with a delimiter of either kind and blanks and letters of other
scripts. -/
theorem captures_unique_path_mixed :
    let line := "\u2003#\n include\t<ñandú/_x/日本.h++\"\u3000".toList
    let path := "ñandú/_x/日本.h++".toList
    Pattern.directive.remembered? line = some path
      ∧ ∃ d : Rendering, d.line = line ∧ d.path = path ∧ ∀ e : Rendering, e.line = line → e = d := by
  intro line path
  obtain ⟨hrendering, hunique, -, hpattern⟩ := captures_unique_path line
  have hpath : headerPath? line = some path := by decide +kernel
  obtain ⟨d, hline, hd⟩ := (hrendering path).mp hpath
  exact ⟨hpattern.trans hpath, d, hline, hd, fun e he => hunique e d he hline⟩

end IncludeOrder.Directive
