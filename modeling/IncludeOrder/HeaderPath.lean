import IncludeOrder.Text.Word

/-!
# Header paths

The text between the delimiters of an include directive, as far as this program recognises it:
directory names and a file name separated by slashes, every name a non-empty run of word
characters, and after the file name an optional extension, which is a dot, an h, and at most two
more of h, p and plus.  Names with hyphens, further dots or other extensions are no header paths,
and a directive that has one is not taken for a directive.

The grammar is stated twice: `HeaderPath` says what a header path is, `isHeaderPath` decides it in
one pass, and `isHeaderPath_eq_true_iff` joins the two.
-/

set_option autoImplicit false

namespace IncludeOrder

open Text

/-- A name of a file or a directory. -/
def IsName (name : List Char) : Prop := name ≠ [] ∧ ∀ c ∈ name, isWord c = true

/-- A character that may follow the h of an extension. -/
def isExtensionLetter (c : Char) : Bool := c == 'h' || c == 'p' || c == '+'

/-- What follows the dot of an extension. -/
def isExtension : List Char → Bool
  | 'h' :: letters => decide (letters.length ≤ 2) && letters.all isExtensionLetter
  | _ => false

/-- The paths an include directive may name. -/
inductive HeaderPath : List Char → Prop where
  /-- a file without an extension -/
  | bare {name : List Char} : IsName name → HeaderPath name
  /-- a file with an extension -/
  | extended {name extension : List Char} :
      IsName name → isExtension extension = true → HeaderPath (name ++ '.' :: extension)
  /-- a path inside a directory -/
  | inside {name path : List Char} :
      IsName name → HeaderPath path → HeaderPath (name ++ '/' :: path)

/-- Reads a path from inside a name, of which `named` says whether it has a character yet. -/
def isHeaderPathFrom (named : Bool) : List Char → Bool
  | [] => named
  | c :: rest =>
    if isWord c then isHeaderPathFrom true rest
    else if c = '/' then named && isHeaderPathFrom false rest
    else if c = '.' then named && isExtension rest
    else false

/-- The text is a header path. -/
def isHeaderPath (path : List Char) : Bool := isHeaderPathFrom false path

theorem isWord_slash : isWord '/' = false := by decide

theorem isWord_dot : isWord '.' = false := by decide

/-- A name that is being read goes on through all its characters. -/
theorem isHeaderPathFrom_append {name : List Char} (hn : ∀ c ∈ name, isWord c = true)
    (named : Bool) (rest : List Char) :
    isHeaderPathFrom named (name ++ rest) = isHeaderPathFrom (named || !name.isEmpty) rest := by
  induction name generalizing named with
  | nil => simp
  | cons c name ih =>
    have hc : isWord c = true := hn c (by simp)
    have := ih (fun d hd => hn d (by simp [hd])) true
    simp [isHeaderPathFrom, hc, this]

theorem isHeaderPath_of_headerPath {path : List Char} (h : HeaderPath path) :
    isHeaderPath path = true := by
  induction h with
  | @bare name hn =>
    have := isHeaderPathFrom_append hn.2 false []
    simp only [List.append_nil] at this
    simp [isHeaderPath, this, isHeaderPathFrom, hn.1]
  | @extended name extension hn he =>
    rw [isHeaderPath, isHeaderPathFrom_append hn.2]
    simp [isHeaderPathFrom, isWord_dot, he, hn.1]
  | @inside name path hn _ ih =>
    rw [isHeaderPath, isHeaderPathFrom_append hn.2]
    simpa [isHeaderPathFrom, isWord_slash, hn.1, isHeaderPath] using ih

/-- A text that is read to its end from inside the name `name`, which stands before it, completes
a header path. -/
theorem headerPath_of_isHeaderPathFrom {name rest : List Char}
    (hn : ∀ c ∈ name, isWord c = true)
    (h : isHeaderPathFrom (!name.isEmpty) rest = true) : HeaderPath (name ++ rest) := by
  induction rest generalizing name with
  | nil =>
    have : name ≠ [] := by simpa [isHeaderPathFrom] using h
    simpa using HeaderPath.bare ⟨this, hn⟩
  | cons c rest ih =>
    by_cases hw : isWord c = true
    · have hn' : ∀ d ∈ name ++ [c], isWord d = true := by
        intro d hd
        rcases List.mem_append.1 hd with hd | hd
        · exact hn d hd
        · simpa [List.mem_singleton.1 hd] using hw
      have open_name : (!(name ++ [c]).isEmpty) = true := by cases name <;> rfl
      have := ih hn' (by rw [open_name]; simpa [isHeaderPathFrom, hw] using h)
      simpa using this
    · by_cases hs : c = '/'
      · subst hs
        have h : (!name.isEmpty) = true ∧ isHeaderPathFrom false rest = true := by
          simpa [isHeaderPathFrom, isWord_slash] using h
        have hne : name ≠ [] := by simpa using h.1
        exact HeaderPath.inside ⟨hne, hn⟩ (@ih [] (by simp) h.2)
      · by_cases hd : c = '.'
        · subst hd
          have h : (!name.isEmpty) = true ∧ isExtension rest = true := by
            simpa [isHeaderPathFrom, isWord_dot] using h
          have hne : name ≠ [] := by simpa using h.1
          exact HeaderPath.extended ⟨hne, hn⟩ h.2
        · simp [isHeaderPathFrom, hw, hs, hd] at h

/-- The one pass decides the grammar. -/
theorem isHeaderPath_eq_true_iff (path : List Char) :
    isHeaderPath path = true ↔ HeaderPath path :=
  ⟨fun h => @headerPath_of_isHeaderPathFrom [] path (by simp) h, isHeaderPath_of_headerPath⟩

instance (path : List Char) : Decidable (HeaderPath path) :=
  decidable_of_iff _ (isHeaderPath_eq_true_iff path)

end IncludeOrder
