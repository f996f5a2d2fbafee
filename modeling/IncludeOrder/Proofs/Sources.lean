import IncludeOrder.Proofs.Verdict
import Mathlib.Data.List.Find

/-!
# Sources and what they teach

To a run a file is a path and a text: a source.  Two things about it matter to other files, the
name it may be registered under and the headers that its live directives name.  A registry
confirms a source if it holds one of those headers, and learns its name then.

What a scan reports and learns depends on the registry at the headers of the scanned source only
(`verdict_congr`, `confirms_congr`), and registries only grow.  Every statement about the order of
scans rests on these two facts.
-/

set_option autoImplicit false

namespace IncludeOrder

/-- A file as a scan sees it. -/
structure Source where
  path : Path
  text : List Char
  deriving DecidableEq, Repr, Inhabited

namespace Source

/-- The name under which the source is registered. -/
def baseName (f : Source) : String := f.path.baseName

/-- The live lines of the source. -/
def live (f : Source) : List (List Char × Nat) := Scan.liveLines f.text

/-- The headers that the live directives of the source name. -/
def headers (f : Source) : List String := f.live.filterMap Scan.header?

theorem header_mem_headers {f : Source} {numbered : List Char × Nat} {header : String}
    (hlive : numbered ∈ f.live) (hheader : Scan.header? numbered = some header) :
    header ∈ f.headers :=
  List.mem_filterMap.mpr ⟨numbered, hlive, hheader⟩

end Source

/-! ## What a registry learns -/

namespace Registry

/-- The source names a registered header. -/
def confirms (r : Registry) (f : Source) : Bool := f.headers.any r.contains

/-- The registry after a scan of the source. -/
def learn (r : Registry) (f : Source) : Registry :=
  if r.confirms f then r.insert f.baseName else r

/-- The registry after scans of the sources in this order. -/
def learnAll (r : Registry) (files : List Source) : Registry := files.foldl learn r

variable {r r' : Registry} {f : Source} {files more : List Source} {name : String}

theorem confirms_eq_true_iff : r.confirms f = true ↔ ∃ header ∈ f.headers, header ∈ r := by
  simp [confirms]

theorem mem_learn : name ∈ r.learn f ↔ name ∈ r ∨ r.confirms f = true ∧ name = f.baseName := by
  unfold learn
  split
  · rename_i h
    simp [h, or_comm]
  · rename_i h
    simp [h]

theorem mem_learn_of_mem (h : name ∈ r) : name ∈ r.learn f := mem_learn.mpr (Or.inl h)

theorem baseName_mem_learn (h : r.confirms f = true) : f.baseName ∈ r.learn f :=
  mem_learn.mpr (Or.inr ⟨h, rfl⟩)

theorem learn_eq_self (h : r.confirms f = true → f.baseName ∈ r) : r.learn f = r := by
  unfold learn
  split
  · rename_i hconfirms
    exact insert_of_mem (h hconfirms)
  · rfl

@[simp] theorem learnAll_cons : r.learnAll (f :: files) = (r.learn f).learnAll files := rfl

theorem learnAll_append : r.learnAll (files ++ more) = (r.learnAll files).learnAll more :=
  List.foldl_append

/-- No name is ever removed. -/
theorem mem_learnAll_of_mem (h : name ∈ r) : name ∈ r.learnAll files := by
  induction files generalizing r with
  | nil => exact h
  | cons f files ih => exact ih (mem_learn_of_mem h)

/-- Only the headers that the source names matter to its confirmation. -/
theorem confirms_congr (h : ∀ header ∈ f.headers, header ∈ r ↔ header ∈ r') :
    r.confirms f = r'.confirms f := by
  rw [Bool.eq_iff_iff, confirms_eq_true_iff, confirms_eq_true_iff]
  constructor
  · rintro ⟨header, hmem, hr⟩
    exact ⟨header, hmem, (h header hmem).mp hr⟩
  · rintro ⟨header, hmem, hr⟩
    exact ⟨header, hmem, (h header hmem).mpr hr⟩

theorem confirms_mono (hsub : ∀ name, name ∈ r → name ∈ r') (h : r.confirms f = true) :
    r'.confirms f = true := by
  obtain ⟨header, hmem, hr⟩ := confirms_eq_true_iff.mp h
  exact confirms_eq_true_iff.mpr ⟨header, hmem, hsub header hr⟩

end Registry

/-! ## What a scan depends on -/

namespace Scan

variable {r r' : Registry} {f : Source}

theorem designates_congr (h : ∀ header ∈ f.headers, header ∈ r ↔ header ∈ r') :
    ∀ numbered ∈ f.live, designates r numbered = designates r' numbered := by
  intro numbered hlive
  cases hheader : header? numbered with
  | none => rw [designates_of_code hheader, designates_of_code hheader]
  | some header =>
    rw [designates_of_header hheader, designates_of_header hheader, Bool.eq_iff_iff,
      Registry.contains_eq_true_iff, Registry.contains_eq_true_iff]
    exact h header (Source.header_mem_headers hlive hheader)

theorem designated?_congr {live : List (List Char × Nat)}
    (h : ∀ numbered ∈ live, designates r numbered = designates r' numbered) :
    designated? r live = designated? r' live := by
  rw [designated?, designated?, List.find?_congr h]

theorem preceding_congr {live : List (List Char × Nat)}
    (h : ∀ numbered ∈ live, designates r numbered = designates r' numbered) :
    preceding r live = preceding r' live := by
  induction live with
  | nil => rfl
  | cons first rest ih =>
    have hrest : preceding r rest = preceding r' rest :=
      ih fun numbered hmem => h numbered (List.mem_cons_of_mem _ hmem)
    have hfirst : designates r first = designates r' first := h first List.mem_cons_self
    unfold preceding at hrest ⊢
    rw [List.takeWhile_cons, List.takeWhile_cons, hfirst, hrest]

/-- Only the headers that the source names matter to the report on it. -/
theorem verdict_congr (s : Settings) (label : Label)
    (h : ∀ header ∈ f.headers, header ∈ r ↔ header ∈ r') :
    verdict s r label f.live = verdict s r' label f.live := by
  unfold verdict
  rw [designated?_congr (designates_congr h), preceding_congr (designates_congr h)]

/-- The source has a designated line just when the registry confirms it. -/
theorem isSome_designated? (r : Registry) (f : Source) :
    (designated? r f.live).isSome = r.confirms f := by
  rw [designated?, Option.isSome_map, List.isSome_find?, Registry.confirms, Source.headers,
    List.any_filterMap]
  congr 1
  funext numbered
  cases hheader : header? numbered with
  | none => exact designates_of_code hheader
  | some header => exact designates_of_header hheader

end Scan

end IncludeOrder
