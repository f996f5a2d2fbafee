/-!
# The registry of headers

The registry is the set of header names that count as bringing the designated header with them.  It
starts from the settings and only grows: a file found to include a registered header is registered
under its own base name.

Names are held in ascending order without repetition, and the order is part of the type.  Order
here is by code point, which is also the order of the UTF-8 bytes.  A registry is therefore
determined by its members (`ext`), whatever the order and number of the registrations before.
-/

set_option autoImplicit false

namespace IncludeOrder

/-- A finite set of header names. -/
structure Registry where
  /-- the names, ascending -/
  names : List String
  ascending : names.Pairwise (· < ·)
  deriving DecidableEq

namespace Registry

/-- No name at all. -/
def empty : Registry := ⟨[], .nil⟩

instance : Inhabited Registry := ⟨empty⟩

instance : Membership String Registry := ⟨fun r name => name ∈ r.names⟩

instance (name : String) (r : Registry) : Decidable (name ∈ r) :=
  inferInstanceAs (Decidable (name ∈ r.names))

/-- The name is registered. -/
def contains (r : Registry) (name : String) : Bool := r.names.contains name

/-- How many names are registered. -/
def size (r : Registry) : Nat := r.names.length

/-- No name is registered. -/
def isEmpty (r : Registry) : Bool := r.names.isEmpty

/-- Puts a name into its place in an ascending list that does not hold it. -/
def place (name : String) : List String → List String
  | [] => [name]
  | first :: rest =>
    if name < first then name :: first :: rest
    else if name = first then first :: rest
    else first :: place name rest

theorem mem_place {name x : String} {names : List String} :
    x ∈ place name names ↔ x = name ∨ x ∈ names := by
  induction names with
  | nil => simp [place]
  | cons first rest ih =>
    simp only [place]
    split
    · simp
    · split
      · rename_i h
        subst h
        simp
      · simp only [List.mem_cons, ih]
        constructor <;> (rintro (h | h | h) <;> simp [h])

theorem place_ascending {name : String} {names : List String}
    (h : names.Pairwise (· < ·)) : (place name names).Pairwise (· < ·) := by
  induction names with
  | nil => simp [place]
  | cons first rest ih =>
    rw [List.pairwise_cons] at h
    simp only [place]
    split
    · rename_i lt
      refine List.pairwise_cons.2 ⟨fun x hx => ?_, List.pairwise_cons.2 h⟩
      rcases List.mem_cons.1 hx with rfl | hx
      · exact lt
      · exact String.lt_trans lt (h.1 x hx)
    · split
      · exact List.pairwise_cons.2 h
      · rename_i nlt ne
        refine List.pairwise_cons.2 ⟨fun x hx => ?_, ih h.2⟩
        rcases mem_place.1 hx with rfl | hx
        · exact Std.lt_of_le_of_ne (String.not_lt.1 nlt) (Ne.symm ne)
        · exact h.1 x hx

/-- A new name gets a place among the others, and nothing else happens to them. -/
theorem place_perm {name : String} {names : List String} (h : name ∉ names) :
    (place name names).Perm (name :: names) := by
  induction names with
  | nil => exact .refl _
  | cons first rest ih =>
    rw [List.mem_cons, not_or] at h
    simp only [place, h.1, if_false]
    split
    · exact .refl _
    · exact ((ih h.2).cons first).trans (.swap name first rest)

/-- The registry with a name added. -/
def insert (r : Registry) (name : String) : Registry :=
  ⟨place name r.names, place_ascending r.ascending⟩

/-- Adds a name and tells whether it is new. -/
def register (r : Registry) (name : String) : Bool × Registry :=
  if r.contains name then (false, r) else (true, r.insert name)

/-- The registry of some names, in any order and with any repetitions. -/
def ofList (names : List String) : Registry := names.foldl insert empty

/-- The names of this registry that the other one lacks, ascending. -/
def newSince (r before : Registry) : List String :=
  r.names.filter fun name => !before.contains name

@[simp] theorem contains_eq_true_iff {r : Registry} {name : String} :
    r.contains name = true ↔ name ∈ r := by
  exact List.contains_iff_mem

@[simp] theorem contains_eq_false_iff {r : Registry} {name : String} :
    r.contains name = false ↔ name ∉ r := by
  rw [← Bool.not_eq_true, contains_eq_true_iff]

@[simp] theorem mem_insert {r : Registry} {name x : String} :
    x ∈ r.insert name ↔ x = name ∨ x ∈ r := mem_place

@[simp] theorem not_mem_empty {x : String} : x ∉ empty :=
  List.not_mem_nil (a := x)

theorem mem_foldl_insert {names : List String} {r : Registry} {x : String} :
    x ∈ names.foldl insert r ↔ x ∈ names ∨ x ∈ r := by
  induction names generalizing r with
  | nil => simp
  | cons name rest ih =>
    simp only [List.foldl_cons, ih, mem_insert, List.mem_cons]
    exact ⟨by rintro (h | h | h) <;> simp [h], by rintro ((h | h) | h) <;> simp [h]⟩

@[simp] theorem mem_ofList {names : List String} {x : String} :
    x ∈ ofList names ↔ x ∈ names := by
  simp [ofList, mem_foldl_insert]

theorem mem_register {r : Registry} {name x : String} :
    x ∈ (r.register name).2 ↔ x = name ∨ x ∈ r := by
  unfold register
  split
  · rename_i h
    rw [contains_eq_true_iff] at h
    exact ⟨Or.inr, fun hx => hx.elim (fun e => e ▸ h) id⟩
  · exact mem_insert

theorem size_register {r : Registry} {name : String} :
    (r.register name).2.size = if (r.register name).1 then r.size + 1 else r.size := by
  unfold register
  split
  · simp
  · rename_i h
    rw [contains_eq_true_iff] at h
    simpa [size, insert] using (place_perm h).length_eq

/-- Ascending lists with the same members are the same list. -/
theorem eq_of_ascending {xs ys : List String} (hx : xs.Pairwise (· < ·))
    (hy : ys.Pairwise (· < ·)) (h : ∀ name, name ∈ xs ↔ name ∈ ys) : xs = ys := by
  induction xs generalizing ys with
  | nil =>
    cases ys with
    | nil => rfl
    | cons y ys => simpa using h y
  | cons x xs ih =>
    cases ys with
    | nil => simpa using h x
    | cons y ys =>
      rw [List.pairwise_cons] at hx hy
      have e : x = y := by
        rcases List.mem_cons.1 ((h x).1 (by simp)) with e | hxy
        · exact e
        · rcases List.mem_cons.1 ((h y).2 (by simp)) with e | hyx
          · exact e.symm
          · exact absurd (String.lt_trans (hy.1 x hxy) (hx.1 y hyx)) (String.lt_irrefl y)
      subst e
      congr 1
      refine ih hx.2 hy.2 fun name => ⟨fun hm => ?_, fun hm => ?_⟩
      · rcases List.mem_cons.1 ((h name).1 (by simp [hm])) with e | hm'
        · exact absurd (e ▸ hx.1 name hm) (String.lt_irrefl _)
        · exact hm'
      · rcases List.mem_cons.1 ((h name).2 (by simp [hm])) with e | hm'
        · exact absurd (e ▸ hy.1 name hm) (String.lt_irrefl _)
        · exact hm'

/-- Two registries with the same members are equal. -/
theorem ext {r s : Registry} (h : ∀ name, name ∈ r ↔ name ∈ s) : r = s := by
  obtain ⟨xs, hx⟩ := r
  obtain ⟨ys, hy⟩ := s
  have e : xs = ys := eq_of_ascending hx hy h
  subst e
  rfl

theorem insert_of_mem {r : Registry} {name : String} (h : name ∈ r) : r.insert name = r := by
  refine ext fun x => ?_
  rw [mem_insert]
  exact ⟨fun hx => hx.elim (fun e => e ▸ h) id, Or.inr⟩

/-- Registering always comes to the registry with the name added. -/
theorem register_eq (r : Registry) (name : String) :
    r.register name = (!r.contains name, r.insert name) := by
  unfold register
  split
  · rename_i h
    rw [insert_of_mem (contains_eq_true_iff.mp h), h]
    rfl
  · rename_i h
    rw [Bool.eq_false_iff.mpr h]
    rfl

end Registry

end IncludeOrder
