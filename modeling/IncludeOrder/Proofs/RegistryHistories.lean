import IncludeOrder.Registry
import IncludeOrder.Proofs.ByteOrder

/-!
# Histories of a registry

A registry under any sequence of calls.  What it answers depends on the names it was started with
and the names registered since, as a set: neither their order nor their repetitions, nor the
questions in between, ever show (`finite_set_under_histories`).

A table of names has them in an order of its own, which it may change at any call.  What such a
table answers is therefore a relation (`Answers`); the names that it holds are an arrangement of
those of the registry, call after call, and its replies are those of the registry
(`answersAll_iff`).
-/

set_option autoImplicit false

namespace IncludeOrder.Registry

/-! ## Calls -/

/-- What a registry can be asked. -/
inductive Call where
  /-- whether it knows a name -/
  | contains (name : String)
  /-- to add a name -/
  | register (name : String)
  /-- how many names it knows -/
  | size
  /-- whether it knows none -/
  | isEmpty
  /-- its names in order -/
  | names
  deriving DecidableEq, Repr, Inhabited

/-- What a registry replies. -/
inductive Reply where
  /-- yes or no -/
  | flag (value : Bool)
  /-- a count -/
  | number (value : Nat)
  /-- names -/
  | listing (value : List String)
  deriving DecidableEq, Repr, Inhabited

/-- The reply to a call and the registry after it. -/
def ask (r : Registry) : Call → Reply × Registry
  | .contains name => (.flag (r.contains name), r)
  | .register name => (.flag (r.register name).1, (r.register name).2)
  | .size => (.number r.size, r)
  | .isEmpty => (.flag r.isEmpty, r)
  | .names => (.listing r.names, r)

/-- The replies to several calls and the registry after them. -/
def askAll (r : Registry) : List Call → List Reply × Registry
  | [] => ([], r)
  | call :: calls =>
    let (reply, r) := r.ask call
    let (replies, r) := r.askAll calls
    (reply :: replies, r)

/-- A call adds the name that it registers, and no other. -/
theorem mem_ask {r : Registry} {call : Call} {x : String} :
    x ∈ (r.ask call).2 ↔ x ∈ r ∨ call = .register x := by
  cases call with
  | register name =>
    show x ∈ (r.register name).2 ↔ _
    rw [mem_register, or_comm, Call.register.injEq, eq_comm]
  | contains name => simp [ask]
  | size => simp [ask]
  | isEmpty => simp [ask]
  | names => simp [ask]

theorem mem_askAll {r : Registry} {calls : List Call} {x : String} :
    x ∈ (r.askAll calls).2 ↔ x ∈ r ∨ .register x ∈ calls := by
  induction calls generalizing r with
  | nil => simp [askAll]
  | cons call calls ih =>
    show x ∈ ((r.ask call).2.askAll calls).2 ↔ _
    rw [ih, mem_ask, or_assoc, List.mem_cons, eq_comm (a := call)]

/-! ## The names in order -/

theorem nodup_names (r : Registry) : r.names.Nodup :=
  r.ascending.imp fun hlt => Std.ne_of_lt hlt

/-- The bytes of one name come before those of another. -/
def BytesBefore (name other : String) : Prop :=
  Utf8.encode name.toList < Utf8.encode other.toList

instance : DecidableRel BytesBefore := fun name other =>
  inferInstanceAs (Decidable (Utf8.encode name.toList < Utf8.encode other.toList))

theorem bytesBefore_iff {name other : String} : BytesBefore name other ↔ name < other :=
  Utf8.encode_lt_encode_iff

theorem names_bytesBefore (r : Registry) : r.names.Pairwise BytesBefore :=
  r.ascending.imp bytesBefore_iff.mpr

/-- An arrangement of the names in which no bytes come before earlier ones is the ascending one. -/
theorem eq_names_of_perm {r : Registry} {listing : List String} (hperm : listing.Perm r.names)
    (hsorted : listing.Pairwise fun name other => ¬ BytesBefore other name) :
    listing = r.names := by
  have hnodup : listing.Nodup := hperm.nodup_iff.mpr r.nodup_names
  have hascending : listing.Pairwise (· < ·) := by
    refine (hsorted.and hnodup).imp fun {name other} h => ?_
    obtain ⟨hle, hne⟩ := h
    rw [bytesBefore_iff, String.not_lt] at hle
    exact Std.lt_of_le_of_ne hle hne
  exact eq_of_ascending hascending r.ascending fun name => hperm.mem_iff

/-! ## Histories -/

/-- The names a registry was started with, and the calls since. -/
structure History where
  start : List String
  calls : List Call
  deriving DecidableEq, Repr, Inhabited

namespace History

/-- The name was there from the start, or has been registered. -/
def Knows (h : History) (name : String) : Prop := name ∈ h.start ∨ .register name ∈ h.calls

instance (h : History) (name : String) : Decidable (h.Knows name) :=
  inferInstanceAs (Decidable (_ ∨ _))

/-- The registry with this history. -/
def registry (h : History) : Registry := ((ofList h.start).askAll h.calls).2

theorem mem_registry {h : History} {x : String} : x ∈ h.registry ↔ h.Knows x := by
  rw [registry, mem_askAll, mem_ofList, Knows]

/-- The set of names known is all that is left of a history. -/
theorem registry_congr {h h' : History} (hknows : ∀ x, h'.Knows x ↔ h.Knows x) :
    h'.registry = h.registry := by
  refine ext fun x => ?_
  rw [mem_registry, mem_registry, hknows]

end History

/-! ## Tables without an order -/

/-- A call to a table of names, in the order that it holds them before and after. -/
inductive Answers : List String → Call → Reply → List String → Prop where
  /-- a name is looked up as it is -/
  | contains {held held' : List String} (name : String) : held'.Perm held →
      Answers held (.contains name) (.flag (decide (name ∈ held))) held'
  /-- a new name finds its place among the others -/
  | registerNew {held held' : List String} {name : String} : name ∉ held →
      held'.Perm (name :: held) → Answers held (.register name) (.flag true) held'
  /-- a name that is there stays the only one of its kind -/
  | registerKnown {held held' : List String} {name : String} : name ∈ held → held'.Perm held →
      Answers held (.register name) (.flag false) held'
  /-- the names are counted -/
  | size {held held' : List String} : held'.Perm held →
      Answers held .size (.number held.length) held'
  /-- there are names or there are none -/
  | isEmpty {held held' : List String} : held'.Perm held →
      Answers held .isEmpty (.flag held.isEmpty) held'
  /-- the names are put into the order of their bytes -/
  | names {held held' listing : List String} : listing.Perm held →
      listing.Pairwise (fun name other => ¬ BytesBefore other name) → held'.Perm held →
      Answers held .names (.listing listing) held'

/-- Several calls to a table of names. -/
inductive AnswersAll : List String → List Call → List Reply → List String → Prop where
  /-- no call -/
  | nil {held : List String} : AnswersAll held [] [] held
  /-- a call and those after it -/
  | cons {held held₁ held₂ : List String} {call : Call} {calls : List Call} {reply : Reply}
      {replies : List Reply} : Answers held call reply held₁ →
      AnswersAll held₁ calls replies held₂ →
      AnswersAll held (call :: calls) (reply :: replies) held₂

/-- One call: the table replies as the registry does and goes on holding its names. -/
theorem Answers.eq_ask {r : Registry} {held held' : List String} {call : Call} {reply : Reply}
    (h : Answers held call reply held') (hheld : held.Perm r.names) :
    reply = (r.ask call).1 ∧ held'.Perm (r.ask call).2.names := by
  have hmem (name : String) : name ∈ held ↔ name ∈ r := hheld.mem_iff
  cases h with
  | contains name hperm =>
    refine ⟨congrArg Reply.flag ?_, hperm.trans hheld⟩
    rw [Bool.eq_iff_iff, decide_eq_true_iff, contains_eq_true_iff]
    exact hmem name
  | registerNew hnew hperm =>
    rename_i name
    have hnot : name ∉ r := fun hr => hnew ((hmem name).mpr hr)
    rw [ask, register_eq, contains_eq_false_iff.mpr hnot]
    exact ⟨rfl, hperm.trans ((hheld.cons name).trans (place_perm hnot).symm)⟩
  | registerKnown hknown hperm =>
    rename_i name
    have hr : name ∈ r := (hmem name).mp hknown
    rw [ask, register_eq, contains_eq_true_iff.mpr hr, insert_of_mem hr]
    exact ⟨rfl, hperm.trans hheld⟩
  | size hperm => exact ⟨congrArg Reply.number hheld.length_eq, hperm.trans hheld⟩
  | isEmpty hperm => exact ⟨congrArg Reply.flag hheld.isEmpty_eq, hperm.trans hheld⟩
  | names hlisting hsorted hperm =>
    have hnames := eq_names_of_perm (hlisting.trans hheld) hsorted
    exact ⟨congrArg Reply.listing hnames, hperm.trans hheld⟩

/-- Any sequence of calls: no order in which a table holds its names ever shows. -/
theorem AnswersAll.eq_askAll {r : Registry} {held held' : List String} {calls : List Call}
    {replies : List Reply} (h : AnswersAll held calls replies held')
    (hheld : held.Perm r.names) :
    replies = (r.askAll calls).1 ∧ held'.Perm (r.askAll calls).2.names := by
  induction h generalizing r with
  | nil => exact ⟨rfl, hheld⟩
  | cons hcall _ ih =>
    obtain ⟨hreply, hafter⟩ := hcall.eq_ask hheld
    obtain ⟨hreplies, hlast⟩ := ih hafter
    exact ⟨by rw [hreply, hreplies]; rfl, hlast⟩

/-- One call, the other way round: the reply of the registry is one that the table can give. -/
theorem answers_ask {r : Registry} {held : List String} (hheld : held.Perm r.names) (call : Call) :
    Answers held call (r.ask call).1 (r.ask call).2.names := by
  have hmem (name : String) : name ∈ held ↔ name ∈ r := hheld.mem_iff
  cases call with
  | contains name =>
    have hlookup : r.contains name = decide (name ∈ held) := by
      rw [Bool.eq_iff_iff, decide_eq_true_iff, contains_eq_true_iff, hmem]
    rw [ask, hlookup]
    exact .contains name hheld.symm
  | register name =>
    rw [ask, register_eq]
    by_cases hr : name ∈ r
    · rw [contains_eq_true_iff.mpr hr, insert_of_mem hr]
      exact .registerKnown ((hmem name).mpr hr) hheld.symm
    · rw [contains_eq_false_iff.mpr hr]
      refine .registerNew (fun hname => hr ((hmem name).mp hname)) ?_
      exact (place_perm hr).trans (hheld.symm.cons name)
  | size =>
    rw [ask, size, ← hheld.length_eq]
    exact .size hheld.symm
  | isEmpty =>
    rw [ask, isEmpty, ← hheld.isEmpty_eq]
    exact .isEmpty hheld.symm
  | names =>
    refine .names hheld.symm ?_ hheld.symm
    exact r.ascending.imp fun hlt hbefore => String.lt_asymm hlt (bytesBefore_iff.mp hbefore)

theorem exists_answersAll {r : Registry} {held : List String} (hheld : held.Perm r.names)
    (calls : List Call) : ∃ held', AnswersAll held calls (r.askAll calls).1 held' := by
  induction calls generalizing r held with
  | nil => exact ⟨held, .nil⟩
  | cons call calls ih =>
    -- behind the first call the table may hold its names as the registry does
    obtain ⟨held', hrest⟩ := ih (.refl (r.ask call).2.names)
    exact ⟨held', .cons (answers_ask hheld call) hrest⟩

/-- The replies of a table, in whatever order it holds its names, are those of the registry. -/
theorem answersAll_iff {r : Registry} {held : List String} (hheld : held.Perm r.names)
    (calls : List Call) (replies : List Reply) :
    (∃ held', AnswersAll held calls replies held') ↔ replies = (r.askAll calls).1 := by
  constructor
  · rintro ⟨held', hrun⟩
    exact (hrun.eq_askAll hheld).1
  · rintro rfl
    exact exists_answersAll hheld calls

/-- Names without repetitions are those of the registry made of any list of the same names. -/
theorem perm_names_ofList {start held : List String} (hnodup : held.Nodup)
    (hmem : ∀ x, x ∈ held ↔ x ∈ start) : held.Perm (ofList start).names := by
  rw [List.perm_ext_iff_of_nodup hnodup (nodup_names _)]
  exact fun x => (hmem x).trans mem_ofList.symm

/-! ## The set of the names known -/

/-- A registry that is the set of these names: it knows them, takes in the others, and lists each of
them once, in the order of the bytes. -/
structure Represents (r : Registry) (Known : String → Prop) : Prop where
  contains : ∀ x, r.contains x = true ↔ Known x
  isNew : ∀ x, (r.register x).1 = true ↔ ¬ Known x
  grows : ∀ x, ¬ Known x → (r.register x).2.size = r.size + 1
    ∧ ∀ y, (r.register x).2.contains y = true ↔ Known y ∨ y = x
  stays : ∀ x, Known x → (r.register x).2 = r
  sorted : r.names.Pairwise BytesBefore
  lists : ∀ x, x ∈ r.names ↔ Known x
  once : r.names.Nodup
  length : r.names.length = r.size
  isEmpty : r.isEmpty = true ↔ r.size = 0

theorem isNew_register_iff {r : Registry} {x : String} : (r.register x).1 = true ↔ x ∉ r := by
  rw [register_eq, Bool.not_eq_true', contains_eq_false_iff]

theorem represents_members (r : Registry) : r.Represents (· ∈ r) where
  contains _ := contains_eq_true_iff
  isNew _ := isNew_register_iff
  grows x hx := by
    refine ⟨by rw [size_register, if_pos (isNew_register_iff.mpr hx)], fun y => ?_⟩
    rw [contains_eq_true_iff, mem_register, or_comm]
  stays x hx := by rw [register_eq, insert_of_mem hx]
  sorted := r.names_bytesBefore
  lists _ := Iff.rfl
  once := r.nodup_names
  length := rfl
  isEmpty := by rw [isEmpty, size, List.isEmpty_iff_length_eq_zero]

/-- **A registry is a finite set under every history.**  Whatever it was started with and called
since, it is the set of the names that it was started with or that were registered.  A history that
knows the same names, in whatever order and how often it heard of them, replies the same to all
later calls.  And a table that starts with the same names, in whatever order it holds them then and
later, gives the replies of the registry and no others. -/
theorem finite_set_under_histories (h : History) :
    h.registry.Represents h.Knows
    ∧ (∀ h' : History, (∀ x, h'.Knows x ↔ h.Knows x) →
        ∀ later : List Call, (h'.registry.askAll later).1 = (h.registry.askAll later).1)
    ∧ ∀ seed : List String, seed.Nodup → (∀ x, x ∈ seed ↔ x ∈ h.start) →
        ∀ replies : List Reply, (∃ held, AnswersAll seed h.calls replies held)
          ↔ replies = ((ofList h.start).askAll h.calls).1 := by
  refine ⟨?_, fun h' hknows later => ?_, fun seed hnodup hmem replies => ?_⟩
  · have hmembers : h.Knows = (· ∈ h.registry) :=
      funext fun x => propext History.mem_registry.symm
    rw [hmembers]
    exact h.registry.represents_members
  · rw [History.registry_congr hknows]
  · exact answersAll_iff (perm_names_ofList hnodup hmem) h.calls replies

/-- Three names, from a list that repeats one of them or by registrations in another order, and a
table that keeps the last one in the middle. -/
theorem finite_set_under_histories_reordered :
    let h : History := ⟨["b.h", "a.h", "b.h"], [.register "c.h", .names, .register "c.h"]⟩
    let h' : History := ⟨["c.h"], [.register "b.h", .size, .register "a.h", .contains "d.h"]⟩
    let later : List Call := [.register "d.h", .register "a.h", .names, .isEmpty]
    h.registry.Represents h.Knows
    ∧ (h'.registry.askAll later).1 = (h.registry.askAll later).1
    ∧ (h.registry.askAll later).1
      = [.flag true, .flag false, .listing ["a.h", "b.h", "c.h", "d.h"], .flag false]
    ∧ AnswersAll ["b.h", "a.h"] h.calls
        [.flag true, .listing ["a.h", "b.h", "c.h"], .flag false] ["c.h", "b.h", "a.h"]
    ∧ [.flag true, .listing ["a.h", "b.h", "c.h"], .flag false]
      = ((ofList h.start).askAll h.calls).1 := by
  intro h h' later
  have hnew : Answers ["b.h", "a.h"] (.register "c.h") (.flag true) ["a.h", "c.h", "b.h"] :=
    .registerNew (by decide) (by decide)
  have hnames : Answers ["a.h", "c.h", "b.h"] .names (.listing ["a.h", "b.h", "c.h"])
      ["b.h", "a.h", "c.h"] := .names (by decide) (by decide) (by decide)
  have hagain : Answers ["b.h", "a.h", "c.h"] (.register "c.h") (.flag false)
      ["c.h", "b.h", "a.h"] := .registerKnown (by decide) (by decide)
  have hrun := AnswersAll.cons hnew (.cons hnames (.cons hagain .nil))
  have hknows : ∀ x, h'.Knows x ↔ h.Knows x := by grind [History.Knows]
  obtain ⟨hset, hsame, htable⟩ := finite_set_under_histories h
  have hreplies := htable ["b.h", "a.h"] (by decide) (by simp [h, or_comm])
  exact ⟨hset, hsame h' hknows later, by decide, hrun, (hreplies _).mp ⟨_, hrun⟩⟩

end IncludeOrder.Registry
