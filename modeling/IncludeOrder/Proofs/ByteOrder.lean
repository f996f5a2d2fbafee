import IncludeOrder.Proofs.Encoding
import Mathlib.Algebra.GroupWithZero.Nat
import Mathlib.Tactic.ByContra
import Mathlib.Tactic.SplitIfs

/-!
# The order of the bytes

UTF-8 keeps the order of the characters: texts compare as the lists of their bytes do.  A character
is a first byte and the bytes that continue it, six bits each.  The first byte grows with the
character (`leadByte_mono`); where it is the same, so are the number of bytes and the bits that it
holds, and the bytes after it decide one by one (`continuation_append_lt`).  No encoding is the start
of another one, so the first character that differs decides for the texts (`encode_lt_encode_iff`).
-/

set_option autoImplicit false

namespace IncludeOrder.Utf8

/-! ## First bytes and the bytes after them -/

/-- How many bytes continue the encoding of a code point. -/
def extra (n : Nat) : Nat :=
  if n < 0x80 then 0 else if n < 0x800 then 1 else if n < 0x10000 then 2 else 3

/-- The first byte of the encoding of a code point. -/
def leadByte (n : Nat) : Nat :=
  if n < 0x80 then n
  else if n < 0x800 then n / 64 + 0xC0
  else if n < 0x10000 then n / 4096 + 0xE0
  else n / 262144 + 0xF0

/-- The last bytes of the encoding of a code point, so many of them. -/
def continuation : Nat → Nat → List UInt8
  | 0, _ => []
  | k + 1, n => UInt8.ofNat (n / 64 ^ k % 64 + 0x80) :: continuation k n

theorem utf8EncodeChar_eq (c : Char) :
    String.utf8EncodeChar c
      = UInt8.ofNat (leadByte c.toNat) :: continuation (extra c.toNat) c.toNat := by
  unfold leadByte extra
  split_ifs with hone htwo hthree
  · rw [utf8EncodeChar_one hone]
    rfl
  · rw [utf8EncodeChar_two (by omega) htwo]
    simp [continuation]
  · rw [utf8EncodeChar_three (by omega) hthree]
    simp [continuation]
  · rw [utf8EncodeChar_four (by omega)]
    simp [continuation]

theorem leadByte_lt {n : Nat} (h : n < 0x110000) : leadByte n < 0x100 := by
  unfold leadByte
  split_ifs <;> omega

theorem leadByte_mono {m n : Nat} (h : m ≤ n) : leadByte m ≤ leadByte n := by
  unfold leadByte
  split_ifs <;> omega

/-- The first byte tells how many bytes follow, and holds the bits that they do not hold. -/
theorem of_leadByte_eq {m n : Nat} (h : leadByte m = leadByte n) :
    extra m = extra n ∧ m / 64 ^ extra n = n / 64 ^ extra n := by
  unfold leadByte at h
  unfold extra
  split_ifs at h ⊢ <;> omega

/-- Lists of bytes compare by their first byte, and by the rest where it is the same. -/
theorem ofNat_cons_lt_ofNat_cons {m n : Nat} {u v : List UInt8} (hn : n < 0x100)
    (h : m < n ∨ m = n ∧ u < v) : UInt8.ofNat m :: u < UInt8.ofNat n :: v := by
  rw [List.cons_lt_cons_iff]
  rcases h with hlt | ⟨rfl, huv⟩
  · refine Or.inl (UInt8.lt_iff_toNat_lt.mpr ?_)
    rw [UInt8.toNat_ofNat_of_lt' (show m < 0x100 by omega), UInt8.toNat_ofNat_of_lt' hn]
    exact hlt
  · exact Or.inr ⟨rfl, huv⟩

/-- Where the bits before them are the same, the bytes that follow decide. -/
theorem continuation_append_lt {m n : Nat} (hlt : m < n) (u v : List UInt8) {k : Nat}
    (hbits : m / 64 ^ k = n / 64 ^ k) : continuation k m ++ u < continuation k n ++ v := by
  induction k with
  | zero =>
    rw [pow_zero, Nat.div_one, Nat.div_one] at hbits
    exact absurd hbits (Nat.ne_of_lt hlt)
  | succ k ih =>
    -- the bits before the next six are the same, so the six decide, or those after them
    rw [pow_succ, ← Nat.div_div_eq_div_mul, ← Nat.div_div_eq_div_mul] at hbits
    have hle : m / 64 ^ k ≤ n / 64 ^ k := Nat.div_le_div_right (Nat.le_of_lt hlt)
    refine ofNat_cons_lt_ofNat_cons (by omega) ?_
    rcases Nat.lt_or_eq_of_le hle with hnext | hnext
    · exact Or.inl (by omega)
    · exact Or.inr ⟨by rw [hnext], ih hnext⟩

/-! ## Characters and texts -/

/-- The lesser character decides for the lesser bytes, whatever follows. -/
theorem utf8EncodeChar_append_lt {c d : Char} (hcd : c < d) (u v : List UInt8) :
    String.utf8EncodeChar c ++ u < String.utf8EncodeChar d ++ v := by
  have hcd : c.toNat < d.toNat := hcd
  have hvalid : d.toNat < 0xD800 ∨ 0xDFFF < d.toNat ∧ d.toNat < 0x110000 := d.valid
  rw [utf8EncodeChar_eq, utf8EncodeChar_eq]
  refine ofNat_cons_lt_ofNat_cons (leadByte_lt (by omega)) ?_
  rcases Nat.lt_or_eq_of_le (leadByte_mono (Nat.le_of_lt hcd)) with hlead | hlead
  · exact Or.inl hlead
  · obtain ⟨hextra, hbits⟩ := of_leadByte_eq hlead
    rw [hextra]
    exact Or.inr ⟨hlead, continuation_append_lt hcd u v hbits⟩

theorem encode_lt_encode {text other : List Char} (h : text < other) :
    encode text < encode other := by
  induction h with
  | nil =>
    rw [encode_cons, utf8EncodeChar_eq]
    exact List.nil_lt_cons _ _
  | rel hcd =>
    rw [encode_cons, encode_cons]
    exact utf8EncodeChar_append_lt hcd _ _
  | cons _ ih =>
    rw [encode_cons, encode_cons]
    exact List.append_left_lt ih

/-- **Texts compare as their bytes do.** -/
theorem encode_lt_encode_iff {text other : List Char} :
    encode text < encode other ↔ text < other := by
  refine ⟨fun h => ?_, encode_lt_encode⟩
  by_contra hle
  rcases List.le_iff_lt_or_eq.mp (List.not_lt.mp hle) with hlt | rfl
  · exact List.lt_asymm h (encode_lt_encode hlt)
  · exact List.lt_irrefl _ h

end IncludeOrder.Utf8
