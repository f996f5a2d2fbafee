import IncludeOrder.Text.Utf8

/-!
# Well-formed UTF-8

Bytes are well formed when they are the encoding of some text, where each character is encoded by
itself.  The decoder knows nothing of encodings: it reads bytes against ranges.  Here the two are
joined.  Fed with the encoding of a character, the decoder reads this character and owes nothing
(`foldl_feed_utf8EncodeChar`); and what it has read without fault is always the text whose encoding
it was fed with, but for the bytes of the sequence that is still open (`Decoder.Reads.foldl`).  So
`decode?` inverts `encode`, and has no text for any other bytes (`decode?_eq_some_iff_encode`).
-/

set_option autoImplicit false

namespace IncludeOrder.Utf8

/-- The bytes of a text. -/
def encode (text : List Char) : List UInt8 := text.flatMap String.utf8EncodeChar

/-- The bytes are those of some text. -/
def WellFormed (bytes : List UInt8) : Prop := ∃ text, encode text = bytes

theorem encode_cons (c : Char) (text : List Char) :
    encode (c :: text) = String.utf8EncodeChar c ++ encode text :=
  List.flatMap_cons

theorem encode_append (text more : List Char) :
    encode (text ++ more) = encode text ++ encode more :=
  List.flatMap_append

/-! ## First bytes -/

/-- A first byte promises two, three or four bytes, and bounds the second one. -/
theorem Owed.ofLead?_eq_some_iff {b : Nat} {owed : Owed} :
    ofLead? b = some owed ↔
      (0xC2 ≤ b ∧ b < 0xE0 ∧ owed = ⟨0x80, 0xBF, 0, b - 0xC0⟩) ∨
      (0xE0 ≤ b ∧ b < 0xF0 ∧ owed = ⟨if b = 0xE0 then 0xA0 else 0x80,
        if b = 0xED then 0x9F else 0xBF, 1, b - 0xE0⟩) ∨
      (0xF0 ≤ b ∧ b < 0xF5 ∧ owed = ⟨if b = 0xF0 then 0x90 else 0x80,
        if b = 0xF4 then 0x8F else 0xBF, 2, b - 0xF0⟩) := by
  unfold ofLead?
  grind

/-! ## Reading the encoding of a character -/

section Reading

variable {low high more bits : Nat} {read : List Piece} {b : UInt8}

theorem Decoder.feed_last (hlow : low ≤ b.toNat) (hhigh : b.toNat ≤ high) :
    feed ⟨some ⟨low, high, 0, bits⟩, read⟩ b
      = ⟨none, some (Char.ofNat (bits * 64 + (b.toNat - 0x80))) :: read⟩ := by
  simp [feed, hlow, hhigh]

theorem Decoder.feed_next (hlow : low ≤ b.toNat) (hhigh : b.toNat ≤ high) :
    feed ⟨some ⟨low, high, more + 1, bits⟩, read⟩ b
      = ⟨some ⟨0x80, 0xBF, more, bits * 64 + (b.toNat - 0x80)⟩, read⟩ := by
  simp [feed, hlow, hhigh]

theorem Decoder.feed_lead {owed : Owed} (h : Owed.ofLead? b.toNat = some owed) :
    feed ⟨none, read⟩ b = ⟨some owed, read⟩ := by
  have hlead : ¬ b.toNat < 0x80 := by
    rcases Owed.ofLead?_eq_some_iff.mp h with h | h | h <;> omega
  simp [feed, lead, hlead, h]

end Reading

/-! ## The bytes of a character -/

section Characters

variable {c : Char}

theorem utf8EncodeChar_one (hhigh : c.toNat < 0x80) :
    String.utf8EncodeChar c = [UInt8.ofNat c.toNat] := by
  have hone : c.toNat ≤ 0x7F := by omega
  simp [String.utf8EncodeChar, hone]

theorem utf8EncodeChar_two (hlow : 0x80 ≤ c.toNat) (hhigh : c.toNat < 0x800) :
    String.utf8EncodeChar c
      = [UInt8.ofNat (c.toNat / 64 + 0xC0), UInt8.ofNat (c.toNat % 64 + 0x80)] := by
  have hone : ¬ c.toNat ≤ 0x7F := by omega
  have htwo : c.toNat ≤ 0x7FF := by omega
  have hlead : c.toNat / 64 % 32 = c.toNat / 64 := by omega
  simp [String.utf8EncodeChar, hone, htwo, hlead]

theorem utf8EncodeChar_three (hlow : 0x800 ≤ c.toNat) (hhigh : c.toNat < 0x10000) :
    String.utf8EncodeChar c
      = [UInt8.ofNat (c.toNat / 4096 + 0xE0), UInt8.ofNat (c.toNat / 64 % 64 + 0x80),
        UInt8.ofNat (c.toNat % 64 + 0x80)] := by
  have hone : ¬ c.toNat ≤ 0x7F := by omega
  have htwo : ¬ c.toNat ≤ 0x7FF := by omega
  have hthree : c.toNat ≤ 0xFFFF := by omega
  have hlead : c.toNat / 4096 % 16 = c.toNat / 4096 := by omega
  simp [String.utf8EncodeChar, hone, htwo, hthree, hlead]

theorem utf8EncodeChar_four (hlow : 0x10000 ≤ c.toNat) :
    String.utf8EncodeChar c
      = [UInt8.ofNat (c.toNat / 262144 + 0xF0), UInt8.ofNat (c.toNat / 4096 % 64 + 0x80),
        UInt8.ofNat (c.toNat / 64 % 64 + 0x80), UInt8.ofNat (c.toNat % 64 + 0x80)] := by
  have hone : ¬ c.toNat ≤ 0x7F := by omega
  have htwo : ¬ c.toNat ≤ 0x7FF := by omega
  have hthree : ¬ c.toNat ≤ 0xFFFF := by omega
  have hvalid : c.toNat < 0xD800 ∨ 0xDFFF < c.toNat ∧ c.toNat < 0x110000 := c.valid
  have hlead : c.toNat / 262144 % 8 = c.toNat / 262144 := by omega
  simp [String.utf8EncodeChar, hone, htwo, hthree, hlead]

/-- Fed with the encoding of a character, the decoder reads the character. -/
theorem Decoder.foldl_feed_utf8EncodeChar (c : Char) (read : List Piece) :
    (String.utf8EncodeChar c).foldl feed ⟨none, read⟩ = ⟨none, some c :: read⟩ := by
  have hvalid : c.toNat < 0xD800 ∨ 0xDFFF < c.toNat ∧ c.toNat < 0x110000 := c.valid
  have hbyte : ∀ {n : Nat}, n < 0x100 → (UInt8.ofNat n).toNat = n := fun hn =>
    Nat.mod_eq_of_lt hn
  have hlast := hbyte (show c.toNat % 64 + 0x80 < 0x100 by omega)
  have hthird := hbyte (show c.toNat / 64 % 64 + 0x80 < 0x100 by omega)
  have hsecond := hbyte (show c.toNat / 4096 % 64 + 0x80 < 0x100 by omega)
  by_cases hone : c.toNat < 0x80
  · have hfirst := hbyte (show c.toNat < 0x100 by omega)
    simp [utf8EncodeChar_one hone, feed, lead, hfirst, hone]
  by_cases htwo : c.toNat < 0x800
  · have hfirst := hbyte (show c.toNat / 64 + 0xC0 < 0x100 by omega)
    rw [utf8EncodeChar_two (by omega) htwo, List.foldl_cons,
      feed_lead (Owed.ofLead?_eq_some_iff.mpr (Or.inl ⟨by omega, by omega, rfl⟩)),
      List.foldl_cons, feed_last (by omega) (by omega), List.foldl_nil, hfirst, hlast,
      show (c.toNat / 64 + 0xC0 - 0xC0) * 64 + (c.toNat % 64 + 0x80 - 0x80) = c.toNat by omega,
      Char.ofNat_toNat]
  by_cases hthree : c.toNat < 0x10000
  · have hfirst := hbyte (show c.toNat / 4096 + 0xE0 < 0x100 by omega)
    rw [utf8EncodeChar_three (by omega) hthree, List.foldl_cons,
      feed_lead (Owed.ofLead?_eq_some_iff.mpr (Or.inr (Or.inl ⟨by omega, by omega, rfl⟩))),
      List.foldl_cons, feed_next (by grind) (by grind),
      List.foldl_cons, feed_last (by omega) (by omega), List.foldl_nil, hfirst, hthird, hlast,
      show ((c.toNat / 4096 + 0xE0 - 0xE0) * 64 + (c.toNat / 64 % 64 + 0x80 - 0x80)) * 64
        + (c.toNat % 64 + 0x80 - 0x80) = c.toNat by omega,
      Char.ofNat_toNat]
  · have hfirst := hbyte (show c.toNat / 262144 + 0xF0 < 0x100 by omega)
    rw [utf8EncodeChar_four (by omega), List.foldl_cons,
      feed_lead (Owed.ofLead?_eq_some_iff.mpr (Or.inr (Or.inr ⟨by omega, by omega, rfl⟩))),
      List.foldl_cons, feed_next (by grind) (by grind),
      List.foldl_cons, feed_next (by omega) (by omega),
      List.foldl_cons, feed_last (by omega) (by omega), List.foldl_nil,
      hfirst, hsecond, hthird, hlast,
      show (((c.toNat / 262144 + 0xF0 - 0xF0) * 64 + (c.toNat / 4096 % 64 + 0x80 - 0x80)) * 64
        + (c.toNat / 64 % 64 + 0x80 - 0x80)) * 64 + (c.toNat % 64 + 0x80 - 0x80)
          = c.toNat by omega,
      Char.ofNat_toNat]

end Characters

theorem Decoder.foldl_feed_encode (text : List Char) (read : List Piece) :
    (encode text).foldl feed ⟨none, read⟩ = ⟨none, (text.map some).reverse ++ read⟩ := by
  induction text generalizing read with
  | nil => rfl
  | cons c text ih =>
    have hrest := ih (some c :: read)
    rw [encode_cons, List.foldl_append, foldl_feed_utf8EncodeChar, hrest]
    simp

theorem pieces_encode (text : List Char) : pieces (encode text) = text.map some := by
  rw [pieces, Decoder.start, Decoder.foldl_feed_encode]
  simp [Decoder.finish]

/-! ## What has been read is what was fed -/

/-- The bytes of an open sequence that owes so much. -/
inductive Opened : Owed → List UInt8 → Prop where
  /-- a first byte -/
  | lead {b : UInt8} {owed : Owed} : Owed.ofLead? b.toNat = some owed → Opened owed [b]
  /-- a byte that is not the last one -/
  | next {low high more bits : Nat} {opened : List UInt8} {b : UInt8} :
      Opened ⟨low, high, more + 1, bits⟩ opened → low ≤ b.toNat → b.toNat ≤ high →
      Opened ⟨0x80, 0xBF, more, bits * 64 + (b.toNat - 0x80)⟩ (opened ++ [b])

/-- No sequence has more than four bytes. -/
theorem Opened.more_lt {owed : Owed} {opened : List UInt8} (h : Opened owed opened) :
    owed.more < 3 := by
  induction h with
  | lead hlead =>
    rcases Owed.ofLead?_eq_some_iff.mp hlead with ⟨-, -, rfl⟩ | ⟨-, -, rfl⟩ | ⟨-, -, rfl⟩ <;> simp
  | next _ _ _ ih =>
    simp only at ih ⊢
    omega

theorem toNat_ofNat_of_valid {n : Nat} (h : n < 0xD800 ∨ 0xDFFF < n ∧ n < 0x110000) :
    (Char.ofNat n).toNat = n := by
  have hvalid : n.isValidChar := h
  rw [Char.ofNat, dif_pos hvalid]
  rfl

theorem eq_ofNat_of_toNat_eq {b : UInt8} {n : Nat} (h : b.toNat = n) : b = UInt8.ofNat n := by
  rw [← h, UInt8.ofNat_toNat]

/-- The second byte of a sequence keeps to the bounds that its first byte sets. -/
theorem bounds_of_ite {first second low high least most : Nat}
    (hlow : (if first = low then least else 0x80) ≤ second)
    (hhigh : second ≤ if first = high then most else 0xBF)
    (hleast : 0x80 ≤ least) (hmost : most ≤ 0xBF) :
    0x80 ≤ second ∧ second ≤ 0xBF
      ∧ (first = low → least ≤ second) ∧ (first = high → second ≤ most) := by
  split at hlow <;> split at hhigh <;> omega

/-- The byte that pays a debt off completes the encoding of a character. -/
theorem Opened.append_last {low high bits : Nat} {opened : List UInt8} {b : UInt8}
    (h : Opened ⟨low, high, 0, bits⟩ opened) (hlow : low ≤ b.toNat) (hhigh : b.toNat ≤ high) :
    opened ++ [b] = String.utf8EncodeChar (Char.ofNat (bits * 64 + (b.toNat - 0x80))) := by
  -- one case for each length: the debt was made one, two or three bytes ago
  cases h with
  | @lead b₀ _ hlead =>
    have hcases : 0xC2 ≤ b₀.toNat ∧ b₀.toNat < 0xE0 ∧ low = 0x80 ∧ high = 0xBF
        ∧ bits = b₀.toNat - 0xC0 := by
      simpa using Owed.ofLead?_eq_some_iff.mp hlead
    obtain ⟨hfrom, hto, rfl, rfl, hbits⟩ := hcases
    have hn := toNat_ofNat_of_valid (n := bits * 64 + (b.toNat - 0x80)) (by omega)
    generalize Char.ofNat _ = c at hn ⊢
    rw [utf8EncodeChar_two (by omega) (by omega), hn]
    simp only [List.cons_append, List.nil_append, List.cons.injEq, and_true]
    exact ⟨eq_ofNat_of_toNat_eq (by omega), eq_ofNat_of_toNat_eq (by omega)⟩
  | @next low₁ high₁ _ bits₁ opened₁ b₁ h₁ hlow₁ hhigh₁ =>
    cases h₁ with
    | @lead b₀ _ hlead =>
      have hcases : 0xE0 ≤ b₀.toNat ∧ b₀.toNat < 0xF0
          ∧ low₁ = (if b₀.toNat = 0xE0 then 0xA0 else 0x80)
          ∧ high₁ = (if b₀.toNat = 0xED then 0x9F else 0xBF) ∧ bits₁ = b₀.toNat - 0xE0 := by
        simpa using Owed.ofLead?_eq_some_iff.mp hlead
      obtain ⟨hfrom, hto, rfl, rfl, hbits⟩ := hcases
      have hbounds := bounds_of_ite hlow₁ hhigh₁ (by decide) (by decide)
      have hn := toNat_ofNat_of_valid (n := (bits₁ * 64 + (b₁.toNat - 0x80)) * 64
        + (b.toNat - 0x80)) (by omega)
      generalize Char.ofNat _ = c at hn ⊢
      rw [utf8EncodeChar_three (by omega) (by omega), hn]
      simp only [List.cons_append, List.nil_append, List.cons.injEq, and_true]
      exact ⟨eq_ofNat_of_toNat_eq (by omega), eq_ofNat_of_toNat_eq (by omega),
        eq_ofNat_of_toNat_eq (by omega)⟩
    | @next low₂ high₂ _ bits₂ opened₂ b₂ h₂ hlow₂ hhigh₂ =>
      cases h₂ with
      | @lead b₀ _ hlead =>
        have hcases : 0xF0 ≤ b₀.toNat ∧ b₀.toNat < 0xF5
            ∧ low₂ = (if b₀.toNat = 0xF0 then 0x90 else 0x80)
            ∧ high₂ = (if b₀.toNat = 0xF4 then 0x8F else 0xBF) ∧ bits₂ = b₀.toNat - 0xF0 := by
          simpa using Owed.ofLead?_eq_some_iff.mp hlead
        obtain ⟨hfrom, hto, rfl, rfl, hbits⟩ := hcases
        have hbounds := bounds_of_ite hlow₂ hhigh₂ (by decide) (by decide)
        have hn := toNat_ofNat_of_valid (n := ((bits₂ * 64 + (b₂.toNat - 0x80)) * 64
          + (b₁.toNat - 0x80)) * 64 + (b.toNat - 0x80)) (by omega)
        generalize Char.ofNat _ = c at hn ⊢
        rw [utf8EncodeChar_four (by omega), hn]
        simp only [List.cons_append, List.nil_append, List.cons.injEq, and_true]
        exact ⟨eq_ofNat_of_toNat_eq (by omega), eq_ofNat_of_toNat_eq (by omega),
          eq_ofNat_of_toNat_eq (by omega), eq_ofNat_of_toNat_eq (by omega)⟩
      | next h₃ _ _ => exact absurd h₃.more_lt (by simp)

/-- The bytes that a decoder without faults has been fed with: the encoding of what it has read,
last first, and the bytes of the open sequence. -/
def Decoder.Reads (fed : List UInt8) (d : Decoder) : Prop :=
  ∀ chars : List Char, d.read = chars.map some →
    match d.owed with
    | none => fed = encode chars.reverse
    | some owed => ∃ opened, Opened owed opened ∧ fed = encode chars.reverse ++ opened

theorem encode_reverse_cons (c : Char) (chars : List Char) :
    encode (c :: chars).reverse = encode chars.reverse ++ String.utf8EncodeChar c := by
  rw [List.reverse_cons, encode_append]
  simp [encode]

theorem Decoder.Reads.lead {fed : List UInt8} {read : List Piece} (h : Reads fed ⟨none, read⟩)
    (b : UInt8) : Reads (fed ++ [b]) (lead read b) := by
  intro chars hread
  unfold Decoder.lead at hread ⊢
  by_cases hone : b.toNat < 0x80
  · simp only [hone, if_true] at hread ⊢
    obtain ⟨c, earlier, rfl, hc, hearlier⟩ := List.map_eq_cons_iff.mp hread.symm
    have hc : c = Char.ofNat b.toNat := Option.some.inj hc
    have hn : c.toNat = b.toNat := hc ▸ toNat_ofNat_of_valid (by omega)
    have hfed : fed = encode earlier.reverse := h earlier hearlier.symm
    rw [hfed, encode_reverse_cons, utf8EncodeChar_one (by omega), hn, UInt8.ofNat_toNat]
  · simp only [hone, if_false] at hread ⊢
    cases hlead : Owed.ofLead? b.toNat with
    | none => cases chars <;> simp [hlead] at hread
    | some owed =>
      simp only [hlead] at hread ⊢
      exact ⟨[b], .lead hlead, by rw [h chars hread]⟩

/-- A byte that is taken without fault keeps the account of the bytes fed. -/
theorem Decoder.Reads.feed {fed : List UInt8} {d : Decoder} (h : Reads fed d) (b : UInt8) :
    Reads (fed ++ [b]) (d.feed b) := by
  obtain ⟨owed, read⟩ := d
  cases owed with
  | none => exact h.lead b
  | some owed =>
    obtain ⟨low, high, more, bits⟩ := owed
    by_cases hrange : low ≤ b.toNat ∧ b.toNat ≤ high
    · intro chars hread
      cases more with
      | zero =>
        rw [feed_last hrange.1 hrange.2] at hread ⊢
        obtain ⟨c, earlier, rfl, hc, hearlier⟩ := List.map_eq_cons_iff.mp hread.symm
        obtain ⟨opened, hopened, hfed⟩ := h earlier hearlier.symm
        have hlast := hopened.append_last hrange.1 hrange.2
        rw [← Option.some.inj hc] at hlast
        show fed ++ [b] = encode (c :: earlier).reverse
        rw [hfed, encode_reverse_cons, List.append_assoc, hlast]
      | succ more =>
        rw [feed_next hrange.1 hrange.2] at hread ⊢
        obtain ⟨opened, hopened, hfed⟩ := h chars hread
        exact ⟨opened ++ [b], .next hopened hrange.1 hrange.2, by rw [hfed, List.append_assoc]⟩
    · -- the open sequence is a fault, which no later byte takes back
      intro chars hread
      have hfault : none ∈ (Decoder.lead (none :: read) b).read := by
        unfold Decoder.lead
        repeat' split
        all_goals simp
      have hfeed : Decoder.feed ⟨some ⟨low, high, more, bits⟩, read⟩ b
          = Decoder.lead (none :: read) b := by
        simp only [Decoder.feed, hrange, if_false]
      rw [hfeed] at hread
      simp [hread] at hfault

theorem Decoder.Reads.foldl {fed : List UInt8} {d : Decoder} (h : Reads fed d)
    (bytes : List UInt8) : Reads (fed ++ bytes) (bytes.foldl Decoder.feed d) := by
  induction bytes generalizing fed d with
  | nil => simpa using h
  | cons b bytes ih => simpa using ih (h.feed b)

/-! ## The decoder inverts the encoding -/

theorem encode_of_pieces {bytes : List UInt8} {text : List Char}
    (h : pieces bytes = text.map some) : encode text = bytes := by
  have hstart : Decoder.Reads [] .start := by
    intro chars hread
    cases chars with
    | nil => rfl
    | cons c chars => simp [Decoder.start] at hread
  have hreads := hstart.foldl bytes
  unfold pieces Decoder.finish at h
  split at h
  · rename_i hclosed
    rw [List.reverse_eq_iff, ← List.map_reverse] at h
    have hfed := hreads text.reverse h
    rw [hclosed] at hfed
    simpa using hfed.symm
  · have hfault : none ∈ text.map some := h ▸ by simp
    simp at hfault

/-- **What the decoder accepts.**  It has a text for the encoding of this text, and for no other
bytes. -/
theorem decode?_eq_some_iff_encode {bytes : List UInt8} {text : List Char} :
    decode? bytes = some text ↔ encode text = bytes := by
  rw [decode?_eq_some_iff]
  constructor
  · exact encode_of_pieces
  · rintro rfl
    exact pieces_encode text

theorem wellFormed_iff_isSome {bytes : List UInt8} :
    WellFormed bytes ↔ (decode? bytes).isSome = true := by
  rw [Option.isSome_iff_exists]
  exact exists_congr fun _ => decode?_eq_some_iff_encode.symm

instance (bytes : List UInt8) : Decidable (WellFormed bytes) :=
  decidable_of_iff _ wellFormed_iff_isSome.symm

theorem decode?_eq_none_iff_not_wellFormed {bytes : List UInt8} :
    decode? bytes = none ↔ ¬ WellFormed bytes := by
  rw [wellFormed_iff_isSome, Option.not_isSome_iff_eq_none]

end IncludeOrder.Utf8
