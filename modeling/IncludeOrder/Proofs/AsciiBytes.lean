import IncludeOrder.Proofs.Encoding

/-!
# ASCII in decoded text

Lossy decoding reads several bytes as one character and writes U+FFFD for bytes that belong to none.
It does neither with a byte below 0x80.  Such a byte breaks off the sequence that is open before it
and is a piece by itself, so the pieces on either side are those of the bytes on either side
(`pieces_append_cons`).  A piece that is an ASCII character comes from such a byte, because all other
characters have more than one byte (`exists_split_of_pieces`).

Hence ASCII is found in the decoded text just where it is found in the bytes: nothing of it is lost
or made up, and no two bytes of it are brought together that were apart (`infix_decodeLossy_iff`).
-/

set_option autoImplicit false

namespace IncludeOrder.Utf8

/-- A byte that is a character by itself. -/
def IsAscii (b : UInt8) : Prop := b.toNat < 0x80

instance (b : UInt8) : Decidable (IsAscii b) := inferInstanceAs (Decidable (b.toNat < 0x80))

/-- The character of such a byte. -/
def asciiChar (b : UInt8) : Char := Char.ofNat b.toNat

/-- No piece is an ASCII character. -/
def Foreign (read : List Piece) : Prop := ∀ c, some c ∈ read → 0x80 ≤ c.toNat

section Ascii

variable {b : UInt8}

theorem toNat_asciiChar (h : IsAscii b) : (asciiChar b).toNat = b.toNat := by
  unfold IsAscii at h
  exact toNat_ofNat_of_valid (by omega)

theorem asciiChar_lt (h : IsAscii b) : (asciiChar b).toNat < 0x80 := by
  rw [toNat_asciiChar h]
  exact h

theorem asciiChar_inj {b' : UInt8} (h : IsAscii b) (h' : IsAscii b')
    (hchar : asciiChar b = asciiChar b') : b = b' := by
  have hvalue := congrArg Char.toNat hchar
  rw [toNat_asciiChar h, toNat_asciiChar h'] at hvalue
  exact UInt8.toNat_inj.mp hvalue

theorem Foreign.append {read more : List Piece} (h : Foreign read) (hmore : Foreign more) :
    Foreign (read ++ more) := by
  intro c hc
  rcases List.mem_append.mp hc with hfirst | hsecond
  · exact h c hfirst
  · exact hmore c hsecond

end Ascii

/-! ## Open sequences -/

section Sequences

variable {owed : Owed} {opened : List UInt8}

theorem Opened.le_low (h : Opened owed opened) : 0x80 ≤ owed.low := by
  cases h with
  | lead hlead =>
    rcases Owed.ofLead?_eq_some_iff.mp hlead with ⟨-, -, rfl⟩ | ⟨-, -, rfl⟩ | ⟨-, -, rfl⟩ <;> grind
  | next _ _ _ => exact Nat.le_refl _

theorem Opened.ne_nil (h : Opened owed opened) : opened ≠ [] := by
  cases h <;> simp

/-- A character of more than one byte is not ASCII. -/
theorem Opened.le_last {low high bits : Nat} {b : UInt8} (h : Opened ⟨low, high, 0, bits⟩ opened)
    (hlow : low ≤ b.toNat) (hhigh : b.toNat ≤ high) :
    0x80 ≤ (Char.ofNat (bits * 64 + (b.toNat - 0x80))).toNat := by
  refine Nat.le_of_not_lt ?_
  intro hsmall
  have hbytes := h.append_last hlow hhigh
  rw [utf8EncodeChar_one (by omega)] at hbytes
  have hnil : opened = [] := by simpa using congrArg List.length hbytes
  exact h.ne_nil hnil

end Sequences

/-! ## What a byte does -/

namespace Decoder

variable {d : Decoder} {b : UInt8} {bytes : List UInt8}

/-- The sequence that is open has been opened by bytes. -/
def Sound (d : Decoder) : Prop := ∀ owed, d.owed = some owed → ∃ opened, Opened owed opened

theorem sound_of_closed {read : List Piece} : Sound ⟨none, read⟩ := by
  intro owed howed
  cases howed

theorem sound_start : start.Sound := sound_of_closed

theorem lead_ascii (h : IsAscii b) (read : List Piece) :
    lead read b = ⟨none, some (asciiChar b) :: read⟩ := by
  unfold IsAscii at h
  simp only [lead, h, if_true, asciiChar]

/-- Any other byte opens a sequence or is a piece that is no character. -/
theorem lead_foreign (h : ¬ IsAscii b) (read : List Piece) :
    (lead read b).Sound ∧ (lead read b).finish = read.reverse ++ [none] := by
  unfold IsAscii at h
  cases hlead : Owed.ofLead? b.toNat with
  | none =>
    simp only [lead, h, if_false, hlead]
    exact ⟨sound_of_closed, by simp [finish]⟩
  | some owed =>
    simp only [lead, h, if_false, hlead]
    refine ⟨?_, by simp [finish]⟩
    intro owed' howed
    obtain rfl : owed = owed' := Option.some.inj howed
    exact ⟨[b], .lead hlead⟩

theorem mem_finish {piece : Piece} (h : piece ∈ d.read.reverse) : piece ∈ d.finish := by
  unfold finish
  split
  · exact h
  · rw [List.reverse_cons]
    exact List.mem_append_left _ h

/-- An ASCII byte is read by itself. -/
theorem Sound.feed_ascii (hd : d.Sound) (h : IsAscii b) :
    d.feed b = ⟨none, some (asciiChar b) :: d.finish.reverse⟩ := by
  obtain ⟨owed, read⟩ := d
  cases owed with
  | none =>
    show lead read b = _
    rw [lead_ascii h]
    simp [finish]
  | some owed =>
    obtain ⟨opened, hopened⟩ := hd owed rfl
    have hlow := hopened.le_low
    unfold IsAscii at h
    have hout : ¬ (owed.low ≤ b.toNat ∧ b.toNat ≤ owed.high) := by omega
    simp only [feed, hout, if_false]
    rw [lead_ascii h]
    simp [finish]

/-- Any other byte leaves the pieces that are closed, and adds none that is ASCII. -/
theorem Sound.feed_foreign (hd : d.Sound) (h : ¬ IsAscii b) :
    (d.feed b).Sound
      ∧ ∃ new, new ≠ [] ∧ Foreign new ∧ (d.feed b).finish = d.read.reverse ++ new := by
  have hfault : Foreign [none] := by simp [Foreign]
  obtain ⟨owed, read⟩ := d
  cases owed with
  | none =>
    obtain ⟨hsound, hfinish⟩ := lead_foreign h read
    exact ⟨hsound, [none], by simp, hfault, hfinish⟩
  | some owed =>
    obtain ⟨opened, hopened⟩ := hd owed rfl
    obtain ⟨low, high, more, bits⟩ := owed
    by_cases hrange : low ≤ b.toNat ∧ b.toNat ≤ high
    · cases more with
      | zero =>
        have hlast := hopened.le_last hrange.1 hrange.2
        rw [feed_last hrange.1 hrange.2]
        refine ⟨sound_of_closed, [some _], List.cons_ne_nil _ _, ?_, List.reverse_cons⟩
        intro c hc
        rw [Option.some.inj (List.mem_singleton.mp hc)]
        exact hlast
      | succ more =>
        rw [feed_next hrange.1 hrange.2]
        refine ⟨?_, [none], by simp, hfault, by simp [finish]⟩
        intro owed howed
        obtain rfl := Option.some.inj howed
        exact ⟨opened ++ [b], .next hopened hrange.1 hrange.2⟩
    · obtain ⟨hsound, hfinish⟩ := lead_foreign h (none :: read)
      simp only [feed, hrange, if_false]
      refine ⟨hsound, [none, none], by simp, by simp [Foreign], ?_⟩
      rw [hfinish]
      simp

theorem Sound.feed (hd : d.Sound) (b : UInt8) : (d.feed b).Sound := by
  by_cases h : IsAscii b
  · rw [hd.feed_ascii h]
    exact sound_of_closed
  · exact (hd.feed_foreign h).1

theorem Sound.foldl (hd : d.Sound) (bytes : List UInt8) : (bytes.foldl Decoder.feed d).Sound := by
  induction bytes generalizing d with
  | nil => exact hd
  | cons b bytes ih => exact ih (hd.feed b)

/-- Bytes without ASCII are read without ASCII. -/
theorem Sound.foreign_foldl (hd : d.Sound) (hread : Foreign d.finish)
    (h : ∀ b ∈ bytes, ¬ IsAscii b) : Foreign (bytes.foldl Decoder.feed d).finish := by
  induction bytes generalizing d with
  | nil => exact hread
  | cons b bytes ih =>
    obtain ⟨hb, hbytes⟩ := List.forall_mem_cons.mp h
    obtain ⟨hsound, new, -, hnew, hfinish⟩ := hd.feed_foreign hb
    have hclosed : Foreign d.read.reverse := by
      intro c hc
      exact hread c (mem_finish hc)
    refine ih hsound ?_ hbytes
    rw [hfinish]
    exact hclosed.append hnew

/-! ## Reading behind other pieces -/

/-- The decoder that has read other pieces before. -/
def behind (earlier : List Piece) (d : Decoder) : Decoder := ⟨d.owed, d.read ++ earlier⟩

theorem feed_behind (earlier : List Piece) (d : Decoder) (b : UInt8) :
    (d.behind earlier).feed b = (d.feed b).behind earlier := by
  obtain ⟨owed, read⟩ := d
  have hlead : ∀ read, lead (read ++ earlier) b = (lead read b).behind earlier := by
    intro read
    unfold lead
    repeat' split
    all_goals rfl
  cases owed with
  | none => exact hlead read
  | some owed =>
    simp only [feed, behind]
    split
    · split <;> rfl
    · exact hlead (none :: read)

theorem foldl_feed_behind (earlier : List Piece) (d : Decoder) (bytes : List UInt8) :
    bytes.foldl feed (d.behind earlier) = (bytes.foldl feed d).behind earlier := by
  induction bytes generalizing d with
  | nil => rfl
  | cons b bytes ih => rw [List.foldl_cons, feed_behind, ih, List.foldl_cons]

theorem finish_behind (earlier : List Piece) (d : Decoder) :
    (d.behind earlier).finish = earlier.reverse ++ d.finish := by
  obtain ⟨owed, read⟩ := d
  cases owed <;> simp [finish, behind]

end Decoder

/-! ## The pieces on either side of an ASCII byte -/

variable {b : UInt8} {bytes : List UInt8}

/-- An ASCII byte is a piece by itself wherever it stands. -/
theorem pieces_append_cons (h : IsAscii b) (before after : List UInt8) :
    pieces (before ++ b :: after) = pieces before ++ some (asciiChar b) :: pieces after := by
  have hread : (before.foldl Decoder.feed .start).feed b
      = Decoder.start.behind (some (asciiChar b) :: (pieces before).reverse) :=
    (Decoder.sound_start.foldl before).feed_ascii h
  rw [pieces, List.foldl_append, List.foldl_cons, hread, Decoder.foldl_feed_behind,
    Decoder.finish_behind]
  simp [pieces]

theorem pieces_cons (h : IsAscii b) (after : List UInt8) :
    pieces (b :: after) = some (asciiChar b) :: pieces after :=
  pieces_append_cons h [] after

theorem pieces_eq_nil_iff : pieces bytes = [] ↔ bytes = [] := by
  constructor
  · intro hnil
    rcases List.eq_nil_or_concat bytes with rfl | ⟨init, b, rfl⟩
    · rfl
    · rw [List.concat_eq_append] at hnil
      by_cases h : IsAscii b
      · rw [pieces_append_cons h] at hnil
        simp at hnil
      · obtain ⟨-, new, hnew, -, hfinish⟩ := (Decoder.sound_start.foldl init).feed_foreign h
        rw [pieces, List.foldl_append, List.foldl_cons, List.foldl_nil, hfinish] at hnil
        exact absurd (List.append_eq_nil_iff.mp hnil).2 hnew
  · rintro rfl
    rfl

/-- Bytes without ASCII are read as text without ASCII. -/
theorem foreign_pieces (h : ∀ b ∈ bytes, ¬ IsAscii b) : Foreign (pieces bytes) := by
  refine Decoder.sound_start.foreign_foldl ?_ h
  intro c hc
  cases hc

/-- Induction from one ASCII byte to the next. -/
theorem ascii_induction {motive : List UInt8 → Prop}
    (foreign : ∀ bytes, (∀ b ∈ bytes, ¬ IsAscii b) → motive bytes)
    (ascii : ∀ before b after, (∀ b ∈ before, ¬ IsAscii b) → IsAscii b → motive after →
      motive (before ++ b :: after)) (bytes : List UInt8) : motive bytes := by
  -- the bytes since the last ASCII byte are kept
  have hrun : ∀ before : List UInt8, (∀ b ∈ before, ¬ IsAscii b) → motive (before ++ bytes) := by
    induction bytes with
    | nil =>
      intro before hbefore
      rw [List.append_nil]
      exact foreign before hbefore
    | cons b bytes ih =>
      intro before hbefore
      by_cases hb : IsAscii b
      · exact ascii before b bytes hbefore hb (ih [] (by simp))
      · rw [List.append_cons]
        refine ih (before ++ [b]) ?_
        exact List.forall_mem_append.mpr ⟨hbefore, by simpa using hb⟩
  exact hrun [] (by simp)

/-- What is not in the first part of a list stands behind it: right there, or further on. -/
theorem append_cons_cases {α : Type} {first rest u v : List α} {x y : α} (hskip : y ∉ first)
    (h : first ++ x :: rest = u ++ y :: v) :
    (u = first ∧ x = y ∧ rest = v) ∨ ∃ w, u = first ++ x :: w ∧ rest = w ++ y :: v := by
  induction first generalizing u with
  | nil =>
    cases u with
    | nil =>
      obtain ⟨hx, hrest⟩ := List.cons.inj h
      exact Or.inl ⟨rfl, hx, hrest⟩
    | cons z w =>
      obtain ⟨hx, hrest⟩ := List.cons.inj h
      exact Or.inr ⟨w, by rw [hx, List.nil_append], hrest⟩
  | cons z first ih =>
    obtain ⟨hz, hfirst⟩ := not_or.mp (mt List.mem_cons.mpr hskip)
    cases u with
    | nil => exact absurd (List.cons.inj h).1.symm hz
    | cons z' u =>
      obtain ⟨rfl, htail⟩ := List.cons.inj h
      rcases ih hfirst htail with ⟨rfl, hx, hrest⟩ | ⟨w, rfl, hrest⟩
      · exact Or.inl ⟨rfl, hx, hrest⟩
      · exact Or.inr ⟨w, rfl, hrest⟩

/-- A piece that is ASCII is such a byte, and the pieces on either side come from the bytes on
either side. -/
theorem exists_split_of_pieces {u v : List Piece} (h : IsAscii b)
    (hpieces : pieces bytes = u ++ some (asciiChar b) :: v) :
    ∃ before after, bytes = before ++ b :: after ∧ pieces before = u ∧ pieces after = v := by
  have hforeign : ∀ {bytes}, (∀ b ∈ bytes, ¬ IsAscii b) → some (asciiChar b) ∉ pieces bytes := by
    intro bytes hbytes hmem
    exact absurd (foreign_pieces hbytes (asciiChar b) hmem) (Nat.not_le_of_lt (asciiChar_lt h))
  induction bytes using ascii_induction generalizing u with
  | foreign bytes hbytes => exact absurd (by simp [hpieces]) (hforeign hbytes)
  | ascii first a rest hfirst ha ih =>
    rw [pieces_append_cons ha] at hpieces
    rcases append_cons_cases (hforeign hfirst) hpieces with ⟨rfl, hchar, rfl⟩ | ⟨w, rfl, hrest⟩
    · obtain rfl := asciiChar_inj ha h (Option.some.inj hchar)
      exact ⟨first, rest, rfl, rfl, rfl⟩
    · obtain ⟨before, after, rfl, rfl, rfl⟩ := ih hrest
      exact ⟨first ++ a :: before, after, by simp, pieces_append_cons ha first before, rfl⟩

/-! ## Finding ASCII -/

section Needles

variable {needle : List UInt8}

theorem pieces_append (h : ∀ b ∈ needle, IsAscii b) (after : List UInt8) :
    pieces (needle ++ after) = needle.map (fun b => some (asciiChar b)) ++ pieces after := by
  induction needle with
  | nil => rfl
  | cons b needle ih =>
    obtain ⟨hb, hneedle⟩ := List.forall_mem_cons.mp h
    rw [List.cons_append, pieces_cons hb, ih hneedle]
    rfl

theorem prefix_pieces_iff (h : ∀ b ∈ needle, IsAscii b) :
    needle.map (fun b => some (asciiChar b)) <+: pieces bytes ↔ needle <+: bytes := by
  constructor
  · intro hfound
    induction needle generalizing bytes with
    | nil => exact List.nil_prefix
    | cons b needle ih =>
      obtain ⟨hb, hneedle⟩ := List.forall_mem_cons.mp h
      obtain ⟨v, hv⟩ := hfound
      obtain ⟨before, after, rfl, hbefore, hafter⟩ :=
        exists_split_of_pieces (u := []) hb hv.symm
      obtain rfl := pieces_eq_nil_iff.mp hbefore
      refine List.cons_prefix_cons.mpr ⟨rfl, ih hneedle ?_⟩
      rw [hafter]
      exact List.prefix_append _ _
  · rintro ⟨after, rfl⟩
    rw [pieces_append h]
    exact List.prefix_append _ _

theorem infix_pieces_iff (h : ∀ b ∈ needle, IsAscii b) :
    needle.map (fun b => some (asciiChar b)) <:+: pieces bytes ↔ needle <:+: bytes := by
  constructor
  · intro hfound
    cases needle with
    | nil => exact List.nil_infix
    | cons b needle =>
      obtain ⟨hb, hneedle⟩ := List.forall_mem_cons.mp h
      obtain ⟨u, v, hv⟩ := hfound
      rw [List.append_assoc] at hv
      obtain ⟨before, after, rfl, -, hafter⟩ := exists_split_of_pieces hb hv.symm
      obtain ⟨rest, rfl⟩ := (prefix_pieces_iff hneedle).mp ⟨v, hafter.symm⟩
      exact ⟨before, rest, by simp⟩
  · rintro ⟨before, after, rfl⟩
    cases needle with
    | nil => exact List.nil_infix
    | cons b needle =>
      obtain ⟨hb, hneedle⟩ := List.forall_mem_cons.mp h
      rw [List.append_assoc, List.cons_append, pieces_append_cons hb, pieces_append hneedle]
      exact ⟨pieces before, pieces after, by simp⟩

/-- A text without U+FFFD is found in decoded text as a run of characters that have been read. -/
theorem map_some_infix_pieces_iff {text : List Char} (h : '\uFFFD' ∉ text) :
    text.map some <:+: pieces bytes ↔ text <:+: (decodeLossy bytes).toList := by
  rw [decodeLossy, String.toList_ofList]
  constructor
  · intro hfound
    have htext := hfound.map (fun piece : Piece => piece.getD '\uFFFD')
    simpa [Function.comp_def] using htext
  · rintro ⟨u, v, hv⟩
    obtain ⟨front, last, hpieces, hfront, -⟩ := List.map_eq_append_iff.mp hv.symm
    obtain ⟨first, found, rfl, -, rfl⟩ := List.map_eq_append_iff.mp hfront
    -- a piece that is no character would be U+FFFD in the text
    have hread : ∀ piece ∈ found, some (piece.getD '\uFFFD') = piece := by
      intro piece hpiece
      cases piece with
      | none => exact absurd (List.mem_map.mpr ⟨none, hpiece, rfl⟩) h
      | some c => rfl
    have hfound : (found.map fun piece : Piece => piece.getD '\uFFFD').map some = found := by
      rw [List.map_map]
      exact (List.map_congr_left hread).trans (List.map_id found)
    rw [hfound, hpieces]
    exact ⟨first, last, rfl⟩

/-- **Decoding keeps ASCII as it stands.**  ASCII occurs in the text of any bytes, well formed or not,
just where it occurs in the bytes. -/
theorem infix_decodeLossy_iff (h : ∀ b ∈ needle, IsAscii b) (bytes : List UInt8) :
    needle.map asciiChar <:+: (decodeLossy bytes).toList ↔ needle <:+: bytes := by
  have hreplaced : '\uFFFD' ∉ needle.map asciiChar := by
    intro hmem
    obtain ⟨b, hb, hchar⟩ := List.mem_map.mp hmem
    have hlt := asciiChar_lt (h b hb)
    rw [hchar] at hlt
    exact absurd hlt (by decide)
  rw [← map_some_infix_pieces_iff hreplaced, List.map_map]
  exact infix_pieces_iff h

end Needles

end IncludeOrder.Utf8
