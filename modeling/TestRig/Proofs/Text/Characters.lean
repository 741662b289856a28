import TestRig.Text.Lossy

/-! # Characters as bytes

    The decoder knows a well-formed sequence by the ranges that its first
    byte leaves to the bytes after it. What such a sequence is for does not
    show in these ranges: it is the UTF-8 encoding of one character. This
    module shows that the ranges are right, that is, that they let pass the
    encodings of all characters and nothing else.

    * `IsSequence`: the well-formed sequences, length by length.
    * `exists_encoding_iff`: they are the encodings of the characters.
    * `isSequence_cons_iff`: they are what the ranges of the decoder let pass.
    * `opens_cons_iff`: the same for a sequence that is not complete. -/

namespace TestRig

/-- The bytes of a character in UTF-8. -/
def encoding (c : Char) : Bytes := String.utf8EncodeChar c

/-! ## Section 1: Well-formed sequences -/

/-- A byte that carries on a sequence. -/
def IsTrailing (b : UInt8) : Prop := 0x80 ≤ b.toNat ∧ b.toNat ≤ 0xBF

/-- The bytes are one well-formed sequence. In the longer ones the second
    byte is narrowed after some first bytes: after `E0` and `F0` the character
    would have a shorter sequence, after `ED` it would be a surrogate, and
    after `F4` it would lie beyond the last character. -/
def IsSequence : Bytes → Prop
  | [a] => a.toNat < 0x80
  | [a, b] => (0xC2 ≤ a.toNat ∧ a.toNat < 0xE0) ∧ IsTrailing b
  | [a, b, c] => (0xE0 ≤ a.toNat ∧ a.toNat < 0xF0) ∧ IsTrailing b ∧ IsTrailing c ∧
      (a.toNat = 0xE0 → 0xA0 ≤ b.toNat) ∧ (a.toNat = 0xED → b.toNat < 0xA0)
  | [a, b, c, d] => (0xF0 ≤ a.toNat ∧ a.toNat < 0xF5) ∧ IsTrailing b ∧ IsTrailing c ∧ IsTrailing d ∧
      (a.toNat = 0xF0 → 0x90 ≤ b.toNat) ∧ (a.toNat = 0xF4 → b.toNat < 0x90)
  | _ => False

/-! ## Section 2: The sequences of the characters -/

theorem toNat_ofNat {n : Nat} (h : n < 256) : (UInt8.ofNat n).toNat = n := UInt8.toNat_ofNat_of_lt' h

/-- The digits of a character to the base 64, each in a byte of its own. -/
theorem encoding_eq {c : Char} {v : Nat} (h : c.val.toNat = v) :
    encoding c =
      if v ≤ 0x7F then [UInt8.ofNat v]
      else if v ≤ 0x7FF then [UInt8.ofNat (v / 64 % 32 + 0xC0), UInt8.ofNat (v % 64 + 0x80)]
      else if v ≤ 0xFFFF then
        [UInt8.ofNat (v / 4096 % 16 + 0xE0), UInt8.ofNat (v / 64 % 64 + 0x80),
          UInt8.ofNat (v % 64 + 0x80)]
      else
        [UInt8.ofNat (v / 262144 % 8 + 0xF0), UInt8.ofNat (v / 4096 % 64 + 0x80),
          UInt8.ofNat (v / 64 % 64 + 0x80), UInt8.ofNat (v % 64 + 0x80)] := by
  subst h
  rfl

theorem isSequence_encoding (c : Char) : IsSequence (encoding c) := by
  obtain ⟨v, hv⟩ : ∃ v, c.val.toNat = v := ⟨_, rfl⟩
  have hvalid : v < 0xD800 ∨ 0xDFFF < v ∧ v < 0x110000 := hv ▸ c.valid
  rw [encoding_eq hv]
  by_cases h₁ : v ≤ 0x7F
  · rw [if_pos h₁]
    simp (disch := omega) only [IsSequence, toNat_ofNat]
    omega
  · by_cases h₂ : v ≤ 0x7FF
    · rw [if_neg h₁, if_pos h₂]
      simp (disch := omega) only [IsSequence, IsTrailing, toNat_ofNat]
      omega
    · by_cases h₃ : v ≤ 0xFFFF
      · rw [if_neg h₁, if_neg h₂, if_pos h₃]
        simp (disch := omega) only [IsSequence, IsTrailing, toNat_ofNat]
        omega
      · rw [if_neg h₁, if_neg h₂, if_neg h₃]
        simp (disch := omega) only [IsSequence, IsTrailing, toNat_ofNat]
        omega

theorem exists_char {v : Nat} (h : v < 0xD800 ∨ 0xDFFF < v ∧ v < 0x110000) :
    ∃ c : Char, c.val.toNat = v :=
  ⟨Char.ofNatAux v h, rfl⟩

/-- The character of a sequence has the digits that its bytes carry. -/
theorem exists_encoding_of_isSequence {s : Bytes} (h : IsSequence s) : ∃ c, encoding c = s := by
  match s, h with
  | [a], h =>
    have ha : a.toNat < 0x80 := h
    obtain ⟨ch, hch⟩ := exists_char (v := a.toNat) (by omega)
    refine ⟨ch, ?_⟩
    rw [encoding_eq hch, if_pos (by omega), UInt8.ofNat_toNat]
  | [a, b], ⟨ha, hb⟩ =>
    unfold IsTrailing at hb
    obtain ⟨ch, hch⟩ := exists_char (v := (a.toNat - 0xC0) * 64 + (b.toNat - 0x80)) (by omega)
    refine ⟨ch, ?_⟩
    rw [encoding_eq hch, if_neg (by omega), if_pos (by omega)]
    simp (disch := omega) only [List.cons.injEq, and_true, ← UInt8.toNat_inj, toNat_ofNat]
    omega
  | [a, b, c], ⟨ha, hb, hc, hlow, hhigh⟩ =>
    unfold IsTrailing at hb hc
    obtain ⟨ch, hch⟩ := exists_char
      (v := (a.toNat - 0xE0) * 4096 + (b.toNat - 0x80) * 64 + (c.toNat - 0x80)) (by omega)
    refine ⟨ch, ?_⟩
    rw [encoding_eq hch, if_neg (by omega), if_neg (by omega), if_pos (by omega)]
    simp (disch := omega) only [List.cons.injEq, and_true, ← UInt8.toNat_inj, toNat_ofNat]
    omega
  | [a, b, c, d], ⟨ha, hb, hc, hd, hlow, hhigh⟩ =>
    unfold IsTrailing at hb hc hd
    obtain ⟨ch, hch⟩ := exists_char
      (v := (a.toNat - 0xF0) * 262144 + (b.toNat - 0x80) * 4096 + (c.toNat - 0x80) * 64
        + (d.toNat - 0x80)) (by omega)
    refine ⟨ch, ?_⟩
    rw [encoding_eq hch, if_neg (by omega), if_neg (by omega), if_neg (by omega)]
    simp (disch := omega) only [List.cons.injEq, and_true, ← UInt8.toNat_inj, toNat_ofNat]
    omega

theorem exists_encoding_iff {s : Bytes} : (∃ c, encoding c = s) ↔ IsSequence s := by
  constructor
  · rintro ⟨c, rfl⟩
    exact isSequence_encoding c
  · exact exists_encoding_of_isSequence

/-! ## Section 3: The ranges of the decoder -/

namespace Lossy

theorem ByteRange.contains_iff {r : ByteRange} {b : UInt8} :
    r.contains b ↔ r.low.toNat ≤ b.toNat ∧ b.toNat ≤ r.high.toNat := by
  simp [contains, UInt8.le_iff_toNat_le]

/-- The bytes lie in the ranges that are due, as far as there are bytes. -/
def Fits : List ByteRange → Bytes → Prop
  | _, [] => True
  | [], _ :: _ => False
  | r :: due, b :: s => r.contains b ∧ Fits due s

@[simp] theorem fits_nil (due : List ByteRange) : Fits due [] := by
  cases due <;> trivial

section fits

variable {due : List ByteRange} {s t : Bytes}

theorem Fits.of_append (h : Fits due (s ++ t)) : Fits due s := by
  induction s generalizing due with
  | nil => exact fits_nil due
  | cons b s ih =>
    cases due with
    | nil => exact h.elim
    | cons r due => exact ⟨h.1, ih h.2⟩

/-- With a range due and as many bytes as ranges, there is a byte for it. -/
theorem Fits.uncons {r : ByteRange} (h : Fits (r :: due) s) (hlen : s.length = due.length + 1) :
    ∃ b t, s = b :: t ∧ r.contains b ∧ Fits due t ∧ t.length = due.length := by
  cases s with
  | nil => cases hlen
  | cons b t => exact ⟨b, t, rfl, h.1, h.2, Nat.succ.inj hlen⟩

theorem Fits.length_le (h : Fits due s) : s.length ≤ due.length := by
  induction s generalizing due with
  | nil => exact Nat.zero_le _
  | cons b s ih =>
    cases due with
    | nil => exact h.elim
    | cons r due => exact Nat.succ_le_succ (ih h.2)

/-- If no range is empty, what fits so far can be carried on to the end. -/
theorem Fits.complete (h : Fits due s) (hdue : ∀ r ∈ due, r.contains r.low) :
    ∃ t, Fits due (s ++ t) ∧ (s ++ t).length = due.length := by
  induction due generalizing s with
  | nil =>
    cases s with
    | nil => exact ⟨[], trivial, rfl⟩
    | cons b s => exact h.elim
  | cons r due ih =>
    have hrest : ∀ r ∈ due, r.contains r.low := fun r hr => hdue r (List.mem_cons_of_mem _ hr)
    cases s with
    | nil =>
      obtain ⟨t, hfits, hlen⟩ := ih (fits_nil due) hrest
      exact ⟨r.low :: t, ⟨hdue r List.mem_cons_self, hfits⟩, congrArg Nat.succ hlen⟩
    | cons b s =>
      obtain ⟨t, hfits, hlen⟩ := ih h.2 hrest
      exact ⟨t, ⟨h.1, hfits⟩, congrArg Nat.succ hlen⟩

end fits

/-- No range of a row is empty, and none reaches below the trailing bytes. -/
theorem low_of_following {b : UInt8} {due : List ByteRange} (h : following b = some due) :
    ∀ r ∈ due, r.contains r.low ∧ 0x80 ≤ r.low.toNat := by
  unfold following at h
  repeat' split at h
  all_goals cases h
  all_goals decide +kernel

end Lossy

open Lossy

/-! ## Section 4: The rows of the table -/

section rows

variable {b : UInt8}

theorem contains_trailing_iff : trailing.contains b ↔ IsTrailing b := ByteRange.contains_iff

theorem following_one (h : b.toNat < 0x80) : following b = some [] :=
  if_pos (UInt8.lt_iff_toNat_lt.mpr h)

theorem following_two (h : 0xC2 ≤ b.toNat ∧ b.toNat < 0xE0) : following b = some [trailing] := by
  unfold following
  simp only [UInt8.lt_iff_toNat_lt, UInt8.reduceToNat]
  rw [if_neg (by omega), if_neg (by omega), if_pos h.2]

/-- The three rows for sequences of three bytes. Only the range of the second
    byte depends on the first one. -/
theorem following_three (h : 0xE0 ≤ b.toNat ∧ b.toNat < 0xF0) :
    ∃ r, following b = some [r, trailing] ∧ ∀ x, r.contains x ↔
      IsTrailing x ∧ (b.toNat = 0xE0 → 0xA0 ≤ x.toNat) ∧ (b.toNat = 0xED → x.toNat < 0xA0) := by
  unfold following IsTrailing
  simp only [UInt8.lt_iff_toNat_lt, ← UInt8.toNat_inj, UInt8.reduceToNat, ByteRange.contains_iff]
  rw [if_neg (by omega), if_neg (by omega), if_neg (by omega)]
  by_cases hlow : b.toNat = 0xE0
  · rw [if_pos hlow]
    refine ⟨⟨0xA0, 0xBF⟩, rfl, fun x => ?_⟩
    simp only [UInt8.reduceToNat]
    omega
  · by_cases hhigh : b.toNat = 0xED
    · rw [if_neg hlow, if_pos hhigh]
      refine ⟨⟨0x80, 0x9F⟩, rfl, fun x => ?_⟩
      simp only [UInt8.reduceToNat]
      omega
    · rw [if_neg hlow, if_neg hhigh, if_pos h.2]
      refine ⟨trailing, rfl, fun x => ?_⟩
      simp only [trailing, UInt8.reduceToNat]
      omega

/-- The three rows for sequences of four bytes. -/
theorem following_four (h : 0xF0 ≤ b.toNat ∧ b.toNat < 0xF5) :
    ∃ r, following b = some [r, trailing, trailing] ∧ ∀ x, r.contains x ↔
      IsTrailing x ∧ (b.toNat = 0xF0 → 0x90 ≤ x.toNat) ∧ (b.toNat = 0xF4 → x.toNat < 0x90) := by
  unfold following IsTrailing
  simp only [UInt8.lt_iff_toNat_lt, ← UInt8.toNat_inj, UInt8.reduceToNat, ByteRange.contains_iff]
  rw [if_neg (by omega), if_neg (by omega), if_neg (by omega), if_neg (by omega),
    if_neg (by omega), if_neg (by omega)]
  by_cases hlow : b.toNat = 0xF0
  · rw [if_pos hlow]
    refine ⟨⟨0x90, 0xBF⟩, rfl, fun x => ?_⟩
    simp only [UInt8.reduceToNat]
    omega
  · by_cases hhigh : b.toNat = 0xF4
    · rw [if_neg hlow, if_neg (by omega), if_pos hhigh]
      refine ⟨⟨0x80, 0x8F⟩, rfl, fun x => ?_⟩
      simp only [UInt8.reduceToNat]
      omega
    · rw [if_neg hlow, if_pos (by omega)]
      refine ⟨trailing, rfl, fun x => ?_⟩
      simp only [trailing, UInt8.reduceToNat]
      omega

theorem following_none (h : (0x80 ≤ b.toNat ∧ b.toNat < 0xC2) ∨ 0xF5 ≤ b.toNat) :
    following b = none := by
  unfold following
  simp only [UInt8.lt_iff_toNat_lt, ← UInt8.toNat_inj, UInt8.reduceToNat]
  rcases h with h | h
  · rw [if_neg (by omega), if_pos h.2]
  · simp (disch := omega) only [if_neg]

end rows

/-! ## Section 5: The table and the sequences -/

section sequences

variable {b : UInt8} {s : Bytes}

/-- The first byte of a sequence selects the row, and the bytes after it are
    in its ranges. -/
theorem exists_following_of_isSequence (h : IsSequence (b :: s)) :
    ∃ due, following b = some due ∧ Fits due s ∧ s.length = due.length := by
  match s, h with
  | [], hb => exact ⟨[], following_one hb, trivial, rfl⟩
  | [x], ⟨hb, hx⟩ =>
    have hfits : Fits [trailing] [x] := ⟨contains_trailing_iff.mpr hx, trivial⟩
    exact ⟨_, following_two hb, hfits, rfl⟩
  | [x, y], ⟨hb, hx, hy, hsecond⟩ =>
    obtain ⟨r, hrow, hr⟩ := following_three hb
    have hfits : Fits [r, trailing] [x, y] :=
      ⟨(hr x).mpr ⟨hx, hsecond⟩, contains_trailing_iff.mpr hy, trivial⟩
    exact ⟨_, hrow, hfits, rfl⟩
  | [x, y, z], ⟨hb, hx, hy, hz, hsecond⟩ =>
    obtain ⟨r, hrow, hr⟩ := following_four hb
    have hfits : Fits [r, trailing, trailing] [x, y, z] :=
      ⟨(hr x).mpr ⟨hx, hsecond⟩, contains_trailing_iff.mpr hy, contains_trailing_iff.mpr hz, trivial⟩
    exact ⟨_, hrow, hfits, rfl⟩

/-- Bytes that are all in the ranges of a row make a sequence. One case for
    each kind of first byte. -/
theorem isSequence_of_following {due : List ByteRange} (h : following b = some due)
    (hfits : Fits due s) (hlen : s.length = due.length) : IsSequence (b :: s) := by
  have hkind : b.toNat < 0x80 ∨ (0xC2 ≤ b.toNat ∧ b.toNat < 0xE0) ∨
      (0xE0 ≤ b.toNat ∧ b.toNat < 0xF0) ∨ (0xF0 ≤ b.toNat ∧ b.toNat < 0xF5) ∨
      ((0x80 ≤ b.toNat ∧ b.toNat < 0xC2) ∨ 0xF5 ≤ b.toNat) := by omega
  rcases hkind with hb | hb | hb | hb | hb
  · obtain rfl : [] = due := Option.some.inj ((following_one hb).symm.trans h)
    obtain rfl : s = [] := List.length_eq_zero_iff.mp hlen
    exact hb
  · obtain rfl : [trailing] = due := Option.some.inj ((following_two hb).symm.trans h)
    obtain ⟨x, t, rfl, hx, -, hlen⟩ := hfits.uncons hlen
    obtain rfl : t = [] := List.length_eq_zero_iff.mp hlen
    exact ⟨hb, contains_trailing_iff.mp hx⟩
  · obtain ⟨r, hrow, hr⟩ := following_three hb
    obtain rfl : [r, trailing] = due := Option.some.inj (hrow.symm.trans h)
    obtain ⟨x, t, rfl, hx, hfits, hlen⟩ := hfits.uncons hlen
    obtain ⟨y, t, rfl, hy, -, hlen⟩ := hfits.uncons hlen
    obtain rfl : t = [] := List.length_eq_zero_iff.mp hlen
    obtain ⟨hx, hsecond⟩ := (hr x).mp hx
    exact ⟨hb, hx, contains_trailing_iff.mp hy, hsecond⟩
  · obtain ⟨r, hrow, hr⟩ := following_four hb
    obtain rfl : [r, trailing, trailing] = due := Option.some.inj (hrow.symm.trans h)
    obtain ⟨x, t, rfl, hx, hfits, hlen⟩ := hfits.uncons hlen
    obtain ⟨y, t, rfl, hy, hfits, hlen⟩ := hfits.uncons hlen
    obtain ⟨z, t, rfl, hz, -, hlen⟩ := hfits.uncons hlen
    obtain rfl : t = [] := List.length_eq_zero_iff.mp hlen
    obtain ⟨hx, hsecond⟩ := (hr x).mp hx
    exact ⟨hb, hx, contains_trailing_iff.mp hy, contains_trailing_iff.mp hz, hsecond⟩
  · rw [following_none hb] at h
    cases h

/-- A sequence is a first byte with just the bytes that are due after it. -/
theorem isSequence_cons_iff :
    IsSequence (b :: s) ↔ ∃ due, following b = some due ∧ Fits due s ∧ s.length = due.length := by
  constructor
  · exact exists_following_of_isSequence
  · rintro ⟨due, hb, hfits, hlen⟩
    exact isSequence_of_following hb hfits hlen

end sequences

/-! ## Section 6: Starts of characters -/

/-- The bytes could become a character, or are one. -/
def Opens (part : Bytes) : Prop := ∃ c, part <+: encoding c

theorem opens_cons_iff {b : UInt8} {s : Bytes} :
    Opens (b :: s) ↔ ∃ due, following b = some due ∧ Fits due s := by
  constructor
  · rintro ⟨c, t, hc⟩
    have hsequence : IsSequence (b :: (s ++ t)) := exists_encoding_iff.mp ⟨c, hc.symm⟩
    obtain ⟨due, hb, hfits, -⟩ := isSequence_cons_iff.mp hsequence
    exact ⟨due, hb, hfits.of_append⟩
  · rintro ⟨due, hb, hfits⟩
    obtain ⟨t, hfull, hlen⟩ := hfits.complete fun r hr => (low_of_following hb r hr).1
    obtain ⟨c, hc⟩ := exists_encoding_iff.mpr (isSequence_cons_iff.mpr ⟨due, hb, hfull, hlen⟩)
    exact ⟨c, t, hc.symm⟩

end TestRig
