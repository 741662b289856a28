import TestRig.Proofs.Text.Decoding

/-! # Where a text may be cut

    Two texts do not decode piece by piece in general, since a sequence may
    lie across the border. But a byte below `0x80` is a character of its own
    and never part of a longer sequence, so no sequence lies across it:
    whatever the decoder waits for when such a byte arrives, it ends there
    (`Pending.EndedBy`). A text may be cut at the byte (`lossy_append_cons`),
    and the cuts can be found again in what is printed, since the byte is
    printed nowhere else (`mem_of_mem_lossy`).

    What decodes to itself is UTF-8, and nothing else is
    (`isUtf8_iff_lossy_eq`). -/

namespace TestRig

open Lossy

/-! ## Section 1: What stays as it is -/

/-- The bytes are UTF-8: those of some string. -/
def IsUtf8 (s : Bytes) : Prop := ∃ str : String, s = text str

theorem text_eq_flatMap (str : String) : text str = str.toList.flatMap encoding := by
  have hbytes : str.toUTF8 = str.toList.utf8Encode := by
    rw [String.toUTF8_eq_toByteArray, String.utf8Encode_toList]
  rw [text, hbytes]
  exact List.toList_data_toByteArray

theorem lossy_flatMap_encoding (cs : List Char) :
    lossy (cs.flatMap encoding) = cs.flatMap encoding := by
  induction cs with
  | nil => rfl
  | cons c cs ih => rw [List.flatMap_cons, lossy_encoding_append, ih]

theorem lossy_of_isUtf8 {s : Bytes} (h : IsUtf8 s) : lossy s = s := by
  obtain ⟨str, rfl⟩ := h
  rw [text_eq_flatMap, lossy_flatMap_encoding]

theorem text_append (s t : String) : text (s ++ t) = text s ++ text t := by
  rw [text_eq_flatMap, text_eq_flatMap, text_eq_flatMap, String.toList_append, List.flatMap_append]

theorem isUtf8_nil : IsUtf8 [] := ⟨"", rfl⟩

theorem IsUtf8.append {s t : Bytes} (hs : IsUtf8 s) (ht : IsUtf8 t) : IsUtf8 (s ++ t) := by
  obtain ⟨x, rfl⟩ := hs
  obtain ⟨y, rfl⟩ := ht
  exact ⟨x ++ y, (text_append x y).symm⟩

theorem isUtf8_encoding (c : Char) : IsUtf8 (encoding c) := by
  refine ⟨String.ofList [c], ?_⟩
  rw [text_eq_flatMap, String.toList_ofList, List.flatMap_singleton]

/-- Whatever is decoded, what comes out is UTF-8. -/
theorem isUtf8_lossy (s : Bytes) : IsUtf8 (lossy s) := by
  have hdecodes : Decodes s (lossy s) := decodes_iff.mpr rfl
  generalize lossy s = out at hdecodes
  induction hdecodes with
  | done => exact isUtf8_nil
  | character c _ ih => exact (isUtf8_encoding c).append ih
  | replaced _ _ ih => exact (isUtf8_encoding _).append ih

/-- UTF-8 is what decoding leaves as it is. -/
theorem isUtf8_iff_lossy_eq {s : Bytes} : IsUtf8 s ↔ lossy s = s := by
  constructor
  · intro h
    exact lossy_of_isUtf8 h
  · intro h
    rw [← h]
    exact isUtf8_lossy s

section ascii

variable {b : UInt8} (hb : b < 0x80)
include hb

/-- No such byte is printed that is not in the text. -/
theorem mem_of_mem_lossy {s : Bytes} (h : b ∈ lossy s) : b ∈ s := by
  have hreplacement : ∀ x ∈ replacement, ¬ x < 0x80 := by decide +kernel
  have hdecodes : Decodes s (lossy s) := decodes_iff.mpr rfl
  generalize lossy s = out at h hdecodes
  induction hdecodes with
  | done => exact h
  | character c _ ih =>
    rcases List.mem_append.mp h with h | h
    · exact List.mem_append_left _ h
    · exact List.mem_append_right _ (ih h)
  | replaced _ _ ih =>
    rcases List.mem_append.mp h with h | h
    · exact absurd hb (hreplacement b (replacement_eq ▸ h))
    · exact List.mem_append_right _ (ih h)

/-! ## Section 2: The byte that ends a sequence -/

namespace Lossy

/-- The byte is not what the decoder waits for. -/
def Pending.EndedBy (p : Pending) (b : UInt8) : Prop := ∀ r ∈ p.due, ¬ r.contains b

theorem not_contains_of_following {x : UInt8} {due : List ByteRange} (hx : following x = some due) :
    ∀ r ∈ due, ¬ r.contains b := by
  intro r hr hcontains
  have hge := (low_of_following hx r hr).2
  have hle := (ByteRange.contains_iff.mp hcontains).1
  have hlt : b.toNat < 0x80 := UInt8.lt_iff_toNat_lt.mp hb
  omega

theorem first_of_lt : first b = ([b], idle) := by
  have hfollowing : following b = some [] := by rw [following, if_pos hb]
  rw [first, hfollowing]

omit hb in
theorem idle_endedBy : idle.EndedBy b := by
  intro r hr
  cases hr

theorem first_endedBy (x : UInt8) : (first x).2.EndedBy b := by
  unfold first
  split
  · exact idle_endedBy
  · exact idle_endedBy
  · next due hne hx => exact not_contains_of_following hb hx

/-- One byte more, and the decoder still waits for something else. -/
theorem next_endedBy {p : Pending} (hp : p.EndedBy b) (x : UInt8) : (next p x).2.EndedBy b := by
  unfold next
  split
  · exact first_endedBy hb x
  · next r due hdue =>
    unfold Pending.EndedBy at hp
    rw [hdue] at hp
    split
    · split
      · exact idle_endedBy
      · intro r' hr'
        exact hp r' (List.mem_cons_of_mem _ hr')
    · exact first_endedBy hb x

/-- When the byte arrives, what is pending ends as it would at the end of the
    text. -/
theorem next_of_endedBy {p : Pending} (hp : p.EndedBy b) :
    next p b = (decodeFrom p [] ++ [b], idle) := by
  unfold next decodeFrom
  split
  · next hdue => simp [hdue, first_of_lt hb]
  · next r due hdue =>
    have hr : ¬ r.contains b := hp r (by simp [hdue])
    simp [hdue, hr, first_of_lt hb]

theorem decodeFrom_append_cons {p : Pending} (hp : p.EndedBy b) (s t : Bytes) :
    decodeFrom p (s ++ b :: t) = decodeFrom p s ++ b :: lossy t := by
  induction s generalizing p with
  | nil =>
    show (next p b).1 ++ decodeFrom (next p b).2 t = _
    rw [next_of_endedBy hb hp, List.append_assoc]
    rfl
  | cons x s ih =>
    rw [List.cons_append, decodeFrom, ih (next_endedBy hb hp x), decodeFrom, List.append_assoc]

end Lossy

/-! ## Section 3: Cuts -/

theorem lossy_append_cons (s t : Bytes) : lossy (s ++ b :: t) = lossy s ++ b :: lossy t :=
  decodeFrom_append_cons hb idle_endedBy s t

/-- A joined text decodes piece by piece. -/
theorem lossy_joined (ss : List Bytes) : lossy (joined b ss) = joined b (ss.map lossy) := by
  induction ss with
  | nil => rfl
  | cons s ss ih =>
    cases ss with
    | nil => rfl
    | cons s' ss =>
      show lossy (s ++ b :: joined b (s' :: ss)) = lossy s ++ b :: joined b ((s' :: ss).map lossy)
      rw [lossy_append_cons hb, ih]

end ascii

/-- The space stands where a sequence of three bytes is cut off. -/
example : lossy [0x61, 0xE2, 0x82, 0x20, 0xAC] = [0x61] ++ replacement ++ [0x20] ++ replacement := by
  decide

end TestRig
