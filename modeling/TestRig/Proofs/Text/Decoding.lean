import TestRig.Proofs.Text.Characters

/-! # What the decoder prints

    Bytes that may not be UTF-8 are printed by a rule that mentions no
    decoder: characters stay, and elsewhere the longest part that could have
    become a character, but at least one byte, is replaced. `Decodes` is this
    rule, and `decodes_iff` says that the decoder follows it.

    The decoder reads byte by byte, so there are two things to say about a
    sequence that it is in the middle of: what comes of it when all of it
    arrives (`decodeFrom_complete`), and what when it breaks off
    (`decodeFrom_broken`). By the rule a text is taken apart from its start,
    and each step of that is one of these two, or a byte that starts no
    sequence. -/

namespace TestRig

open Lossy

/-! ## Section 1: The rule -/

/-- In `part ++ rest` no character comes first, and `part` is what is
    replaced there. -/
structure IsMaximalPart (part rest : Bytes) : Prop where
  nonempty : part ≠ []
  noCharacter : ∀ c, ¬ encoding c <+: part ++ rest
  /-- It could have become a character, or it is a single byte. -/
  opens : Opens part ∨ part.length = 1
  /-- Nothing longer could have become one. -/
  longest : ∀ longer, longer <+: part ++ rest → Opens longer → longer.length ≤ part.length

/-- What is printed for a text: its characters, and one replacement character
    for each maximal part that belongs to none. -/
inductive Decodes : Bytes → Bytes → Prop where
  | done : Decodes [] []
  | character (c : Char) {rest out : Bytes} :
      Decodes rest out → Decodes (encoding c ++ rest) (encoding c ++ out)
  | replaced {part rest out : Bytes} :
      IsMaximalPart part rest → Decodes rest out →
      Decodes (part ++ rest) (encoding (Char.ofNat 0xFFFD) ++ out)

theorem replacement_eq : replacement = encoding (Char.ofNat 0xFFFD) := by decide

/-! ## Section 2: The decoder in the middle of a sequence -/

namespace Lossy

/-- The bytes that arrive fit what is due, but they do not get to its end:
    the text is over, or its next byte does not fit. -/
structure BreaksOff (due : List ByteRange) (s rest : Bytes) : Prop where
  fits : Fits due s
  short : s.length < due.length
  stop : ∀ b more, rest = b :: more → ¬ Fits due (s ++ [b])

section middle

variable {held s rest : Bytes} {due : List ByteRange} {r : ByteRange} {b : UInt8}

theorem BreaksOff.of_cons (h : BreaksOff (r :: due) (b :: s) rest) :
    r.contains b ∧ BreaksOff due s rest := by
  obtain ⟨hb, hfits⟩ := h.fits
  refine ⟨hb, hfits, Nat.lt_of_succ_lt_succ h.short, ?_⟩
  intro x more hrest hx
  exact h.stop x more hrest ⟨hb, hx⟩

theorem BreaksOff.cons (hb : r.contains b) (h : BreaksOff due s rest) :
    BreaksOff (r :: due) (b :: s) rest := by
  refine ⟨⟨hb, h.fits⟩, Nat.succ_lt_succ h.short, ?_⟩
  intro x more hrest hx
  exact h.stop x more hrest hx.2

theorem BreaksOff.due_ne_nil (h : BreaksOff due s rest) : due ≠ [] := by
  intro e
  have hshort := h.short
  simp [e] at hshort

/-- Bytes of the same text that fit get no further. -/
theorem BreaksOff.length_le (h : BreaksOff due s rest) {s' : Bytes} (hfits : Fits due s')
    (hs : s' <+: s ++ rest) : s'.length ≤ s.length := by
  rcases List.prefix_or_prefix_of_prefix hs (List.prefix_append s rest) with hle | ⟨u, rfl⟩
  · exact hle.length_le
  · cases u with
    | nil => simp
    | cons x u =>
      -- then the next byte would have fit as well
      obtain ⟨v, hv⟩ := (List.prefix_append_right_inj s).mp hs
      have hx : Fits due ((s ++ [x]) ++ u) := by simpa using hfits
      exact absurd hx.of_append (h.stop x (u ++ v) (by simpa using hv.symm))

/-- A byte that is due and not the last is held. -/
theorem next_of_more (hb : r.contains b) (hmore : due ≠ []) :
    next ⟨held, r :: due⟩ b = ([], ⟨held ++ [b], due⟩) := by
  simp [next, hb, hmore]

/-- All that was due arrives, and is printed behind what is held. -/
theorem decodeFrom_complete (hdue : due ≠ []) (hfits : Fits due s) (hlen : s.length = due.length) :
    decodeFrom ⟨held, due⟩ (s ++ rest) = held ++ s ++ decodeFrom idle rest := by
  induction s generalizing held due with
  | nil => exact absurd (List.length_eq_zero_iff.mp hlen.symm) hdue
  | cons b s ih =>
    cases due with
    | nil => exact absurd rfl hdue
    | cons r due =>
      obtain ⟨hb, hfits⟩ := hfits
      by_cases hmore : due = []
      · subst hmore
        obtain rfl : s = [] := List.length_eq_zero_iff.mp (Nat.succ.inj hlen)
        simp [decodeFrom, next, hb]
      · rw [List.cons_append, decodeFrom, next_of_more hb hmore,
          ih hmore hfits (Nat.succ.inj hlen)]
        simp

/-- What breaks off is replaced with all that is held, and the byte after it
    is read afresh. -/
theorem decodeFrom_broken (h : BreaksOff due s rest) :
    decodeFrom ⟨held, due⟩ (s ++ rest) = replacement ++ decodeFrom idle rest := by
  induction s generalizing held due with
  | nil =>
    cases due with
    | nil => exact absurd rfl h.due_ne_nil
    | cons r due =>
      cases rest with
      | nil => simp [decodeFrom, idle]
      | cons b more =>
        have hb : ¬ r.contains b := fun hb => h.stop b more rfl ⟨hb, fits_nil due⟩
        simp [decodeFrom, next, idle, hb]
  | cons b s ih =>
    cases due with
    | nil => exact absurd rfl h.due_ne_nil
    | cons r due =>
      obtain ⟨hb, h⟩ := h.of_cons
      rw [List.cons_append, decodeFrom, next_of_more hb h.due_ne_nil, ih h]
      simp

end middle

/-- Any text starts with bytes that fit, and either they are all that was
    due, or they break off. -/
theorem exists_fits (due : List ByteRange) (t : Bytes) :
    ∃ s rest, t = s ++ rest ∧
      ((Fits due s ∧ s.length = due.length) ∨ BreaksOff due s rest) := by
  induction due generalizing t with
  | nil => exact ⟨[], t, rfl, .inl ⟨trivial, rfl⟩⟩
  | cons r due ih =>
    cases t with
    | nil => exact ⟨[], [], rfl, .inr ⟨fits_nil _, Nat.succ_pos _, nofun⟩⟩
    | cons b t =>
      by_cases hb : r.contains b
      · obtain ⟨s, rest, rfl, ⟨hfits, hlen⟩ | h⟩ := ih t
        · exact ⟨b :: s, rest, rfl, .inl ⟨⟨hb, hfits⟩, congrArg Nat.succ hlen⟩⟩
        · exact ⟨b :: s, rest, rfl, .inr (h.cons hb)⟩
      · refine ⟨[], b :: t, rfl, .inr ⟨fits_nil _, Nat.succ_pos _, ?_⟩⟩
        intro x more hrest hx
        cases hrest
        exact hb hx.1

end Lossy

/-! ## Section 3: The decoder follows the rule -/

theorem lossy_cons (b : UInt8) (s : Bytes) :
    lossy (b :: s) = (first b).1 ++ decodeFrom (first b).2 s := rfl

section following

variable {b : UInt8} {s rest part : Bytes} {due : List ByteRange}

theorem first_of_following (hb : following b = some due) (hdue : due ≠ []) :
    first b = ([], ⟨[b], due⟩) := by
  cases due with
  | nil => exact absurd rfl hdue
  | cons r due => rw [first, hb]

/-- A sequence is printed as it is. -/
theorem lossy_sequence_append (hb : following b = some due) (hfits : Fits due s)
    (hlen : s.length = due.length) : lossy (b :: s ++ rest) = b :: s ++ lossy rest := by
  by_cases hdue : due = []
  · subst hdue
    obtain rfl : s = [] := List.length_eq_zero_iff.mp hlen
    have hfirst : first b = ([b], idle) := by rw [first, hb]
    rw [List.cons_append, lossy_cons, hfirst]
    rfl
  · rw [List.cons_append, lossy_cons, first_of_following hb hdue]
    exact decodeFrom_complete hdue hfits hlen

theorem lossy_broken_append (hb : following b = some due) (h : BreaksOff due s rest) :
    lossy (b :: s ++ rest) = replacement ++ lossy rest := by
  rw [List.cons_append, lossy_cons, first_of_following hb h.due_ne_nil]
  exact decodeFrom_broken h

/-- A byte that starts no sequence is replaced alone. -/
theorem lossy_lone_append (hb : following b = none) :
    lossy ([b] ++ rest) = replacement ++ lossy rest := by
  have hfirst : first b = (replacement, idle) := by rw [first, hb]
  rw [List.singleton_append, lossy_cons, hfirst]
  rfl

/-- The start of a character at the start of a text, seen from the first byte
    of the text. -/
theorem fits_of_opens_prefix (hopens : Opens part) (hne : part ≠ []) (hpart : part <+: b :: rest) :
    ∃ due s, following b = some due ∧ Fits due s ∧ part = b :: s ∧ s <+: rest := by
  cases part with
  | nil => exact absurd rfl hne
  | cons x s =>
    obtain ⟨rfl, hs⟩ := List.cons_prefix_cons.mp hpart
    obtain ⟨due, hb, hfits⟩ := opens_cons_iff.mp hopens
    exact ⟨due, s, hb, hfits, rfl, hs⟩

theorem opens_encoding (c : Char) : Opens (encoding c) := ⟨c, List.prefix_rfl⟩

theorem encoding_ne_nil (c : Char) : encoding c ≠ [] := by
  intro h
  have hsequence := isSequence_encoding c
  rw [h] at hsequence
  exact hsequence

/-- A part that breaks off is a maximal one. -/
theorem isMaximalPart_of_breaksOff (hb : following b = some due) (h : BreaksOff due s rest) :
    IsMaximalPart (b :: s) rest where
  nonempty := nofun
  noCharacter := by
    intro c hc
    obtain ⟨due', s', hb', hfits, heq, hs⟩ :=
      fits_of_opens_prefix (opens_encoding c) (encoding_ne_nil c) hc
    obtain rfl : due = due' := Option.some.inj (hb.symm.trans hb')
    -- a character would have all that is due, and the part has less
    obtain ⟨due'', hb'', -, hlen⟩ := isSequence_cons_iff.mp (heq ▸ isSequence_encoding c)
    obtain rfl : due = due'' := Option.some.inj (hb.symm.trans hb'')
    have hle := h.length_le hfits hs
    have hshort := h.short
    omega
  opens := .inl (opens_cons_iff.mpr ⟨due, hb, h.fits⟩)
  longest := by
    intro longer hlonger hopens
    by_cases hne : longer = []
    · simp [hne]
    · obtain ⟨due', s', hb', hfits, rfl, hs⟩ := fits_of_opens_prefix hopens hne hlonger
      obtain rfl : due = due' := Option.some.inj (hb.symm.trans hb')
      exact Nat.succ_le_succ (h.length_le hfits hs)

theorem isMaximalPart_of_lone (hb : following b = none) : IsMaximalPart [b] rest where
  nonempty := nofun
  noCharacter := by
    intro c hc
    obtain ⟨due, s, hb', -⟩ := fits_of_opens_prefix (opens_encoding c) (encoding_ne_nil c) hc
    rw [hb] at hb'
    cases hb'
  opens := .inr rfl
  longest := by
    intro longer hlonger hopens
    by_cases hne : longer = []
    · simp [hne]
    · obtain ⟨due, s, hb', -⟩ := fits_of_opens_prefix hopens hne hlonger
      rw [hb] at hb'
      cases hb'

/-- Bytes of which at least one is replaced fit what the first of them leaves
    due. -/
theorem IsMaximalPart.fits (hb : following b = some due) (h : IsMaximalPart (b :: s) rest) :
    Fits due s := by
  rcases h.opens with hopens | hone
  · obtain ⟨due', hb', hfits⟩ := opens_cons_iff.mp hopens
    rw [hb] at hb'
    cases hb'
    exact hfits
  · obtain rfl : s = [] := List.length_eq_zero_iff.mp (Nat.succ.inj hone)
    exact fits_nil due

/-- A maximal part breaks off: it is no character, and nothing longer could
    become one. -/
theorem IsMaximalPart.breaksOff (hb : following b = some due) (h : IsMaximalPart (b :: s) rest) :
    BreaksOff due s rest where
  fits := h.fits hb
  short := by
    have hfits := h.fits hb
    refine Nat.lt_of_le_of_ne hfits.length_le ?_
    intro hlen
    obtain ⟨c, hc⟩ := exists_encoding_iff.mpr (isSequence_cons_iff.mpr ⟨due, hb, hfits, hlen⟩)
    exact h.noCharacter c (hc ▸ List.prefix_append _ _)
  stop := by
    intro x more hrest hx
    have hopens : Opens (b :: (s ++ [x])) := opens_cons_iff.mpr ⟨due, hb, hx⟩
    have hle := h.longest _ (by simp [hrest]) hopens
    have hlen : (b :: (s ++ [x])).length = (b :: s).length + 1 := by simp
    omega

theorem IsMaximalPart.eq_nil (hb : following b = none) (h : IsMaximalPart (b :: s) rest) :
    s = [] := by
  have hone : (b :: s).length = 1 := by
    refine h.opens.resolve_left ?_
    intro hopens
    obtain ⟨due, hb', -⟩ := opens_cons_iff.mp hopens
    rw [hb] at hb'
    cases hb'
  exact List.length_eq_zero_iff.mp (Nat.succ.inj hone)

end following

theorem IsMaximalPart.lossy_append {part rest : Bytes} (h : IsMaximalPart part rest) :
    lossy (part ++ rest) = replacement ++ lossy rest := by
  cases part with
  | nil => exact absurd rfl h.nonempty
  | cons b s =>
    cases hb : following b with
    | none =>
      obtain rfl := h.eq_nil hb
      exact lossy_lone_append hb
    | some due => exact lossy_broken_append hb (h.breaksOff hb)

theorem lossy_encoding_append (c : Char) (rest : Bytes) :
    lossy (encoding c ++ rest) = encoding c ++ lossy rest := by
  have hsequence := isSequence_encoding c
  cases henc : encoding c with
  | nil => rfl
  | cons b s =>
    rw [henc] at hsequence
    obtain ⟨due, hb, hfits, hlen⟩ := isSequence_cons_iff.mp hsequence
    exact lossy_sequence_append hb hfits hlen

/-- Every text starts with a character or with a part that is replaced. -/
theorem character_or_part (b : UInt8) (t : Bytes) :
    (∃ c rest, b :: t = encoding c ++ rest) ∨
      ∃ part rest, b :: t = part ++ rest ∧ IsMaximalPart part rest := by
  cases hb : following b with
  | none => exact .inr ⟨[b], t, rfl, isMaximalPart_of_lone hb⟩
  | some due =>
    obtain ⟨s, rest, rfl, ⟨hfits, hlen⟩ | h⟩ := exists_fits due t
    · obtain ⟨c, hc⟩ := exists_encoding_iff.mpr (isSequence_cons_iff.mpr ⟨due, hb, hfits, hlen⟩)
      exact .inl ⟨c, rest, by rw [hc, List.cons_append]⟩
    · exact .inr ⟨b :: s, rest, rfl, isMaximalPart_of_breaksOff hb h⟩

/-- The rule has an answer for every text, by induction on what is left of it. -/
theorem exists_decodes (s : Bytes) : ∃ out, Decodes s out := by
  induction hn : s.length using Nat.strongRecOn generalizing s with
  | ind n ih =>
    cases s with
    | nil => exact ⟨[], .done⟩
    | cons b t =>
      subst hn
      rcases character_or_part b t with ⟨c, rest, heq⟩ | ⟨part, rest, heq, hpart⟩
      · have hlen := congrArg List.length heq
        have hpos := List.length_pos_iff.mpr (encoding_ne_nil c)
        rw [List.length_append] at hlen
        obtain ⟨out, hout⟩ := ih rest.length (by omega) rest rfl
        rw [heq]
        exact ⟨_, .character c hout⟩
      · have hlen := congrArg List.length heq
        have hpos := List.length_pos_iff.mpr hpart.nonempty
        rw [List.length_append] at hlen
        obtain ⟨out, hout⟩ := ih rest.length (by omega) rest rfl
        rw [heq]
        exact ⟨_, .replaced hpart hout⟩

theorem Decodes.eq_lossy {s out : Bytes} (h : Decodes s out) : out = lossy s := by
  induction h with
  | done => rfl
  | character c _ ih => rw [lossy_encoding_append, ih]
  | replaced hpart _ ih => rw [hpart.lossy_append, replacement_eq, ih]

/-- There is one thing to print by the rule, and the decoder prints it. -/
theorem decodes_iff {s out : Bytes} : Decodes s out ↔ out = lossy s := by
  constructor
  · exact Decodes.eq_lossy
  · rintro rfl
    obtain ⟨out, hout⟩ := exists_decodes s
    exact hout.eq_lossy ▸ hout

end TestRig
