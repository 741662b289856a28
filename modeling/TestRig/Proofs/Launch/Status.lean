import TestRig.Proofs.Launch.Child

/-! # The bits of a status word

    The system hands the end of a child over as a number with a sign, and
    its headers take that number apart with masks and with a shift that
    copies the sign. The library reads the same word by division and
    without a sign. This module shows that the two readings agree on every
    word, and says which bits the exit code depends on.

    * `WaitStatus.lowSeven`, `WaitStatus.codeByte`: the two fields that
      count. The exit code is a function of them (`exitCode_eq_of_fields`).
    * `WaitStatus.headerCode?`, `WaitStatus.headerSignal?`: the tests and
      masks of the headers.
    * `WaitStatus.Decodes`: all that is known about the exit code of a word,
      and `exitCode_decodes`: that it holds of every word. -/

namespace TestRig

namespace WaitStatus

variable {v w : WaitStatus}

/-! ## Section 1: The two fields that count -/

/-- Bits 0 to 6 say how the child ended. -/
def lowSeven (w : WaitStatus) : BitVec 7 := w.extractLsb' 0 7

/-- Bits 8 to 15 hold the code of a child that exited. -/
def codeByte (w : WaitStatus) : BitVec 8 := w.extractLsb' 8 8

theorem manner_eq (w : WaitStatus) : w.manner = w.lowSeven.toNat := by
  unfold manner lowSeven
  rw [BitVec.extractLsb'_toNat]
  rfl

theorem secondByte_eq (w : WaitStatus) : w.secondByte = w.codeByte.toNat := by
  unfold secondByte codeByte
  rw [BitVec.extractLsb'_toNat, Nat.shiftRight_eq_div_pow]

/-- The exit code depends on nothing but the two fields. -/
theorem exitCode_eq_of_fields (w : WaitStatus) :
    w.exitCode = if w.lowSeven.toNat = 0 then w.codeByte.toNat
      else if w.lowSeven.toNat = 127 then 1
      else 128 + w.lowSeven.toNat := by
  unfold exitCode ending
  rw [manner_eq, secondByte_eq]
  by_cases hexit : w.lowSeven.toNat = 0
  · simp [hexit]
  · by_cases hunended : w.lowSeven.toNat = 127
    · simp [hunended]
    · simp [hexit, hunended]

theorem exitCode_congr (hlow : v.lowSeven = w.lowSeven) (hbyte : v.codeByte = w.codeByte) :
    v.exitCode = w.exitCode := by
  rw [exitCode_eq_of_fields, exitCode_eq_of_fields, hlow, hbyte]

/-! ## Section 2: The bits that say nothing -/

/-- The mask is made of bit 7 and of bits 16 to 31 only. -/
def IsIdle (mask : WaitStatus) : Prop := ∀ i, mask.getLsbD i = true → i = 7 ∨ 16 ≤ i

/-- A stretch of a word that holds none of these bits keeps its value when
    they are flipped. -/
theorem extractLsb'_flip {mask : WaitStatus} {start len : Nat} (hmask : mask.IsIdle)
    (hapart : ∀ i < len, start + i ≠ 7 ∧ start + i < 16) :
    (w ^^^ mask).extractLsb' start len = w.extractLsb' start len := by
  have hzero : mask.extractLsb' start len = 0#(len) := by
    apply BitVec.eq_of_getLsbD_eq
    intro i hi
    have hbit : mask.getLsbD (start + i) = false := by
      rw [Bool.eq_false_iff]
      intro hset
      have hidle := hmask (start + i) hset
      have hcounts := hapart i hi
      omega
    rw [BitVec.getLsbD_extractLsb', hbit]
    simp
  rw [BitVec.extractLsb'_xor, hzero, BitVec.xor_zero]

theorem exitCode_flip {mask : WaitStatus} (hmask : mask.IsIdle) :
    (w ^^^ mask).exitCode = w.exitCode := by
  apply exitCode_congr
  · exact extractLsb'_flip hmask (by omega)
  · exact extractLsb'_flip hmask (by omega)

/-! ## Section 3: The tests of the system's headers -/

/-- The code of a child that exited, as the headers read it off a number with
    a sign: the shift copies the sign, and the mask drops its copies. -/
def headerCode? (w : WaitStatus) : Option Int :=
  if w &&& 0x7F#32 = 0#32 then some (w.sshiftRight 8 &&& 0xFF#32).toInt else none

/-- The signal that ended a child, as the headers read it: one more than the
    low seven bits must be at least two as a byte with a sign, so 127 is
    excluded by its sign. -/
def headerSignal? (w : WaitStatus) : Option Int :=
  if 2 ≤ ((w &&& 0x7F#32) + 1#32 |>.setWidth 8).toInt then some (w &&& 0x7F#32).toInt else none

theorem toNat_lowMask (w : WaitStatus) : (w &&& 0x7F#32).toNat = w.lowSeven.toNat := by
  rw [BitVec.toNat_and, ← manner_eq]
  exact Nat.and_two_pow_sub_one_eq_mod _ 7

theorem toInt_lowMask (w : WaitStatus) : (w &&& 0x7F#32).toInt = w.lowSeven.toNat := by
  have hlt := w.lowSeven.isLt
  rw [BitVec.toInt_eq_toNat_cond, toNat_lowMask]
  split <;> omega

/-- The copies of the sign that the shift brings in are all masked. -/
theorem codeMask_eq (w : WaitStatus) :
    w.sshiftRight 8 &&& 0xFF#32 = w.codeByte.setWidth 32 := by
  apply BitVec.eq_of_getLsbD_eq
  intro i hi
  have hmask : (0xFF#32).getLsbD i = decide (i < 8) := by
    rw [BitVec.getLsbD_ofNat]
    simpa [hi] using Nat.testBit_two_pow_sub_one 8 i
  rw [BitVec.getLsbD_and, hmask, codeByte, BitVec.getLsbD_setWidth, BitVec.getLsbD_extractLsb',
    BitVec.getLsbD_sshiftRight]
  by_cases hlow : i < 8
  · have hbelow : 8 + i < 32 := by omega
    simp [hi, hlow, hbelow]
  · simp [hlow]

theorem toInt_codeMask (w : WaitStatus) :
    (w.sshiftRight 8 &&& 0xFF#32).toInt = w.codeByte.toNat := by
  have hlt := w.codeByte.isLt
  rw [codeMask_eq, BitVec.toInt_eq_toNat_cond, BitVec.toNat_setWidth]
  omega

theorem headerCode?_eq (w : WaitStatus) :
    w.headerCode? = if w.lowSeven.toNat = 0 then some (w.codeByte.toNat : Int) else none := by
  have hzero : w &&& 0x7F#32 = 0#32 ↔ w.lowSeven.toNat = 0 := by
    rw [← toNat_lowMask]
    exact BitVec.toNat_eq
  unfold headerCode?
  rw [toInt_codeMask]
  simp only [hzero]

theorem headerSignal?_eq (w : WaitStatus) :
    w.headerSignal?
      = if 1 ≤ w.lowSeven.toNat ∧ w.lowSeven.toNat ≤ 126 then some (w.lowSeven.toNat : Int)
        else none := by
  have hlt := w.lowSeven.isLt
  -- no carry leaves the byte, so only its sign can go wrong
  have hnext : ((w &&& 0x7F#32) + 1#32 |>.setWidth 8).toNat = w.lowSeven.toNat + 1 := by
    rw [BitVec.toNat_setWidth, BitVec.toNat_add, toNat_lowMask]
    show (w.lowSeven.toNat + 1) % 2 ^ 32 % 2 ^ 8 = _
    omega
  have htest : 2 ≤ ((w &&& 0x7F#32) + 1#32 |>.setWidth 8).toInt ↔
      1 ≤ w.lowSeven.toNat ∧ w.lowSeven.toNat ≤ 126 := by
    rw [BitVec.toInt_eq_toNat_cond, hnext]
    split <;> omega
  unfold headerSignal?
  rw [toInt_lowMask]
  simp only [htest]

/-! ## Section 4: The exit code of a word -/

/-- What the bits of a word say about its exit code. -/
structure Decodes (w : WaitStatus) : Prop where
  /-- The code of a child that exited comes first, then 128 and the signal
      that ended it, and 1 where the headers find neither. -/
  headers : (w.exitCode : Int)
    = match w.headerCode?, w.headerSignal? with
      | some code, _ => code
      | none, some signal => 128 + signal
      | none, none => 1
  /-- It fits in a byte. -/
  fits : w.exitCode ≤ 255
  /-- Nothing but a normal exit with code 0 counts as a success. -/
  success : w.exitCode = 0 ↔ w.lowSeven = 0#7 ∧ w.codeByte = 0#8
  /-- A normal exit keeps its code. -/
  exited : w.lowSeven = 0#7 → w.exitCode = w.codeByte.toNat
  /-- A signal is added to 128, which leaves room for every signal. -/
  signalled : 1 ≤ w.lowSeven.toNat → w.lowSeven.toNat ≤ 126 →
    w.exitCode = 128 + w.lowSeven.toNat ∧ 129 ≤ w.exitCode ∧ w.exitCode ≤ 254
  /-- A word that reports no end is a failure. -/
  unended : w.lowSeven.toNat = 127 → w.exitCode = 1
  /-- The dump of memory and the high half, the sign included, are not looked
      at, whichever of these bits are flipped together. -/
  idle : ∀ mask : WaitStatus, mask.IsIdle → (w ^^^ mask).exitCode = w.exitCode

/-- Every word is decoded as its bits say, and no failure is lost. -/
theorem exitCode_decodes (w : WaitStatus) : w.Decodes := by
  have hlow := w.lowSeven.isLt
  have hbyte := w.codeByte.isLt
  have hexit : w.lowSeven = 0#7 ↔ w.lowSeven.toNat = 0 := BitVec.toNat_eq
  have hcode : w.codeByte = 0#8 ↔ w.codeByte.toNat = 0 := BitVec.toNat_eq
  refine ⟨?headers, w.exitCode_le, ?success, ?exited, ?signalled, ?unended,
    fun _ => exitCode_flip⟩
  case headers =>
    rw [headerCode?_eq, headerSignal?_eq, exitCode_eq_of_fields]
    by_cases hzero : w.lowSeven.toNat = 0
    · simp [hzero]
    · by_cases hend : w.lowSeven.toNat = 127
      · simp [hend]
      · have hsignal : 1 ≤ w.lowSeven.toNat ∧ w.lowSeven.toNat ≤ 126 := by omega
        simp only [if_neg hzero, if_neg hend, if_pos hsignal]
        rfl
  case success =>
    rw [hexit, hcode, exitCode_eq_of_fields]
    split
    · next hzero => simp [hzero]
    · next hzero => split <;> omega
  case exited =>
    intro hzero
    rw [exitCode_eq_of_fields, if_pos (hexit.mp hzero)]
  case signalled =>
    intro hpos hle
    have hvalue : w.exitCode = 128 + w.lowSeven.toNat := by
      rw [exitCode_eq_of_fields, if_neg (by omega), if_neg (by omega)]
    omega
  case unended =>
    intro hend
    rw [exitCode_eq_of_fields, if_neg (by omega), if_pos hend]

/-- Signal 9 with a dump of memory, in a word whose sign is set. -/
example : exitCode 0xFFFF0089#32 = 137 := by decide

end WaitStatus

end TestRig
