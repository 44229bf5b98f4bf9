import WlabStation.Machine.Kernel
import WlabStation.Machine.Memory
import Mathlib.Data.Nat.Bitwise
import Mathlib.Tactic.IntervalCases

/-! The forty bits that `dht2x_read` finds in `ReadData`: the checksum, the two
fields and the values they are converted to. -/
namespace WlabStation.Sensor

def ENOTSUP : ℤ := 134

/-- Byte `i` of `(uint8_t *)&ReadData` on a little-endian target. -/
def buf (d : UInt64) (i : ℕ) : ℕ := ((leBytes 8 d.toNat).getD i 0).toNat

def checksumRejected (d : UInt64) : Prop :=
  ((buf d 4 + buf d 3 + buf d 2 + buf d 1) &&& 0xFF) ≠ buf d 0 ∨ 0 = buf d 0

instance checksumRejected.decidable (d : UInt64) : Decidable (checksumRejected d) := by
  unfold checksumRejected
  infer_instance

/-- `1 << 15`, an `int`. -/
def TEMP_SIGN : Int32 := (1 : Int32) <<< (15 : Int32)

/-- The sign of `*temp`; the operators work on `int`. -/
def convertSign (temp : Int16) : Int16 :=
  if temp.toInt32 &&& TEMP_SIGN ≠ 0 then
    let temp := (temp.toInt32 &&& ~~~TEMP_SIGN).toInt16
    (-temp.toInt32).toInt16
  else temp

/-- What a call returns and what its two pointers refer to afterwards. -/
structure ReadResult where
  ret : ℤ
  temp : Int16
  rh : Int16
  deriving DecidableEq, Repr

/-- From the wait to the end; `none` is a wait that timed out. -/
def dht2xResult (captured : Option UInt64) (temp rh : Int16) : ReadResult :=
  match captured with
  | none => ⟨- EIO, temp, rh⟩
  | some d =>
      if checksumRejected d then ⟨-ENOTSUP, temp, rh⟩
      else ⟨0, convertSign ((d >>> 8) &&& 0xFFFF).toUInt16.toInt16,
        ((d >>> 24) &&& 0xFFFF).toUInt16.toInt16⟩

theorem buf_eq {d : UInt64} {i : ℕ} (hi : i < 8) : buf d i = d.toNat / 256 ^ i % 256 := by
  rw [buf, List.getD_eq_getElem?_getD, getElem?_leBytes hi, Option.getD_some]
  simp

theorem sign_bit_iff (t : Int16) : t.toInt32 &&& TEMP_SIGN ≠ 0 ↔ 2 ^ 15 ≤ t.toBitVec.toNat := by
  have hmask : TEMP_SIGN.toBitVec = BitVec.twoPow 32 15 := by decide
  have hne : BitVec.twoPow 32 15 ≠ 0#32 := by decide
  have hlow : 15 < 16 := by decide
  have hmsb : t.toBitVec.getLsbD 15 = decide (2 ^ 15 ≤ t.toBitVec.toNat) :=
    (BitVec.msb_eq_getLsbD_last _).symm.trans (BitVec.msb_eq_decide _)
  have hbit : (t.toBitVec.signExtend 32).getLsbD 15 = decide (2 ^ 15 ≤ t.toBitVec.toNat) := by
    rw [BitVec.getLsbD_signExtend, if_pos hlow, hmsb]
    simp
  rw [ne_eq, ← Int32.toBitVec_inj, Int32.toBitVec_and, Int16.toBitVec_toInt32, hmask,
    BitVec.and_twoPow, hbit, Int32.toBitVec_zero]
  simp only [decide_eq_true_eq]
  split_ifs with h
  · exact iff_of_true hne h
  · exact iff_of_false (not_not_intro rfl) h

theorem toInt_clearSign (t : Int16) :
    (t.toInt32 &&& ~~~TEMP_SIGN).toInt16.toInt = (t.toBitVec.toNat % 2 ^ 15 : ℕ) := by
  have hmask : ∀ i : Fin 16, (~~~TEMP_SIGN).toBitVec[i] = (0x7FFF#16)[i] := by decide
  have hword : (t.toInt32 &&& ~~~TEMP_SIGN).toInt16.toBitVec = t.toBitVec &&& 0x7FFF#16 := by
    rw [Int32.toBitVec_toInt16, Int32.toBitVec_and, Int16.toBitVec_toInt32]
    ext i hi
    have hwide : i < 32 := by omega
    have hbit := hmask ⟨i, hi⟩
    simp only [Fin.getElem_fin] at hbit
    simp only [BitVec.signExtend_and, BitVec.getElem_and, BitVec.getElem_signExtend, hi, hwide,
      dif_pos, hbit]
  have hnat : (t.toBitVec &&& 0x7FFF#16).toNat = t.toBitVec.toNat % 2 ^ 15 := by
    rw [BitVec.toNat_and]
    exact Nat.and_two_pow_sub_one_eq_mod _ 15
  rw [Int16.toInt, hword, BitVec.toInt_eq_toNat_cond, hnat]
  omega

/-- The value of a sign and fifteen bits of magnitude. -/
def signMagnitude (field : ℕ) : ℤ := if field < 2 ^ 15 then field else -(field % 2 ^ 15 : ℕ)

theorem toInt_convertSign (t : Int16) :
    (convertSign t).toInt = signMagnitude t.toBitVec.toNat := by
  unfold signMagnitude
  have hlt := t.toBitVec.isLt
  split_ifs with h
  · have hsign : ¬ t.toInt32 &&& TEMP_SIGN ≠ 0 := by
      rw [sign_bit_iff]
      omega
    rw [convertSign, if_neg hsign, Int16.toInt, BitVec.toInt_eq_toNat_cond]
    omega
  · have hsign : t.toInt32 &&& TEMP_SIGN ≠ 0 := by
      rw [sign_bit_iff]
      omega
    have hdvd : 2 ^ 16 ∣ 2 ^ 32 := by decide
    rw [convertSign, if_pos hsign, Int32.toInt_toInt16, Int32.toInt_neg, Int16.toInt_toInt32,
      toInt_clearSign, Int.bmod_bmod_of_dvd hdvd]
    apply Int.bmod_eq_of_le <;> omega

/-- The fields of a forty-bit frame. -/
def humidityField (frame : ℕ) : ℕ := frame / 2 ^ 24 % 2 ^ 16
def temperatureField (frame : ℕ) : ℕ := frame / 2 ^ 8 % 2 ^ 16
def frameByte (frame i : ℕ) : ℕ := frame / 256 ^ i % 256

/-- The low byte of the sum of the data bytes. -/
def dataSum (frame : ℕ) : ℕ :=
  (frameByte frame 4 + frameByte frame 3 + frameByte frame 2 + frameByte frame 1) % 256

theorem checksumRejected_iff (d : UInt64) :
    checksumRejected d ↔ dataSum d.toNat ≠ frameByte d.toNat 0 ∨ frameByte d.toNat 0 = 0 := by
  have hbuf : ∀ i, i < 8 → buf d i = frameByte d.toNat i := fun i hi => buf_eq hi
  have hsum : (buf d 4 + buf d 3 + buf d 2 + buf d 1) &&& 0xFF = dataSum d.toNat := by
    rw [dataSum, ← hbuf 4 (by decide), ← hbuf 3 (by decide), ← hbuf 2 (by decide),
      ← hbuf 1 (by decide)]
    exact Nat.and_two_pow_sub_one_eq_mod _ 8
  rw [checksumRejected, hsum, hbuf 0 (by decide), eq_comm (a := 0)]

/-- Sixteen bits of the captured word. -/
theorem toNat_field (d k : UInt64) (hk : k.toNat < 64) :
    ((d >>> k) &&& 0xFFFF).toUInt16.toInt16.toBitVec.toNat = d.toNat / 2 ^ k.toNat % 2 ^ 16 := by
  have hmask (x : ℕ) : x % 65536 &&& 65535 = x % 65536 :=
    (Nat.and_two_pow_sub_one_eq_mod _ 16).trans (Nat.mod_mod _ _)
  simp [Nat.mod_eq_of_lt hk, hmask, Nat.shiftRight_eq_div_pow]

theorem dht2xResult_rejected {d : UInt64} (temp rh : Int16) (h : checksumRejected d) :
    dht2xResult (some d) temp rh = ⟨-ENOTSUP, temp, rh⟩ := if_pos h

theorem dht2xResult_accepted {d : UInt64} (temp rh : Int16) (h : ¬ checksumRejected d) :
    dht2xResult (some d) temp rh = ⟨0, convertSign ((d >>> 8) &&& 0xFFFF).toUInt16.toInt16,
      ((d >>> 24) &&& 0xFFFF).toUInt16.toInt16⟩ := if_neg h

theorem dht2xResult_unchanged {c : Option UInt64} {temp rh : Int16}
    (h : (dht2xResult c temp rh).ret ≠ 0) :
    (dht2xResult c temp rh).temp = temp ∧ (dht2xResult c temp rh).rh = rh := by
  cases c with
  | none => exact ⟨rfl, rfl⟩
  | some d =>
    by_cases hsum : checksumRejected d
    · rw [dht2xResult_rejected temp rh hsum]
      exact ⟨rfl, rfl⟩
    · rw [dht2xResult_accepted temp rh hsum] at h
      exact absurd rfl h

theorem ret_eq_zero_iff (d : UInt64) (temp rh : Int16) :
    (dht2xResult (some d) temp rh).ret = 0 ↔ ¬ checksumRejected d := by
  have hret : -ENOTSUP ≠ 0 := by decide
  by_cases h : checksumRejected d
  · rw [dht2xResult_rejected temp rh h]
    exact iff_of_false hret (not_not_intro h)
  · rw [dht2xResult_accepted temp rh h]
    exact iff_of_true rfl h

/-- The values of an accepted frame. -/
theorem dht2xResult_values {d : UInt64} (temp rh : Int16) (h : ¬ checksumRejected d) :
    (dht2xResult (some d) temp rh).temp.toInt = signMagnitude (temperatureField d.toNat) ∧
      (dht2xResult (some d) temp rh).rh.toBitVec.toNat = humidityField d.toNat := by
  rw [dht2xResult_accepted temp rh h]
  constructor
  · exact (toInt_convertSign _).trans (congrArg signMagnitude (toNat_field d 8 (by decide)))
  · exact toNat_field d 24 (by decide)

theorem frameByte_lt (frame i : ℕ) : frameByte frame i < 256 := Nat.mod_lt _ (by decide)

/-- Words with the same bytes. -/
theorem eq_of_frameByte {d e : UInt64}
    (h : ∀ i, i < 8 → frameByte d.toNat i = frameByte e.toNat i) : d = e := by
  have hbytes : leBytes 8 d.toNat = leBytes 8 e.toNat := by
    apply List.ext_getElem?
    intro i
    by_cases hi : i < 8
    · have hbyte : d.toNat / 256 ^ i % 256 = e.toNat / 256 ^ i % 256 := h i hi
      rw [getElem?_leBytes hi, getElem?_leBytes hi, hbyte]
    · rw [List.getElem?_eq_none (by simpa using hi), List.getElem?_eq_none (by simpa using hi)]
  have hnat := congrArg leNat hbytes
  rw [leNat_leBytes, leNat_leBytes] at hnat
  have hd := d.toNat_lt
  have he := e.toNat_lt
  rw [← UInt64.toNat_inj]
  omega

/-- Another checksum, or one other data byte, does not fit a valid frame. -/
theorem checksumRejected_of_corrupted {frame d : UInt64}
    (hframe : dataSum frame.toNat = frameByte frame.toNat 0) {i : ℕ} (hi : i < 5)
    (hsame : ∀ j, j < 8 → j ≠ i → frameByte d.toNat j = frameByte frame.toNat j)
    (hne : d ≠ frame) : checksumRejected d := by
  rw [checksumRejected_iff]
  left
  have hbyte : frameByte d.toNat i ≠ frameByte frame.toNat i := by
    intro heq
    apply hne
    apply eq_of_frameByte
    intro j hj
    by_cases hji : j = i
    · rw [hji, heq]
    · exact hsame j hj hji
  have hlt := frameByte_lt d.toNat i
  have hlt' := frameByte_lt frame.toNat i
  have hother (j : ℕ) (hj : j < 8) : j = i ∨ frameByte d.toNat j = frameByte frame.toNat j := by
    by_cases hji : j = i
    · exact .inl hji
    · exact .inr (hsame j hj hji)
  have h0 := hother 0 (by decide)
  have h1 := hother 1 (by decide)
  have h2 := hother 2 (by decide)
  have h3 := hother 3 (by decide)
  have h4 := hother 4 (by decide)
  unfold dataSum at hframe ⊢
  interval_cases i <;> omega

end WlabStation.Sensor
