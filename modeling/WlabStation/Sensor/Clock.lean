import Mathlib.Algebra.Order.Floor.Semifield
import Mathlib.Algebra.Order.Archimedean.Real.Basic
import WlabStation.Sensor.EdgeDecoder

/-! The microsecond clock of `dht2x.c` over the cycle counter, and the pulse
widths that `gpio_callback` measures with it. -/
namespace WlabStation.Sensor

def USEC_PER_SEC : UInt32 := 1000000

/-- `dht2x_us_now` when the counter shows `cyc` and runs at `hz`. -/
def dht2xUsNow (hz cyc : UInt32) : UInt32 :=
  (cyc.toUInt64 / (hz / USEC_PER_SEC).toUInt64).toUInt32

/-- The free-running counter after `t` cycles. -/
noncomputable def cycleCounter (t : ℝ) : UInt32 := UInt32.ofNat ⌊t⌋₊

def cycPerUs (hz : UInt32) : ℕ := hz.toNat / 1000000

theorem toNat_dht2xUsNow (hz cyc : UInt32) :
    (dht2xUsNow hz cyc).toNat = cyc.toNat / cycPerUs hz := by
  have hlt : cyc.toNat / cycPerUs hz < 2 ^ 32 := (Nat.div_le_self _ _).trans_lt cyc.toNat_lt
  have hdiv : (hz / USEC_PER_SEC).toNat = cycPerUs hz := rfl
  rw [dht2xUsNow, UInt64.toNat_toUInt32, UInt64.toNat_div, UInt32.toNat_toUInt64,
    UInt32.toNat_toUInt64, hdiv, Nat.mod_eq_of_lt hlt]

theorem Dht.dataEdge_lastElapsed (s : Dht) (pin : UInt32) :
    (s.dataEdge pin).2.lastElapsed = s.lastElapsed := by
  unfold dataEdge finish interruptDisable
  split_ifs <;> rfl

theorem gpioCallback_lastElapsed (s : Dht) (pin usNow : UInt32) :
    (gpioCallback s pin usNow).2.lastElapsed = usNow - s.pulseStartUs := by
  unfold gpioCallback Dht.finish Dht.interruptDisable
  dsimp only
  split_ifs <;> simp [Dht.dataEdge_lastElapsed]

theorem toNat_cycleCounter (t : ℝ) : (cycleCounter t).toNat = ⌊t⌋₊ % 2 ^ 32 :=
  UInt32.toNat_ofNat'

/-- The counter does not wrap between two moments. -/
def SamePeriod (p q : ℝ) : Prop := ⌊p⌋₊ / 2 ^ 32 = ⌊q⌋₊ / 2 ^ 32

/-- Rounding both ends down to whole units is off by less than one of them. -/
theorem abs_floor_div_sub {c : ℕ} (hc : 1 ≤ c) {p q : ℝ} (hp : 0 ≤ p) (hpq : p ≤ q) :
    |((⌊q⌋₊ / c : ℕ) : ℝ) - (⌊p⌋₊ / c : ℕ) - (q - p) / c| ≤ 1 := by
  have hcpos : (0 : ℝ) < c := by exact_mod_cast hc
  have hq : 0 ≤ q := hp.trans hpq
  rw [← Nat.floor_div_natCast, ← Nat.floor_div_natCast, sub_div, abs_le]
  have hp1 := Nat.floor_le (div_nonneg hp hcpos.le)
  have hp2 := Nat.lt_floor_add_one (p / c)
  have hq1 := Nat.floor_le (div_nonneg hq hcpos.le)
  have hq2 := Nat.lt_floor_add_one (q / c)
  constructor <;> linarith

/-- The same within one period of the counter. -/
theorem abs_counter_div_sub {c : ℕ} (hc : 1 ≤ c) {p q : ℝ} (hp : 0 ≤ p) (hpq : p ≤ q)
    (hsame : SamePeriod p q) :
    |((⌊q⌋₊ % 2 ^ 32 / c : ℕ) : ℝ) - (⌊p⌋₊ % 2 ^ 32 / c : ℕ) - (q - p) / c| ≤ 1 := by
  let base : ℕ := ⌊p⌋₊ / 2 ^ 32 * 2 ^ 32
  have hbase : (base : ℝ) ≤ p := (Nat.cast_le.mpr (Nat.div_mul_le_self _ _)).trans (Nat.floor_le hp)
  have hmodp : ⌊p⌋₊ % 2 ^ 32 = ⌊p - base⌋₊ := by
    have := Nat.div_add_mod' ⌊p⌋₊ (2 ^ 32)
    rw [Nat.floor_sub_natCast]
    omega
  have hmodq : ⌊q⌋₊ % 2 ^ 32 = ⌊q - base⌋₊ := by
    have := Nat.div_add_mod' ⌊q⌋₊ (2 ^ 32)
    rw [Nat.floor_sub_natCast]
    unfold SamePeriod at hsame
    omega
  have hshift : q - p = q - base - (p - base) := by ring
  rw [hmodp, hmodq, hshift]
  exact abs_floor_div_sub hc (by linarith) (by linarith)

/-- Two moments less than a millisecond apart are few cycles apart. -/
theorem floor_le_of_short {c : ℕ} (hc : 1 ≤ c) {p q : ℝ} (hshort : (q - p) / c < 1000) :
    ⌊q⌋₊ ≤ ⌊p⌋₊ + 1000 * c := by
  have hcpos : (0 : ℝ) < c := by exact_mod_cast hc
  rw [div_lt_iff₀ hcpos] at hshort
  have hlt := Nat.lt_floor_add_one p
  have hcast : q < (⌊p⌋₊ + 1000 * c + 1 : ℕ) := by
    push_cast
    linarith
  have hfloor := (Nat.floor_lt' (by omega)).mpr hcast
  omega

/-- Across the wrap of a counter that runs faster than the clock, the measured
width is about the whole range of the clock. -/
theorem wrapped_width {c P Q : ℕ} (hc : 2 ≤ c) (hmax : c ≤ 4294) (hPQ : P ≤ Q)
    (hQ : Q ≤ P + 1000 * c) (hwrap : P / 2 ^ 32 ≠ Q / 2 ^ 32) :
    2 ^ 31 ≤ (2 ^ 32 - P % 2 ^ 32 / c + Q % 2 ^ 32 / c) % 2 ^ 32 := by
  have hmod : P % 2 ^ 32 + (Q - P) = Q % 2 ^ 32 + 2 ^ 32 := by omega
  have hlow : Q % 2 ^ 32 / c ≤ 1000 := by
    apply Nat.div_le_of_le_mul
    rw [Nat.mul_comm]
    omega
  have hhigh : 1001 ≤ P % 2 ^ 32 / c := by
    rw [Nat.le_div_iff_mul_le (by omega)]
    omega
  have hhalf : P % 2 ^ 32 / c ≤ P % 2 ^ 32 / 2 := Nat.div_le_div_left hc Nat.two_pos
  generalize P % 2 ^ 32 / c = a at hhigh hhalf ⊢
  generalize Q % 2 ^ 32 / c = b at hlow ⊢
  omega

theorem toNat_lastElapsed {hz : UInt32} {p q : ℝ} {s : Dht}
    (hs : s.pulseStartUs = dht2xUsNow hz (cycleCounter p)) (pin : UInt32) :
    (gpioCallback s pin (dht2xUsNow hz (cycleCounter q))).2.lastElapsed.toNat =
      (2 ^ 32 - ⌊p⌋₊ % 2 ^ 32 / cycPerUs hz + ⌊q⌋₊ % 2 ^ 32 / cycPerUs hz) % 2 ^ 32 := by
  rw [gpioCallback_lastElapsed, hs, UInt32.toNat_sub, toNat_dht2xUsNow, toNat_dht2xUsNow,
    toNat_cycleCounter, toNat_cycleCounter]

/-- A pulse shorter than a millisecond is measured to within a microsecond
exactly if the counter runs at the clock's own rate or does not wrap. -/
theorem pulse_width_iff {hz : UInt32} (hc : 1 ≤ cycPerUs hz) {p q : ℝ} (hp : 0 ≤ p)
    (hpq : p ≤ q) (hshort : (q - p) / cycPerUs hz < 1000) {s : Dht}
    (hs : s.pulseStartUs = dht2xUsNow hz (cycleCounter p)) (pin : UInt32) :
    |((gpioCallback s pin (dht2xUsNow hz (cycleCounter q))).2.lastElapsed.toNat : ℝ) -
      (q - p) / cycPerUs hz| ≤ 1 ↔ cycPerUs hz = 1 ∨ SamePeriod p q := by
  have hfloor := Nat.floor_le_floor hpq
  have hQ := floor_le_of_short hc hshort
  have hmax : cycPerUs hz ≤ 4294 := by
    have := hz.toNat_lt
    unfold cycPerUs
    omega
  rw [toNat_lastElapsed hs]
  constructor
  · intro hwidth
    by_contra hnot
    rw [not_or] at hnot
    have hwide := wrapped_width (by omega) hmax hfloor hQ hnot.2
    have hcast := (Nat.cast_le (α := ℝ)).mpr hwide
    have habs := (abs_le.mp hwidth).2
    have hbig : (1001 : ℝ) < (2 ^ 31 : ℕ) := by norm_num
    linarith
  · rintro (hone | hsame)
    · have hexact : (2 ^ 32 - ⌊p⌋₊ % 2 ^ 32 / 1 + ⌊q⌋₊ % 2 ^ 32 / 1) % 2 ^ 32 =
          ⌊q⌋₊ / 1 - ⌊p⌋₊ / 1 := by omega
      have habs := abs_floor_div_sub le_rfl hp hpq
      rw [hone, hexact, Nat.cast_sub (by simpa using hfloor)]
      exact habs
    · have hle : ⌊p⌋₊ % 2 ^ 32 / cycPerUs hz ≤ ⌊q⌋₊ % 2 ^ 32 / cycPerUs hz := by
        apply Nat.div_le_div_right
        unfold SamePeriod at hsame
        omega
      have hlt : ⌊q⌋₊ % 2 ^ 32 / cycPerUs hz < 2 ^ 32 :=
        (Nat.div_le_self _ _).trans_lt (Nat.mod_lt _ (by decide))
      have hexact : (2 ^ 32 - ⌊p⌋₊ % 2 ^ 32 / cycPerUs hz + ⌊q⌋₊ % 2 ^ 32 / cycPerUs hz) % 2 ^ 32 =
          ⌊q⌋₊ % 2 ^ 32 / cycPerUs hz - ⌊p⌋₊ % 2 ^ 32 / cycPerUs hz := by
        generalize ⌊p⌋₊ % 2 ^ 32 / cycPerUs hz = a at hle ⊢
        generalize ⌊q⌋₊ % 2 ^ 32 / cycPerUs hz = b at hle hlt ⊢
        omega
      rw [hexact, Nat.cast_sub hle]
      exact abs_counter_div_sub hc hp hpq hsame

/-- A bit of 100 microseconds at 240 MHz, in the middle of a period. -/
theorem short_pulse_measured :
    |((gpioCallback ⟨dht2xUsNow 240000000 (cycleCounter 1000), 2, 0, 0, ⟨0, 1⟩, true⟩
      (BIT DHT_PIN) (dht2xUsNow 240000000 (cycleCounter 25000))).2.lastElapsed.toNat : ℝ) -
      (25000 - 1000) / cycPerUs 240000000| ≤ 1 := by
  have hc : cycPerUs 240000000 = 240 := rfl
  have hsame : SamePeriod 1000 25000 := by
    unfold SamePeriod
    norm_num
  exact (pulse_width_iff (by decide) (by norm_num) (by norm_num) (by norm_num [hc])
    rfl (BIT DHT_PIN)).mpr (.inr hsame)

/-- The same bit across the wrap of the counter. -/
theorem pulse_lost_in_wrap :
    1 ≤ cycPerUs 240000000 ∧ (4294979296 - 4294955296 : ℝ) / cycPerUs 240000000 = 100 ∧
    ¬ |((gpioCallback ⟨dht2xUsNow 240000000 (cycleCounter 4294955296), 2, 0, 0, ⟨0, 1⟩, true⟩
      (BIT DHT_PIN) (dht2xUsNow 240000000 (cycleCounter 4294979296))).2.lastElapsed.toNat : ℝ) -
      (4294979296 - 4294955296) / cycPerUs 240000000| ≤ 1 := by
  have hc : cycPerUs 240000000 = 240 := rfl
  rw [toNat_lastElapsed rfl, hc, abs_le, not_and_or]
  norm_num

end WlabStation.Sensor
