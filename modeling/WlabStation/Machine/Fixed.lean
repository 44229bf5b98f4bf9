import Mathlib.Tactic.Linarith

/-! Fixed-width C arithmetic over mathematical integers: the conversions wrap,
as the target does, and a division by zero is a fault that ends the run. -/
namespace WlabStation

/-- Conversion to `uint32_t`. -/
def u32 (x : ℤ) : ℕ := (x % 4294967296).toNat

/-- Conversion to `int32_t`, two's complement. -/
def i32 (x : ℤ) : ℤ := x.bmod 4294967296

def INT32_MIN : ℤ := -2147483648
def INT32_MAX : ℤ := 2147483647

inductive Fault where
  | divByZero
  | remByZero
  deriving DecidableEq, Repr

/-- `/` on `int32_t` truncates toward zero. -/
def div32 (a b : ℤ) : Except Fault ℤ :=
  if b = 0 then .error .divByZero else .ok (a.tdiv b)

/-- `%` on `uint32_t`. -/
def rem32 (a b : ℕ) : Except Fault ℕ :=
  if b = 0 then .error .remByZero else .ok (a % b)

/-- The greatest multiple of `n` that is at most `ts`. -/
def floorTo (n ts : ℕ) : ℕ := ts - ts % n

theorem u32_of_range {x : ℤ} (h0 : 0 ≤ x) (h1 : x < 4294967296) : (u32 x : ℤ) = x := by
  unfold u32; omega

theorem i32_of_range {x : ℤ} (h0 : -2147483648 ≤ x) (h1 : x < 2147483648) : i32 x = x :=
  Int.bmod_eq_of_le h0 h1

theorem i32_eq_zero_iff {n : ℕ} : i32 n = 0 ↔ 4294967296 ∣ n := by
  unfold i32
  rw [Int.bmod_def]
  split <;> omega

theorem i32_add_i32 (x y : ℤ) : i32 (i32 x + y) = i32 (x + y) := Int.bmod_add_bmod

theorem floorTo_le (n ts : ℕ) : floorTo n ts ≤ ts := Nat.sub_le _ _

theorem floorTo_eq (n ts : ℕ) : floorTo n ts = ts / n * n := by
  have h := Nat.div_add_mod' ts n
  unfold floorTo
  omega

theorem floorTo_mono (n : ℕ) {a b : ℕ} (h : a ≤ b) : floorTo n a ≤ floorTo n b := by
  rw [floorTo_eq, floorTo_eq]
  exact Nat.mul_le_mul_right n (Nat.div_le_div_right h)

/-- A coarser grid rounds further down. -/
theorem floorTo_mul_le (n k ts : ℕ) : floorTo (n * k) ts ≤ floorTo n ts := by
  rw [floorTo_eq, floorTo_eq, ← Nat.div_div_eq_div_mul, Nat.mul_comm n k, ← Nat.mul_assoc]
  exact Nat.mul_le_mul_right n (Nat.div_mul_le_self _ _)

theorem rem32_eq_ok {a b : ℕ} (h : b ≠ 0) : rem32 a b = .ok (a % b) := if_neg h

end WlabStation
