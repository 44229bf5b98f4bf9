import Mathlib.Tactic.Ring
import Mathlib.Algebra.Order.Ring.Nat

/-! Byte-addressed memory and little-endian integers in it. -/
namespace WlabStation

/-- The value of little-endian bytes. -/
def leNat : List UInt8 → ℕ
  | [] => 0
  | b :: bs => b.toNat + 256 * leNat bs

/-- The `n` low bytes of a value, little-endian. -/
def leBytes : ℕ → ℕ → List UInt8
  | 0, _ => []
  | n + 1, v => UInt8.ofNat (v % 256) :: leBytes n (v / 256)

@[simp] theorem leBytes_length (n v : ℕ) : (leBytes n v).length = n := by
  induction n generalizing v with
  | zero => rfl
  | succ n ih => simp [leBytes, ih]

theorem leNat_leBytes (n v : ℕ) : leNat (leBytes n v) = v % 256 ^ n := by
  induction n generalizing v with
  | zero => simp [leBytes, leNat, Nat.mod_one]
  | succ n ih =>
    have hb : (UInt8.ofNat (v % 256)).toNat = v % 256 := by simp
    rw [leBytes, leNat, hb, ih, pow_succ', Nat.mod_mul]

theorem getElem?_leBytes {n i : ℕ} (hi : i < n) (v : ℕ) :
    (leBytes n v)[i]? = some (UInt8.ofNat (v / 256 ^ i % 256)) := by
  induction n generalizing v i with
  | zero => omega
  | succ n ih =>
    cases i with
    | zero => simp [leBytes]
    | succ i =>
      have hlt : i < n := by omega
      rw [leBytes, List.getElem?_cons_succ, ih hlt, Nat.div_div_eq_div_mul, pow_succ']

@[simp] theorem leNat_replicate_zero (n : ℕ) : leNat (List.replicate n 0) = 0 := by
  induction n with
  | zero => rfl
  | succ n ih => simp [List.replicate_succ, leNat, ih]

abbrev Memory := ℕ → UInt8

namespace Memory

/-- The `n` bytes from `addr` on. -/
def load (m : Memory) (addr n : ℕ) : List UInt8 := (List.range n).map fun i => m (addr + i)

/-- Write the bytes from `addr` on. -/
def store (m : Memory) (addr : ℕ) (bytes : List UInt8) : Memory := fun a =>
  if addr ≤ a then bytes[a - addr]?.getD (m a) else m a

@[simp] theorem load_length (m : Memory) (addr n : ℕ) : (m.load addr n).length = n := by
  simp [load]

theorem store_inside (m : Memory) (addr : ℕ) (bytes : List UInt8) {i : ℕ} (hi : i < bytes.length) :
    m.store addr bytes (addr + i) = bytes[i] := by
  simp [store, hi]

theorem store_outside (m : Memory) {addr a : ℕ} {bytes : List UInt8}
    (h : a < addr ∨ addr + bytes.length ≤ a) : m.store addr bytes a = m a := by
  unfold store
  split_ifs with ha
  · rw [List.getElem?_eq_none (by omega), Option.getD_none]
  · rfl

theorem load_store_outside (m : Memory) {addr a n : ℕ} {bytes : List UInt8}
    (h : a + n ≤ addr ∨ addr + bytes.length ≤ a) :
    (m.store addr bytes).load a n = m.load a n := by
  apply List.map_congr_left
  intro i hi
  rw [List.mem_range] at hi
  apply store_outside
  omega

theorem load_append (m : Memory) (addr k n : ℕ) :
    m.load addr (k + n) = m.load addr k ++ m.load (addr + k) n := by
  simp [load, List.range_add, Nat.add_assoc]

theorem getElem?_load (m : Memory) (addr : ℕ) {i n : ℕ} (hi : i < n) :
    (m.load addr n)[i]? = some (m (addr + i)) := by
  simp [load, hi]

theorem load_store (m : Memory) (addr : ℕ) (bytes : List UInt8) {n : ℕ} (hn : n ≤ bytes.length) :
    (m.store addr bytes).load addr n = bytes.take n := by
  apply List.ext_getElem
  · simpa using hn
  · intro i h1 h2
    rw [load_length] at h1
    simp only [load, List.getElem_map, List.getElem_range, List.getElem_take]
    exact store_inside m addr bytes (by omega)

theorem load_store_all (m : Memory) (addr : ℕ) {bytes : List UInt8} {n : ℕ}
    (hn : bytes.length = n) : (m.store addr bytes).load addr n = bytes := by
  rw [load_store m addr bytes hn.ge, List.take_of_length_le hn.le]

/-- An object filled in member after member. -/
theorem load_store_next {m : Memory} {addr k n : ℕ} {front back : List UInt8}
    (hfront : m.load addr k = front) (hn : back.length = n) :
    (m.store (addr + k) back).load addr (k + n) = front ++ back := by
  rw [load_append, load_store_outside m (.inl le_rfl), hfront, load_store_all m _ hn]

theorem load_take (m : Memory) (addr : ℕ) {k n : ℕ} (hk : k ≤ n) :
    (m.load addr n).take k = m.load addr k := by
  simp [load, ← List.map_take, List.take_range, hk]

/-- A `uint32_t` object. -/
def loadU32 (m : Memory) (addr : ℕ) : ℕ := leNat (m.load addr 4)

def storeU32 (m : Memory) (addr v : ℕ) : Memory := m.store addr (leBytes 4 v)

theorem loadU32_storeU32 (m : Memory) (addr v : ℕ) :
    (m.storeU32 addr v).loadU32 addr = v % 4294967296 := by
  rw [loadU32, storeU32, load_store _ _ _ (by simp), List.take_of_length_le (by simp),
    leNat_leBytes]
  norm_num

end Memory
end WlabStation
