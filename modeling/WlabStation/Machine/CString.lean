import Mathlib.Data.List.TakeWhile
import Mathlib.Tactic.Ring

/-! Byte strings and the zero-terminated strings of C in arrays of bytes. -/
namespace WlabStation

/-- The bytes of 7-bit characters. -/
def asciiBytes (cs : List Char) : List UInt8 := cs.map fun c => UInt8.ofNat c.toNat

/-- The bytes of a literal. -/
def textBytes (s : String) : List UInt8 := asciiBytes s.toList

/-- `strncpy(dst, s, n)`: what the `n` bytes of `dst` hold afterwards. -/
def strncpy (s : List UInt8) (n : ℕ) : List UInt8 :=
  s.take n ++ List.replicate (n - s.length) 0

/-- The string that an array starts with, when its terminator lies in the array. -/
def cString (bytes : List UInt8) : Option (List UInt8) :=
  if 0 ∈ bytes then some (bytes.takeWhile fun b => b ≠ 0) else none

@[simp] theorem asciiBytes_append (cs ds : List Char) :
    asciiBytes (cs ++ ds) = asciiBytes cs ++ asciiBytes ds := List.map_append

/-- Characters that are one byte each, none of them a terminator. -/
def Ascii (cs : List Char) : Prop := ∀ c ∈ cs, 0 < c.toNat ∧ c.toNat < 128

instance (cs : List Char) : Decidable (Ascii cs) :=
  List.decidableBAll (fun c : Char => 0 < c.toNat ∧ c.toNat < 128) cs

@[simp] theorem ascii_nil : Ascii [] := by simp [Ascii]

@[simp] theorem ascii_cons (c : Char) (cs : List Char) :
    Ascii (c :: cs) ↔ (0 < c.toNat ∧ c.toNat < 128) ∧ Ascii cs := List.forall_mem_cons

@[simp] theorem ascii_append (cs ds : List Char) : Ascii (cs ++ ds) ↔ Ascii cs ∧ Ascii ds :=
  List.forall_mem_append

theorem Ascii.zero_notMem {cs : List Char} (h : Ascii cs) : 0 ∉ asciiBytes cs := by
  intro hmem
  obtain ⟨c, hc, hzero⟩ := List.mem_map.mp hmem
  have hnat := congrArg UInt8.toNat hzero
  have hrange := h c hc
  rw [UInt8.toNat_ofNat'] at hnat
  simp only [UInt8.toNat_zero] at hnat
  omega

theorem ne_zero_of_notMem {s : List UInt8} (hs : 0 ∉ s) : ∀ b ∈ s, decide (b ≠ 0) = true := by
  intro b hb
  exact decide_eq_true fun h => hs (h ▸ hb)

/-- A string in front of another array. -/
theorem cString_append {s : List UInt8} (hs : 0 ∉ s) (t : List UInt8) :
    cString (s ++ t) = (cString t).map (s ++ ·) := by
  unfold cString
  by_cases ht : 0 ∈ t
  · rw [if_pos (List.mem_append_right s ht), if_pos ht,
      List.takeWhile_append_of_pos (ne_zero_of_notMem hs)]
    rfl
  · have hnone : 0 ∉ s ++ t := fun h => (List.mem_append.mp h).elim hs ht
    rw [if_neg hnone, if_neg ht]
    rfl

/-- An array in which a terminator follows a string. -/
theorem cString_terminated {s : List UInt8} (hs : 0 ∉ s) (t : List UInt8) :
    cString (s ++ 0 :: t) = some s := by
  have hempty : cString (0 :: t) = some [] := by
    rw [cString, if_pos List.mem_cons_self, List.takeWhile_cons_of_neg (by simp)]
  rw [cString_append hs, hempty, Option.map_some, List.append_nil]

@[simp] theorem strncpy_length (s : List UInt8) (n : ℕ) : (strncpy s n).length = n := by
  simp only [strncpy, List.length_append, List.length_take, List.length_replicate]
  omega

/-- The terminator of a shorter string and the rest of its copy. -/
theorem strncpy_of_lt {s : List UInt8} {n : ℕ} (h : s.length < n) :
    strncpy s n = s ++ 0 :: List.replicate (n - s.length - 1) 0 := by
  obtain ⟨k, hk⟩ : ∃ k, n - s.length = k + 1 := ⟨n - s.length - 1, by omega⟩
  rw [strncpy, List.take_of_length_le h.le, hk, List.replicate_succ, Nat.add_sub_cancel]

theorem strncpy_of_le {s : List UInt8} {n : ℕ} (h : n ≤ s.length) : strncpy s n = s.take n := by
  rw [strncpy, Nat.sub_eq_zero_of_le h, List.replicate_zero, List.append_nil]

/-- A copy of `n` bytes is terminated exactly when the string is shorter. -/
theorem cString_strncpy {s : List UInt8} (hs : 0 ∉ s) (n : ℕ) :
    cString (strncpy s n) = if s.length < n then some s else none := by
  split_ifs with hlen
  · rw [strncpy_of_lt hlen, cString_terminated hs]
  · rw [strncpy_of_le (not_lt.mp hlen), cString, if_neg]
    exact fun h => hs (List.mem_of_mem_take h)

/-- A copy without a terminator continues in the array behind it. -/
theorem cString_strncpy_append {s : List UInt8} (hs : 0 ∉ s) (n : ℕ) (t : List UInt8) :
    cString (strncpy s n ++ t) =
      if s.length < n then some s else (cString t).map (s.take n ++ ·) := by
  split_ifs with hlen
  · rw [strncpy_of_lt hlen, List.append_assoc, List.cons_append, cString_terminated hs]
  · rw [strncpy_of_le (not_lt.mp hlen)]
    exact cString_append (fun h => hs (List.mem_of_mem_take h)) t

/-- The string that a copy of `n` bytes holds. -/
theorem takeWhile_strncpy {s : List UInt8} (hs : 0 ∉ s) (n : ℕ) :
    ((strncpy s n).takeWhile fun b => b ≠ 0) = s.take n := by
  have htake : 0 ∉ s.take n := fun h => hs (List.mem_of_mem_take h)
  have hzeros : ((List.replicate (n - s.length) (0 : UInt8)).takeWhile fun b => b ≠ 0) = [] := by
    rw [List.takeWhile_replicate, if_neg (by decide)]
  rw [strncpy, List.takeWhile_append_of_pos (ne_zero_of_notMem htake), hzeros, List.append_nil]

/-- A shorter copy of a copy is one of the string. -/
theorem strncpy_take (s : List UInt8) {k n : ℕ} (h : n ≤ k) :
    strncpy (s.take k) n = strncpy s n := by
  have hpad : n - (s.take k).length = n - s.length := by
    rw [List.length_take]
    omega
  rw [strncpy, strncpy, List.take_take, min_eq_left h, hpad]

end WlabStation
