import WlabStation.Wlab.Buffer
import Mathlib.Algebra.Order.BigOperators.Group.List
import Mathlib.Order.Bounds.Basic

/-! What the eight buffer fields say about the accepted readings, without the
sentinels: count, exact sum, extrema with the minute they were first reached,
and the mark of the first reading. -/
namespace WlabStation

/-- The element that `argmin` selects is the first one attaining the minimum. -/
theorem find?_of_argmin {α β : Type*} [LinearOrder β] (f : α → β) {l : List α} {m : α}
    (h : l.argmin f = some m) : l.find? (fun x => f x = f m) = some m := by
  induction l using List.reverseRecOn generalizing m with
  | nil => simp at h
  | append_singleton l a ih =>
    rw [List.argmin_concat] at h
    cases hl : l.argmin f with
    | none =>
      rw [List.argmin_eq_none] at hl
      obtain rfl : a = m := by simpa [hl] using h
      simp [hl]
    | some c =>
      simp only [hl] at h
      split_ifs at h with hac
      · obtain rfl : a = m := Option.some.inj h
        have hnone : l.find? (fun x => f x = f a) = none := by
          rw [List.find?_eq_none]
          intro x hx
          simpa using (hac.trans_le (List.le_of_mem_argmin hx hl)).ne'
        simp [List.find?_append, hnone]
      · obtain rfl : c = m := Option.some.inj h
        rw [List.find?_append, ih hl]
        rfl

theorem find?_of_argmax {α β : Type*} [LinearOrder β] (f : α → β) {l : List α} {m : α}
    (h : l.argmax f = some m) : l.find? (fun x => f x = f m) = some m :=
  find?_of_argmin (β := βᵒᵈ) f h

/-- Truncating division keeps a mean between the bounds of its terms. -/
theorem tdiv_between {a c lo hi : ℤ} (hc : 0 < c) (hlo : lo * c ≤ a) (hhi : a ≤ hi * c) :
    lo ≤ a.tdiv c ∧ a.tdiv c ≤ hi := by
  rcases le_or_gt 0 a with ha | ha
  · rw [Int.tdiv_eq_ediv_of_nonneg ha]
    exact ⟨Int.le_ediv_of_mul_le hc hlo, Int.ediv_le_of_le_mul hc hhi⟩
  · have hneg : a.tdiv c = -(-a / c) := by
      rw [← Int.tdiv_eq_ediv_of_nonneg (by omega), Int.neg_tdiv, neg_neg]
    rw [hneg]
    have h1 : -a / c ≤ -lo := Int.ediv_le_of_le_mul hc (by linarith)
    have h2 : -hi ≤ -a / c := Int.le_ediv_of_mul_le hc (by linarith)
    constructor <;> linarith

theorem sum_between {l : List ℤ} {lo hi : ℤ} (h : ∀ v ∈ l, lo ≤ v ∧ v ≤ hi) :
    lo * l.length ≤ l.sum ∧ l.sum ≤ hi * l.length := by
  have hl := List.card_nsmul_le_sum l lo fun v hv => (h v hv).1
  have hu := List.sum_le_card_nsmul l hi fun v hv => (h v hv).2
  rw [nsmul_eq_mul, mul_comm] at hl hu
  exact ⟨hl, hu⟩

namespace Wlab

theorem sum_int16 {w : List Sample} (hw : ∀ x ∈ w, InInt16 x.val) :
    -32768 * (w.length : ℤ) ≤ (w.map Sample.val).sum ∧
      (w.map Sample.val).sum ≤ 32767 * (w.length : ℤ) := by
  have hsum : -32768 * ((w.map Sample.val).length : ℤ) ≤ (w.map Sample.val).sum ∧
      (w.map Sample.val).sum ≤ 32767 * ((w.map Sample.val).length : ℤ) :=
    sum_between (by simpa [InInt16] using hw)
  rw [List.length_map] at hsum
  exact hsum

/-- The buffer `b` describes exactly the accepted readings `w`. -/
structure Describes (period : ℕ) (w : List Sample) (b : WlabBuffer) : Prop where
  cnt : b.cnt = w.length
  buff : b.buff = (w.map Sample.val).sum
  min : w ≠ [] → IsLeast {v | v ∈ w.map Sample.val} b.min
  max : w ≠ [] → IsGreatest {v | v ∈ w.map Sample.val} b.max
  minTs : w ≠ [] → ∃ x, w.find? (fun x => x.val = b.min) = some x ∧ b.minTs = floorTo 60 x.ts
  maxTs : w ≠ [] → ∃ x, w.find? (fun x => x.val = b.max) = some x ∧ b.maxTs = floorTo 60 x.ts
  sample : ∀ x, w.head? = some x →
    b.sampleTsVal = x.val ∧ b.sampleTs = floorTo (60 * period) x.ts
  empty : w = [] → b = wlabBufferInit

/-- 65535 readings of 16 bits are counted and summed without overflow. -/
theorem summary_describes {period : ℕ} (hP : 60 * period < 4294967296) {w : List Sample}
    (hw : ∀ x ∈ w, InInt16 x.val) (hlen : w.length ≤ 65535) :
    Describes period w (summary period w) := by
  have hsum := sum_int16 hw
  have hcnt : i32 w.length = w.length := i32_of_range (by omega) (by omega)
  have hbuff : i32 (w.map Sample.val).sum = (w.map Sample.val).sum :=
    i32_of_range (by omega) (by omega)
  constructor
  case cnt => simpa only [summary] using hcnt
  case buff => simpa only [summary] using hbuff
  case min =>
    intro hne
    obtain ⟨-, m, -, -, hm, -⟩ := exists_extrema hne
    simp only [summary, hm, Option.elim_some]
    constructor
    · exact List.mem_map_of_mem (List.argmin_mem hm)
    · intro v hv
      obtain ⟨x, hx, rfl⟩ := List.mem_map.mp hv
      exact List.le_of_mem_argmin hx hm
  case max =>
    intro hne
    obtain ⟨-, -, m, -, -, hm⟩ := exists_extrema hne
    simp only [summary, hm, Option.elim_some]
    constructor
    · exact List.mem_map_of_mem (List.argmax_mem hm)
    · intro v hv
      obtain ⟨x, hx, rfl⟩ := List.mem_map.mp hv
      exact List.le_of_mem_argmax hx hm
  case minTs =>
    intro hne
    obtain ⟨-, m, -, -, hm, -⟩ := exists_extrema hne
    exact ⟨m, by simpa [summary, hm] using find?_of_argmin Sample.val hm, by simp [summary, hm]⟩
  case maxTs =>
    intro hne
    obtain ⟨-, -, m, -, -, hm⟩ := exists_extrema hne
    exact ⟨m, by simpa [summary, hm] using find?_of_argmax Sample.val hm, by simp [summary, hm]⟩
  case sample =>
    intro x hx
    simp [summary, hx, u32_grid hP]
  case empty =>
    intro he
    rw [he]
    rfl

end Wlab
end WlabStation
