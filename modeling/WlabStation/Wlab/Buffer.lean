import WlabStation.Machine.Fixed
import Mathlib.Data.List.MinMax

/-! The measurement buffers of `wlab.c` and what they summarize. `commit` is
proved to keep the eight fields equal to a function of the accepted readings. -/
namespace WlabStation.Wlab

/-- `struct wlab_buffer`. Signed fields hold `int32_t` values, times `uint32_t` values. -/
structure WlabBuffer where
  min : ℤ
  max : ℤ
  maxTs : ℕ
  minTs : ℕ
  buff : ℤ
  cnt : ℤ
  sampleTs : ℕ
  sampleTsVal : ℤ
  deriving DecidableEq, Repr

/-- `wlab_buffer_init`. -/
def wlabBufferInit : WlabBuffer where
  min := INT32_MAX
  max := INT32_MIN
  maxTs := 0
  minTs := 0
  buff := 0
  cnt := 0
  sampleTs := 0
  sampleTsVal := INT32_MAX

namespace WlabBuffer

/-- `(val - threshold) > buffer->_max`: the `uint32_t` threshold makes both
sides of the comparison unsigned. -/
def exceedsMax (b : WlabBuffer) (val : ℤ) (threshold : ℕ) : Prop :=
  b.max ≠ INT32_MIN ∧ u32 b.max < u32 (val - threshold)

/-- `(val + threshold) < buffer->_min`, unsigned as well. -/
def exceedsMin (b : WlabBuffer) (val : ℤ) (threshold : ℕ) : Prop :=
  b.min ≠ INT32_MAX ∧ u32 (val + threshold) < u32 b.min

/-- The outlier filter, active once five readings are in. -/
def rejects (b : WlabBuffer) (val : ℤ) (threshold : ℕ) : Prop :=
  4 < b.cnt ∧ (b.exceedsMax val threshold ∨ b.exceedsMin val threshold)

instance (b : WlabBuffer) (val : ℤ) (threshold : ℕ) : Decidable (b.rejects val threshold) := by
  unfold rejects exceedsMax exceedsMin
  infer_instance

/-- The first accepted value marks the window with its time on the publish grid. -/
def mark (b : WlabBuffer) (sampleTs : ℕ) (val : ℤ) : WlabBuffer :=
  { b with sampleTs := sampleTs, sampleTsVal := val }

def raiseMax (b : WlabBuffer) (val : ℤ) (ts : ℕ) : WlabBuffer :=
  if b.max < val then { b with max := val, maxTs := ts - ts % 60 } else b

def lowerMin (b : WlabBuffer) (val : ℤ) (ts : ℕ) : WlabBuffer :=
  if val < b.min then { b with min := val, minTs := ts - ts % 60 } else b

def add (b : WlabBuffer) (val : ℤ) : WlabBuffer :=
  { b with buff := i32 (b.buff + val), cnt := i32 (b.cnt + 1) }

/-- What an accepted value does after the window is marked. -/
def accumulate (b : WlabBuffer) (val : ℤ) (ts : ℕ) : WlabBuffer :=
  ((b.raiseMax val ts).lowerMin val ts).add val

/-- An accepted value on a buffer whose grid `60 * period` is not zero. -/
def push (period : ℕ) (b : WlabBuffer) (val : ℤ) (ts : ℕ) : WlabBuffer :=
  ((if b.sampleTsVal = INT32_MAX then b.mark (ts - ts % u32 (60 * period)) val else b)).accumulate
    val ts

theorem raiseMax_eq (b : WlabBuffer) (val : ℤ) (ts : ℕ) : b.raiseMax val ts =
    { b with max := if b.max < val then val else b.max
             maxTs := if b.max < val then floorTo 60 ts else b.maxTs } := by
  unfold raiseMax
  split_ifs <;> rfl

theorem lowerMin_eq (b : WlabBuffer) (val : ℤ) (ts : ℕ) : b.lowerMin val ts =
    { b with min := if val < b.min then val else b.min
             minTs := if val < b.min then floorTo 60 ts else b.minTs } := by
  unfold lowerMin
  split_ifs <;> rfl

/-- The fields after an accepted value, each from its own old value. -/
theorem push_eq (period : ℕ) (b : WlabBuffer) (val : ℤ) (ts : ℕ) : b.push period val ts =
    { min := if val < b.min then val else b.min
      max := if b.max < val then val else b.max
      maxTs := if b.max < val then floorTo 60 ts else b.maxTs
      minTs := if val < b.min then floorTo 60 ts else b.minTs
      buff := i32 (b.buff + val)
      cnt := i32 (b.cnt + 1)
      sampleTs := if b.sampleTsVal = INT32_MAX then floorTo (u32 (60 * period)) ts else b.sampleTs
      sampleTsVal := if b.sampleTsVal = INT32_MAX then val else b.sampleTsVal } := by
  by_cases hm : b.sampleTsVal = INT32_MAX <;>
    simp only [push, hm, accumulate, raiseMax_eq, lowerMin_eq, add, mark, floorTo, ↓reduceIte]

end WlabBuffer

/-- `wlab_buffer_commit`. The returned flag is never set, whatever the filter decides. -/
def wlabBufferCommit (period : ℕ) (b : WlabBuffer) (val : ℤ) (ts threshold : ℕ) :
    Except Fault (Bool × WlabBuffer) :=
  if b.rejects val threshold then .ok (false, b)
  else if b.sampleTsVal = INT32_MAX then do
    let r ← rem32 ts (u32 (60 * period))
    return (false, (b.mark (ts - r) val).accumulate val ts)
  else .ok (false, b.accumulate val ts)

/-- The grid of a period that is small enough does not wrap. -/
theorem u32_grid {period : ℕ} (hP : 60 * period < 4294967296) :
    u32 (60 * period) = 60 * period := by
  unfold u32
  omega

theorem u32_grid_pos {period : ℕ} (h0 : 0 < period) (hP : 60 * period < 4294967296) :
    u32 (60 * period) ≠ 0 := by
  rw [u32_grid hP]
  omega

/-- It wraps to 0 for the multiples of 2^30. -/
theorem u32_grid_eq_zero_iff (period : ℕ) : u32 (60 * period) = 0 ↔ 1073741824 ∣ period := by
  unfold u32
  omega

/-- A commit faults exactly when it has to mark the window on a zero grid. -/
theorem wlabBufferCommit_eq (period : ℕ) (b : WlabBuffer) (val : ℤ) (ts threshold : ℕ) :
    wlabBufferCommit period b val ts threshold =
      if u32 (60 * period) = 0 ∧ ¬ b.rejects val threshold ∧ b.sampleTsVal = INT32_MAX then
        .error .remByZero
      else .ok (false, if b.rejects val threshold then b else b.push period val ts) := by
  unfold wlabBufferCommit WlabBuffer.push
  by_cases hr : b.rejects val threshold
  · simp [hr]
  · by_cases hm : b.sampleTsVal = INT32_MAX
    · by_cases hG : u32 (60 * period) = 0
      · simp only [hr, hm, hG, rem32, not_false_eq_true, and_self, ↓reduceIte]
        rfl
      · simp only [hr, hm, hG, rem32, false_and, ↓reduceIte]
        rfl
    · simp [hr, hm]

/-- One reading handed to a buffer: the time of the call and the value. -/
structure Sample where
  secs : ℤ
  val : ℤ
  deriving DecidableEq, Repr

/-- The `uint32_t` time the buffer sees. -/
def Sample.ts (x : Sample) : ℕ := u32 x.secs

/-- The computable order of `ℤ`, so that `argmin` and `argmax` can be evaluated. -/
local instance intPreorder : Preorder ℤ := Int.instLinearOrder.toPreorder

/-- The buffer after exactly the readings `w` have been accepted, in this order. -/
def summary (period : ℕ) (w : List Sample) : WlabBuffer where
  min := (w.argmin Sample.val).elim INT32_MAX Sample.val
  max := (w.argmax Sample.val).elim INT32_MIN Sample.val
  maxTs := (w.argmax Sample.val).elim 0 fun x => floorTo 60 x.ts
  minTs := (w.argmin Sample.val).elim 0 fun x => floorTo 60 x.ts
  buff := i32 (w.map Sample.val).sum
  cnt := i32 w.length
  sampleTs := w.head?.elim 0 fun x => floorTo (u32 (60 * period)) x.ts
  sampleTsVal := w.head?.elim INT32_MAX Sample.val

@[simp] theorem summary_nil (period : ℕ) : summary period [] = wlabBufferInit := rfl

/-- A window that is not empty has a first reading, and readings attaining its extrema. -/
theorem exists_extrema {w : List Sample} (hne : w ≠ []) :
    ∃ a m x, w.head? = some a ∧ w.argmin Sample.val = some m ∧ w.argmax Sample.val = some x := by
  obtain ⟨a, ha⟩ := Option.ne_none_iff_exists'.mp (mt List.head?_eq_none_iff.mp hne)
  obtain ⟨m, hm⟩ := Option.ne_none_iff_exists'.mp
    (mt (List.argmin_eq_none (f := Sample.val)).mp hne)
  obtain ⟨x, hx⟩ := Option.ne_none_iff_exists'.mp
    (mt (List.argmax_eq_none (f := Sample.val)).mp hne)
  exact ⟨a, m, x, ha, hm, hx⟩

/-- `int16_t` readings, the only values `wlab_process` commits. -/
def InInt16 (v : ℤ) : Prop := -32768 ≤ v ∧ v ≤ 32767

theorem argmin_concat_elim {γ : Type*} (w : List Sample) {x : Sample} (hx : InInt16 x.val)
    (d : γ) (g : Sample → γ) : ((w ++ [x]).argmin Sample.val).elim d g =
      if x.val < (w.argmin Sample.val).elim INT32_MAX Sample.val then g x
      else (w.argmin Sample.val).elim d g := by
  have hlt : x.val < INT32_MAX := hx.2.trans_lt (by decide)
  rw [List.argmin_concat]
  cases w.argmin Sample.val with
  | none => simp [hlt]
  | some c => by_cases h : x.val < c.val <;> simp [h]

theorem argmax_concat_elim {γ : Type*} (w : List Sample) {x : Sample} (hx : InInt16 x.val)
    (d : γ) (g : Sample → γ) : ((w ++ [x]).argmax Sample.val).elim d g =
      if (w.argmax Sample.val).elim INT32_MIN Sample.val < x.val then g x
      else (w.argmax Sample.val).elim d g := by
  have hlt : INT32_MIN < x.val := lt_of_lt_of_le (by decide) hx.1
  rw [List.argmax_concat]
  cases w.argmax Sample.val with
  | none => simp [hlt]
  | some c => by_cases h : c.val < x.val <;> simp [h]

theorem head_concat_elim {γ : Type*} (w : List Sample) (x : Sample) (d : γ) (g : Sample → γ) :
    (w ++ [x]).head?.elim d g = if w = [] then g x else w.head?.elim d g := by
  cases w <;> simp

/-- The sentinel marks exactly the empty window, since no reading equals it. -/
theorem summary_unmarked {period : ℕ} {w : List Sample} (hw : ∀ x ∈ w, InInt16 x.val) :
    (summary period w).sampleTsVal = INT32_MAX ↔ w = [] := by
  cases w with
  | nil => simp [wlabBufferInit]
  | cons a w =>
    have hne : a.val ≠ INT32_MAX := ((hw a (by simp)).2.trans_lt (by decide)).ne
    simp [summary, hne]

/-- Pushing an accepted reading extends the summarized window. -/
theorem summary_push (period : ℕ) {w : List Sample} (hw : ∀ x ∈ w, InInt16 x.val) {x : Sample}
    (hx : InInt16 x.val) :
    (summary period w).push period x.val x.ts = summary period (w ++ [x]) := by
  have hbuff : i32 (i32 (w.map Sample.val).sum + x.val) = i32 ((w ++ [x]).map Sample.val).sum := by
    simp [i32_add_i32]
  have hcnt : i32 (i32 w.length + 1) = i32 (w ++ [x]).length := by simp [i32_add_i32]
  rw [WlabBuffer.push_eq]
  simp only [summary_unmarked hw]
  simp only [summary, argmin_concat_elim w hx, argmax_concat_elim w hx, head_concat_elim,
    hbuff, hcnt]
  congr

/-- On summaries a commit is the filter's decision and nothing else. -/
theorem summary_commit (period : ℕ) {w : List Sample} (hw : ∀ x ∈ w, InInt16 x.val) {x : Sample}
    (hx : InInt16 x.val) (threshold : ℕ) :
    (if (summary period w).rejects x.val threshold then summary period w
      else (summary period w).push period x.val x.ts) =
      summary period (if (summary period w).rejects x.val threshold then w else w ++ [x]) := by
  rw [summary_push period hw hx]
  split_ifs <;> rfl

end WlabStation.Wlab
