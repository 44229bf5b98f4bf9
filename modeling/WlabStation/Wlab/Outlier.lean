import WlabStation.Machine.Run
import WlabStation.Wlab.Process

/-! The outlier filter of `wlab_buffer_commit` compared with the filter over the
integers: comparing with an unsigned threshold refuses more than outliers. -/
namespace WlabStation.Wlab

/-- Any sequence of commits, each with its own threshold. -/
def committer (period : ℕ) : Machine WlabBuffer (Sample × ℕ) Bool where
  step b a :=
    match wlabBufferCommit period b a.1.val a.1.ts a.2 with
    | .ok r => some ([r.1], r.2)
    | .error _ => none

/-- More than `threshold` outside the values so far, once five are in. -/
def IsOutlier (b : WlabBuffer) (val : ℤ) (threshold : ℕ) : Prop :=
  4 < b.cnt ∧ (b.max + threshold < val ∨ val < b.min - threshold)

instance isOutlier.decidable (b : WlabBuffer) (val : ℤ) (threshold : ℕ) :
    Decidable (IsOutlier b val threshold) := by
  unfold IsOutlier
  infer_instance

/-- What a commit is meant to do. -/
def FilteredExactly (period : ℕ) (b : WlabBuffer) (val : ℤ) (ts threshold : ℕ) : Prop :=
  wlabBufferCommit period b val ts threshold =
    .ok (false, if IsOutlier b val threshold then b else b.push period val ts)

/-- A shifted value and the extremum it is compared with differ in sign. -/
def SignsCross (b : WlabBuffer) (val : ℤ) (threshold : ℕ) : Prop :=
  (val < threshold ∧ 0 ≤ b.max) ∨ (-threshold ≤ val ∧ b.min < 0)

instance signsCross.decidable (b : WlabBuffer) (val : ℤ) (threshold : ℕ) :
    Decidable (SignsCross b val threshold) := by
  unfold SignsCross
  infer_instance

instance inInt16.decidable (v : ℤ) : Decidable (InInt16 v) := by
  unfold InInt16
  infer_instance

/-- The extrema of readings. -/
structure Spans (b : WlabBuffer) : Prop where
  min : InInt16 b.min
  max : InInt16 b.max
  le : b.min ≤ b.max

theorem spans_summary (period : ℕ) {w : List Sample} (hw : ∀ x ∈ w, InInt16 x.val)
    (hne : w ≠ []) : Spans (summary period w) := by
  obtain ⟨a, m, x, -, hm, hx⟩ := exists_extrema hne
  have hmem := List.argmin_mem hm
  constructor
  case min => simpa [summary, hm] using hw m hmem
  case max => simpa [summary, hx] using hw x (List.argmax_mem hx)
  case le => simpa [summary, hm, hx] using List.le_of_mem_argmax hmem hx

/-- Unsigned comparisons order the two signs the wrong way round. -/
theorem exceeds_iff {b : WlabBuffer} (hb : Spans b) {val : ℤ} (hv : InInt16 val) {threshold : ℕ}
    (hT : threshold ≤ 32768) :
    (b.exceedsMax val threshold ∨ b.exceedsMin val threshold) ↔
      (b.max + threshold < val ∨ val < b.min - threshold) ∨ SignsCross b val threshold := by
  obtain ⟨⟨hmin1, hmin2⟩, ⟨hmax1, hmax2⟩, hle⟩ := hb
  obtain ⟨hv1, hv2⟩ := hv
  unfold WlabBuffer.exceedsMax WlabBuffer.exceedsMin SignsCross INT32_MIN INT32_MAX u32
  omega

theorem rejects_iff {b : WlabBuffer} (hb : Spans b) {val : ℤ} (hv : InInt16 val) {threshold : ℕ}
    (hT : threshold ≤ 32768) :
    b.rejects val threshold ↔
      IsOutlier b val threshold ∨ (4 < b.cnt ∧ SignsCross b val threshold) := by
  rw [WlabBuffer.rejects, exceeds_iff hb hv hT, IsOutlier, and_or_left]

/-- An accepted value is counted. -/
theorem push_ne (period : ℕ) (b : WlabBuffer) (val : ℤ) (ts : ℕ) : b.push period val ts ≠ b := by
  intro h
  have hcnt := congrArg WlabBuffer.cnt h
  rw [WlabBuffer.push_eq] at hcnt
  simp only [i32, Int.bmod_def] at hcnt
  split_ifs at hcnt <;> omega

/-- A buffer that commits have led to: a summary of accepted readings. -/
structure Committed (period : ℕ) (b : WlabBuffer) (w : List Sample) : Prop where
  int16 : ∀ x ∈ w, InInt16 x.val
  eq : b = summary period w
  grid : w ≠ [] → u32 (60 * period) ≠ 0

theorem Committed.unmarked {period : ℕ} {b : WlabBuffer} {w : List Sample}
    (h : Committed period b w) : b.sampleTsVal = INT32_MAX ↔ w = [] := by
  rw [h.eq]
  exact summary_unmarked h.int16

/-- What a commit makes of a buffer, when it does not fault. -/
theorem Committed.step {period : ℕ} {b c : WlabBuffer} {w : List Sample}
    (h : Committed period b w) {a : Sample × ℕ} (ha : InInt16 a.1.val) {es : List Bool}
    (hs : (committer period).step b a = some (es, c)) : ∃ v, Committed period c v := by
  have hmarked := h.unmarked
  obtain ⟨hw, rfl, hgrid⟩ := h
  simp only [committer, wlabBufferCommit_eq, summary_commit period hw ha] at hs
  by_cases hfault : u32 (60 * period) = 0 ∧ ¬ (summary period w).rejects a.1.val a.2 ∧
      (summary period w).sampleTsVal = INT32_MAX
  · rw [if_pos hfault] at hs
    cases hs
  rw [if_neg hfault] at hs
  by_cases hrej : (summary period w).rejects a.1.val a.2
  · rw [if_pos hrej] at hs
    cases hs
    exact ⟨w, hw, rfl, hgrid⟩
  · rw [if_neg hrej] at hs
    cases hs
    refine ⟨w ++ [a.1], ?_, rfl, ?_⟩
    · intro x hx
      rcases List.mem_append.mp hx with hx | hx
      · exact hw x hx
      · rw [List.mem_singleton.mp hx]
        exact ha
    · intro _ h0
      rcases eq_or_ne w [] with rfl | hne
      · exact hfault ⟨h0, hrej, hmarked.mpr rfl⟩
      · exact hgrid hne h0

theorem committed_run {period : ℕ} {as : List (Sample × ℕ)} {h : List Bool} {b : WlabBuffer}
    (hr : (committer period).Runs wlabBufferInit as h b) (has : ∀ a ∈ as, InInt16 a.1.val) :
    ∃ w, Committed period b w := by
  apply Machine.Runs.invariant_of_eachStep (C := fun _ a => InInt16 a.1.val)
    (I := fun _ b => ∃ w, Committed period b w) _ _ (Machine.eachStep_of_mem _ has) hr
  · exact ⟨[], by simp, rfl, fun h => absurd rfl h⟩
  · rintro _ b a es c ⟨w, hw⟩ ha hs
    exact hw.step ha hs

/-- The first accepted reading divides by the grid. -/
def GridOk (period : ℕ) (b : WlabBuffer) : Prop :=
  u32 (60 * period) ≠ 0 ∨ b.sampleTsVal ≠ INT32_MAX

instance gridOk.decidable (period : ℕ) (b : WlabBuffer) : Decidable (GridOk period b) := by
  unfold GridOk
  infer_instance

theorem threshold_le (serie : Serie) : threshold serie ≤ 32768 := by
  cases serie <;> decide

theorem filteredExactly_empty (period : ℕ) (val : ℤ) (ts threshold : ℕ) :
    FilteredExactly period wlabBufferInit val ts threshold ↔ u32 (60 * period) ≠ 0 := by
  have hcnt : ¬ 4 < wlabBufferInit.cnt := by decide
  have hrej : ¬ wlabBufferInit.rejects val threshold := fun h => hcnt h.1
  have hout : ¬ IsOutlier wlabBufferInit val threshold := fun h => hcnt h.1
  have hmark : wlabBufferInit.sampleTsVal = INT32_MAX := rfl
  rw [FilteredExactly, wlabBufferCommit_eq, if_neg hrej, if_neg hout]
  by_cases h0 : u32 (60 * period) = 0 <;> simp [h0, hrej, hmark]

theorem filteredExactly_marked {period : ℕ} {b : WlabBuffer} (hb : Spans b)
    (hmark : b.sampleTsVal ≠ INT32_MAX) {val : ℤ} (hv : InInt16 val) (ts : ℕ) {threshold : ℕ}
    (hT : threshold ≤ 32768) :
    FilteredExactly period b val ts threshold ↔
      b.cnt ≤ 4 ∨ IsOutlier b val threshold ∨ ¬ SignsCross b val threshold := by
  have hrej := rejects_iff hb hv hT
  have hne := push_ne period b val ts
  rw [FilteredExactly, wlabBufferCommit_eq, if_neg (fun h => hmark h.2.2)]
  by_cases hout : IsOutlier b val threshold
  · rw [if_pos (hrej.mpr (.inl hout)), if_pos hout]
    exact iff_of_true rfl (.inr (.inl hout))
  by_cases hcross : 4 < b.cnt ∧ SignsCross b val threshold
  · rw [if_pos (hrej.mpr (.inr hcross)), if_neg hout]
    apply iff_of_false
    · intro h
      exact hne (congrArg Prod.snd (Except.ok.inj h)).symm
    · rintro (h | h | h)
      · exact absurd hcross.1 (not_lt.mpr h)
      · exact hout h
      · exact h hcross.2
  · have hkeep : ¬ b.rejects val threshold := by
      rw [hrej, not_or]
      exact ⟨hout, hcross⟩
    rw [if_neg hkeep, if_neg hout]
    apply iff_of_true rfl
    by_cases hcnt : 4 < b.cnt
    · exact .inr (.inr fun h => hcross ⟨hcnt, h⟩)
    · exact .inl (not_lt.mp hcnt)

/-- A commit filters exactly unless it marks the window on a zero grid or, with
five readings in, its value is no outlier but the signs cross. -/
theorem filtered_exactly_iff {period : ℕ} {as : List (Sample × ℕ)} {h : List Bool}
    {b : WlabBuffer} (hr : (committer period).Runs wlabBufferInit as h b)
    (has : ∀ a ∈ as, InInt16 a.1.val) {x : Sample} (hx : InInt16 x.val) (serie : Serie) :
    FilteredExactly period b x.val x.ts (threshold serie) ↔
      GridOk period b ∧ (b.cnt ≤ 4 ∨ IsOutlier b x.val (threshold serie) ∨
        ¬ SignsCross b x.val (threshold serie)) := by
  obtain ⟨w, hw⟩ := committed_run hr has
  have hmarked := hw.unmarked
  by_cases hempty : w = []
  · have hinit : b = wlabBufferInit := by rw [hw.eq, hempty, summary_nil]
    have hcnt : wlabBufferInit.cnt ≤ 4 := by decide
    have hmark : wlabBufferInit.sampleTsVal = INT32_MAX := rfl
    rw [hinit, filteredExactly_empty, GridOk]
    simp [hcnt, hmark]
  · have hspan : Spans b := by
      rw [hw.eq]
      exact spans_summary period hw.int16 hempty
    have hmark : b.sampleTsVal ≠ INT32_MAX := mt hmarked.mp hempty
    rw [filteredExactly_marked hspan hmark hx x.ts (threshold_le serie)]
    exact (and_iff_right (.inr hmark)).symm

/-- Five equal readings. -/
def fiveOf (val : ℤ) : List (Sample × ℕ) :=
  List.replicate 5 (⟨1700000000, val⟩, threshold .temperature)

def bufferOf (val : ℤ) : WlabBuffer := summary 10 (List.replicate 5 ⟨1700000000, val⟩)

/-- `20.4` degrees after `20.0`. -/
theorem warm_reading_filtered_exactly :
    FilteredExactly 10 (bufferOf 200) 204 1700000004 (threshold .temperature) := by
  have hr : (committer 10).Runs wlabBufferInit (fiveOf 200) (List.replicate 5 false)
      (bufferOf 200) := by decide
  have hx : InInt16 (⟨1700000004, 204⟩ : Sample).val := by decide
  exact (filtered_exactly_iff hr (by decide) hx .temperature).mpr (by decide)

/-- `0.4` degrees after `0.3` is refused. -/
theorem reading_near_zero_refused :
    (committer 10).Runs wlabBufferInit (fiveOf 3) (List.replicate 5 false) (bufferOf 3) ∧
    ¬ IsOutlier (bufferOf 3) 4 (threshold .temperature) ∧
    wlabBufferCommit 10 (bufferOf 3) 4 1700000004 (threshold .temperature) =
      .ok (false, bufferOf 3) ∧
    ¬ FilteredExactly 10 (bufferOf 3) 4 1700000004 (threshold .temperature) := by
  have hcommit : wlabBufferCommit 10 (bufferOf 3) 4 1700000004 (threshold .temperature) =
      .ok (false, bufferOf 3) := by rfl
  have hout : ¬ IsOutlier (bufferOf 3) 4 (threshold .temperature) := by decide
  refine ⟨by decide, hout, hcommit, ?_⟩
  rw [FilteredExactly, hcommit, if_neg hout]
  intro h
  exact push_ne 10 _ _ _ (congrArg Prod.snd (Except.ok.inj h)).symm

end WlabStation.Wlab
