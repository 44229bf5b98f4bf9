import WlabStation.Wlab.Clock

/-! The windows of a history, and the invariant that the two buffers summarize
them. All eight fields, the gate and the resets are covered for every run. -/
namespace WlabStation.Wlab

/-- The readings a series has accepted since its last `wlab_buffer_init`. -/
def windowStep (serie : Serie) (w : List Sample) : WlabEvent → List Sample
  | .commit s x accepted => if s = serie ∧ accepted then w ++ [x] else w
  | .bufferInit s => if s = serie then [] else w
  | _ => w

def window (serie : Serie) (h : List WlabEvent) : List Sample := h.foldl (windowStep serie) []

theorem window_append (serie : Serie) (h k : List WlabEvent) :
    window serie (h ++ k) = k.foldl (windowStep serie) (window serie h) := List.foldl_append

/-- A window after a reading was offered to its buffer. -/
def offer (serie : Serie) (b : WlabBuffer) (w : List Sample) (x : Sample) : List Sample :=
  if b.rejects x.val (threshold serie) then w else w ++ [x]

theorem windowStep_sensorRead (serie : Serie) (w : List Sample) (secs : ℤ) (r : Option Reading) :
    windowStep serie w (.sensorRead secs r) = w := rfl

theorem windowStep_commitEvent (serie serie' : Serie) (w : List Sample) (b : WlabBuffer)
    (x : Sample) : windowStep serie w (commitEvent serie' b x) =
      if serie' = serie then offer serie' b w x else w := by
  by_cases hs : serie' = serie <;> by_cases hb : b.rejects x.val (threshold serie') <;>
    simp [commitEvent, windowStep, offer, hs, hb]

/-- The buffer that holds the readings of a series. -/
def WlabState.buffer (s : WlabState) : Serie → WlabBuffer
  | .temperature => s.temp
  | .humidity => s.rh

/-- The value a series takes from a reading. -/
def Reading.value (r : Reading) : Serie → ℤ
  | .temperature => r.temp.toInt
  | .humidity => r.rh.toInt

theorem Reading.inInt16 (r : Reading) (serie : Serie) : InInt16 (r.value serie) := by
  cases serie with
  | temperature =>
    have h1 := Int16.le_toInt r.temp
    have h2 := Int16.toInt_lt r.temp
    simp only [Reading.value, InInt16]
    omega
  | humidity =>
    have h1 := Int16.le_toInt r.rh
    have h2 := Int16.toInt_lt r.rh
    simp only [Reading.value, InInt16]
    omega

/-- The successful sensor reads. -/
def successes (h : List WlabEvent) : List (ℤ × Reading) :=
  h.filterMap fun
    | .sensorRead secs (some r) => some (secs, r)
    | _ => none

@[simp] theorem successes_append (h k : List WlabEvent) :
    successes (h ++ k) = successes h ++ successes k := List.filterMap_append

/-- Times of the successful sensor reads. -/
def successSecs (h : List WlabEvent) : List ℤ := (successes h).map Prod.fst

@[simp] theorem successSecs_append (h k : List WlabEvent) :
    successSecs (h ++ k) = successSecs h ++ successSecs k := by simp [successSecs]

/-- What was handed to `mqtt_worker_publish_qos1`, whatever it returned. -/
def published (h : List WlabEvent) : List SampleArgs :=
  h.filterMap fun
    | .publish _ args _ => some args
    | _ => none

@[simp] theorem published_append (h k : List WlabEvent) :
    published (h ++ k) = published h ++ published k := List.filterMap_append

/-- What a call that does not fault does to the windows of both series. -/
inductive WindowCase (period : ℕ) (h : List WlabEvent) (s : WlabState) (c : Call)
    (es : List WlabEvent) (t : WlabState) : Prop where
  | kept : (∀ serie, window serie (h ++ es) = window serie h) →
      (∀ serie, t.buffer serie = s.buffer serie) → s.lastSecs ≤ t.lastSecs →
      t.lastMinutes = s.lastMinutes → published es = [] → WindowCase period h s c es t
  | reset : Reads s c → Due period s c → (∀ serie, (s.buffer serie).cnt ≠ 0) →
      (∀ serie, window serie (h ++ es) = []) → (∀ serie, t.buffer serie = wlabBufferInit) →
      t.lastSecs = c.secs → t.lastMinutes = tmMin c.secs →
      published es = [sampleArgs s.temp s.rh] → WindowCase period h s c es t
  | offered (r : Reading) : Reads s c → ¬ Due period s c →
      (∀ serie, window serie (h ++ es) =
        offer serie (s.buffer serie) (window serie h) ⟨c.secs, r.value serie⟩) →
      (∀ serie, t.buffer serie =
        committed period serie (s.buffer serie) ⟨c.secs, r.value serie⟩) →
      t.lastSecs = c.secs → t.lastMinutes = s.lastMinutes → published es = [] →
      WindowCase period h s c es t

theorem ProcessCase.window {period : ℕ} {s t : WlabState} {c : Call} {es : List WlabEvent}
    (hc : ProcessCase period s c es (.ok t)) (h : List WlabEvent) :
    WindowCase period h s c es t := by
  generalize hy : Except.ok t = y at hc
  cases hc with
  | skipped hg =>
    cases hy
    exact .kept (fun _ => by rw [List.append_nil]) (fun _ => rfl) le_rfl rfl rfl
  | failed hg hs =>
    cases hy
    have hlt := hg.lt
    exact .kept (fun _ => by simp [window_append, windowStep]) (fun serie => by cases serie <;> rfl)
      (by simp only; omega) rfl rfl
  | zeroPeriod r hg hs hP => cases hy
  | empty r hg hs hd h0 => cases hy
  | published r hg hs hd ht hh =>
    cases hy
    refine .reset hg hd (fun serie => ?_) (fun serie => ?_) (fun serie => ?_) rfl rfl rfl
    · cases serie <;> assumption
    · cases serie <;> simp [window_append, windowStep]
    · cases serie <;> rfl
  | zeroGrid r es hg hs hd hG he => cases hy
  | committed r x y hg hs hd hx hy' =>
    cases hy
    subst hx hy'
    refine .offered r hg hd (fun serie => ?_) (fun serie => by cases serie <;> rfl) rfl rfl rfl
    cases serie <;> simp [window_append, windowStep_sensorRead, windowStep_commitEvent,
      WlabState.buffer, Reading.value]

theorem ProcessCase.published_of_error {period : ℕ} {s : WlabState} {c : Call}
    {es : List WlabEvent} {e : Fault} (hc : ProcessCase period s c es (.error e)) :
    Wlab.published es = [] := by
  generalize hy : Except.error e = y at hc
  cases hc with
  | skipped hg => rfl
  | failed hg hs => rfl
  | zeroPeriod r hg hs hz => rfl
  | empty r hg hs hd hz => rfl
  | published r hg hs hd ht hh => cases hy
  | zeroGrid r es hg hs hd hG he => rcases he with rfl | rfl <;> rfl
  | committed r t h hg hs hd ht hh => rfl

/-- Successive readings of a window are read calls, at least four seconds apart. -/
def Spaced (w : List Sample) : Prop := w.Pairwise fun x y => x.secs + 4 ≤ y.secs

theorem Spaced.length_le {w : List Sample} (hw : Spaced w) {T : ℤ} (hT : 0 ≤ T)
    (hr : ∀ x ∈ w, 4 ≤ x.secs ∧ x.secs ≤ T) : 4 * (w.length : ℤ) ≤ T := by
  induction w using List.reverseRecOn generalizing T with
  | nil => simpa using hT
  | append_singleton w x ih =>
    obtain ⟨hw', -, hx⟩ := List.pairwise_append.mp hw
    obtain ⟨h1, h2⟩ := hr x (by simp)
    have := ih hw' (T := x.secs - 4) (by omega) fun y hy =>
      ⟨(hr y (by simp [hy])).1, by have := hx y hy x (by simp); omega⟩
    rw [List.length_append, List.length_singleton]
    omega

theorem Spaced.head_le {w : List Sample} (hw : Spaced w) {a x : Sample}
    (ha : w.head? = some a) (hx : x ∈ w) : a.secs ≤ x.secs := by
  cases w with
  | nil => cases hx
  | cons b w =>
    obtain rfl : b = a := Option.some.inj ha
    rcases List.mem_cons.mp hx with rfl | hx
    · exact le_rfl
    · have := (List.pairwise_cons.mp hw).1 x hx
      omega

theorem Spaced.le_last {w : List Sample} (hw : Spaced w) {b x : Sample}
    (hb : w.getLast? = some b) (hx : x ∈ w) : x.secs ≤ b.secs := by
  induction w using List.reverseRecOn with
  | nil => cases hx
  | append_singleton w c _ =>
    obtain rfl : c = b := by simpa using hb
    rcases List.mem_append.mp hx with hx | hx
    · have := (List.pairwise_append.mp hw).2.2 x hx c (by simp)
      omega
    · rw [List.mem_singleton.mp hx]

/-- The invariant of `wlab.c`: each buffer is the summary of its window. -/
structure WindowInv (period : ℕ) (h : List WlabEvent) (s : WlabState) : Prop where
  buffer : ∀ serie, s.buffer serie = summary period (window serie h)
  int16 : ∀ serie, ∀ x ∈ window serie h, InInt16 x.val
  spaced : ∀ serie, Spaced (window serie h)
  range : ∀ serie, ∀ x ∈ window serie h, 4 ≤ x.secs ∧ x.secs ≤ s.lastSecs
  heads : ∀ serie, (window serie h).head?.map Sample.secs =
    (window .temperature h).head?.map Sample.secs
  lastSecs : 0 ≤ s.lastSecs

theorem windowInv_init (period : ℕ) : WindowInv period [] wlabInit where
  buffer serie := by cases serie <;> rfl
  int16 _ _ hx := by cases hx
  spaced _ := List.Pairwise.nil
  range _ _ hx := by cases hx
  heads _ := rfl
  lastSecs := le_rfl

/-- An empty buffer rejects nothing, so both windows start with the same reading. -/
theorem offer_head (period : ℕ) (serie : Serie) (w : List Sample) (x : Sample) :
    (offer serie (summary period w) w x).head?.map Sample.secs =
      some ((w.head?.map Sample.secs).getD x.secs) := by
  unfold offer
  cases w with
  | nil =>
    have hrej : ¬ (summary period []).rejects x.val (threshold serie) := by
      simp [WlabBuffer.rejects, wlabBufferInit]
    rw [if_neg hrej]
    rfl
  | cons a w => split_ifs <;> rfl

theorem mem_offer {serie : Serie} {b : WlabBuffer} {w : List Sample} {x y : Sample}
    (hy : y ∈ offer serie b w x) : y ∈ w ∨ y = x := by
  unfold offer at hy
  split_ifs at hy
  · exact .inl hy
  · simpa using hy

theorem Spaced.offer {serie : Serie} {b : WlabBuffer} {w : List Sample} {x : Sample}
    (hw : Spaced w) (hx : ∀ y ∈ w, y.secs + 4 ≤ x.secs) : Spaced (offer serie b w x) := by
  unfold Wlab.offer
  split_ifs
  · exact hw
  · refine List.pairwise_append.mpr ⟨hw, List.pairwise_singleton _ _, ?_⟩
    intro y hy z hz
    rw [List.mem_singleton.mp hz]
    exact hx y hy

theorem WindowInv.step {period : ℕ} {h : List WlabEvent} {s t : WlabState} {c : Call}
    {es : List WlabEvent} (hi : WindowInv period h s) (hc : WindowCase period h s c es t) :
    WindowInv period (h ++ es) t := by
  have h0 := hi.lastSecs
  cases hc with
  | kept hw hb hl hm hp =>
    constructor
    case buffer => simpa only [hw, hb] using hi.buffer
    case int16 => simpa only [hw] using hi.int16
    case spaced => simpa only [hw] using hi.spaced
    case range =>
      intro serie x hx
      rw [hw] at hx
      exact ⟨(hi.range serie x hx).1, (hi.range serie x hx).2.trans hl⟩
    case heads => simpa only [hw] using hi.heads
    case lastSecs => exact h0.trans hl
  | reset hg hd hcnt hw hb hl hm hp =>
    have hlt := hg.lt
    constructor
    case buffer => simp [hw, hb]
    case int16 => simp [hw]
    case spaced =>
      intro serie
      rw [hw]
      exact List.Pairwise.nil
    case range => simp [hw]
    case heads => simp [hw]
    case lastSecs => omega
  | offered r hg hd hw hb hl hm hp =>
    have hlt := hg.lt
    simp only [hi.buffer] at hw
    constructor
    case buffer =>
      intro serie
      rw [hb, hw, committed, hi.buffer, offer]
      exact summary_commit period (hi.int16 serie) (r.inInt16 serie) _
    case int16 =>
      intro serie x hx
      rw [hw] at hx
      rcases mem_offer hx with hx | rfl
      · exact hi.int16 serie x hx
      · exact r.inInt16 serie
    case spaced =>
      intro serie
      rw [hw]
      apply (hi.spaced serie).offer
      intro y hy
      have := (hi.range serie y hy).2
      simp only
      omega
    case range =>
      intro serie x hx
      rw [hw] at hx
      rcases mem_offer hx with hx | rfl
      · have := hi.range serie x hx
        omega
      · simp only
        omega
    case heads =>
      intro serie
      simp only [hw, offer_head]
      rw [hi.heads serie]
    case lastSecs => omega

/-- The invariant holds of every run that has not faulted. -/
theorem windowInv_run {period : ℕ} {calls : List Call} {h : List WlabEvent} {s : WlabState}
    (hr : (wlab period).Runs (.ok wlabInit) calls h (.ok s)) : WindowInv period h s := by
  refine Machine.Runs.invariant (I := fun h x => ∀ s, x = .ok s → WindowInv period h s)
    (fun s hs => ?_) ?_ hr s rfl
  · cases hs
    exact windowInv_init period
  · rintro h x c es y hi hs t rfl
    obtain ⟨s, rfl, hc⟩ := wlab_step_cases hs
    exact (hi s rfl).step (hc.window h)

theorem WindowInv.empty_iff {period : ℕ} {h : List WlabEvent} {s : WlabState}
    (hi : WindowInv period h s) (serie : Serie) :
    window serie h = [] ↔ window .temperature h = [] := by
  rw [← List.head?_eq_none_iff, ← List.head?_eq_none_iff,
    ← Option.map_eq_none_iff (f := Sample.secs), hi.heads serie, Option.map_eq_none_iff]

/-- While the clock fits `uint32_t` the counters are exact. -/
theorem WindowInv.cnt {period : ℕ} {h : List WlabEvent} {s : WlabState}
    (hi : WindowInv period h s) (hs : s.lastSecs < 4294967296) (serie : Serie) :
    (s.buffer serie).cnt = (window serie h).length := by
  have hlen := (hi.spaced serie).length_le hi.lastSecs (hi.range serie)
  have hcnt : i32 (window serie h).length = (window serie h).length :=
    i32_of_range (by omega) (by omega)
  rw [hi.buffer]
  simpa only [summary] using hcnt

theorem WindowInv.ts {period : ℕ} {h : List WlabEvent} {s : WlabState}
    (hi : WindowInv period h s) (hs : s.lastSecs < 4294967296) {serie : Serie} {x : Sample}
    (hx : x ∈ window serie h) : (x.ts : ℤ) = x.secs := by
  have := hi.range serie x hx
  exact u32_of_range (by omega) (by omega)

/-- Sample time, extremum times and the last reading of a window, in this order. -/
theorem WindowInv.times {period : ℕ} {h : List WlabEvent} {s : WlabState}
    (hi : WindowInv period h s) (hs : s.lastSecs < 4294967296) {serie : Serie} {a b x : Sample}
    (ha : (window serie h).head? = some a) (hb : (window serie h).getLast? = some b)
    (hx : x ∈ window serie h) :
    floorTo (60 * period) a.ts ≤ floorTo 60 x.ts ∧ (floorTo 60 x.ts : ℤ) ≤ b.secs := by
  have hax := (hi.spaced serie).head_le ha hx
  have hxb := (hi.spaced serie).le_last hb hx
  have hats := hi.ts hs (List.mem_of_head? ha)
  have hxts := hi.ts hs hx
  have hfloor := floorTo_le 60 x.ts
  constructor
  · exact (floorTo_mul_le 60 period a.ts).trans (floorTo_mono 60 (by omega))
  · omega

/-- After every run each buffer describes exactly the readings it accepted since
its last reset, and the two windows agree on emptiness and on the sample time. -/
theorem buffers_describe_windows {period : ℕ} (hP : 60 * period < 4294967296)
    {calls : List Call} (hsecs : ∀ c ∈ calls, c.secs < 4294967296) {h : List WlabEvent}
    {s : WlabState} (hr : (wlab period).Runs (.ok wlabInit) calls h (.ok s))
    (hlen : ∀ serie, (window serie h).length ≤ 65535) :
    (∀ serie, Describes period (window serie h) (s.buffer serie)) ∧
      (s.temp.cnt = 0 ↔ s.rh.cnt = 0) ∧ s.temp.sampleTs = s.rh.sampleTs ∧
      ∀ serie, window serie h ≠ [] →
        (s.buffer serie).min ≤ (s.buffer serie).buff.tdiv (s.buffer serie).cnt ∧
        (s.buffer serie).buff.tdiv (s.buffer serie).cnt ≤ (s.buffer serie).max ∧
        (s.buffer serie).sampleTs ≤ (s.buffer serie).minTs ∧
        (s.buffer serie).sampleTs ≤ (s.buffer serie).maxTs ∧
        ∀ x, (window serie h).getLast? = some x →
          ((s.buffer serie).minTs : ℤ) ≤ x.secs ∧ ((s.buffer serie).maxTs : ℤ) ≤ x.secs := by
  have hi := windowInv_run hr
  have hlast := lastSecs_lt (by decide) hsecs hr
  have hd : ∀ serie, Describes period (window serie h) (s.buffer serie) := by
    intro serie
    rw [hi.buffer]
    exact summary_describes hP (hi.int16 serie) (hlen serie)
  refine ⟨hd, ?_, ?_, fun serie hne => ?_⟩
  · have ht := (hd .temperature).cnt
    have hh := (hd .humidity).cnt
    have he := hi.empty_iff .humidity
    rw [← List.length_eq_zero_iff, ← List.length_eq_zero_iff] at he
    simp only [WlabState.buffer] at ht hh
    omega
  · have hheads := hi.heads .humidity
    have ht := hi.buffer .temperature
    have hh := hi.buffer .humidity
    simp only [WlabState.buffer] at ht hh
    rw [ht, hh]
    simp only [summary]
    cases h1 : (window .temperature h).head? <;> cases h2 : (window .humidity h).head? <;>
      simp_all [Sample.ts]
  · have hb := hd serie
    have hpos : 0 < (s.buffer serie).cnt := by
      rw [hb.cnt]
      exact_mod_cast List.length_pos_of_ne_nil hne
    have hsum := sum_between (l := (window serie h).map Sample.val) fun v hv =>
      ⟨(hb.min hne).2 hv, (hb.max hne).2 hv⟩
    rw [List.length_map, ← hb.buff, ← hb.cnt] at hsum
    have hmean := tdiv_between hpos hsum.1 hsum.2
    obtain ⟨a, -, -, ha, -, -⟩ := exists_extrema hne
    obtain ⟨b, hl⟩ := Option.ne_none_iff_exists'.mp (mt List.getLast?_eq_none_iff.mp hne)
    obtain ⟨m, hm, hmts⟩ := hb.minTs hne
    obtain ⟨x, hx, hxts⟩ := hb.maxTs hne
    have hmt := hi.times hlast ha hl (List.mem_of_find?_eq_some hm)
    have hxt := hi.times hlast ha hl (List.mem_of_find?_eq_some hx)
    rw [(hb.sample a ha).2, hmts, hxts]
    refine ⟨hmean.1, hmean.2, hmt.1, hxt.1, fun y hy => ?_⟩
    obtain rfl : b = y := by simpa [hl] using hy
    exact ⟨hmt.2, hxt.2⟩

theorem first_reading_described :
    Describes 5 [⟨421, -15⟩] ⟨-15, -15, 420, 420, -15, 1, 300, -15⟩ :=
  (buffers_describe_windows (by decide) (by decide)
    (by decide +kernel : (wlab 5).Runs (.ok wlabInit) [⟨421, some ⟨-15, 402⟩, 0⟩]
      [.sensorRead 421 (some ⟨-15, 402⟩), .commit .temperature ⟨421, -15⟩ true,
        .commit .humidity ⟨421, 402⟩ true]
      (.ok ⟨0, 421, ⟨-15, -15, 420, 420, -15, 1, 300, -15⟩,
        ⟨402, 402, 420, 420, 402, 1, 300, 402⟩⟩))
    (by intro serie; cases serie <;> decide)).1 .temperature

end WlabStation.Wlab
