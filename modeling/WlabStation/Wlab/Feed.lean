import WlabStation.Wlab.History

/-! Empty windows. The publish branch is selected from the clock alone, so it
finds an empty window whenever no reading was committed since the last one. -/
namespace WlabStation.Wlab

/-- Times of the calls that pass the gate, with `last_secs` at `last`, and whose
sensor answers. Only the calls decide this. -/
def readingSecs : ℤ → List Call → List ℤ
  | _, [] => []
  | last, c :: calls =>
      if c.secs - last < measurePeriod then readingSecs last calls
      else if c.sensor.isNone then readingSecs c.secs calls
      else c.secs :: readingSecs c.secs calls

theorem readingSecs_mono {last : ℤ} {as calls : List Call} (h : as <+: calls) :
    readingSecs last as <+: readingSecs last calls := by
  obtain ⟨bs, rfl⟩ := h
  induction as generalizing last with
  | nil => exact List.nil_prefix
  | cons c as ih =>
    simp only [List.cons_append, readingSecs]
    split_ifs
    · exact ih
    · exact ih
    · exact (List.prefix_cons_inj _).mpr ih

/-- For each reading that selects the publish branch, the number of readings
since the previous such one, or since boot. -/
def feeds (period : ℕ) : ℕ → ℕ → List ℤ → List ℕ
  | _, _, [] => []
  | lastMinutes, n, t :: ts =>
      if tmMin t % period = 0 ∧ tmMin t ≠ lastMinutes then n :: feeds period (tmMin t) 0 ts
      else feeds period lastMinutes (n + 1) ts

section
variable {s : WlabState} {c : Call} (calls : List Call)

theorem readingSecs_skipped (hg : ¬ Reads s c) :
    readingSecs s.lastSecs (c :: calls) = readingSecs s.lastSecs calls := by
  rw [readingSecs, if_pos (not_le.mp hg)]

theorem readingSecs_failed (hg : Reads s c) (hs : c.sensor = none) :
    readingSecs s.lastSecs (c :: calls) = readingSecs c.secs calls := by
  rw [readingSecs, if_neg (not_lt.mpr hg), hs]
  rfl

theorem readingSecs_success (hg : Reads s c) {r : Reading} (hs : c.sensor = some r) :
    readingSecs s.lastSecs (c :: calls) = c.secs :: readingSecs c.secs calls := by
  rw [readingSecs, if_neg (not_lt.mpr hg), hs]
  rfl

end

theorem feeds_due {period : ℕ} {s : WlabState} {c : Call} (hd : Due period s c) (n : ℕ)
    (ts : List ℤ) : feeds period s.lastMinutes n (c.secs :: ts) =
      n :: feeds period (tmMin c.secs) 0 ts := if_pos hd

theorem feeds_not_due {period : ℕ} {s : WlabState} {c : Call} (hd : ¬ Due period s c) (n : ℕ)
    (ts : List ℤ) : feeds period s.lastMinutes n (c.secs :: ts) =
      feeds period s.lastMinutes (n + 1) ts := if_neg hd

/-- What `n` readings offered since the last reset say about the counter. -/
structure Fed (n : ℕ) (b : WlabBuffer) : Prop where
  empty : n = 0 → b = wlabBufferInit
  cnt : 0 < n → n < 2147483648 → 1 ≤ b.cnt ∧ b.cnt ≤ n

theorem fed_init : Fed 0 wlabBufferInit := ⟨fun _ => rfl, fun h => absurd h (by decide)⟩

theorem Fed.committed {period n : ℕ} {b : WlabBuffer} (h : Fed n b) (serie : Serie) (x : Sample) :
    Fed (n + 1) (committed period serie b x) := by
  refine ⟨fun h0 => by omega, fun _ hn => ?_⟩
  have hcnt : 0 ≤ b.cnt ∧ b.cnt ≤ n ∧ (n = 0 → ¬ b.rejects x.val (threshold serie)) ∧
      (0 < n → 1 ≤ b.cnt) := by
    rcases Nat.eq_zero_or_pos n with h0 | h0
    · obtain rfl := h.empty h0
      simp [wlabBufferInit, WlabBuffer.rejects, h0]
    · have := h.cnt h0 (by omega)
      omega
  unfold Wlab.committed
  split_ifs with hr
  · have hpos : 0 < n := Nat.pos_of_ne_zero fun h0 => hcnt.2.2.1 h0 hr
    have := hcnt.2.2.2 hpos
    omega
  · rw [WlabBuffer.push_eq]
    simp only
    rw [i32_of_range (by omega) (by omega)]
    omega

/-- Both counters are at least 1 whenever the publish branch is taken. -/
def PublishesFed (period : ℕ) : Except Fault WlabState → Call → Prop
  | .ok s, c => Reads s c → c.sensor ≠ none → Due period s c → 1 ≤ s.temp.cnt ∧ 1 ≤ s.rh.cnt
  | .error _, _ => True

theorem eachStep_cons {period : ℕ} {C : Except Fault WlabState → Call → Prop} {s : WlabState}
    {c : Call} {calls : List Call} : (wlab period).EachStep C (.ok s) (c :: calls) ↔
      C (.ok s) c ∧ (wlab period).EachStep C (wlabProcess period s c).2 calls := Iff.rfl

/-- Enough readings between the publishes keep both counters positive. -/
theorem publishesFed_of_feeds {period : ℕ} (h0 : 0 < period) (hP : 60 * period < 4294967296)
    (calls : List Call) {s : WlabState} {n : ℕ} (ht : Fed n s.temp) (hh : Fed n s.rh)
    (hf : ∀ k ∈ feeds period s.lastMinutes n (readingSecs s.lastSecs calls),
      0 < k ∧ k < 2147483648) :
    (wlab period).EachStep (PublishesFed period) (.ok s) calls := by
  induction calls generalizing s n with
  | nil => trivial
  | cons c calls ih =>
    rw [eachStep_cons]
    have hc := wlabProcess_cases period s c
    generalize (wlabProcess period s c).1 = es, (wlabProcess period s c).2 = y at hc
    cases hc with
    | skipped hg =>
      rw [readingSecs_skipped calls hg] at hf
      exact ⟨fun hr => absurd hr hg, ih ht hh hf⟩
    | failed hg hs =>
      rw [readingSecs_failed calls hg hs] at hf
      exact ⟨fun _ hsome => absurd hs hsome, ih ht hh hf⟩
    | zeroPeriod r hg hs hz => omega
    | empty r hg hs hd hz =>
      rw [readingSecs_success calls hg hs, feeds_due hd] at hf
      obtain ⟨hpos, hlt⟩ := hf n (by simp)
      have := ht.cnt hpos hlt
      have := hh.cnt hpos hlt
      omega
    | published r hg hs hd htz hhz =>
      rw [readingSecs_success calls hg hs, feeds_due hd] at hf
      obtain ⟨hpos, hlt⟩ := hf n (by simp)
      exact ⟨fun _ _ _ => ⟨(ht.cnt hpos hlt).1, (hh.cnt hpos hlt).1⟩,
        ih fed_init fed_init fun k hk => hf k (by simp [hk])⟩
    | zeroGrid r es hg hs hd hG he => exact absurd hG (u32_grid_pos h0 hP)
    | committed r t h hg hs hd hte hhe =>
      rw [readingSecs_success calls hg hs, feeds_not_due hd] at hf
      exact ⟨fun _ _ hdue => absurd hdue hd, ih (ht.committed _ t) (hh.committed _ h) hf⟩

/-- A publish that follows no reading finds two empty buffers. -/
theorem feeds_pos_of_publishesFed {period : ℕ} (h0 : 0 < period)
    (hP : 60 * period < 4294967296) (calls : List Call) {s : WlabState} {n : ℕ}
    (ht : Fed n s.temp) (hh : Fed n s.rh)
    (hf : (wlab period).EachStep (PublishesFed period) (.ok s) calls) :
    ∀ k ∈ feeds period s.lastMinutes n (readingSecs s.lastSecs calls), 0 < k := by
  induction calls generalizing s n with
  | nil => simp [readingSecs, feeds]
  | cons c calls ih =>
    rw [eachStep_cons] at hf
    obtain ⟨hC, hf⟩ := hf
    have hc := wlabProcess_cases period s c
    generalize (wlabProcess period s c).1 = es, (wlabProcess period s c).2 = y at hc hf
    cases hc with
    | skipped hg =>
      rw [readingSecs_skipped calls hg]
      exact ih ht hh hf
    | failed hg hs =>
      rw [readingSecs_failed calls hg hs]
      exact ih (s := { s with lastSecs := c.secs }) ht hh hf
    | zeroPeriod r hg hs hz => omega
    | empty r hg hs hd hz =>
      have := hC hg (by simp [hs]) hd
      omega
    | published r hg hs hd htz hhz =>
      rw [readingSecs_success calls hg hs, feeds_due hd]
      intro k hk
      rcases List.mem_cons.mp hk with rfl | hk
      · refine Nat.pos_of_ne_zero fun hk0 => htz ?_
        rw [ht.empty hk0]
        rfl
      · exact ih fed_init fed_init hf k hk
    | zeroGrid r es hg hs hd hG he => exact absurd hG (u32_grid_pos h0 hP)
    | committed r t h hg hs hd hte hhe =>
      rw [readingSecs_success calls hg hs, feeds_not_due hd]
      exact ih (ht.committed _ t) (hh.committed _ h) hf

/-- The formatted values are readings, not one of the two sentinels. -/
def SerieArgs.Measured (a : SerieArgs) : Prop := InInt16 a.act ∧ InInt16 a.min ∧ InInt16 a.max

theorem summary_measured {period : ℕ} {w : List Sample} (hw : ∀ x ∈ w, InInt16 x.val)
    (hne : w ≠ []) : InInt16 (summary period w).sampleTsVal ∧ InInt16 (summary period w).min ∧
      InInt16 (summary period w).max := by
  obtain ⟨a, m, x, ha, hm, hx⟩ := exists_extrema hne
  simp only [summary, ha, hm, hx, Option.elim_some]
  exact ⟨hw a (List.mem_of_head? ha), hw m (List.argmin_mem hm), hw x (List.argmax_mem hx)⟩

theorem WindowInv.measured {period : ℕ} {h : List WlabEvent} {s : WlabState}
    (hi : WindowInv period h s) (serie : Serie) (hcnt : (s.buffer serie).cnt ≠ 0) :
    InInt16 (s.buffer serie).sampleTsVal ∧ InInt16 (s.buffer serie).min ∧
      InInt16 (s.buffer serie).max := by
  rw [hi.buffer] at hcnt ⊢
  refine summary_measured (hi.int16 serie) fun he => hcnt ?_
  rw [he]
  rfl

/-- Whatever is published was measured: an empty window faults before its
sentinels reach the format string. -/
theorem published_measured {period : ℕ} {calls : List Call} {h : List WlabEvent}
    {x : Except Fault WlabState} (hr : (wlab period).Runs (.ok wlabInit) calls h x) {secs : ℤ}
    {args : SampleArgs} {rc : ℤ} (hp : WlabEvent.publish secs args rc ∈ h) :
    args.temp.Measured ∧ args.rh.Measured := by
  refine Machine.Runs.induction (I := fun _ h _ => ∀ secs args rc,
    WlabEvent.publish secs args rc ∈ h → args.temp.Measured ∧ args.rh.Measured)
    (fun _ _ _ hp => by cases hp) ?_ hr secs args rc hp
  intro calls h x c es y hk hi hs secs args rc hp
  obtain ⟨s, rfl, hc⟩ := wlab_step_cases hs
  rcases List.mem_append.mp hp with hp | hp
  · exact hi secs args rc hp
  · cases hc with
    | skipped hg => simp at hp
    | failed hg hs => simp at hp
    | zeroPeriod r hg hs hz => simp at hp
    | empty r hg hs hd hz => simp at hp
    | published r hg hs hd ht hh =>
      obtain ⟨-, rfl, -⟩ : secs = c.secs ∧ args = sampleArgs s.temp s.rh ∧ rc = c.publishRc := by
        simpa using hp
      have hw := windowInv_run hk
      exact ⟨hw.measured .temperature ht, hw.measured .humidity hh⟩
    | zeroGrid r es hg hs hd hG he =>
      rcases he with rfl | rfl <;> simp [commitEvent] at hp
    | committed r t h hg hs hd ht hh => simp [commitEvent] at hp

/-- Everything a run needs so that no empty window is published: the counters
at each publish, no division by zero, and only measured values in the payload. -/
structure NonemptyPublishes (period : ℕ) (calls : List Call) : Prop where
  fed : (wlab period).EachStep (PublishesFed period) (.ok wlabInit) calls
  noDivision : ∀ as h, as <+: calls →
    ¬ (wlab period).Runs (.ok wlabInit) as h (.error .divByZero)
  measured : ∀ as h x, as <+: calls → (wlab period).Runs (.ok wlabInit) as h x →
    ∀ secs args rc, WlabEvent.publish secs args rc ∈ h → args.temp.Measured ∧ args.rh.Measured

theorem no_division_of_publishesFed {period : ℕ} {calls : List Call} {h : List WlabEvent}
    (hf : (wlab period).EachStep (PublishesFed period) (.ok wlabInit) calls) :
    ¬ (wlab period).Runs (.ok wlabInit) calls h (.error .divByZero) := by
  intro hr
  refine Machine.Runs.invariant_of_eachStep (I := fun _ x => x ≠ .error .divByZero)
    (by simp) ?_ hf hr rfl
  rintro h x c es y - hC hs rfl
  obtain ⟨s, rfl, hc⟩ := wlab_step_cases hs
  cases hc with
  | empty r hg hsome hd hz =>
    have := hC hg (by simp [hsome]) hd
    omega

/-- Windows are never published empty exactly when each reading that selects the
publish branch comes after one that did not. -/
theorem publishes_nonempty_of_feeds {period : ℕ} (h0 : 0 < period)
    (hP : 60 * period < 4294967296) (calls : List Call) :
    ((∀ n ∈ feeds period 0 0 (readingSecs 0 calls), 0 < n ∧ n < 2147483648) →
      NonemptyPublishes period calls) ∧
    (NonemptyPublishes period calls → ∀ n ∈ feeds period 0 0 (readingSecs 0 calls), 0 < n) := by
  constructor
  · intro hf
    have hfed := publishesFed_of_feeds h0 hP calls (s := wlabInit) fed_init fed_init hf
    refine ⟨hfed, ?_, fun as h x _ hr secs args rc => published_measured hr⟩
    rintro as h ⟨bs, rfl⟩
    exact no_division_of_publishesFed hfed.of_append
  · intro h
    exact feeds_pos_of_publishesFed h0 hP calls (s := wlabInit) fed_init fed_init h.fed

theorem publishes_nonempty_from_minute_three :
    NonemptyPublishes 5 [⟨180, some ⟨215, 480⟩, 0⟩, ⟨300, some ⟨216, 481⟩, 0⟩] :=
  (publishes_nonempty_of_feeds (by decide) (by decide) _).1 (by decide +kernel)

/-- A station whose first reading falls on minute 5 of the hour. -/
theorem first_reading_divides_by_zero :
    (wlab 5).Runs (.ok wlabInit) [⟨300, some ⟨215, 480⟩, 0⟩]
        [.sensorRead 300 (some ⟨215, 480⟩)] (.error .divByZero) ∧
      ¬ ∀ period calls, 1 ≤ period → period ≤ 59 → NonemptyPublishes period calls := by
  have hr : (wlab 5).Runs (.ok wlabInit) [⟨300, some ⟨215, 480⟩, 0⟩]
      [.sensorRead 300 (some ⟨215, 480⟩)] (.error .divByZero) := by decide +kernel
  exact ⟨hr, fun hall => (hall 5 _ (by decide) (by decide)).noDivision _ _ List.prefix_rfl hr⟩

end WlabStation.Wlab
