import WlabStation.Wlab.History

/-! Qualifying minutes. `last_minutes` remembers a minute of the hour, 0 before
the first publish, so a minute is missed when an older publish had the same one. -/
namespace WlabStation.Wlab

/-- The call makes the first successful reading of a UTC minute whose minute of
the hour is a multiple of the period, both windows hold a reading, and nothing
was published in that minute. -/
structure Qualifying (period : ℕ) (h : List WlabEvent) (s : WlabState) (c : Call) : Prop where
  reads : Reads s c
  sensor : c.sensor ≠ none
  multiple : tmMin c.secs % period = 0
  first : ∀ t ∈ successSecs h, t / 60 ≠ c.secs / 60
  window : ∀ serie, window serie h ≠ []
  unpublished : ∀ t ∈ publishSecs h, t / 60 ≠ c.secs / 60

/-- A qualifying call publishes. -/
def PublishesQualifying (period : ℕ) : List WlabEvent × Except Fault WlabState → Call → Prop
  | (h, .ok s), c => Qualifying period h s c →
      ∃ args, WlabEvent.publish c.secs args c.publishRc ∈ (wlabProcess period s c).1
  | (_, .error _), _ => True

/-- A qualifying minute is not the minute of the hour of the last publish, and
the counters of the windows have not come round to 0. -/
def MinuteNotRemembered (period : ℕ) : List WlabEvent × Except Fault WlabState → Call → Prop
  | (h, .ok s), c => Qualifying period h s c → tmMin c.secs ≠ lastPublishMinute h ∧
      ∀ serie, ¬ 4294967296 ∣ (window serie h).length
  | (_, .error _), _ => True

theorem WindowInv.cnt_eq_zero_iff {period : ℕ} {h : List WlabEvent} {s : WlabState}
    (hi : WindowInv period h s) (serie : Serie) :
    (s.buffer serie).cnt = 0 ↔ 4294967296 ∣ (window serie h).length := by
  rw [hi.buffer, ← i32_eq_zero_iff, summary]

/-- A call that reads publishes exactly when it is due with both counters not 0. -/
theorem publishes_iff {period : ℕ} {s : WlabState} {c : Call} (h0 : 0 < period)
    (hg : Reads s c) (hs : c.sensor ≠ none) :
    (∃ args, WlabEvent.publish c.secs args c.publishRc ∈ (wlabProcess period s c).1) ↔
      Due period s c ∧ s.temp.cnt ≠ 0 ∧ s.rh.cnt ≠ 0 := by
  have hc := wlabProcess_cases period s c
  generalize (wlabProcess period s c).1 = es, (wlabProcess period s c).2 = y at hc
  cases hc with
  | skipped hn => exact absurd hg hn
  | failed _ hn => exact absurd hn hs
  | zeroPeriod r _ _ hz => omega
  | empty r _ _ hd hz =>
    simp only [List.mem_singleton, reduceCtorEq, exists_false, false_iff]
    tauto
  | published r _ _ hd ht hh => simp [hd, ht, hh]
  | zeroGrid r es _ _ hd hG he => rcases he with rfl | rfl <;> simp [commitEvent, hd]
  | committed r t h _ _ hd ht hh => simp [commitEvent, hd]

/-- A run misses no qualifying minute exactly when no qualifying minute has the
minute of the hour of the publish before it, or 0 before the first publish. -/
theorem qualifying_minutes_published_iff {period : ℕ} (h0 : 0 < period) (calls : List Call) :
    (wlab period).traced.EachStep (PublishesQualifying period) ([], .ok wlabInit) calls ↔
      (wlab period).traced.EachStep (MinuteNotRemembered period) ([], .ok wlabInit) calls := by
  refine Machine.EachStep.iff (Machine.EachStep.of_traced_invariant
    (I := fun h x => ClockInv h x ∧ ∀ s, x = .ok s → WindowInv period h s)
    ⟨clockInv_init, fun s hs => ?_⟩ ?_ ?_ (Machine.eachStep_true _ calls))
  · cases hs
    exact windowInv_init period
  · rintro h x c es y ⟨hclock, hwin⟩ - hs
    obtain ⟨s, rfl, hc⟩ := wlab_step_cases hs
    refine ⟨hclock.step hc.clock, ?_⟩
    rintro t rfl
    exact (hwin s rfl).step (hc.window h)
  · rintro h x c ⟨hclock, hwin⟩ -
    cases x with
    | error e => exact Iff.rfl
    | ok s =>
      refine forall_congr' fun hq => ?_
      have hcnt := (hwin s rfl).cnt_eq_zero_iff
      have ht := hcnt .temperature
      have hh := hcnt .humidity
      simp only [WlabState.buffer] at ht hh
      rw [publishes_iff h0 hq.reads hq.sensor, Due, hclock.lastMinutes s rfl]
      simp only [ne_eq, ht, hh]
      constructor
      · rintro ⟨⟨-, hm⟩, ht, hh⟩
        exact ⟨hm, fun serie => by cases serie <;> assumption⟩
      · rintro ⟨hm, hw⟩
        exact ⟨⟨hq.multiple, hm⟩, hw .temperature, hw .humidity⟩

theorem minute_five_published : (wlab 5).traced.EachStep (PublishesQualifying 5)
    ([], .ok wlabInit) [⟨180, some ⟨215, 480⟩, 0⟩, ⟨300, some ⟨216, 481⟩, 0⟩] :=
  (qualifying_minutes_published_iff (by decide) _).mpr
    ⟨fun hq => absurd rfl (hq.window .temperature),
      fun _ => ⟨by decide +kernel, fun serie => by cases serie <;> decide +kernel⟩, trivial⟩

/-- Boot at 11:59. The reading of 12:00 finds `last_minutes` at its initial 0. -/
theorem full_hour_after_boot_missed :
    ¬ ∀ period calls, 1 ≤ period → 60 * period < 4294967296 →
      (wlab period).traced.EachStep (PublishesQualifying period) ([], .ok wlabInit) calls := by
  intro hall
  obtain ⟨-, hsecond, -⟩ := hall 60
    [⟨43140, some ⟨215, 480⟩, 0⟩, ⟨43200, some ⟨216, 481⟩, 0⟩] (by decide) (by decide)
  obtain ⟨args, hargs⟩ := hsecond ⟨by decide +kernel, by decide, by decide +kernel,
    by decide +kernel, fun serie => by cases serie <;> decide +kernel, by decide +kernel⟩
  obtain ⟨hdue, -⟩ := (publishes_iff (by decide) (by decide +kernel) (by decide)).mp ⟨args, hargs⟩
  exact hdue.2 (by decide +kernel)

end WlabStation.Wlab
