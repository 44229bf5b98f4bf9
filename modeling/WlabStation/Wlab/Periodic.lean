import WlabStation.Wlab.History

/-! Publishing as a periodic task. When the reads come soon after one another, the
first publish is followed by one in every qualifying minute, right after it begins. -/
namespace WlabStation.Wlab
open Machine

/-- The minute of the hour of a minute of the epoch. -/
def minuteOf (M : ℤ) : ℕ := (M % 60).toNat

/-- A call that reads: it comes at most `gap` seconds after the read before it, if
there was one, its sensor answers, and its time fits 32 bits. -/
structure OnTime (gap : ℤ) (s : WlabState) (c : Call) : Prop where
  soon : 0 < s.lastSecs → c.secs ≤ s.lastSecs + gap
  sensor : c.sensor ≠ none
  small : c.secs < 4294967296

/-- The publishes so far: each one right after its minute began, one for each
qualifying minute since the first. -/
structure Regular (period : ℕ) (gap : ℤ) (h : List WlabEvent) (s : WlabState) : Prop where
  windows : WindowInv period h s
  clock : ClockInv h (.ok s)
  small : s.lastSecs < 4294967296
  settled : tmMin s.lastSecs % period = 0 → tmMin s.lastSecs = s.lastMinutes
  refilled : publishSecs h ≠ [] → window .temperature h = [] → s.lastSecs ∈ publishSecs h
  prompt : ∀ t ∈ publishSecs h, 0 < t ∧ t % 60 < gap
  complete : ∀ first ∈ publishSecs h, ∀ M, first / 60 < M → M ≤ s.lastSecs / 60 →
    minuteOf M % period = 0 → ∃ t ∈ publishSecs h, t / 60 = M

theorem regular_init (period : ℕ) (gap : ℤ) : Regular period gap [] wlabInit := by
  constructor
  case windows => exact windowInv_init period
  case clock => exact clockInv_init
  case small => decide
  case settled => exact fun _ => rfl
  case refilled => simp [publishSecs]
  case prompt => simp [publishSecs]
  case complete => simp [publishSecs]

/-- Every hour has two qualifying minutes at least. -/
theorem exists_qualifying {period : ℕ} (h1 : 1 ≤ period) (h59 : period ≤ 59) (N : ℤ) :
    ∃ M, N < M ∧ M < N + 60 ∧ minuteOf M % period = 0 := by
  by_cases hr : N % 60 < period
  · refine ⟨N - N % 60 + period, by omega, by omega, ?_⟩
    have hmin : minuteOf (N - N % 60 + period) = period := by
      unfold minuteOf
      omega
    rw [hmin, Nat.mod_self]
  · refine ⟨N - N % 60 + 60, by omega, by omega, ?_⟩
    have hmin : minuteOf (N - N % 60 + 60) = 0 := by
      unfold minuteOf
      omega
    rw [hmin, Nat.zero_mod]

section Steps
variable {period : ℕ} {gap : ℤ} {h es : List WlabEvent} {s t : WlabState} {c : Call}

/-- `last_minutes` remembers the last publish, and no other comes after it. -/
theorem Regular.last (hi : Regular period gap h s) (hne : publishSecs h ≠ []) :
    ∃ p ∈ publishSecs h, s.lastMinutes = tmMin p ∧ p ≤ s.lastSecs ∧
      ∀ t ∈ publishSecs h, t / 60 ≤ p / 60 := by
  obtain ⟨k, p, hk⟩ := List.eq_nil_or_concat' (publishSecs h) |>.resolve_left hne
  have hp : p ∈ publishSecs h := by simp [hk]
  refine ⟨p, hp, ?_, (hi.clock.publishesLe s rfl p hp).1, ?_⟩
  · rw [hi.clock.lastMinutes s rfl, lastPublishMinute, hk]
    simp
  · intro t ht
    have hpairs := hi.clock.publishes
    rw [hk, List.pairwise_append] at hpairs
    rw [hk, List.mem_append, List.mem_singleton] at ht
    obtain ht | rfl := ht
    · exact (hpairs.2.2 t ht p (by simp)).le
    · exact le_rfl

/-- A read that is due is the first one of its minute. -/
theorem Regular.due_minute (hi : Regular period gap h s) (hreads : Reads s c)
    (hdue : Due period s c) : s.lastSecs / 60 < c.secs / 60 := by
  have hlt := hreads.lt
  have hne : s.lastSecs / 60 ≠ c.secs / 60 := by
    intro heq
    have hmin := tmMin_congr heq
    apply hdue.2
    rw [← hmin]
    exact hi.settled (hmin ▸ hdue.1)
  omega

/-- After the first publish a read that is due finds its windows filled. -/
theorem Regular.filled (hgap : gap ≤ 30) (hi : Regular period gap h s) (hreads : Reads s c)
    (hon : OnTime gap s c) (hdue : Due period s c) (hne : publishSecs h ≠ []) (serie : Serie) :
    (s.buffer serie).cnt ≠ 0 := by
  intro hzero
  rw [hi.windows.cnt hi.small, Nat.cast_eq_zero, List.length_eq_zero_iff,
    hi.windows.empty_iff] at hzero
  obtain ⟨hpos, hprompt⟩ := hi.prompt _ (hi.refilled hne hzero)
  have hminute := hi.due_minute hreads hdue
  have hsoon := hon.soon hpos
  omega

/-- A read comes soon after the one before it, if a window is filled. -/
theorem Regular.soon (hi : Regular period gap h s) (hon : OnTime gap s c) {serie : Serie}
    (hne : window serie h ≠ []) : c.secs ≤ s.lastSecs + gap := by
  obtain ⟨x, hx⟩ := List.exists_mem_of_ne_nil _ hne
  have hrange := hi.windows.range serie x hx
  exact hon.soon (by omega)

/-- A publish keeps the account. -/
theorem Regular.published (hgap : gap ≤ 30) (hi : Regular period gap h s)
    (hreads : Reads s c) (hon : OnTime gap s c) (hdue : Due period s c)
    (hcnt : (s.buffer .temperature).cnt ≠ 0) (hwindows : WindowInv period (h ++ es) t)
    (hclock : ClockInv (h ++ es) (.ok t)) (hpub : publishSecs es = [c.secs])
    (hlast : t.lastSecs = c.secs) (hmin : t.lastMinutes = tmMin c.secs) :
    Regular period gap (h ++ es) t := by
  have hlt := hreads.lt
  have h0 := hi.windows.lastSecs
  have hminute := hi.due_minute hreads hdue
  have hne : window .temperature h ≠ [] := by
    intro hnil
    rw [hi.windows.buffer, hnil] at hcnt
    exact hcnt rfl
  have hsoon := hi.soon hon hne
  have hmem : ∀ u, u ∈ publishSecs (h ++ es) ↔ u ∈ publishSecs h ∨ u = c.secs := by
    intro u
    rw [publishSecs_append, hpub, List.mem_append, List.mem_singleton]
  constructor
  case windows => exact hwindows
  case clock => exact hclock
  case small =>
    rw [hlast]
    exact hon.small
  case settled =>
    intro _
    rw [hlast, hmin]
  case refilled =>
    intro _ _
    rw [hlast]
    exact (hmem _).mpr (.inr rfl)
  case prompt =>
    intro u hu
    obtain hu | rfl := (hmem u).mp hu
    · exact hi.prompt u hu
    · omega
  case complete =>
    intro first hfirst M hM hM' hqual
    rw [hlast] at hM'
    by_cases hnew : M = c.secs / 60
    · exact ⟨c.secs, (hmem _).mpr (.inr rfl), hnew.symm⟩
    · obtain hfirst | rfl := (hmem first).mp hfirst
      · obtain ⟨u, hu, huM⟩ := hi.complete first hfirst M hM (by omega) hqual
        exact ⟨u, (hmem u).mpr (.inl hu), huM⟩
      · omega

/-- A read that is not due is in no qualifying minute that is still without a
publish: between two equal minutes of the hour there is another qualifying one. -/
theorem Regular.no_new_minute (h1 : 1 ≤ period) (h59 : period ≤ 59) (hgap : gap ≤ 30)
    (hi : Regular period gap h s) (hon : OnTime gap s c) (hdue : ¬ Due period s c) {first M : ℤ}
    (hfirst : first ∈ publishSecs h) (hM : s.lastSecs / 60 < M) (hM' : M ≤ c.secs / 60) :
    minuteOf M % period ≠ 0 := by
  intro hqual
  have hne := List.ne_nil_of_mem hfirst
  obtain ⟨p, hp, hmin, hple, hlatest⟩ := hi.last hne
  have hsoon := hon.soon ((hi.prompt p hp).1.trans_le hple)
  obtain rfl : M = c.secs / 60 := by omega
  have hsame : tmMin c.secs = tmMin p := by
    by_contra hdiff
    exact hdue ⟨hqual, hmin ▸ hdiff⟩
  obtain ⟨N, hN, hN', hqualN⟩ := exists_qualifying h1 h59 (p / 60)
  have hhour : p / 60 + 60 ≤ c.secs / 60 := by
    unfold tmMin at hsame
    omega
  obtain ⟨u, hu, huN⟩ := hi.complete p hp N hN (by omega) hqualN
  have := hlatest u hu
  omega

/-- A reading that is not due fills the windows. -/
theorem Regular.committed (h1 : 1 ≤ period) (h59 : period ≤ 59) (hgap : gap ≤ 30)
    (hi : Regular period gap h s) (hon : OnTime gap s c) (hdue : ¬ Due period s c)
    (hwindows : WindowInv period (h ++ es) t)
    (hclock : ClockInv (h ++ es) (.ok t)) (hpub : publishSecs es = [])
    (hfilled : window .temperature (h ++ es) ≠ []) (hlast : t.lastSecs = c.secs)
    (hmin : t.lastMinutes = s.lastMinutes) : Regular period gap (h ++ es) t := by
  have hsame : publishSecs (h ++ es) = publishSecs h := by
    rw [publishSecs_append, hpub, List.append_nil]
  constructor
  case windows => exact hwindows
  case clock => exact hclock
  case small =>
    rw [hlast]
    exact hon.small
  case settled =>
    intro hqual
    rw [hlast] at hqual ⊢
    by_contra hdiff
    rw [hmin] at hdiff
    exact hdue ⟨hqual, hdiff⟩
  case refilled => exact fun _ hnil => absurd hnil hfilled
  case prompt =>
    rw [hsame]
    exact hi.prompt
  case complete =>
    rw [hsame, hlast]
    intro first hfirst M hM hM' hqual
    by_cases hold : M ≤ s.lastSecs / 60
    · exact hi.complete first hfirst M hM hold hqual
    · exact absurd hqual
        (hi.no_new_minute h1 h59 hgap hon hdue hfirst (not_le.mp hold) hM')

/-- A call of `wlab_process` whose reads are on time. -/
theorem Regular.step (h1 : 1 ≤ period) (h59 : period ≤ 59) (hgap : gap ≤ 30)
    (hi : Regular period gap h s) (hon : Reads s c → OnTime gap s c)
    {y : Except Fault WlabState} (hc : ProcessCase period s c es y) :
    (∀ t, y = .ok t → Regular period gap (h ++ es) t) ∧
      (publishSecs (h ++ es) ≠ [] → ∃ t, y = .ok t) := by
  have hclock := hi.clock.step hc.clock
  have hwindows : ∀ t, y = .ok t → WindowInv period (h ++ es) t := by
    rintro t rfl
    exact hi.windows.step (hc.window h)
  cases hc with
  | skipped hg =>
    rw [List.append_nil]
    refine ⟨?_, fun _ => ⟨s, rfl⟩⟩
    rintro t ⟨⟩
    exact hi
  | failed hg hs => exact absurd hs (hon hg).sensor
  | zeroPeriod r hg hs hz => omega
  | empty r hg hs hd hz =>
    refine ⟨by simp, fun hne => ?_⟩
    have hne' : publishSecs h ≠ [] := by simpa [publishSecs] using hne
    obtain hz | hz := hz
    · exact absurd hz (hi.filled hgap hg (hon hg) hd hne' .temperature)
    · exact absurd hz (hi.filled hgap hg (hon hg) hd hne' .humidity)
  | published r hg hs hd ht hh =>
    refine ⟨?_, fun _ => ⟨_, rfl⟩⟩
    rintro t ⟨⟩
    exact hi.published hgap hg (hon hg) hd ht (hwindows _ rfl) hclock rfl rfl rfl
  | zeroGrid r es hg hs hd hG he => exact absurd hG (u32_grid_pos h1 (by omega))
  | committed r x z hg hs hd hx hz =>
    refine ⟨?_, fun _ => ⟨_, rfl⟩⟩
    rintro t ⟨⟩
    apply hi.committed h1 h59 hgap (hon hg) hd (hwindows _ rfl) hclock rfl _ rfl rfl
    intro hnil
    simp only [window_append, List.foldl_cons, List.foldl_nil, windowStep_sensorRead,
      windowStep_commitEvent, ↓reduceIte, reduceCtorEq] at hnil
    have hbuffer : s.temp = _ := hi.windows.buffer .temperature
    have hhead := offer_head period .temperature (window .temperature h) x
    rw [← hbuffer, hnil] at hhead
    cases hhead

end Steps
end WlabStation.Wlab
