import WlabStation.Wlab.History

/-! Sample times as keys. Publishes happen on the minutes of the hour that the
period divides, sample times are floored to the epoch grid of the period; the
two grids agree exactly when the period divides the hour. -/
namespace WlabStation.Wlab

/-- The `TS` of the publish attempts. -/
def publishTs (h : List WlabEvent) : List ℕ := (published h).map SampleArgs.ts

@[simp] theorem publishTs_append (h k : List WlabEvent) :
    publishTs (h ++ k) = publishTs h ++ publishTs k := by simp [publishTs]

/-- On a qualifying minute of a period that divides the hour the grid of the
period is the grid of the minutes. -/
theorem floorTo_qualifying {period : ℕ} (hP : period ∣ 60) {t : ℤ} (h0 : 0 ≤ t)
    (ht : tmMin t % period = 0) : floorTo (60 * period) t.toNat = floorTo 60 t.toNat := by
  obtain ⟨n, rfl⟩ := Int.eq_ofNat_of_zero_le h0
  have hmin : tmMin (n : ℤ) = n / 60 % 60 := by
    unfold tmMin
    omega
  rw [hmin, Nat.mod_mod_of_dvd _ hP] at ht
  rw [Int.toNat_natCast, floorTo_eq, floorTo_eq, ← Nat.div_div_eq_div_mul, Nat.mul_comm 60 period,
    ← Nat.mul_assoc, Nat.div_mul_cancel (Nat.dvd_of_mod_eq_zero ht)]

theorem floorTo_lt_of_minute_lt {f t : ℤ} (hf : 0 ≤ f) (h : f / 60 < t / 60) :
    f.toNat < floorTo 60 t.toNat := by
  unfold floorTo
  omega

theorem offer_head_cases {serie : Serie} {b : WlabBuffer} {w : List Sample} {x f : Sample}
    (h : (offer serie b w x).head? = some f) : w.head? = some f ∨ w = [] ∧ f = x := by
  unfold offer at h
  split_ifs at h
  · exact .inl h
  · cases w with
    | nil => exact .inr ⟨rfl, by simpa using h.symm⟩
    | cons a w => exact .inl (by simpa using h)

/-- Every published time lies before the grid point of the current window. -/
structure SampleInv (period : ℕ) (h : List WlabEvent) (s : WlabState) : Prop where
  increasing : (publishTs h).Pairwise (· < ·)
  before : ∀ T ∈ publishTs h, T < floorTo (60 * period) s.lastSecs.toNat
  head : ∀ f, (window .temperature h).head? = some f →
    (∀ T ∈ publishTs h, T < floorTo (60 * period) f.secs.toNat) ∧
      (tmMin f.secs % period = 0 → tmMin f.secs = s.lastMinutes)

theorem sampleInv_init (period : ℕ) : SampleInv period [] wlabInit where
  increasing := List.Pairwise.nil
  before _ hT := by cases hT
  head _ hf := by cases hf

theorem WindowInv.sampleTs {period : ℕ} (hP : 60 * period < 4294967296) {h : List WlabEvent}
    {s : WlabState} (hi : WindowInv period h s) (hs : s.lastSecs < 4294967296) {f : Sample}
    (hf : (window .temperature h).head? = some f) :
    s.temp.sampleTs = floorTo (60 * period) f.secs.toNat := by
  have hbuf := hi.buffer .temperature
  have hts := hi.ts hs (List.mem_of_head? hf)
  have hsecs : f.ts = f.secs.toNat := by omega
  simp only [WlabState.buffer] at hbuf
  rw [hbuf, ← hsecs]
  simp [summary, hf, u32_grid hP]

/-- The first reading of a published window lies in an earlier minute. -/
theorem SampleInv.head_minute {period : ℕ} {h : List WlabEvent} {s : WlabState} {c : Call}
    (hs : SampleInv period h s) (hi : WindowInv period h s) (hg : Reads s c)
    (hd : Due period s c) {f : Sample} (hf : (window .temperature h).head? = some f) :
    f.secs / 60 < c.secs / 60 := by
  have hrange := (hi.range .temperature f (List.mem_of_head? hf)).2
  have hlt := hg.lt
  have hne : f.secs / 60 ≠ c.secs / 60 := by
    intro he
    have hmin := tmMin_congr he
    apply hd.2
    rw [← hmin]
    exact (hs.head f hf).2 (hmin ▸ hd.1)
  omega

theorem SampleInv.step {period : ℕ} (hP : period ∣ 60) {h : List WlabEvent} {s t : WlabState}
    {c : Call} {es : List WlabEvent} (hs : SampleInv period h s) (hi : WindowInv period h s)
    (hlast : s.lastSecs < 4294967296) (hc : WindowCase period h s c es t) :
    SampleInv period (h ++ es) t := by
  have hmono {a b : ℤ} (hab : a ≤ b) :
      floorTo (60 * period) a.toNat ≤ floorTo (60 * period) b.toNat :=
    floorTo_mono _ (by omega)
  have h0 := hi.lastSecs
  cases hc with
  | kept hw hb hl hm hp =>
    have hts : publishTs (h ++ es) = publishTs h := by simp [publishTs, hp]
    constructor
    case increasing =>
      rw [hts]
      exact hs.increasing
    case before =>
      intro T hT
      rw [hts] at hT
      exact (hs.before T hT).trans_le (hmono hl)
    case head =>
      intro f hf
      rw [hw] at hf
      rw [hts, hm]
      exact hs.head f hf
  | reset hg hd hcnt hw hb hl hm hp =>
    have hlt := hg.lt
    have hne : window .temperature h ≠ [] := by
      intro he
      have hc0 := hcnt .temperature
      rw [hi.buffer, he] at hc0
      exact hc0 rfl
    obtain ⟨f, -, -, hf, -, -⟩ := exists_extrema hne
    have hsmall : 60 * period < 4294967296 := by
      have := Nat.le_of_dvd (by decide) hP
      omega
    have hts : publishTs (h ++ es) = publishTs h ++ [floorTo (60 * period) f.secs.toNat] := by
      rw [publishTs_append, publishTs, publishTs, hp, ← hi.sampleTs hsmall hlast hf]
      rfl
    have hf4 := (hi.range .temperature f (List.mem_of_head? hf)).1
    have hnew : floorTo (60 * period) f.secs.toNat < floorTo (60 * period) c.secs.toNat := by
      rw [floorTo_qualifying hP (by omega) hd.1]
      exact (floorTo_le _ _).trans_lt
        (floorTo_lt_of_minute_lt (by omega) (hs.head_minute hi hg hd hf))
    constructor
    case increasing =>
      rw [hts, List.pairwise_append]
      refine ⟨hs.increasing, List.pairwise_singleton _ _, fun T hT T' hT' => ?_⟩
      rw [List.mem_singleton.mp hT']
      exact (hs.head f hf).1 T hT
    case before =>
      intro T hT
      rw [hts, List.mem_append, List.mem_singleton] at hT
      rw [hl]
      rcases hT with hT | rfl
      · exact (hs.before T hT).trans_le (hmono (by omega))
      · exact hnew
    case head =>
      intro f hf
      rw [hw] at hf
      cases hf
  | offered r hg hd hw hb hl hm hp =>
    have hlt := hg.lt
    have hts : publishTs (h ++ es) = publishTs h := by simp [publishTs, hp]
    constructor
    case increasing =>
      rw [hts]
      exact hs.increasing
    case before =>
      intro T hT
      rw [hts] at hT
      rw [hl]
      exact (hs.before T hT).trans_le (hmono (by omega))
    case head =>
      intro f hf
      rw [hw] at hf
      rw [hts, hm]
      rcases offer_head_cases hf with hf | ⟨-, rfl⟩
      · exact hs.head f hf
      · constructor
        · intro T hT
          exact (hs.before T hT).trans_le (hmono (by simp only; omega))
        · intro hq
          by_contra hne
          exact hd ⟨hq, hne⟩

theorem sampleInv_run {period : ℕ} (hP : period ∣ 60) {calls : List Call}
    (hsecs : ∀ c ∈ calls, c.secs < 4294967296) {h : List WlabEvent} {x : Except Fault WlabState}
    (hr : (wlab period).Runs (.ok wlabInit) calls h x) :
    (publishTs h).Pairwise (· < ·) ∧ ∀ s, x = .ok s → SampleInv period h s := by
  refine Machine.Runs.induction (I := fun calls h x => (∀ c ∈ calls, c.secs < 4294967296) →
    (publishTs h).Pairwise (· < ·) ∧ ∀ s, x = .ok s → SampleInv period h s)
    (fun _ => ⟨List.Pairwise.nil, fun s hs => ?_⟩) ?_ hr hsecs
  · cases hs
    exact sampleInv_init period
  · intro calls h x c es y hk hi hs hsecs
    obtain ⟨s, rfl, hc⟩ := wlab_step_cases hs
    have hold : ∀ c ∈ calls, c.secs < 4294967296 := fun c hc => hsecs c (by simp [hc])
    have hstep : ∀ t, y = .ok t → SampleInv period (h ++ es) t := by
      rintro t rfl
      exact ((hi hold).2 s rfl).step hP (windowInv_run hk) (lastSecs_lt (by decide) hold hk)
        (hc.window h)
    refine ⟨?_, hstep⟩
    cases y with
    | ok t => exact (hstep t rfl).increasing
    | error e =>
      have hnone : publishTs es = [] := by simp [publishTs, hc.published_of_error]
      rw [publishTs_append, hnone, List.append_nil]
      exact (hi hold).1

/-- The last qualifying minute `q` of an hour, its window and the one that the
full hour opens: both are marked with minute `q` when the period leaves a rest. -/
def repeatingCalls (period : ℕ) : List Call :=
  let q : ℤ := 60 - 60 % period
  [60 * (q - 1), 60 * q, 60 * q + 4, 3600, 3604, 3600 + 60 * period].map fun secs =>
    ⟨secs, some ⟨215, 480⟩, 0⟩

theorem repeatingCalls_run : ∀ period < 60, 0 < period → ¬ period ∣ 60 →
    (∀ c ∈ repeatingCalls period, c.secs < 4294967296) ∧
      ∃ hr : ((wlab period).run (.ok wlabInit) (repeatingCalls period)).isSome,
        ¬ (publishTs (((wlab period).run (.ok wlabInit) (repeatingCalls period)).get hr).1).Pairwise
          (· < ·) := by
  decide +kernel

/-- Published sample times increase strictly in every run exactly for the
periods that divide the hour. -/
theorem publishTs_increasing_iff {period : ℕ} (h1 : 1 ≤ period) (h59 : period ≤ 59) :
    (∀ calls h x, (∀ c ∈ calls, c.secs < 4294967296) →
      (wlab period).Runs (.ok wlabInit) calls h x → (publishTs h).Pairwise (· < ·)) ↔
      period ∣ 60 := by
  constructor
  · intro hall
    by_contra hP
    obtain ⟨hsecs, hr, hnot⟩ := repeatingCalls_run period (by omega) h1 hP
    exact hnot (hall _ _ _ hsecs (Machine.runs_get hr))
  · intro hP calls h x hsecs hr
    exact (sampleInv_run hP hsecs hr).1

theorem five_minute_ts_increasing : [0, 300].Pairwise (fun a b : ℕ => a < b) := by
  have h := (publishTs_increasing_iff (by decide : 1 ≤ 5) (by decide)).mpr (by decide)
    [⟨180, some ⟨215, 480⟩, 0⟩, ⟨300, some ⟨216, 481⟩, 0⟩, ⟨304, some ⟨216, 481⟩, 0⟩,
      ⟨600, some ⟨216, 481⟩, 0⟩] _ _ (by decide) (Machine.runs_get (by decide +kernel))
  exact h

/-- Period 45: the windows published at 01:00 and at 01:45 both carry 00:45. -/
theorem period_45_ts_repeated :
    ¬ ∀ period calls h x, 1 ≤ period → period ≤ 59 → (∀ c ∈ calls, c.secs < 4294967296) →
      (wlab period).Runs (.ok wlabInit) calls h x → (publishTs h).Pairwise (· < ·) := by
  intro hall
  have h : [0, 2700, 2700].Pairwise (fun a b : ℕ => a < b) := by
    have h := hall 45 [⟨2640, some ⟨215, 480⟩, 0⟩, ⟨2700, some ⟨215, 480⟩, 0⟩,
      ⟨2704, some ⟨215, 480⟩, 0⟩, ⟨3600, some ⟨215, 480⟩, 0⟩, ⟨3604, some ⟨215, 480⟩, 0⟩,
      ⟨6300, some ⟨215, 480⟩, 0⟩] _ _ (by decide) (by decide) (by decide)
      (Machine.runs_get (by decide +kernel))
    exact h
  exact absurd h (by decide)

end WlabStation.Wlab
