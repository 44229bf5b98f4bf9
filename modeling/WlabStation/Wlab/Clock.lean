import WlabStation.Wlab.Process

/-! The clock side of `wlab_process`: when the sensor is read and when a sample
is published. Nothing here depends on the period or on the buffers. -/
namespace WlabStation.Wlab

/-- Times of the sensor reads, failed ones included. -/
def readSecs (h : List WlabEvent) : List ℤ :=
  h.filterMap fun
    | .sensorRead secs _ => some secs
    | _ => none

/-- Times of the publish attempts. -/
def publishSecs (h : List WlabEvent) : List ℤ :=
  h.filterMap fun
    | .publish secs _ _ => some secs
    | _ => none

/-- Minute of the hour of the last publish attempt, 0 before the first. -/
def lastPublishMinute (h : List WlabEvent) : ℕ :=
  ((publishSecs h).getLast?.map tmMin).getD 0

@[simp] theorem readSecs_append (h k : List WlabEvent) :
    readSecs (h ++ k) = readSecs h ++ readSecs k := List.filterMap_append

@[simp] theorem publishSecs_append (h k : List WlabEvent) :
    publishSecs (h ++ k) = publishSecs h ++ publishSecs k := List.filterMap_append

/-- What a call does to the clock: nothing, a read, or a read with a publish. -/
inductive ClockCase (period : ℕ) (s : WlabState) (c : Call) (es : List WlabEvent)
    (y : Except Fault WlabState) : Prop where
  | skipped : ¬ Reads s c → es = [] → y = .ok s → ClockCase period s c es y
  | read : Reads s c → readSecs es = [c.secs] → publishSecs es = [] →
      (∀ t, y = .ok t → t.lastSecs = c.secs ∧ t.lastMinutes = s.lastMinutes) →
      ClockCase period s c es y
  | published : Reads s c → readSecs es = [c.secs] → publishSecs es = [c.secs] →
      Due period s c → (∀ t, y = .ok t → t.lastSecs = c.secs ∧ t.lastMinutes = tmMin c.secs) →
      ClockCase period s c es y

theorem ProcessCase.clock {period : ℕ} {s : WlabState} {c : Call} {es : List WlabEvent}
    {y : Except Fault WlabState} (h : ProcessCase period s c es y) :
    ClockCase period s c es y := by
  cases h with
  | skipped hg => exact .skipped hg rfl rfl
  | failed hg hs =>
    refine .read hg rfl rfl fun t ht => ?_
    cases ht
    exact ⟨rfl, rfl⟩
  | zeroPeriod r hg hs hP => exact .read hg rfl rfl fun t ht => by cases ht
  | empty r hg hs hd h0 => exact .read hg rfl rfl fun t ht => by cases ht
  | published r hg hs hd ht hh =>
    refine .published hg rfl rfl hd fun t ht => ?_
    cases ht
    exact ⟨rfl, rfl⟩
  | zeroGrid r es hg hs hd hG he =>
    rcases he with rfl | rfl <;> exact .read hg rfl rfl fun t ht => by cases ht
  | committed r t h hg hs hd ht hh =>
    refine .read hg rfl rfl fun u hu => ?_
    cases hu
    exact ⟨rfl, rfl⟩

/-- The invariant that ties the one remembered minute to the monotone gate: a
publish in the current UTC minute is still the one `last_minutes` remembers. -/
structure ClockInv (h : List WlabEvent) (x : Except Fault WlabState) : Prop where
  reads : (readSecs h).Pairwise fun a b => a + measurePeriod ≤ b
  publishes : (publishSecs h).Pairwise fun a b => a / 60 < b / 60
  readsLe : ∀ s, x = .ok s → ∀ t ∈ readSecs h, t ≤ s.lastSecs
  publishesLe : ∀ s, x = .ok s → ∀ t ∈ publishSecs h,
    t ≤ s.lastSecs ∧ (t / 60 = s.lastSecs / 60 → tmMin t = s.lastMinutes)
  lastMinutes : ∀ s, x = .ok s → s.lastMinutes = lastPublishMinute h

theorem clockInv_init : ClockInv [] (.ok wlabInit) where
  reads := List.Pairwise.nil
  publishes := List.Pairwise.nil
  readsLe _ _ _ ht := by cases ht
  publishesLe _ _ _ ht := by cases ht
  lastMinutes s hs := by
    cases hs
    rfl

theorem tmMin_congr {a b : ℤ} (h : a / 60 = b / 60) : tmMin a = tmMin b := by
  unfold tmMin
  rw [h]

theorem ClockInv.reads_concat {h : List WlabEvent} {s : WlabState} {c : Call}
    {es : List WlabEvent} (hi : ClockInv h (.ok s)) (hg : Reads s c)
    (hr : readSecs es = [c.secs]) :
    (readSecs (h ++ es)).Pairwise (fun a b => a + measurePeriod ≤ b) ∧
      ∀ a ∈ readSecs (h ++ es), a ≤ c.secs := by
  have hle := hi.readsLe s rfl
  have hlt := hg.lt
  rw [readSecs_append, hr]
  constructor
  · rw [List.pairwise_append]
    refine ⟨hi.reads, List.pairwise_singleton _ _, fun a ha b hb => ?_⟩
    have := hle a ha
    obtain rfl := List.mem_singleton.mp hb
    unfold measurePeriod
    omega
  · intro a ha
    rw [List.mem_append, List.mem_singleton] at ha
    rcases ha with ha | rfl
    · have := hle a ha
      omega
    · exact le_rfl

theorem ClockInv.step {period : ℕ} {h : List WlabEvent} {s : WlabState} {c : Call}
    {es : List WlabEvent} {y : Except Fault WlabState} (hi : ClockInv h (.ok s))
    (hc : ClockCase period s c es y) : ClockInv (h ++ es) y := by
  have hpub := hi.publishesLe s rfl
  cases hc with
  | skipped hg he hy =>
    subst he hy
    simpa using hi
  | read hg hr hp hy =>
    have hlt := hg.lt
    obtain ⟨hreads, hreadsLe⟩ := hi.reads_concat hg hr
    constructor
    case reads => exact hreads
    case publishes => simpa [hp] using hi.publishes
    case readsLe =>
      intro t ht
      rw [(hy t ht).1]
      exact hreadsLe
    case publishesLe =>
      intro t ht a ha
      rw [publishSecs_append, hp, List.append_nil] at ha
      obtain ⟨ha1, ha2⟩ := hpub a ha
      rw [(hy t ht).1, (hy t ht).2]
      exact ⟨by omega, fun he => ha2 (by omega)⟩
    case lastMinutes =>
      intro t ht
      rw [(hy t ht).2, hi.lastMinutes s rfl]
      simp [lastPublishMinute, hp]
  | published hg hr hp hd hy =>
    have hlt := hg.lt
    obtain ⟨hreads, hreadsLe⟩ := hi.reads_concat hg hr
    constructor
    case reads => exact hreads
    case publishes =>
      rw [publishSecs_append, hp, List.pairwise_append]
      refine ⟨hi.publishes, List.pairwise_singleton _ _, fun a ha b hb => ?_⟩
      obtain rfl := List.mem_singleton.mp hb
      obtain ⟨ha1, ha2⟩ := hpub a ha
      have hne : a / 60 ≠ c.secs / 60 := by
        intro he
        apply hd.2
        rw [← tmMin_congr he]
        exact ha2 (by omega)
      omega
    case readsLe =>
      intro t ht
      rw [(hy t ht).1]
      exact hreadsLe
    case publishesLe =>
      intro t ht a ha
      rw [(hy t ht).1, (hy t ht).2]
      rw [publishSecs_append, hp, List.mem_append, List.mem_singleton] at ha
      rcases ha with ha | rfl
      · have := (hpub a ha).1
        exact ⟨by omega, tmMin_congr⟩
      · exact ⟨le_rfl, fun _ => rfl⟩
    case lastMinutes =>
      intro t ht
      rw [(hy t ht).2]
      simp [lastPublishMinute, hp]

theorem clockInv_run {period : ℕ} {calls : List Call} {h : List WlabEvent}
    {x : Except Fault WlabState} (hr : (wlab period).Runs (.ok wlabInit) calls h x) :
    ClockInv h x := by
  refine Machine.Runs.invariant clockInv_init ?_ hr
  intro h t a es u hi hs
  obtain ⟨s, rfl, hc⟩ := wlab_step_cases hs
  exact hi.step hc.clock

/-- The last time of a run stays below a bound on the times of its calls. -/
theorem lastSecs_lt {period : ℕ} {calls : List Call} {h : List WlabEvent} {s : WlabState} {T : ℤ}
    (hT : 0 < T) (hsecs : ∀ c ∈ calls, c.secs < T)
    (hr : (wlab period).Runs (.ok wlabInit) calls h (.ok s)) : s.lastSecs < T := by
  refine Machine.Runs.induction
    (I := fun calls _ x => (∀ c ∈ calls, c.secs < T) → ∀ s, x = .ok s → s.lastSecs < T)
    (fun _ s hs => ?_) ?_ hr hsecs s rfl
  · cases hs
    exact hT
  · rintro calls h x c es y - hi hs hsecs t rfl
    obtain ⟨s, rfl, hc⟩ := wlab_step_cases hs
    have hl := hi (fun c' hc' => hsecs c' (by simp [hc'])) s rfl
    have hcT := hsecs c (by simp)
    cases hc.clock with
    | skipped hg he hy =>
      cases hy
      exact hl
    | read hg hr hp hy => simpa only [(hy t rfl).1] using hcT
    | published hg hr hp hd hy => simpa only [(hy t rfl).1] using hcT

/-- Sensor reads are at least four seconds apart, and no two publish attempts
of a run fall in one UTC minute, whatever times the calls are given. -/
theorem reads_spaced_publishes_apart (period : ℕ) (calls : List Call) {h : List WlabEvent}
    {x : Except Fault WlabState} (hr : (wlab period).Runs (.ok wlabInit) calls h x) :
    (readSecs h).Pairwise (fun a b => a + 4 ≤ b) ∧
      (publishSecs h).Pairwise (fun a b => a / 60 ≠ b / 60) :=
  ⟨(clockInv_run hr).reads, (clockInv_run hr).publishes.imp fun hab => hab.ne⟩

/-- The clock is set back by five minutes between the two publishes. -/
theorem publishes_apart_after_setback :
    [421, 600, 604, 900].Pairwise (fun a b : ℤ => a + 4 ≤ b) ∧
      [600, 900].Pairwise (fun a b : ℤ => a / 60 ≠ b / 60) := by
  have h := reads_spaced_publishes_apart 5 [⟨421, some ⟨-15, 402⟩, 0⟩,
    ⟨600, some ⟨-14, 402⟩, 0⟩, ⟨604, some ⟨-14, 402⟩, 0⟩, ⟨300, some ⟨-14, 402⟩, 0⟩,
    ⟨900, some ⟨-14, 402⟩, 0⟩] (Machine.runs_get (by decide +kernel))
  exact h

end WlabStation.Wlab
