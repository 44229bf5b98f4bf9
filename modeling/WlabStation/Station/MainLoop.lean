import WlabStation.Station.Timestamp
import WlabStation.Wlab.Clock

/-! The main loop with explicit uptime: `wlab_process` on the clock of
`timestamp.c`, then `timestamp_update`, which may move that clock either way. -/
namespace WlabStation.Station
open Wlab

inductive Phase where
  | process
  | update
  deriving DecidableEq, Repr

/-- The loop stands before `k_sleep` or before `timestamp_update`. -/
structure StationState where
  uptime : ℤ
  clock : Timestamp
  wlab : Except Fault WlabState
  phase : Phase
  deriving DecidableEq, Repr

/-- The choices of the environment: how much longer than 200 ms the sleep takes,
what the sensor and the broker answer and how long that takes, what SNTP answers. -/
inductive StationAct where
  | process (oversleep : ℕ) (sensor : Option Reading) (publishRc : ℤ) (duration : ℕ)
  | update (sntp : Option ℤ) (duration : ℕ)
  deriving DecidableEq, Repr

inductive StationEvent where
  | called (uptime : ℤ) (trace : List WlabEvent)
  | updated (uptime : ℤ) (clock : Timestamp)
  deriving DecidableEq, Repr

/-- The uptime of the call after `k_sleep(K_MSEC(200))`. -/
def wakeUp (s : StationState) (oversleep : ℕ) : ℤ := s.uptime + 200 + oversleep

/-- The loop of `main` in normal mode. -/
def station (period : ℕ) : Machine StationState StationAct StationEvent where
  step s a :=
    match s.phase, s.wlab, a with
    | .process, .ok w, .process oversleep sensor publishRc duration =>
        let now := wakeUp s oversleep
        let r := wlabProcess period w ⟨timestampGet s.clock now, sensor, publishRc⟩
        some ([.called now r.1],
          { s with uptime := now + duration, wlab := r.2, phase := .update })
    | .update, .ok _, .update sntp duration =>
        let r := timestampUpdate s.clock s.uptime sntp duration
        some ([.updated r.2 r.1], { s with uptime := r.2, clock := r.1, phase := .process })
    | _, _, _ => none

/-- The loop as it is entered, some time after `timestamp_init` had its answer. -/
def stationInit (clock : Timestamp) (uptime : ℤ) : StationState :=
  ⟨uptime, clock, .ok wlabInit, .process⟩

/-- Uptime of the last call that read the sensor. -/
def lastReadUptime (h : List StationEvent) : Option ℤ :=
  (h.filterMap fun
    | .called uptime trace => if readSecs trace = [] then none else some uptime
    | .updated _ _ => none).getLast?

/-- A call made 5 s of uptime after the last sensor read reads the sensor. -/
def SamplesAgain (period : ℕ) (x : List StationEvent × StationState) (a : StationAct) : Prop :=
  match x.2.phase, x.2.wlab, a with
  | .process, .ok w, .process oversleep sensor publishRc _ =>
      ∀ u ∈ lastReadUptime x.1, u + 5000 ≤ wakeUp x.2 oversleep →
        readSecs (wlabProcess period w
          ⟨timestampGet x.2.clock (wakeUp x.2 oversleep), sensor, publishRc⟩).1 ≠ []
  | _, _, _ => True

/-- Where the clock of a new sync stands when the next read is due, or when the
loop comes round if that is later: 4 s past the time of the last read at least. -/
def KeepsPace (x : List StationEvent × StationState) (a : StationAct) : Prop :=
  match x.2.phase, x.2.wlab, a with
  | .update, .ok w, .update (some seconds) duration =>
      Stale x.2.clock x.2.uptime → ∀ u ∈ lastReadUptime x.1,
        w.lastSecs + measurePeriod ≤ timestampGet ⟨x.2.uptime + duration, seconds⟩
          (max (u + 5000) (x.2.uptime + duration + 200))
  | _, _, _ => True

instance (period : ℕ) (x : List StationEvent × StationState) (a : StationAct) :
    Decidable (SamplesAgain period x a) := by
  unfold SamplesAgain
  split <;> infer_instance

instance (x : List StationEvent × StationState) (a : StationAct) : Decidable (KeepsPace x a) := by
  unfold KeepsPace
  split <;> infer_instance

/-- All that one step of the loop can do. -/
inductive StationCase (period : ℕ) (s : StationState) :
    StationAct → List StationEvent → StationState → Prop where
  | process (w : WlabState) (oversleep : ℕ) (c : Call) (duration : ℕ) : s.phase = .process →
      s.wlab = .ok w → c.secs = timestampGet s.clock (wakeUp s oversleep) →
      StationCase period s (.process oversleep c.sensor c.publishRc duration)
        [.called (wakeUp s oversleep) (wlabProcess period w c).1]
        ⟨wakeUp s oversleep + duration, s.clock, (wlabProcess period w c).2, .update⟩
  | update (w : WlabState) (sntp : Option ℤ) (duration : ℕ) (clock : Timestamp) (uptime : ℤ) :
      s.phase = .update → s.wlab = .ok w →
      timestampUpdate s.clock s.uptime sntp duration = (clock, uptime) →
      StationCase period s (.update sntp duration) [.updated uptime clock]
        ⟨uptime, clock, s.wlab, .process⟩

theorem station_step_cases {period : ℕ} {s t : StationState} {a : StationAct}
    {es : List StationEvent} (h : (station period).step s a = some (es, t)) :
    StationCase period s a es t := by
  obtain ⟨uptime, clock, wlab, phase⟩ := s
  cases wlab with
  | error e => cases phase <;> cases a <;> simp [station] at h
  | ok w =>
    cases phase with
    | process =>
      cases a with
      | process oversleep sensor publishRc duration =>
        simp only [station, Option.some.injEq, Prod.mk.injEq] at h
        obtain ⟨rfl, rfl⟩ := h
        exact .process w oversleep ⟨_, sensor, publishRc⟩ duration rfl rfl rfl
      | update sntp duration => simp [station] at h
    | update =>
      cases a with
      | process oversleep sensor publishRc duration => simp [station] at h
      | update sntp duration =>
        simp only [station, Option.some.injEq, Prod.mk.injEq] at h
        obtain ⟨rfl, rfl⟩ := h
        exact .update w sntp duration _ _ rfl rfl rfl

theorem readSecs_eq_nil_iff (period : ℕ) (w : WlabState) (c : Call) :
    readSecs (wlabProcess period w c).1 = [] ↔ ¬ Reads w c := by
  have hc := (wlabProcess_cases period w c).clock
  generalize (wlabProcess period w c).1 = es at hc
  cases hc with
  | skipped hg he hy => simp [he, hg, readSecs]
  | read hg hr hp hy => simp [hr, hg]
  | published hg hr hp hd hy => simp [hr, hg]

theorem lastReadUptime_called (h : List StationEvent) (uptime : ℤ) (trace : List WlabEvent) :
    lastReadUptime (h ++ [.called uptime trace]) =
      if readSecs trace = [] then lastReadUptime h else some uptime := by
  unfold lastReadUptime
  split_ifs with hr <;> simp [hr]

theorem lastReadUptime_updated (h : List StationEvent) (uptime : ℤ) (clock : Timestamp) :
    lastReadUptime (h ++ [.updated uptime clock]) = lastReadUptime h := by
  simp [lastReadUptime]

/-- From the next possible call on, the clock is 4 s past the time of the last
read once 5 s of uptime have passed since that read. -/
structure Paced (h : List StationEvent) (s : StationState) : Prop where
  synced : s.clock.uptimeSyncMs ≤ s.uptime
  past : ∀ u, lastReadUptime h = some u → u ≤ s.uptime
  pace : ∀ w u v, s.wlab = .ok w → lastReadUptime h = some u → u + 5000 ≤ v →
    s.uptime + 200 ≤ v → w.lastSecs + measurePeriod ≤ timestampGet s.clock v

theorem paced_init {clock : Timestamp} {uptime : ℤ} (h : clock.uptimeSyncMs ≤ uptime) :
    Paced [] (stationInit clock uptime) where
  synced := h
  past _ hu := by cases hu
  pace _ _ _ _ hu := by cases hu

/-- A read sets the pace: until the next sync the clock runs with the uptime. -/
theorem Paced.process {period : ℕ} {h : List StationEvent} {s : StationState} {w : WlabState}
    {oversleep duration : ℕ} {c : Call} (hi : Paced h s) (hw : s.wlab = .ok w)
    (hc : c.secs = timestampGet s.clock (wakeUp s oversleep)) :
    Paced (h ++ [.called (wakeUp s oversleep) (wlabProcess period w c).1])
      ⟨wakeUp s oversleep + duration, s.clock, (wlabProcess period w c).2, .update⟩ := by
  have hsync := hi.synced
  have hwake : s.uptime + 200 ≤ wakeUp s oversleep := by
    unfold wakeUp
    omega
  constructor
  case synced =>
    simp only
    omega
  case past =>
    intro u hu
    rw [lastReadUptime_called] at hu
    split_ifs at hu with hr
    · have := hi.past u hu
      simp only
      omega
    · cases hu
      simp only
      omega
  case pace =>
    intro w' u v hw' hu huv hv
    rw [lastReadUptime_called] at hu
    simp only at hw' hv ⊢
    have hcase := (wlabProcess_cases period w c).clock
    rw [hw'] at hcase
    split_ifs at hu with hr
    · rw [readSecs_eq_nil_iff] at hr
      cases hcase with
      | skipped hg he hy =>
        obtain rfl := Except.ok.inj hy
        exact hi.pace w' u v hw hu huv (by omega)
      | read hg => exact absurd hg hr
      | published hg => exact absurd hg hr
    · cases hu
      rw [readSecs_eq_nil_iff, not_not] at hr
      have hlast : w'.lastSecs = c.secs := by
        cases hcase with
        | skipped hg => exact absurd hr hg
        | read hg hrs hp hy => exact (hy w' rfl).1
        | published hg hrs hp hd hy => exact (hy w' rfl).1
      have hadd : timestampGet s.clock (wakeUp s oversleep + 1000 * (5 : ℕ)) =
          timestampGet s.clock (wakeUp s oversleep) + (5 : ℕ) :=
        timestampGet_add (by omega) 5
      have hmono : timestampGet s.clock (wakeUp s oversleep + 1000 * (5 : ℕ)) ≤
          timestampGet s.clock v :=
        timestampGet_mono (by omega) (by omega)
      rw [hlast, hc]
      unfold measurePeriod
      omega

/-- An update keeps the pace unless it installs a clock that lags behind it. -/
theorem Paced.update {h : List StationEvent} {s : StationState} {w : WlabState}
    {sntp : Option ℤ} {duration : ℕ} (hi : Paced h s) (hp : s.phase = .update)
    (hw : s.wlab = .ok w) (hk : KeepsPace (h, s) (.update sntp duration)) {clock : Timestamp}
    {uptime : ℤ} (ht : timestampUpdate s.clock s.uptime sntp duration = (clock, uptime)) :
    Paced (h ++ [.updated uptime clock]) ⟨uptime, clock, s.wlab, .process⟩ := by
  have hsync := timestampUpdate_le hi.synced sntp duration
  rw [ht] at hsync
  have hgrow : s.uptime ≤ uptime := by
    have huptime := congrArg Prod.snd ht
    unfold timestampUpdate at huptime
    split_ifs at huptime <;> simp only at huptime <;> omega
  constructor
  case synced => exact hsync
  case past =>
    intro u hu
    rw [lastReadUptime_updated] at hu
    exact (hi.past u hu).trans hgrow
  case pace =>
    intro w' u v hw' hu huv hv
    rw [lastReadUptime_updated] at hu
    simp only at hw' hv ⊢
    unfold timestampUpdate at ht
    split_ifs at ht with hstale
    · cases sntp with
      | none =>
        cases ht
        exact hi.pace w' u v hw' hu huv (by omega)
      | some seconds =>
        cases ht
        simp only [KeepsPace, hp, hw] at hk
        obtain rfl : w = w' := Except.ok.inj (hw.symm.trans hw')
        apply (hk hstale u hu).trans
        exact timestampGet_mono (by simp only; omega) (by omega)
    · cases ht
      exact hi.pace w' u v hw' hu huv (by omega)

theorem Paced.step {period : ℕ} {h : List StationEvent} {s t : StationState} {a : StationAct}
    {es : List StationEvent} (hi : Paced h s) (hk : KeepsPace (h, s) a)
    (hs : (station period).step s a = some (es, t)) : Paced (h ++ es) t := by
  cases station_step_cases hs with
  | process w oversleep c duration hp hw hc => exact hi.process hw hc
  | update w sntp duration clock uptime hp hw ht => exact hi.update hp hw hk ht

theorem Paced.samplesAgain {period : ℕ} {h : List StationEvent} {s : StationState}
    (hi : Paced h s) (a : StationAct) : SamplesAgain period (h, s) a := by
  unfold SamplesAgain
  split
  next w oversleep sensor publishRc duration hp hw =>
    intro u hu hlate
    rw [ne_eq, readSecs_eq_nil_iff, not_not]
    have hpace := hi.pace w u _ hw hu hlate (by simp only [wakeUp]; omega)
    unfold Reads
    simp only at hpace ⊢
    omega
  next => trivial

/-- A sync that falls behind the pace is followed by a call 5 s after the last
read, or by the next one if that is later, that does not read. -/
theorem not_samplesAgain_of_not_keepsPace {period : ℕ} {h : List StationEvent}
    {s t : StationState} {a : StationAct} {es : List StationEvent}
    (hs : (station period).step s a = some (es, t)) (hk : ¬ KeepsPace (h, s) a) :
    ∃ b, ¬ SamplesAgain period (h ++ es, t) b := by
  cases station_step_cases hs with
  | process w oversleep c duration hp hw hc => simp [KeepsPace, hp] at hk
  | update w sntp duration clock uptime hp hw ht =>
    cases sntp with
    | none => simp [KeepsPace, hp, hw] at hk
    | some seconds =>
      simp only [KeepsPace, hp, hw, not_forall] at hk
      obtain ⟨hstale, u, hu, hlag⟩ := hk
      rw [timestampUpdate, if_pos hstale] at ht
      cases ht
      obtain ⟨k, hk⟩ := Int.eq_ofNat_of_zero_le (show 0 ≤
        max (u + 5000) (s.uptime + duration + 200) - (s.uptime + duration + 200) by omega)
      have hwake : wakeUp ⟨s.uptime + duration, ⟨s.uptime + duration, seconds⟩, .ok w, .process⟩ k =
          max (u + 5000) (s.uptime + duration + 200) := by
        simp only [wakeUp]
        omega
      refine ⟨.process k none 0 0, fun hagain => ?_⟩
      simp only [SamplesAgain, hw, timestampSync, lastReadUptime_updated, hwake] at hagain
      have hread := hagain u hu (le_max_left _ _)
      rw [ne_eq, readSecs_eq_nil_iff, not_not, Reads] at hread
      simp only at hread
      omega

/-- Sampling goes on in every run whose syncs keep the pace, and a sync that
does not keep it is fatal to some continuation of the run. -/
theorem sampling_survives_of_keepsPace {period : ℕ} {clock : Timestamp} {uptime : ℤ}
    (hsync : clock.uptimeSyncMs ≤ uptime) (acts : List StationAct) :
    ((station period).traced.EachStep KeepsPace ([], stationInit clock uptime) acts →
      (station period).traced.EachStep (SamplesAgain period) ([], stationInit clock uptime) acts) ∧
    ∀ h s a es t, (station period).Runs (stationInit clock uptime) acts h s →
      (station period).step s a = some (es, t) → ¬ KeepsPace (h, s) a →
      ∃ b, ¬ SamplesAgain period (h ++ es, t) b := by
  constructor
  · exact Machine.EachStep.of_traced_invariant (I := Paced) (paced_init hsync)
      (fun _ _ _ _ _ hi hk hs => hi.step hk hs) fun _ _ a hi _ => hi.samplesAgain a
  · exact fun h s a es t _ hs hk => not_samplesAgain_of_not_keepsPace hs hk

/-- A sync 400 s after the last one that sets the clock one second ahead. -/
theorem sampling_survives_small_correction : (station 5).traced.EachStep (SamplesAgain 5)
    ([], stationInit ⟨0, 1700000060⟩ 400000)
    [.process 0 (some ⟨215, 480⟩) 0 70, .update (some 1700000461) 50, .process 4800 none 0 70] :=
  (sampling_survives_of_keepsPace (by decide) _).1 (by decide +kernel)

/-- A clock an hour ahead is corrected: 5 s after the last read there is no read. -/
theorem correction_stops_sampling :
    ¬ ∀ period clock uptime acts, 1 ≤ period → clock.uptimeSyncMs ≤ uptime →
      (station period).traced.EachStep (SamplesAgain period) ([], stationInit clock uptime)
        acts := by
  intro hall
  have h := hall 5 ⟨0, 1700003660⟩ 400000
    [.process 0 (some ⟨215, 480⟩) 0 70, .update (some 1700000460) 50, .process 4800 none 0 70]
    (by decide) (by decide)
  exact absurd h (by decide +kernel)

end WlabStation.Station
