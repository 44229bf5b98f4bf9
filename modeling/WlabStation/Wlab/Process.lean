import WlabStation.Machine.Run
import WlabStation.Wlab.Window

/-! `wlab_process` as a labelled machine. Each call receives the time and what
the sensor and the broker answer; the history records what the call did. -/
namespace WlabStation.Wlab

/-- The two `int16_t` values of a successful `dht2x_read`. -/
structure Reading where
  temp : Int16
  rh : Int16
  deriving DecidableEq, Repr

/-- One call of `wlab_process` and the answers it gets: `sensor` is `none` when
`dht2x_read` fails, `publishRc` is what a publish returns should there be one.
The `int64_t` time is unbounded: no clock comes near the ends of its range. -/
structure Call where
  secs : ℤ
  sensor : Option Reading
  publishRc : ℤ
  deriving DecidableEq, Repr

inductive Serie where
  | temperature
  | humidity
  deriving DecidableEq, Repr

/-- The four values and two times of one series in the published sample. -/
structure SerieArgs where
  avg : ℤ
  act : ℤ
  min : ℤ
  max : ℤ
  minTs : ℕ
  maxTs : ℕ
  deriving DecidableEq, Repr

/-- What `DHTJsonDataTemplate` is filled with, besides the device id. -/
structure SampleArgs where
  ts : ℕ
  temp : SerieArgs
  rh : SerieArgs
  deriving DecidableEq, Repr

inductive WlabEvent where
  | sensorRead (secs : ℤ) (reading : Option Reading)
  | commit (serie : Serie) (sample : Sample) (accepted : Bool)
  | publish (secs : ℤ) (args : SampleArgs) (rc : ℤ)
  | bufferInit (serie : Serie)
  deriving DecidableEq, Repr

/-- The statics of `wlab.c` that change while it runs. -/
structure WlabState where
  lastMinutes : ℕ
  lastSecs : ℤ
  temp : WlabBuffer
  rh : WlabBuffer
  deriving DecidableEq, Repr

/-- The state in which `wlab_init` leaves the statics. -/
def wlabInit : WlabState := ⟨0, 0, wlabBufferInit, wlabBufferInit⟩

/-- `CONFIG_WLAB_MEASURE_PERIOD`. -/
def measurePeriod : ℤ := 4

/-- `tm_min` as `gmtime_r` computes it. -/
def tmMin (secs : ℤ) : ℕ := (secs / 60 % 60).toNat

def serieArgs (b : WlabBuffer) : Except Fault SerieArgs := do
  let avg ← div32 b.buff b.cnt
  return ⟨avg, b.sampleTsVal, b.min, b.max, b.minTs, b.maxTs⟩

/-- `wlab_dht_publish_sample` up to the call of `mqtt_worker_publish_qos1`. -/
def wlabDhtPublishSample (temp rh : WlabBuffer) : Except Fault SampleArgs := do
  let t ← serieArgs temp
  let h ← serieArgs rh
  return ⟨temp.sampleTs, t, h⟩

/-- The condition of the publish branch. -/
def publishDue (period minutes lastMinutes : ℕ) : Except Fault Bool := do
  let r ← rem32 minutes period
  return r = 0 && minutes ≠ lastMinutes

/-- The publish branch: both averages are formed for the log and again for the
sample, and both buffers are reset whatever the publish returns. -/
def publishBranch (s : WlabState) (c : Call) : List WlabEvent × Except Fault WlabState :=
  let args := do
    let _ ← div32 s.temp.buff s.temp.cnt
    let _ ← div32 s.rh.buff s.rh.cnt
    wlabDhtPublishSample s.temp s.rh
  match args with
  | .error e => ([], .error e)
  | .ok args => ([.publish c.secs args c.publishRc, .bufferInit .temperature,
      .bufferInit .humidity],
      .ok { s with temp := wlabBufferInit, rh := wlabBufferInit, lastMinutes := tmMin c.secs })

/-- Thresholds of the two commits, in tenths. -/
def threshold : Serie → ℕ
  | .temperature => 8
  | .humidity => 40

def commitEvent (serie : Serie) (b : WlabBuffer) (x : Sample) : WlabEvent :=
  .commit serie x (¬ b.rejects x.val (threshold serie))

/-- The other branch commits the reading to both buffers. -/
def commitBranch (period : ℕ) (s : WlabState) (secs : ℤ) (r : Reading) :
    List WlabEvent × Except Fault WlabState :=
  let t : Sample := ⟨secs, r.temp.toInt⟩
  let h : Sample := ⟨secs, r.rh.toInt⟩
  match wlabBufferCommit period s.temp t.val t.ts (threshold .temperature) with
  | .error e => ([], .error e)
  | .ok (_, temp) =>
      match wlabBufferCommit period s.rh h.val h.ts (threshold .humidity) with
      | .error e => ([commitEvent .temperature s.temp t], .error e)
      | .ok (_, rh) => ([commitEvent .temperature s.temp t, commitEvent .humidity s.rh h],
          .ok { s with temp, rh })

/-- `wlab_process`. -/
def wlabProcess (period : ℕ) (s : WlabState) (c : Call) :
    List WlabEvent × Except Fault WlabState :=
  if c.secs - s.lastSecs < measurePeriod then ([], .ok s)
  else
    let s := { s with lastSecs := c.secs }
    match c.sensor with
    | none => ([.sensorRead c.secs none], .ok s)
    | some r =>
        let next : List WlabEvent × Except Fault WlabState :=
          match publishDue period (tmMin c.secs) s.lastMinutes with
          | .error e => ([], .error e)
          | .ok true => publishBranch s c
          | .ok false => commitBranch period s c.secs r
        (.sensorRead c.secs (some r) :: next.1, next.2)

/-- Runs of `wlab_process`; a fault ends the run. -/
def wlab (period : ℕ) : Machine (Except Fault WlabState) Call WlabEvent where
  step
    | .ok s, c => some (wlabProcess period s c)
    | .error _, _ => none

/-- The call passes the rate gate and reads the sensor. -/
def Reads (s : WlabState) (c : Call) : Prop := measurePeriod ≤ c.secs - s.lastSecs

theorem Reads.lt {s : WlabState} {c : Call} (h : Reads s c) : s.lastSecs + 4 ≤ c.secs := by
  unfold Reads measurePeriod at h
  omega

/-- The publish branch is selected, from the clock alone. -/
def Due (period : ℕ) (s : WlabState) (c : Call) : Prop :=
  tmMin c.secs % period = 0 ∧ tmMin c.secs ≠ s.lastMinutes

instance (s : WlabState) (c : Call) : Decidable (Reads s c) := by
  unfold Reads
  infer_instance

instance (period : ℕ) (s : WlabState) (c : Call) : Decidable (Due period s c) := by
  unfold Due
  infer_instance

/-- The arguments of a publish from buffers that are not empty. -/
def sampleArgs (temp rh : WlabBuffer) : SampleArgs :=
  let serie (b : WlabBuffer) : SerieArgs :=
    ⟨b.buff.tdiv b.cnt, b.sampleTsVal, b.min, b.max, b.minTs, b.maxTs⟩
  ⟨temp.sampleTs, serie temp, serie rh⟩

theorem publishDue_eq {period : ℕ} (hP : period ≠ 0) (s : WlabState) (c : Call) :
    publishDue period (tmMin c.secs) s.lastMinutes = .ok (decide (Due period s c)) := by
  rw [publishDue, rem32_eq_ok hP]
  change Except.ok (decide _ && decide _) = _
  rw [← Bool.decide_and]
  rfl

theorem publishBranch_eq (s : WlabState) (c : Call) : publishBranch s c =
    if s.temp.cnt = 0 ∨ s.rh.cnt = 0 then ([], .error .divByZero)
    else ([.publish c.secs (sampleArgs s.temp s.rh) c.publishRc, .bufferInit .temperature,
      .bufferInit .humidity],
      .ok ⟨tmMin c.secs, s.lastSecs, wlabBufferInit, wlabBufferInit⟩) := by
  unfold publishBranch
  by_cases ht : s.temp.cnt = 0
  · simp [ht, div32]
    rfl
  · by_cases hh : s.rh.cnt = 0
    · simp [ht, hh, div32]
      rfl
    · simp [ht, hh, div32, wlabDhtPublishSample, serieArgs]
      rfl

/-- What a commit leaves in a buffer when it does not fault. -/
def committed (period : ℕ) (serie : Serie) (b : WlabBuffer) (x : Sample) : WlabBuffer :=
  if b.rejects x.val (threshold serie) then b else b.push period x.val x.ts

/-- All that one call can do. -/
inductive ProcessCase (period : ℕ) (s : WlabState) (c : Call) :
    List WlabEvent → Except Fault WlabState → Prop where
  | skipped : ¬ Reads s c → ProcessCase period s c [] (.ok s)
  | failed : Reads s c → c.sensor = none →
      ProcessCase period s c [.sensorRead c.secs none] (.ok { s with lastSecs := c.secs })
  | zeroPeriod (r : Reading) : Reads s c → c.sensor = some r → period = 0 →
      ProcessCase period s c [.sensorRead c.secs (some r)] (.error .remByZero)
  | empty (r : Reading) : Reads s c → c.sensor = some r → Due period s c →
      s.temp.cnt = 0 ∨ s.rh.cnt = 0 →
      ProcessCase period s c [.sensorRead c.secs (some r)] (.error .divByZero)
  | published (r : Reading) : Reads s c → c.sensor = some r → Due period s c →
      s.temp.cnt ≠ 0 → s.rh.cnt ≠ 0 →
      ProcessCase period s c [.sensorRead c.secs (some r),
        .publish c.secs (sampleArgs s.temp s.rh) c.publishRc,
        .bufferInit .temperature, .bufferInit .humidity]
        (.ok ⟨tmMin c.secs, c.secs, wlabBufferInit, wlabBufferInit⟩)
  | zeroGrid (r : Reading) (es : List WlabEvent) : Reads s c → c.sensor = some r →
      ¬ Due period s c → u32 (60 * period) = 0 →
      es = [] ∨ es = [commitEvent .temperature s.temp ⟨c.secs, r.temp.toInt⟩] →
      ProcessCase period s c (.sensorRead c.secs (some r) :: es) (.error .remByZero)
  | committed (r : Reading) (t h : Sample) : Reads s c → c.sensor = some r → ¬ Due period s c →
      t = ⟨c.secs, r.temp.toInt⟩ → h = ⟨c.secs, r.rh.toInt⟩ →
      ProcessCase period s c [.sensorRead c.secs (some r), commitEvent .temperature s.temp t,
        commitEvent .humidity s.rh h]
        (.ok ⟨s.lastMinutes, c.secs, committed period .temperature s.temp t,
          committed period .humidity s.rh h⟩)

theorem commitBranch_cases {period : ℕ} {s : WlabState} {c : Call} {r : Reading}
    (hreads : Reads s c) (hs : c.sensor = some r) (hd : ¬ Due period s c) :
    let next := commitBranch period { s with lastSecs := c.secs } c.secs r
    ProcessCase period s c (.sensorRead c.secs (some r) :: next.1) next.2 := by
  simp only [commitBranch, wlabBufferCommit_eq]
  by_cases ht : u32 (60 * period) = 0 ∧
      ¬ s.temp.rejects r.temp.toInt (threshold .temperature) ∧ s.temp.sampleTsVal = INT32_MAX
  · simp only [if_pos ht]
    exact .zeroGrid r [] hreads hs hd ht.1 (.inl rfl)
  · simp only [if_neg ht]
    by_cases hh : u32 (60 * period) = 0 ∧
        ¬ s.rh.rejects r.rh.toInt (threshold .humidity) ∧ s.rh.sampleTsVal = INT32_MAX
    · simp only [if_pos hh]
      exact .zeroGrid r _ hreads hs hd hh.1 (.inr rfl)
    · simp only [if_neg hh]
      exact .committed r _ _ hreads hs hd rfl rfl

theorem wlabProcess_cases (period : ℕ) (s : WlabState) (c : Call) :
    ProcessCase period s c (wlabProcess period s c).1 (wlabProcess period s c).2 := by
  unfold wlabProcess
  by_cases hg : c.secs - s.lastSecs < measurePeriod
  · rw [if_pos hg]
    exact .skipped (not_le.mpr hg)
  rw [if_neg hg]
  have hreads : Reads s c := not_lt.mp hg
  cases hs : c.sensor with
  | none => exact .failed hreads hs
  | some r =>
    by_cases hP : period = 0
    · simp only [publishDue, rem32, if_pos hP]
      exact .zeroPeriod r hreads hs hP
    have hdue := publishDue_eq hP { s with lastSecs := c.secs } c
    by_cases hd : Due period { s with lastSecs := c.secs } c
    · simp only [hdue, hd, decide_true, publishBranch_eq]
      split_ifs with h0
      · exact .empty r hreads hs hd h0
      · obtain ⟨ht, hh⟩ := not_or.mp h0
        exact .published r hreads hs hd ht hh
    · simp only [hdue, hd, decide_false]
      exact commitBranch_cases hreads hs hd

/-- An enabled step starts in a state without a fault and is one of the cases. -/
theorem wlab_step_cases {period : ℕ} {x : Except Fault WlabState} {c : Call}
    {es : List WlabEvent} {y : Except Fault WlabState}
    (h : (wlab period).step x c = some (es, y)) : ∃ s, x = .ok s ∧ ProcessCase period s c es y := by
  cases x with
  | error e => simp [wlab] at h
  | ok s =>
    have hc := wlabProcess_cases period s c
    simp only [wlab, Option.some.injEq] at h
    rw [h] at hc
    exact ⟨s, rfl, hc⟩

end WlabStation.Wlab
