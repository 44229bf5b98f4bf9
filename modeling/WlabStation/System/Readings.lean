import WlabStation.System.Components
import WlabStation.Wlab.Clock
import WlabStation.Wlab.History
import WlabStation.Wlab.Payload

/-! What the sensor has measured since the last publish, from the history of the
whole station, and what the two series have of it. -/
namespace WlabStation.System
open Machine Wlab Station Mqtt Network Sensor Settings

/-- A call of `dht2x_read` that returned 0 counts, with the time of the call of
`wlab_process` that made it; with a publish, whatever it returns, nothing is left. -/
def readingStep (m : Option ReadResult × List (ℤ × Reading)) :
    SystemEvent → Option ReadResult × List (ℤ × Reading)
  | .sensor r => (some r, m.2)
  | .wlab (.sensorRead secs _) =>
      (none, m.2 ++ ((m.1.bind readingOf).map fun x => (secs, x)).toList)
  | .wlab (.publish _ _ _) => (m.1, [])
  | _ => m

/-- The successful readings since the last publish, in order. -/
def readingsSince (h : List SystemEvent) : List (ℤ × Reading) := (h.foldl readingStep (none, [])).2

/-- The readings that the filter of a series lets pass, each one judged by those before. -/
def accepted (period : ℕ) (serie : Serie) (rs : List (ℤ × Reading)) : List Sample :=
  rs.foldl (fun w r => offer serie (summary period w) w ⟨r.1, r.2.value serie⟩) []

theorem accepted_concat (period : ℕ) (serie : Serie) (rs : List (ℤ × Reading))
    (r : ℤ × Reading) : accepted period serie (rs ++ [r]) =
      offer serie (summary period (accepted period serie rs)) (accepted period serie rs)
        ⟨r.1, r.2.value serie⟩ := by
  unfold accepted
  rw [List.foldl_append, List.foldl_cons, List.foldl_nil]

theorem mem_offer {serie : Serie} {b : WlabBuffer} {w : List Sample} {x y : Sample}
    (hy : y ∈ offer serie b w x) : y ∈ w ∨ y = x := by
  unfold offer at hy
  split_ifs at hy
  · exact .inl hy
  · simpa using hy

theorem readingStep_quiet {e : SystemEvent} (hw : wlabOf e = []) (hs : sensorOf e = [])
    (m : Option ReadResult × List (ℤ × Reading)) : readingStep m e = m := by
  cases e with
  | wlab e => cases hw
  | sensor r => cases hs
  | _ => rfl

/-- Events of other parties. -/
theorem readingsSince_quiet {h es : List SystemEvent}
    (hes : ∀ e ∈ es, wlabOf e = [] ∧ sensorOf e = []) :
    readingsSince (h ++ es) = readingsSince h := by
  have hfixed : ∀ e ∈ es, ∀ m, readingStep m e = m :=
    fun e he => readingStep_quiet (hes e he).1 (hes e he).2
  rw [readingsSince, foldl_append_of_fixed hfixed, readingsSince]

/-- A call of `wlab_process` that has read the sensor, and what it did then. -/
theorem readingsSince_read (h : List SystemEvent) (r : ReadResult) (secs : ℤ)
    (x : Option Reading) (ds : List WlabEvent) :
    readingsSince (h ++ .sensor r :: .wlab (.sensorRead secs x) :: ds.map .wlab) =
      ((ds.map SystemEvent.wlab).foldl readingStep
        (none, readingsSince h ++ ((readingOf r).map fun x => (secs, x)).toList)).2 := by
  rw [readingsSince, List.foldl_append]
  rfl

/-- The buffers have accepted from the sensor what the filter lets pass, no less and no more. -/
def Tracked (period : ℕ) (h : List SystemEvent) : Prop :=
  ∀ serie, window serie (h.flatMap wlabOf) = accepted period serie (readingsSince h)

theorem Tracked.quiet {period : ℕ} {h es : List SystemEvent} (ht : Tracked period h)
    (hes : ∀ e ∈ es, wlabOf e = [] ∧ sensorOf e = []) : Tracked period (h ++ es) := by
  intro serie
  have hwlab : es.flatMap wlabOf = [] := List.flatMap_eq_nil_iff.mpr fun e he => (hes e he).1
  rw [readingsSince_quiet hes, List.flatMap_append, hwlab, List.append_nil, ht serie]

/-- A call of `wlab_process` that reads the sensor and does not fault. -/
theorem Tracked.process {period : ℕ} {h : List SystemEvent} (ht : Tracked period h)
    {s t : WlabState} (hinv : WindowInv period (h.flatMap wlabOf) s) {c : Call} {r : ReadResult}
    (hr : c.sensor = readingOf r) (hreads : Reads s c) {ds : List WlabEvent}
    (hc : ProcessCase period s c ds (.ok t)) :
    Tracked period (h ++ .sensor r :: ds.map .wlab) := by
  intro serie
  have hwlab : (h ++ SystemEvent.sensor r :: ds.map .wlab).flatMap wlabOf =
      h.flatMap wlabOf ++ ds := by simp [wlabOf, List.flatMap_map]
  have hw := ht serie
  rw [hwlab]
  generalize hy : Except.ok t = y at hc
  cases hc with
  | skipped hskip => exact absurd hreads hskip
  | failed hg hs =>
    rw [hs] at hr
    have hsince := readingsSince_read h r c.secs none []
    rw [← hr] at hsince
    have hsame : window serie (h.flatMap wlabOf ++ [.sensorRead c.secs none]) =
        window serie (h.flatMap wlabOf) := by
      rw [window_append, List.foldl_cons, List.foldl_nil, windowStep_sensorRead]
    rw [hsame, hw]
    exact congrArg _ (hsince.trans (List.append_nil _)).symm
  | zeroPeriod x hg hs hP => cases hy
  | empty x hg hs hd h0 => cases hy
  | published x hg hs hd hemp hemp' =>
    have hsince := readingsSince_read h r c.secs (some x)
      [.publish c.secs (sampleArgs s.temp s.rh) c.publishRc, .bufferInit .temperature,
        .bufferInit .humidity]
    have hempty : window serie (h.flatMap wlabOf ++ [.sensorRead c.secs (some x),
        .publish c.secs (sampleArgs s.temp s.rh) c.publishRc, .bufferInit .temperature,
        .bufferInit .humidity]) = [] := by
      cases serie <;> simp [window_append, windowStep]
    rw [hempty]
    exact (congrArg (accepted period serie) hsince).symm
  | zeroGrid x es hg hs hd hG he => cases hy
  | committed x t' y' hg hs hd htemp hrh =>
    rw [hs] at hr
    subst htemp hrh
    have hsince := readingsSince_read h r c.secs (some x)
      [commitEvent .temperature s.temp ⟨c.secs, x.temp.toInt⟩,
        commitEvent .humidity s.rh ⟨c.secs, x.rh.toInt⟩]
    rw [← hr] at hsince
    have hoffer : window serie (h.flatMap wlabOf ++ [.sensorRead c.secs (some x),
        commitEvent .temperature s.temp ⟨c.secs, x.temp.toInt⟩,
        commitEvent .humidity s.rh ⟨c.secs, x.rh.toInt⟩]) =
        offer serie (s.buffer serie) (window serie (h.flatMap wlabOf))
          ⟨c.secs, x.value serie⟩ := by
      cases serie <;> simp [window_append, windowStep_sensorRead, windowStep_commitEvent,
        WlabState.buffer, Reading.value]
    rw [hoffer, hinv.buffer, hw]
    exact ((congrArg (accepted period serie) hsince).trans (accepted_concat _ _ _ _)).symm

/-- The values of a series that aggregate the readings `w`. -/
structure Aggregates (w : List Sample) (a : SerieArgs) : Prop where
  avg : a.avg = (w.map Sample.val).sum.tdiv w.length
  act : w.head?.map Sample.val = some a.act
  min : IsLeast {v | v ∈ w.map Sample.val} a.min
  max : IsGreatest {v | v ∈ w.map Sample.val} a.max
  minTs : ∃ x, w.find? (fun x => x.val = a.min) = some x ∧ a.minTs = floorTo 60 x.ts
  maxTs : ∃ x, w.find? (fun x => x.val = a.max) = some x ∧ a.maxTs = floorTo 60 x.ts

/-- Aggregates of 16-bit values are 16 bits wide. -/
theorem Aggregates.inRange {w : List Sample} {a : SerieArgs} (ha : Aggregates w a)
    (hw : ∀ x ∈ w, InInt16 x.val) : a.InRange := by
  have hval : ∀ v ∈ w.map Sample.val, InInt16 v := by simpa using hw
  have hfloor : ∀ x : Sample, floorTo 60 x.ts < 4294967296 := by
    intro x
    have hts : x.ts < 4294967296 := by
      unfold Sample.ts u32
      omega
    exact (floorTo_le 60 x.ts).trans_lt hts
  obtain ⟨x, hx, hact⟩ := Option.map_eq_some_iff.mp ha.act
  have hmem := List.mem_of_head? hx
  have hpos := List.length_pos_of_mem hmem
  constructor
  case avg =>
    rw [ha.avg]
    exact tdiv_between (by omega) (sum_int16 hw).1 (sum_int16 hw).2
  case act =>
    rw [← hact]
    exact hw x hmem
  case min => exact hval _ ha.min.1
  case max => exact hval _ ha.max.1
  case minTs =>
    obtain ⟨y, -, hy⟩ := ha.minTs
    rw [hy]
    exact hfloor y
  case maxTs =>
    obtain ⟨y, -, hy⟩ := ha.maxTs
    rw [hy]
    exact hfloor y

end WlabStation.System
