import WlabStation.Sensor.Read

/-! One call of `dht2x_read` after another, with stray edges in between: what a
call can still tell of those before it. -/
namespace WlabStation.Sensor

inductive SensorAct where
  | read (now : UInt32) (w : Waveform) (temp rh : Int16)
  | stray (usNow : UInt32)
  deriving DecidableEq, Repr

/-- The sensor over its lifetime; the history records what the calls return. -/
def sensor : Machine Dht SensorAct ReadResult where
  step s
    | .read now w temp rh =>
        let r := dht2xRead s now w temp rh
        some ([r.1], r.2)
    | .stray usNow => some ([], edge s usNow)

/-- The semaphore is a binary one. -/
def Binary (s : Dht) : Prop := s.dhtReadDone.limit = 1 ∧ s.dhtReadDone.count ≤ 1

theorem Binary.drained {s : Dht} (h : Binary s) : s.dhtReadDone.tryTake = ⟨0, 1⟩ :=
  Sem.tryTake_binary h.1 h.2

theorem Binary.finish {s : Dht} (h : Binary s) (pin : UInt32) : Binary (s.finish pin).2 := by
  constructor
  · exact h.1
  · exact (min_le_right _ _).trans h.1.le

theorem Binary.dataEdge {s : Dht} (h : Binary s) (pin : UInt32) : Binary (s.dataEdge pin).2 := by
  unfold Dht.dataEdge
  dsimp only
  split_ifs
  · exact h
  · exact h
  · exact h.finish pin

theorem Binary.gpioCallback {s : Dht} (h : Binary s) (pin usNow : UInt32) :
    Binary (gpioCallback s pin usNow).2 := by
  let measured := { s with lastElapsed := usNow - s.pulseStartUs }
  have hm : Binary measured := h
  unfold Sensor.gpioCallback
  dsimp only
  split_ifs
  · exact hm.finish pin
  · exact hm
  · exact hm.finish pin
  · exact hm
  · exact hm.finish pin
  · exact hm
  · exact (hm.dataEdge pin).finish pin
  · exact hm.dataEdge pin

theorem Binary.edge {s : Dht} (h : Binary s) (usNow : UInt32) : Binary (edge s usNow) := by
  unfold Sensor.edge
  split_ifs
  · exact h.gpioCallback _ usNow
  · exact h

theorem Binary.edges {s : Dht} (h : Binary s) (us : List UInt32) :
    Binary (us.foldl Sensor.edge s) := by
  induction us generalizing s with
  | nil => exact h
  | cons u us ih => exact ih (h.edge u)

theorem Binary.take {s : Dht} (h : Binary s) {sem : Sem} (hs : s.dhtReadDone.take = some sem) :
    Binary { s with dhtReadDone := sem } := by
  unfold Sem.take at hs
  split_ifs at hs
  cases hs
  exact ⟨h.1, (Nat.sub_le _ _).trans h.2⟩

theorem Binary.request {s : Dht} (h : Binary s) (now : UInt32) (w : Waveform) :
    Binary (dht2xRequest s now w) := by
  have hdrained : Binary
      { s with dhtReadDone := s.dhtReadDone.tryTake, pulseCnt := 0, readData := 0 } := by
    simp [Binary, h.drained]
  let held :=
    { (now :: w.held.map (now + ·)).foldl Sensor.edge
      { s with dhtReadDone := s.dhtReadDone.tryTake, pulseCnt := 0, readData := 0 } with
      pulseStartUs := now + w.released }
  have hheld : Binary held := hdrained.edges (now :: w.held.map (now + ·))
  exact hheld.edges (w.early.map (now + ·))

theorem Binary.awaitDone {s : Dht} (h : Binary s) (us : List UInt32) :
    Binary (awaitDone s us).2 := by
  induction us generalizing s with
  | nil =>
    unfold Sensor.awaitDone
    split
    next sem hs => exact h.take hs
    next => exact h
  | cons u us ih =>
    unfold Sensor.awaitDone
    split
    next sem hs => exact (h.take hs).edges (u :: us)
    next => exact ih (h.edge u)

/-- A call of `dht2x_read` is among the actions. -/
def Called (as : List SensorAct) : Prop := ∃ now w temp rh, .read now w temp rh ∈ as

/-- The same decoder `d` microseconds later. -/
def Later (d : UInt32) (s t : Dht) : Prop :=
  ∃ elapsed, t = { s with pulseStartUs := s.pulseStartUs + d, lastElapsed := elapsed }

/-- The callback sees the time since the last edge and no other. -/
theorem gpioCallback_moved (s : Dht) {pin start elapsed u v : UInt32}
    (h : v - start = u - s.pulseStartUs) :
    (gpioCallback { s with pulseStartUs := start, lastElapsed := elapsed } pin v).2 =
      { (gpioCallback s pin u).2 with pulseStartUs := v } := by
  unfold gpioCallback Dht.dataEdge Dht.finish Dht.interruptDisable
  dsimp only
  rw [h]
  split_ifs <;> rfl

section Later
variable {d now : UInt32} {s t : Dht}

theorem Later.irqEnabled (h : Later d s t) : t.irqEnabled = s.irqEnabled := by
  obtain ⟨elapsed, rfl⟩ := h
  rfl

theorem Later.edge (h : Later d s t) (u : UInt32) : Later d (edge s u) (edge t (u + d)) := by
  unfold Sensor.edge
  rw [h.irqEnabled]
  split_ifs
  · obtain ⟨elapsed, rfl⟩ := h
    have hsince : u + d - (s.pulseStartUs + d) = u - s.pulseStartUs := by grind
    rw [gpioCallback_moved s hsince]
    exact ⟨(gpioCallback s (BIT DHT_PIN) u).2.lastElapsed, rfl⟩
  · exact h

theorem Later.edges (h : Later d s t) (now : UInt32) (us : List UInt32) :
    Later d ((us.map (now + ·)).foldl Sensor.edge s)
      ((us.map (now + d + ·)).foldl Sensor.edge t) := by
  induction us generalizing s t with
  | nil => exact h
  | cons u us ih =>
    have hu : now + d + u = now + u + d := by grind
    rw [List.map_cons, List.map_cons, List.foldl_cons, List.foldl_cons, hu]
    exact ih (h.edge (now + u))

/-- Recording the release of the line. -/
theorem Later.released (h : Later d s t) (now released : UInt32) :
    Later d { s with pulseStartUs := now + released }
      { t with pulseStartUs := now + d + released } := by
  obtain ⟨elapsed, rfl⟩ := h
  have hreleased : now + d + released = now + released + d := by grind
  rw [hreleased]
  exact ⟨elapsed, rfl⟩

theorem Later.awaitDone (h : Later d s t) (now : UInt32) (us : List UInt32) :
    (awaitDone s (us.map (now + ·))).1 = (awaitDone t (us.map (now + d + ·))).1 := by
  have htake {s t : Dht} (h : Later d s t) :
      t.dhtReadDone.take = s.dhtReadDone.take ∧ t.readData = s.readData := by
    obtain ⟨elapsed, rfl⟩ := h
    exact ⟨rfl, rfl⟩
  induction us generalizing s t with
  | nil =>
    obtain ⟨hsem, hdata⟩ := htake h
    simp only [List.map_nil, Sensor.awaitDone, hsem, hdata]
    cases s.dhtReadDone.take <;> rfl
  | cons u us ih =>
    obtain ⟨hsem, hdata⟩ := htake h
    have hu : now + d + u = now + u + d := by grind
    simp only [List.map_cons, Sensor.awaitDone, hsem, hdata]
    cases s.dhtReadDone.take with
    | some sem => rfl
    | none =>
      rw [hu]
      exact ih (h.edge (now + u))

end Later

end WlabStation.Sensor
