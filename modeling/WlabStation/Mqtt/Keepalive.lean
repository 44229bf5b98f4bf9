import Mathlib.Algebra.Order.Ring.Nat
import WlabStation.Mqtt.Worker

/-! The two timers of the keepalive: the reboot after a long silence of the
broker, and the deadline in `input_handle` at which `mqtt_live` is called. -/
namespace WlabStation.Mqtt

/-- `mqtt_worker_keepalive_test`: whether it reboots. The timeout is a product of `uint32_t`. -/
def keepaliveTest (maxPingNoAnsMins : UInt32) (s : Worker) : Bool :=
  s.lastKeepaliveResp + (maxPingNoAnsMins * 60 * 1000).toNat < s.uptime

/-- Time since boot, and when the broker was last heard. -/
structure Heard where
  now : ℕ
  last : Option ℕ
  deriving DecidableEq, Repr

/-- A `CONNACK` counts when it is accepted. -/
def hear (k : Heard) : WorkerAct → Heard
  | .tick ms => { k with now := k.now + ms }
  | .event .connack result => if result = 0 then { k with last := some k.now } else k
  | .event .pingresp _ => { k with last := some k.now }
  | _ => k

def heard (as : List WorkerAct) : Heard := as.foldl hear ⟨0, none⟩

/-- The times that the worker keeps: now, the last answer, the next `mqtt_live`. -/
def Worker.times (s : Worker) : ℕ × ℕ × ℤ := (s.uptime, s.lastKeepaliveResp, s.nextAlive)

theorem times_dnsResolve (cfg : WorkerConfig) (s : Worker) (ret : ℤ) :
    (dnsResolve cfg s ret).2.times = s.times := by
  unfold dnsResolve
  dsimp only
  split_ifs <;> rfl

theorem times_connectReturned (s : Worker) (ret : ℤ) :
    (connectReturned s ret).times = s.times := by
  unfold connectReturned
  split_ifs <;> rfl

theorem times_subscribeReturned (s : Worker) (ret : ℤ) :
    (subscribeReturned s ret).times = s.times := by
  unfold subscribeReturned
  split_ifs <;> rfl

/-- What one step does to the times. -/
inductive TimeCase (cfg : WorkerConfig) (s : Worker) :
    WorkerAct → List WorkerEvent → Worker → Prop where
  | event (type : MqttEvtType) (result : ℤ) :
      TimeCase cfg s (.event type result) [.event type result] (mqttEvtHandler s type result)
  | tick (ms : ℕ) : TimeCase cfg s (.tick ms) [] { s with uptime := s.uptime + ms }
  | input (t : Worker) (now : (s.uptime : ℤ) < s.nextAlive) (same : t.times = s.times) :
      TimeCase cfg s .proceed [] t
  | live (now : s.nextAlive ≤ s.uptime) :
      TimeCase cfg s .proceed (keepalive cfg s).1 (keepalive cfg s).2
  | other (a : WorkerAct) (es : List WorkerEvent) (t : Worker) (deaf : ∀ k, hear k a = k)
      (quiet : ∀ u, .mqttLive u ∉ es) (same : t.times = s.times) : TimeCase cfg s a es t

theorem mqttLive_notMem_inputOf (ret : ℤ) (u : ℕ) : WorkerEvent.mqttLive u ∉ inputOf ret := by
  unfold inputOf
  split_ifs <;> simp

theorem mqttLive_notMem_dnsResolve (cfg : WorkerConfig) (s : Worker) (ret : ℤ) (u : ℕ) :
    WorkerEvent.mqttLive u ∉ (dnsResolve cfg s ret).1 := by
  unfold dnsResolve
  split_ifs <;> simp

theorem timeCase_of_step {cfg : WorkerConfig} {s t : Worker} {a : WorkerAct}
    {es : List WorkerEvent} (h : (worker cfg).step s a = some (es, t)) :
    TimeCase cfg s a es t := by
  have deaf : ∀ k, hear k .proceed = k := fun _ => rfl
  cases worker_step_cases h with
  | event type result => exact .event type result
  | tick ms => exact .tick ms
  | inputEnter hpc hnow => exact .input _ hnow rfl
  | keepalive hpc hnow => exact .live hnow
  | disconnectRequest => exact .other _ _ _ (fun _ => rfl) (by simp) rfl
  | start hpc => exact .other _ _ _ deaf (by simp) rfl
  | dnsResolve ret hpc hst =>
    exact .other _ _ _ (fun _ => rfl) (mqttLive_notMem_dnsResolve cfg s ret)
      (times_dnsResolve cfg s ret)
  | mqttConnect ret hpc hst => exact .other _ _ _ (fun _ => rfl) (by simp) rfl
  | connectFailed ret hpc =>
    exact .other _ _ _ deaf (by simp) (times_connectReturned s ret)
  | connectPoll ret hpc =>
    exact .other _ _ _ (fun _ => rfl) (mqttLive_notMem_inputOf ret) rfl
  | connectAbort hpc hc => exact .other _ _ _ deaf (by simp) (times_connectReturned s (-1))
  | connectDone hpc hc => exact .other _ _ _ deaf (by simp) (times_connectReturned s 0)
  | subscribeNone hpc hst hlist =>
    exact .other _ _ _ deaf (by simp) (times_subscribeReturned s 0)
  | subscribeFailed ret hpc hst hret =>
    exact .other _ _ _ (fun _ => rfl) (by simp) (times_subscribeReturned _ ret)
  | mqttSubscribe hpc hst => exact .other _ _ _ (fun _ => rfl) (by simp) rfl
  | subscribePoll ret hpc hret => exact .other _ _ _ (fun _ => rfl) (by simp) rfl
  | subscribeTimeout ret hpc hret =>
    exact .other _ _ _ (fun _ => rfl) (by simp [subscribeEnd]) (times_subscribeReturned _ _)
  | subscribeAgain ret hpc => exact .other _ _ _ deaf (by simp) rfl
  | subscribeEnd ret hpc =>
    exact .other _ _ _ deaf (by simp [Mqtt.subscribeEnd]) (times_subscribeReturned _ _)
  | connected hpc hst => exact .other _ _ _ deaf (by simp) rfl
  | disconnected hpc hst => exact .other _ _ _ deaf (by simp) rfl
  | inputPoll ret hpc => exact .other _ _ _ (fun _ => rfl) (mqttLive_notMem_inputOf ret) rfl
  | inputLost hpc hc => exact .other _ _ _ deaf (by simp) rfl
  | inputHeld hpc hc => exact .other _ _ _ deaf (by simp) rfl
  | inputExternal hpc hreq => exact .other _ _ _ deaf (by simp) rfl
  | inputDone hpc hreq => exact .other _ _ _ deaf (by simp) rfl

/-- The statics know what was heard; boot stands for the time before. -/
structure Recorded (k : Heard) (s : Worker) : Prop where
  now : s.uptime = k.now
  last : s.lastKeepaliveResp = k.last.getD 0

theorem recorded_event {k : Heard} {s : Worker} (h : Recorded k s) (type : MqttEvtType)
    (result : ℤ) : Recorded (hear k (.event type result)) (mqttEvtHandler s type result) := by
  obtain ⟨hnow, hlast⟩ := h
  cases type with
  | connack =>
    unfold mqttEvtHandler hear
    by_cases hresult : result = 0
    · simp only [hresult, ne_eq, not_true_eq_false, ↓reduceIte]
      exact ⟨hnow, hnow⟩
    · simp only [hresult, ne_eq, not_false_eq_true, ↓reduceIte]
      exact ⟨hnow, hlast⟩
  | pingresp => exact ⟨hnow, hnow⟩
  | _ => exact ⟨hnow, hlast⟩

theorem Recorded.same {k : Heard} {s t : Worker} (h : Recorded k s) (hst : t.times = s.times) :
    Recorded k t := by
  obtain ⟨hnow, hlast⟩ := h
  simp only [Worker.times, Prod.mk.injEq] at hst
  exact ⟨hst.1.trans hnow, hst.2.1.trans hlast⟩

theorem recorded_run {cfg : WorkerConfig} {as : List WorkerAct} {h : List WorkerEvent}
    {s : Worker} (hr : (worker cfg).Runs workerInit as h s) : Recorded (heard as) s := by
  apply hr.induction (I := fun as _ s => Recorded (heard as) s)
  · exact ⟨rfl, rfl⟩
  · intro as _ s a es t _ hk hs
    rw [heard, List.foldl_concat, ← heard]
    cases timeCase_of_step hs with
    | event type result => exact recorded_event hk type result
    | tick ms => exact ⟨congrArg (· + ms) hk.now, hk.last⟩
    | input t hnow hsame => exact hk.same hsame
    | live hnow => exact ⟨hk.now, hk.last⟩
    | other a es t hdeaf hquiet hsame =>
      rw [hdeaf]
      exact hk.same hsame

theorem toNat_timeout (m : UInt32) : (m * 60 * 1000).toNat = m.toNat * 60000 % 2 ^ 32 := by
  simp only [UInt32.toNat_mul, UInt32.reduceToNat]
  omega

/-- The silence after which a reboot is asked for, over the integers. -/
def SilentFor (maxPingNoAnsMins : UInt32) (last uptime : ℕ) : Prop :=
  last + maxPingNoAnsMins.toNat * 60000 < uptime

theorem keepaliveTest_iff (m : UInt32) (s : Worker) :
    keepaliveTest m s = true ↔ s.lastKeepaliveResp + m.toNat * 60000 % 2 ^ 32 < s.uptime := by
  rw [keepaliveTest, decide_eq_true_iff, toNat_timeout]

/-- The reboot comes after exactly the configured silence, in every run, if and
only if the timeout fits 32 bits. -/
theorem keepalive_reboot_iff (cfg : WorkerConfig) (maxPingNoAnsMins : UInt32) :
    (∀ as h s last, (worker cfg).Runs workerInit as h s → (heard as).last = some last →
      (keepaliveTest maxPingNoAnsMins s = true ↔ SilentFor maxPingNoAnsMins last s.uptime)) ↔
      maxPingNoAnsMins.toNat * 60000 < 2 ^ 32 := by
  constructor
  · intro hall
    by_contra hwrap
    let silence := maxPingNoAnsMins.toNat * 60000 % 2 ^ 32 + 1
    let s := { mqttEvtHandler workerInit .connack 0 with uptime := 0 + silence }
    have hr : (worker cfg).Runs workerInit [.event .connack 0, .tick silence]
        [.event .connack 0] s := rfl
    have hiff := hall _ _ s 0 hr rfl
    have hresp : s.lastKeepaliveResp = 0 := rfl
    have huptime : s.uptime = 0 + silence := rfl
    rw [keepaliveTest_iff, SilentFor, hresp, huptime] at hiff
    omega
  · intro hfits as h s last hr hlast
    obtain ⟨-, hresp⟩ := recorded_run hr
    rw [keepaliveTest_iff, hresp, hlast, Option.getD_some, Nat.mod_eq_of_lt hfits, SilentFor]

/-- With a tolerance of 71583 minutes a silence of 12.7 seconds reboots. -/
theorem long_tolerance_reboots_early :
    ∃ s, (worker stationConfig).Runs workerInit [.event .connack 0, .tick 12705]
        [.event .connack 0] s ∧
      (heard [.event .connack 0, .tick 12705]).last = some 0 ∧
      keepaliveTest 71583 s = true ∧ ¬ SilentFor 71583 0 s.uptime :=
  ⟨{ mqttEvtHandler workerInit .connack 0 with uptime := 12705 }, by decide, by decide, by decide,
    by simp [SilentFor]⟩

/-- One call of `input_handle` at an uptime: the branch that it takes. -/
inductive InputCall where
  | input (uptime : ℕ)
  | live (uptime : ℕ)
  deriving DecidableEq, Repr

/-- The calls of `input_handle`, whose static `next_alive` is the state. -/
def inputHandle (pingPeriodSec : UInt32) : Machine ℤ ℕ InputCall where
  step nextAlive uptime :=
    if uptime < nextAlive then some ([.input uptime], nextAlive)
    else some ([.live uptime], uptime + (pingPeriodSec * 1000).toNat)

def InputCall.liveTime : InputCall → Option ℕ
  | .input _ => none
  | .live uptime => some uptime

def liveTimes (h : List InputCall) : List ℕ := h.filterMap InputCall.liveTime

/-- Keepalives are a ping period apart, and of two calls in a row within a second
one serves the input. -/
structure ServesInput (pingPeriodSec : UInt32) (h : List InputCall) : Prop where
  spaced : (liveTimes h).Pairwise fun u v => u + pingPeriodSec.toNat * 1000 ≤ v
  between : ∀ u v, [.live u, .live v] <:+: h → u + 1000 ≤ v

/-- The keepalives so far against the deadline of the next one. -/
structure Spaced (wait : ℕ) (h : List InputCall) (nextAlive : ℤ) : Prop where
  apart : (liveTimes h).Pairwise fun u v => u + wait ≤ v
  ahead : ∀ u ∈ liveTimes h, (u + wait : ℕ) ≤ nextAlive

theorem spaced_run {p : UInt32} {us : List ℕ} {h : List InputCall} {m n : ℤ}
    (hr : (inputHandle p).Runs m us h n) : Spaced (p * 1000).toNat h n := by
  apply hr.invariant (I := fun h n => Spaced (p * 1000).toNat h n)
  · exact ⟨List.Pairwise.nil, by simp [liveTimes]⟩
  · intro h n u es k hsp hs
    simp only [inputHandle] at hs
    split_ifs at hs with hnow
    · cases hs
      have hsame : liveTimes (h ++ [.input u]) = liveTimes h := by
        simp [liveTimes, InputCall.liveTime]
      constructor
      case apart => rw [hsame]; exact hsp.apart
      case ahead => rw [hsame]; exact hsp.ahead
    · cases hs
      have hsnoc : liveTimes (h ++ [.live u]) = liveTimes h ++ [u] := by
        simp [liveTimes, InputCall.liveTime]
      constructor
      case apart =>
        rw [hsnoc, List.pairwise_append]
        refine ⟨hsp.apart, List.pairwise_singleton _ _, ?_⟩
        intro v hv w hw
        rw [List.mem_singleton.mp hw]
        have := hsp.ahead v hv
        omega
      case ahead =>
        rw [hsnoc]
        intro v hv
        rcases List.mem_append.mp hv with hv | hv
        · have := hsp.ahead v hv
          omega
        · rw [List.mem_singleton.mp hv]
          omega

theorem toNat_wait (p : UInt32) : (p * 1000).toNat = p.toNat * 1000 % 2 ^ 32 := by
  simp only [UInt32.toNat_mul, UInt32.reduceToNat]

/-- Input is served between keepalives, in every run, if and only if the period
is not zero and its milliseconds fit 32 bits. -/
theorem serves_input_iff (pingPeriodSec : UInt32) :
    (∀ us h n, us.Pairwise (· ≤ ·) →
      (inputHandle pingPeriodSec).Runs workerInit.nextAlive us h n →
      ServesInput pingPeriodSec h) ↔
      1 ≤ pingPeriodSec.toNat ∧ pingPeriodSec.toNat * 1000 < 2 ^ 32 := by
  have hwait := toNat_wait pingPeriodSec
  constructor
  · intro hall
    let wait := (pingPeriodSec * 1000).toNat
    have hr : (inputHandle pingPeriodSec).Runs workerInit.nextAlive [0, wait]
        [.live 0, .live wait] (wait + wait) := by
      simp [Machine.Runs, Machine.run, inputHandle, workerInit, wait]
    obtain ⟨hspaced, hbetween⟩ := hall _ _ _ (by simp) hr
    have hsecond := hbetween 0 wait List.infix_rfl
    have hperiod : 0 + pingPeriodSec.toNat * 1000 ≤ wait := by
      simpa [liveTimes, InputCall.liveTime] using hspaced
    omega
  · rintro ⟨hpos, hfits⟩ us h n - hr
    have hsp := spaced_run hr
    rw [hwait, Nat.mod_eq_of_lt hfits] at hsp
    constructor
    case spaced => exact hsp.apart
    case between =>
      intro u v huv
      have hinfix : [u, v] <:+: liveTimes h := huv.filterMap InputCall.liveTime
      have hpair := hsp.apart.sublist hinfix.sublist
      have huv' : u + pingPeriodSec.toNat * 1000 ≤ v := by simpa using hpair
      omega

/-- A ping period of 0: every call is a keepalive. -/
theorem zero_period_starves_input :
    (inputHandle 0).Runs workerInit.nextAlive [0, 0] [.live 0, .live 0] 0 ∧
    ¬ ServesInput 0 [.live 0, .live 0] := by
  constructor
  · decide
  · intro hserves
    have hgap := hserves.between 0 0 List.infix_rfl
    omega

def WorkerEvent.liveTime : WorkerEvent → Option ℕ
  | .mqttLive uptime => some uptime
  | _ => none

/-- The calls of `input_handle` that a run of the thread has made. -/
structure Called (cfg : WorkerConfig) (h : List WorkerEvent) (s : Worker) (us : List ℕ)
    (k : List InputCall) : Prop where
  runs : (inputHandle cfg.pingPeriodSec).Runs workerInit.nextAlive us k s.nextAlive
  ordered : us.Pairwise (· ≤ ·)
  past : ∀ u ∈ us, u ≤ s.uptime
  lives : liveTimes k = h.filterMap WorkerEvent.liveTime

section
variable {cfg : WorkerConfig} {h : List WorkerEvent} {s t : Worker} {us : List ℕ}
  {k : List InputCall}

/-- A step that is no call. -/
theorem Called.same (hc : Called cfg h s us k) {es : List WorkerEvent}
    (hquiet : es.filterMap WorkerEvent.liveTime = []) (hlater : s.uptime ≤ t.uptime)
    (hnext : t.nextAlive = s.nextAlive) : Called cfg (h ++ es) t us k := by
  constructor
  case runs => rw [hnext]; exact hc.runs
  case ordered => exact hc.ordered
  case past => exact fun u hu => (hc.past u hu).trans hlater
  case lives => rw [List.filterMap_append, hquiet, List.append_nil, hc.lives]

/-- A step that is a call. -/
theorem Called.call (hc : Called cfg h s us k) {es : List WorkerEvent} {c : InputCall}
    (hs : (inputHandle cfg.pingPeriodSec).step s.nextAlive s.uptime = some ([c], t.nextAlive))
    (hlives : es.filterMap WorkerEvent.liveTime = liveTimes [c]) (hnow : t.uptime = s.uptime) :
    Called cfg (h ++ es) t (us ++ [s.uptime]) (k ++ [c]) := by
  constructor
  case runs => exact Machine.runs_concat.mpr ⟨_, _, _, hc.runs, hs, rfl⟩
  case ordered =>
    rw [List.pairwise_append]
    refine ⟨hc.ordered, List.pairwise_singleton _ _, ?_⟩
    intro u hu v hv
    rw [List.mem_singleton.mp hv]
    exact hc.past u hu
  case past =>
    intro u hu
    rw [hnow]
    rcases List.mem_append.mp hu with hu | hu
    · exact hc.past u hu
    · exact (List.mem_singleton.mp hu).le
  case lives =>
    rw [liveTimes, List.filterMap_append, List.filterMap_append, hlives, ← hc.lives]
    rfl

end

theorem liveTimes_eq_nil {es : List WorkerEvent} (hquiet : ∀ u, .mqttLive u ∉ es) :
    es.filterMap WorkerEvent.liveTime = [] := by
  rw [List.filterMap_eq_nil_iff]
  intro e he
  cases e with
  | mqttLive u => exact absurd he (hquiet u)
  | _ => rfl

/-- The thread calls `input_handle` at uptimes that do not decrease. -/
theorem called_run {cfg : WorkerConfig} {as : List WorkerAct} {h : List WorkerEvent} {s : Worker}
    (hr : (worker cfg).Runs workerInit as h s) : ∃ us k, Called cfg h s us k := by
  apply hr.invariant (I := fun h s => ∃ us k, Called cfg h s us k)
  · exact ⟨[], [], Machine.runs_nil.mpr ⟨rfl, rfl⟩, List.Pairwise.nil, by simp, rfl⟩
  · rintro h s a es t ⟨us, k, hc⟩ hs
    cases timeCase_of_step hs with
    | event type result =>
      have htimes : (mqttEvtHandler s type result).uptime = s.uptime ∧
          (mqttEvtHandler s type result).nextAlive = s.nextAlive := by
        by_cases hresult : result = 0 <;> cases type <;> simp [mqttEvtHandler, hresult]
      exact ⟨us, k, hc.same rfl htimes.1.ge htimes.2⟩
    | tick ms => exact ⟨us, k, hc.same rfl (Nat.le_add_right _ _) rfl⟩
    | input t hnow hsame =>
      simp only [Worker.times, Prod.mk.injEq] at hsame
      have hstep : (inputHandle cfg.pingPeriodSec).step s.nextAlive s.uptime =
          some ([.input s.uptime], t.nextAlive) := by
        rw [hsame.2.2]
        exact if_pos hnow
      exact ⟨_, _, hc.call hstep rfl hsame.1⟩
    | live hnow =>
      have hstep : (inputHandle cfg.pingPeriodSec).step s.nextAlive s.uptime =
          some ([.live s.uptime], (keepalive cfg s).2.nextAlive) := if_neg (Int.not_lt.mpr hnow)
      exact ⟨_, _, hc.call hstep rfl rfl⟩
    | other a es t hdeaf hquiet hsame =>
      simp only [Worker.times, Prod.mk.injEq] at hsame
      exact ⟨us, k, hc.same (liveTimes_eq_nil hquiet) hsame.1.ge hsame.2.2⟩

/-- The keepalives of the thread are a wait apart. -/
theorem lives_spaced_run {cfg : WorkerConfig} {as : List WorkerAct} {h : List WorkerEvent}
    {s : Worker} (hr : (worker cfg).Runs workerInit as h s) :
    (h.filterMap WorkerEvent.liveTime).Pairwise fun u v =>
      u + (cfg.pingPeriodSec * 1000).toNat ≤ v := by
  obtain ⟨us, k, hc⟩ := called_run hr
  rw [← hc.lives]
  exact (spaced_run hc.runs).apart

end WlabStation.Mqtt
