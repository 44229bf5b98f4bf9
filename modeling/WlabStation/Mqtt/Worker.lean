import WlabStation.Machine.Run
import WlabStation.Machine.Kernel
import Mathlib.Data.Int.Notation

/-! The network thread: `mqtt_proc` with the functions it calls, as a machine
whose actions are the results of the library and the events of other threads. -/
namespace WlabStation.Mqtt

/-- `enum mqtt_evt_type`. -/
inductive MqttEvtType where
  | connack
  | disconnect
  | publish
  | puback
  | pubrec
  | pubrel
  | pubcomp
  | suback
  | unsuback
  | pingresp
  deriving DecidableEq, Repr

/-- `worker_state_t`. -/
inductive WorkerState where
  | dnsResolve
  | connectToBroker
  | subscribe
  | connected
  | disconnected
  deriving DecidableEq, Repr

/-- What `mqtt_worker_init` was given: whether the list is not `NULL`, whether
`zsock_inet_pton` takes the hostname, and the ping period. -/
structure WorkerConfig where
  subsList : Bool
  hostLiteral : Bool
  pingPeriodSec : UInt32
  deriving DecidableEq, Repr

/-- Where the thread stands. `dispatch` is the head of its loop. -/
inductive WorkerPc where
  | waitStart
  | dispatch
  | connectFailed (ret : ℤ)
  | connectWait
  | connectCheck
  | subscribeWait
  | subscribeInput (ret : ℤ)
  | inputHandle
  | inputWait
  | inputCheck
  | inputExternal
  deriving DecidableEq, Repr

/-- The statics of `mqtt_worker.c`. The value `0xFF` of `LastEvt` is `none`. -/
structure Worker where
  pc : WorkerPc
  stateMachine : WorkerState
  connected : Bool
  disconnectReqExternal : Bool
  subscribed : Bool
  lastEvt : Option MqttEvtType
  connectErrTrials : ℕ
  subscribeErrTrials : ℕ
  nextAlive : ℤ
  lastKeepaliveResp : ℕ
  conectedAckSem : Sem
  uptime : ℕ
  deriving DecidableEq, Repr

/-- An event and a request to disconnect may come at any time. -/
inductive WorkerAct where
  | event (type : MqttEvtType) (result : ℤ)
  | disconnectRequest
  | tick (ms : ℕ)
  | proceed
  | dnsResolve (ret : ℤ)
  | mqttConnect (ret : ℤ)
  | mqttSubscribe (ret : ℤ)
  | poll (ret : ℤ)
  deriving DecidableEq, Repr

/-- Calls of the library, and the returns of `mqtt_worker_subscribe`. -/
inductive WorkerEvent where
  | event (type : MqttEvtType) (result : ℤ)
  | getaddrinfo (ret : ℤ)
  | mqttConnect (ret : ℤ)
  | mqttDisconnect
  | mqttAbort
  | mqttSubscribe (ret : ℤ)
  | mqttInput
  | mqttLive (uptime : ℕ)
  | subscribeReturned (ret : ℤ)
  deriving DecidableEq, Repr

/-- `mqtt_evt_handler`, without the data of a `PUBLISH` and a `PUBACK`. -/
def mqttEvtHandler (s : Worker) (type : MqttEvtType) (result : ℤ) : Worker :=
  match type with
  | .suback => { s with lastEvt := some type, subscribed := true }
  | .connack =>
      if result ≠ 0 then { s with lastEvt := some type }
      else { s with
        lastEvt := some type
        connected := true
        lastKeepaliveResp := s.uptime
        conectedAckSem := s.conectedAckSem.give }
  | .disconnect =>
      { s with
        lastEvt := some type
        connected := false
        conectedAckSem := s.conectedAckSem.tryTake }
  | .pingresp => { s with lastEvt := some type, lastKeepaliveResp := s.uptime }
  | _ => { s with lastEvt := some type }

/-- `dns_resolve` and its case of the state machine. A literal needs no query. -/
def dnsResolve (cfg : WorkerConfig) (s : Worker) (ret : ℤ) : List WorkerEvent × Worker :=
  let r : List WorkerEvent × ℤ := if cfg.hostLiteral then ([], 0) else ([.getaddrinfo ret], ret)
  (r.1, if r.2 = 0 then { s with stateMachine := .connectToBroker } else s)

/-- `connect_to_broker` returned to its case of the state machine. -/
def connectReturned (s : Worker) (ret : ℤ) : Worker :=
  if ret = 0 then { s with pc := .dispatch, stateMachine := .subscribe, connectErrTrials := 0 }
  else if s.connectErrTrials + 1 = 4 then
    { s with pc := .dispatch, stateMachine := .dnsResolve, connectErrTrials := 0 }
  else { s with pc := .dispatch, connectErrTrials := s.connectErrTrials + 1 }

/-- `mqtt_worker_subscribe` returned; the case falls through to `CONNECTED`. -/
def subscribeReturned (s : Worker) (ret : ℤ) : Worker :=
  if ret = 0 then
    { s with pc := .inputHandle, stateMachine := .connected, subscribeErrTrials := 0 }
  else if s.subscribeErrTrials + 1 = 4 then
    { s with pc := .inputHandle, stateMachine := .dnsResolve, subscribeErrTrials := 0 }
  else { s with pc := .inputHandle, subscribeErrTrials := s.subscribeErrTrials + 1 }

/-- The result of `mqtt_worker_subscribe` after its wait. -/
def subscribeResult (s : Worker) (ret : ℤ) : ℤ := if s.subscribed then 0 else ret

/-- The wait of `mqtt_worker_subscribe` is over. -/
def subscribeEnd (s : Worker) (ret : ℤ) : List WorkerEvent × Worker :=
  ([.subscribeReturned (subscribeResult s ret)], subscribeReturned s (subscribeResult s ret))

/-- `input_handle` returned to the case `CONNECTED`. -/
def inputReturned (s : Worker) (ret : ℤ) : Worker :=
  { s with
    pc := .dispatch
    stateMachine := if ret ≠ 0 then .dnsResolve else s.stateMachine }

/-- The keepalive branch of `input_handle`. The period is a product of `uint32_t`. -/
def keepalive (cfg : WorkerConfig) (s : Worker) : List WorkerEvent × Worker :=
  ([.mqttLive s.uptime],
    inputReturned { s with nextAlive := s.uptime + (cfg.pingPeriodSec * 1000).toNat } 0)

/-- Data on the socket is handed to `mqtt_input`. -/
def inputOf (ret : ℤ) : List WorkerEvent := if 0 < ret then [.mqttInput] else []

def worker (cfg : WorkerConfig) : Machine Worker WorkerAct WorkerEvent where
  step s a :=
    match a, s.pc with
    | .event type result, _ => some ([.event type result], mqttEvtHandler s type result)
    | .disconnectRequest, _ => some ([], { s with disconnectReqExternal := true })
    | .tick ms, _ => some ([], { s with uptime := s.uptime + ms })
    | .proceed, .waitStart => some ([], { s with pc := .dispatch })
    | .dnsResolve ret, .dispatch =>
        if s.stateMachine = .dnsResolve then some (dnsResolve cfg s ret) else none
    | .mqttConnect ret, .dispatch =>
        if s.stateMachine = .connectToBroker then
          some ([.mqttConnect ret], { s with
            disconnectReqExternal := false
            connected := false
            pc := if ret ≠ 0 then .connectFailed ret else .connectWait })
        else none
    | .proceed, .connectFailed ret => some ([.mqttDisconnect], connectReturned s ret)
    | .poll ret, .connectWait => some (inputOf ret, { s with pc := .connectCheck })
    | .proceed, .connectCheck =>
        if ¬ s.connected then some ([.mqttAbort], connectReturned s (-1))
        else some ([], connectReturned s 0)
    | .mqttSubscribe ret, .dispatch =>
        if s.stateMachine = .subscribe ∧ cfg.subsList then
          let s := { s with subscribed := false }
          if ret ≠ 0 then
            some ([.mqttSubscribe ret, .subscribeReturned ret], subscribeReturned s ret)
          else some ([.mqttSubscribe ret], { s with pc := .subscribeWait })
        else none
    | .poll ret, .subscribeWait =>
        let s := { s with lastEvt := none }
        if 0 < ret then some ([.mqttInput], { s with pc := .subscribeInput ret })
        else some (subscribeEnd s ret)
    | .proceed, .subscribeInput ret =>
        if s.lastEvt ≠ some .suback ∧ s.lastEvt ≠ none then
          some ([], { s with pc := .subscribeWait })
        else some (subscribeEnd s ret)
    | .proceed, .dispatch =>
        match s.stateMachine with
        | .subscribe =>
            if cfg.subsList then none else some ([.subscribeReturned 0], subscribeReturned s 0)
        | .connected => some ([], { s with pc := .inputHandle })
        | .disconnected => some ([], s)
        | _ => none
    | .proceed, .inputHandle =>
        if s.uptime < s.nextAlive then some ([], { s with pc := .inputWait })
        else some (keepalive cfg s)
    | .poll ret, .inputWait => some (inputOf ret, { s with pc := .inputCheck })
    | .proceed, .inputCheck =>
        if ¬ s.connected then some ([], inputReturned s (-1))
        else some ([], { s with pc := .inputExternal })
    | .proceed, .inputExternal =>
        if s.disconnectReqExternal then
          some ([.mqttDisconnect], inputReturned { s with
            conectedAckSem := s.conectedAckSem.tryTake
            connected := false } (-1))
        else some ([], inputReturned s 0)
    | _, _ => none

/-- The state `mqtt_proc` starts in. -/
def workerInit : Worker where
  pc := .waitStart
  stateMachine := .dnsResolve
  connected := false
  disconnectReqExternal := false
  subscribed := false
  lastEvt := some .connack
  connectErrTrials := 0
  subscribeErrTrials := 0
  nextAlive := -9223372036854775808
  lastKeepaliveResp := 0
  conectedAckSem := ⟨0, 1⟩
  uptime := 0

/-- All that one step can do. -/
inductive WorkerCase (cfg : WorkerConfig) (s : Worker) :
    WorkerAct → List WorkerEvent → Worker → Prop where
  | event (type : MqttEvtType) (result : ℤ) :
      WorkerCase cfg s (.event type result) [.event type result] (mqttEvtHandler s type result)
  | disconnectRequest :
      WorkerCase cfg s .disconnectRequest [] { s with disconnectReqExternal := true }
  | tick (ms : ℕ) : WorkerCase cfg s (.tick ms) [] { s with uptime := s.uptime + ms }
  | start : s.pc = .waitStart → WorkerCase cfg s .proceed [] { s with pc := .dispatch }
  | dnsResolve (ret : ℤ) : s.pc = .dispatch → s.stateMachine = .dnsResolve →
      WorkerCase cfg s (.dnsResolve ret) (dnsResolve cfg s ret).1 (dnsResolve cfg s ret).2
  | mqttConnect (ret : ℤ) : s.pc = .dispatch → s.stateMachine = .connectToBroker →
      WorkerCase cfg s (.mqttConnect ret) [.mqttConnect ret] { s with
        disconnectReqExternal := false
        connected := false
        pc := if ret ≠ 0 then .connectFailed ret else .connectWait }
  | connectFailed (ret : ℤ) : s.pc = .connectFailed ret →
      WorkerCase cfg s .proceed [.mqttDisconnect] (connectReturned s ret)
  | connectPoll (ret : ℤ) : s.pc = .connectWait →
      WorkerCase cfg s (.poll ret) (inputOf ret) { s with pc := .connectCheck }
  | connectAbort : s.pc = .connectCheck → s.connected = false →
      WorkerCase cfg s .proceed [.mqttAbort] (connectReturned s (-1))
  | connectDone : s.pc = .connectCheck → s.connected = true →
      WorkerCase cfg s .proceed [] (connectReturned s 0)
  | subscribeNone : s.pc = .dispatch → s.stateMachine = .subscribe → cfg.subsList = false →
      WorkerCase cfg s .proceed [.subscribeReturned 0] (subscribeReturned s 0)
  | subscribeFailed (ret : ℤ) : s.pc = .dispatch → s.stateMachine = .subscribe → ret ≠ 0 →
      WorkerCase cfg s (.mqttSubscribe ret) [.mqttSubscribe ret, .subscribeReturned ret]
        (subscribeReturned { s with subscribed := false } ret)
  | mqttSubscribe : s.pc = .dispatch → s.stateMachine = .subscribe →
      WorkerCase cfg s (.mqttSubscribe 0) [.mqttSubscribe 0]
        { s with subscribed := false, pc := .subscribeWait }
  | subscribePoll (ret : ℤ) : s.pc = .subscribeWait → 0 < ret →
      WorkerCase cfg s (.poll ret) [.mqttInput]
        { s with lastEvt := none, pc := .subscribeInput ret }
  | subscribeTimeout (ret : ℤ) : s.pc = .subscribeWait → ret ≤ 0 →
      WorkerCase cfg s (.poll ret) (subscribeEnd { s with lastEvt := none } ret).1
        (subscribeEnd { s with lastEvt := none } ret).2
  | subscribeAgain (ret : ℤ) : s.pc = .subscribeInput ret →
      WorkerCase cfg s .proceed [] { s with pc := .subscribeWait }
  | subscribeEnd (ret : ℤ) : s.pc = .subscribeInput ret →
      WorkerCase cfg s .proceed (subscribeEnd s ret).1 (subscribeEnd s ret).2
  | connected : s.pc = .dispatch → s.stateMachine = .connected →
      WorkerCase cfg s .proceed [] { s with pc := .inputHandle }
  | disconnected : s.pc = .dispatch → s.stateMachine = .disconnected →
      WorkerCase cfg s .proceed [] s
  | inputEnter : s.pc = .inputHandle → (s.uptime : ℤ) < s.nextAlive →
      WorkerCase cfg s .proceed [] { s with pc := .inputWait }
  | keepalive : s.pc = .inputHandle → s.nextAlive ≤ s.uptime →
      WorkerCase cfg s .proceed (keepalive cfg s).1 (keepalive cfg s).2
  | inputPoll (ret : ℤ) : s.pc = .inputWait →
      WorkerCase cfg s (.poll ret) (inputOf ret) { s with pc := .inputCheck }
  | inputLost : s.pc = .inputCheck → s.connected = false →
      WorkerCase cfg s .proceed [] (inputReturned s (-1))
  | inputHeld : s.pc = .inputCheck → s.connected = true →
      WorkerCase cfg s .proceed [] { s with pc := .inputExternal }
  | inputExternal : s.pc = .inputExternal → s.disconnectReqExternal = true →
      WorkerCase cfg s .proceed [.mqttDisconnect] (inputReturned { s with
        conectedAckSem := s.conectedAckSem.tryTake
        connected := false } (-1))
  | inputDone : s.pc = .inputExternal → s.disconnectReqExternal = false →
      WorkerCase cfg s .proceed [] (inputReturned s 0)

theorem worker_step_cases {cfg : WorkerConfig} {s t : Worker} {a : WorkerAct}
    {es : List WorkerEvent} (h : (worker cfg).step s a = some (es, t)) :
    WorkerCase cfg s a es t := by
  cases a with
  | event type result =>
    cases h
    exact .event type result
  | disconnectRequest =>
    cases h
    exact .disconnectRequest
  | tick ms =>
    cases h
    exact .tick ms
  | dnsResolve ret =>
    cases hpc : s.pc <;> simp only [worker, hpc, reduceCtorEq, Option.ite_none_right_eq_some] at h
    obtain ⟨hst, hr⟩ := h
    cases hr
    exact .dnsResolve ret hpc hst
  | mqttConnect ret =>
    cases hpc : s.pc <;> simp only [worker, hpc, reduceCtorEq, Option.ite_none_right_eq_some] at h
    obtain ⟨hst, hr⟩ := h
    cases hr
    exact .mqttConnect ret hpc hst
  | mqttSubscribe ret =>
    cases hpc : s.pc <;> simp only [worker, hpc, reduceCtorEq, Option.ite_none_right_eq_some] at h
    obtain ⟨⟨hst, -⟩, hr⟩ := h
    split_ifs at hr with hret
    · cases hr
      exact .subscribeFailed ret hpc hst hret
    · cases hr
      rw [not_not] at hret
      subst hret
      exact .mqttSubscribe hpc hst
  | poll ret =>
    cases hpc : s.pc with
    | connectWait =>
      simp only [worker, hpc] at h
      cases h
      exact .connectPoll ret hpc
    | inputWait =>
      simp only [worker, hpc] at h
      cases h
      exact .inputPoll ret hpc
    | subscribeWait =>
      simp only [worker, hpc] at h
      split_ifs at h with hret
      · cases h
        exact .subscribePoll ret hpc hret
      · cases h
        exact .subscribeTimeout ret hpc (Int.not_lt.mp hret)
    | _ => simp [worker, hpc] at h
  | proceed =>
    cases hpc : s.pc with
    | waitStart =>
      simp only [worker, hpc] at h
      cases h
      exact .start hpc
    | dispatch =>
      simp only [worker, hpc] at h
      split at h
      next hst =>
        split_ifs at h with hlist
        cases h
        exact .subscribeNone hpc hst (Bool.eq_false_iff.mpr hlist)
      next hst =>
        cases h
        exact .connected hpc hst
      next hst =>
        cases h
        exact .disconnected hpc hst
      next => cases h
    | connectFailed ret =>
      simp only [worker, hpc] at h
      cases h
      exact .connectFailed ret hpc
    | connectCheck =>
      simp only [worker, hpc] at h
      split_ifs at h with hc
      · cases h
        exact .connectDone hpc hc
      · cases h
        exact .connectAbort hpc (Bool.eq_false_iff.mpr hc)
    | subscribeInput ret =>
      simp only [worker, hpc] at h
      split_ifs at h with hevt
      · cases h
        exact .subscribeAgain ret hpc
      · cases h
        exact .subscribeEnd ret hpc
    | inputHandle =>
      simp only [worker, hpc] at h
      split_ifs at h with hnow
      · cases h
        exact .inputEnter hpc hnow
      · cases h
        exact .keepalive hpc (Int.not_lt.mp hnow)
    | inputCheck =>
      simp only [worker, hpc] at h
      split_ifs at h with hc
      · cases h
        exact .inputHeld hpc hc
      · cases h
        exact .inputLost hpc (Bool.eq_false_iff.mpr hc)
    | inputExternal =>
      simp only [worker, hpc] at h
      split_ifs at h with hreq
      · cases h
        exact .inputExternal hpc hreq
      · cases h
        exact .inputDone hpc (Bool.eq_false_iff.mpr hreq)
    | _ => simp [worker, hpc] at h

section Fields
variable (cfg : WorkerConfig) (s : Worker) (ret : ℤ)

theorem mqttEvtHandler_fields (type : MqttEvtType) (result : ℤ) :
    (mqttEvtHandler s type result).pc = s.pc ∧
      (mqttEvtHandler s type result).stateMachine = s.stateMachine ∧
      (mqttEvtHandler s type result).subscribed =
        (if type = .suback then true else s.subscribed) ∧
      (type ≠ .disconnect → s.connected = true →
        (mqttEvtHandler s type result).connected = true) := by
  by_cases hresult : result = 0 <;> cases type <;> simp [mqttEvtHandler, hresult]

theorem dnsResolve_fields :
    (dnsResolve cfg s ret).2.pc = s.pc ∧ (dnsResolve cfg s ret).2.subscribed = s.subscribed ∧
      ((dnsResolve cfg s ret).2.stateMachine = .connectToBroker ∨
        (dnsResolve cfg s ret).2 = s) := by
  unfold dnsResolve
  dsimp only
  split_ifs <;> simp

theorem dnsResolve_all {P : WorkerEvent → Prop} (hP : P (.getaddrinfo ret)) :
    ∀ e ∈ (dnsResolve cfg s ret).1, P e := by
  unfold dnsResolve
  cases cfg.hostLiteral <;> simp [hP]

theorem inputOf_all {P : WorkerEvent → Prop} (hP : P .mqttInput) : ∀ e ∈ inputOf ret, P e := by
  unfold inputOf
  split_ifs <;> simp [hP]

theorem connectReturned_fields :
    (connectReturned s ret).pc = .dispatch ∧ (connectReturned s ret).subscribed = s.subscribed ∧
      (connectReturned s ret).connected = s.connected ∧
      ((connectReturned s ret).stateMachine = .connected → s.stateMachine = .connected) := by
  unfold connectReturned
  split_ifs <;> simp

theorem subscribeReturned_fields :
    (subscribeReturned s ret).pc = .inputHandle ∧
      (subscribeReturned s ret).subscribed = s.subscribed ∧
      (subscribeReturned s ret).connected = s.connected ∧
      ((subscribeReturned s ret).stateMachine = .connectToBroker →
        s.stateMachine = .connectToBroker) := by
  unfold subscribeReturned
  split_ifs <;> simp

theorem subscribeReturned_connected
    (hst : (subscribeReturned s ret).stateMachine = .connected) :
    ret = 0 ∨ s.stateMachine = .connected := by
  unfold subscribeReturned at hst
  split_ifs at hst with hret
  · exact Or.inl hret
  · exact Or.inr hst

end Fields

/-- A station with a subscription list, a broker name and a ping every minute. -/
def stationConfig : WorkerConfig := ⟨true, false, 60⟩

/-- Up to the call of `mqtt_subscribe`. -/
def connectActs : List WorkerAct :=
  [.proceed, .dnsResolve 0, .mqttConnect 0, .poll 1, .event .connack 0, .proceed, .mqttSubscribe 0]

end WlabStation.Mqtt
