import WlabStation.Mqtt.Session

/-! The network thread of a station that subscribes to nothing: it never opens a
session over another, and from wherever it stands it can get back to a session. -/
namespace WlabStation.Mqtt
open Machine Relation

/-- Where the thread without a subscription list can be. While it waits for input
its state machine is in `CONNECTED`. -/
structure Listless (s : Worker) : Prop where
  subscribeWait : s.pc ≠ .subscribeWait
  subscribeInput : ∀ ret, s.pc ≠ .subscribeInput ret
  serving : s.pc = .inputHandle ∨ s.pc = .inputWait ∨ s.pc = .inputCheck ∨ s.pc = .inputExternal →
    s.stateMachine = .connected
  disconnected : s.stateMachine ≠ .disconnected

theorem listless_init : Listless workerInit := by
  constructor <;> simp [workerInit]

section Listless
variable {cfg : WorkerConfig} {s t : Worker} {a : WorkerAct} {es : List WorkerEvent}

/-- Steps that stay where they are. -/
theorem Listless.same (hi : Listless s) (hpc : t.pc = s.pc)
    (hst : t.stateMachine = s.stateMachine) : Listless t := by
  obtain ⟨hwait, hinput, hserving, hdisconnected⟩ := hi
  constructor
  case subscribeWait => rwa [hpc]
  case subscribeInput => rwa [hpc]
  case serving => rwa [hpc, hst]
  case disconnected => rwa [hst]

/-- Steps that return to the loop or go on serving. -/
theorem Listless.moved (hst : t.stateMachine ≠ .disconnected)
    (hpc : t.pc = .dispatch ∨ t.pc = .connectWait ∨ t.pc = .connectCheck ∨
      (∃ ret, t.pc = .connectFailed ret) ∨ t.stateMachine = .connected ∧
        (t.pc = .inputHandle ∨ t.pc = .inputWait ∨ t.pc = .inputCheck ∨ t.pc = .inputExternal)) :
    Listless t := by
  constructor
  case disconnected => exact hst
  all_goals
    rcases hpc with hpc | hpc | hpc | ⟨ret, hpc⟩ | ⟨hst', hpc | hpc | hpc | hpc⟩ <;> simp_all

theorem mqttSubscribe_refused (hlist : cfg.subsList = false) (s : Worker) (ret : ℤ) :
    (worker cfg).step s (.mqttSubscribe ret) = none := by
  cases hpc : s.pc <;> simp [worker, hpc, hlist]

theorem Listless.step (hlist : cfg.subsList = false) (hi : Listless s)
    (hs : (worker cfg).step s a = some (es, t)) : Listless t := by
  have hserving := hi.serving
  have hdisconnected := hi.disconnected
  cases worker_step_cases hs with
  | event type result =>
    obtain ⟨hpc, hst, -⟩ := mqttEvtHandler_fields s type result
    exact hi.same hpc hst
  | disconnectRequest => exact hi.same rfl rfl
  | tick ms => exact hi.same rfl rfl
  | start hpc => exact .moved hdisconnected (.inl rfl)
  | dnsResolve ret hpc hst =>
    obtain ⟨hpc', -, hst' | hsame⟩ := dnsResolve_fields cfg s ret
    · exact .moved (by simp [hst']) (.inl (hpc'.trans hpc))
    · rwa [hsame]
  | mqttConnect ret hpc hst =>
    refine .moved hdisconnected ?_
    by_cases hret : ret = 0 <;> simp [hret]
  | connectFailed ret hpc =>
    apply Listless.moved _ (.inl (connectReturned_fields s ret).1)
    unfold connectReturned
    split_ifs <;> simp_all
  | connectPoll ret hpc => exact .moved hdisconnected (.inr (.inr (.inl rfl)))
  | connectAbort hpc hconnected =>
    apply Listless.moved _ (.inl (connectReturned_fields s (-1)).1)
    unfold connectReturned
    split_ifs <;> simp_all
  | connectDone hpc hconnected =>
    exact .moved (by simp [connectReturned]) (.inl (connectReturned_fields s 0).1)
  | subscribeNone hpc hst hnone =>
    exact .moved (by simp [subscribeReturned]) (by simp [subscribeReturned])
  | subscribeFailed ret hpc hst hret =>
    rw [mqttSubscribe_refused hlist] at hs
    cases hs
  | mqttSubscribe hpc hst =>
    rw [mqttSubscribe_refused hlist] at hs
    cases hs
  | subscribePoll ret hpc hret => exact absurd hpc hi.subscribeWait
  | subscribeTimeout ret hpc hret => exact absurd hpc hi.subscribeWait
  | subscribeAgain ret hpc => exact absurd hpc (hi.subscribeInput ret)
  | subscribeEnd ret hpc => exact absurd hpc (hi.subscribeInput ret)
  | connected hpc hst => exact .moved hdisconnected (by simp [hst])
  | disconnected hpc hst => exact absurd hst hdisconnected
  | inputEnter hpc hnow => exact .moved hdisconnected (by simp [hserving (.inl hpc)])
  | keepalive hpc hnow => exact .moved (by simpa [keepalive, inputReturned]) (.inl rfl)
  | inputPoll ret hpc => exact .moved hdisconnected (by simp [hserving (.inr (.inl hpc))])
  | inputLost hpc hconnected => exact .moved (by simp [inputReturned]) (.inl rfl)
  | inputHeld hpc hconnected =>
    exact .moved hdisconnected (by simp [hserving (.inr (.inr (.inl hpc)))])
  | inputExternal hpc hreq => exact .moved (by simp [inputReturned]) (.inl rfl)
  | inputDone hpc hreq => exact .moved (by simpa [inputReturned]) (.inl rfl)

/-- The loop is never returned to from a subscription that was given up. -/
theorem Listless.givesUpClosed (hi : Listless s) (h : List WorkerEvent) (a : WorkerAct) :
    GivesUpClosed (h, s) a := by
  rintro (hst : s.stateMachine = .dnsResolve) ⟨-, ⟨hpc, -⟩ | ⟨hpc, -⟩⟩
  · have hst' := hi.serving (.inr (.inr (.inr hpc)))
    rw [hst] at hst'
    cases hst'
  · have hst' := hi.serving (.inl hpc)
    rw [hst] at hst'
    cases hst'

theorem listless_run {acts : List WorkerAct} {h : List WorkerEvent} (hlist : cfg.subsList = false)
    (hr : (worker cfg).Runs workerInit acts h s) : Listless s ∧ Sessions h s := by
  apply hr.invariant (I := fun h s => Listless s ∧ Sessions h s) ⟨listless_init, sessions_init⟩
  rintro h s a es t ⟨hi, hsessions⟩ hs
  exact ⟨hi.step hlist hs, hsessions.step (hi.givesUpClosed h a) (worker_step_cases hs)⟩

end Listless

/-- What the thread does by itself, and the answer to its `mqtt_connect`. -/
def OwnAct (s : Worker) : WorkerAct → Prop
  | .event type _ => type = .connack ∧ s.pc = .connectCheck
  | .tick _ | .disconnectRequest => False
  | _ => True

def Goes (cfg : WorkerConfig) (s t : Worker) : Prop :=
  ∃ a es, OwnAct s a ∧ (worker cfg).step s a = some (es, t)

/-- The session is up, and nobody has asked to close it. -/
structure Serves (s : Worker) : Prop where
  stateMachine : s.stateMachine = .connected
  connected : s.connected = true
  kept : s.disconnectReqExternal = false

section Ways
variable {cfg : WorkerConfig} {s t : Worker}

theorem goes_proceed (es : List WorkerEvent)
    (hs : (worker cfg).step s .proceed = some (es, t)) :
    Goes cfg s t := ⟨.proceed, es, trivial, hs⟩

theorem goes_poll (es : List WorkerEvent) (ret : ℤ)
    (hs : (worker cfg).step s (.poll ret) = some (es, t)) : Goes cfg s t :=
  ⟨.poll ret, es, trivial, hs⟩

/-- A broker that accepts the session. -/
theorem serves_of_connectToBroker (hlist : cfg.subsList = false) (hpc : s.pc = .dispatch)
    (hst : s.stateMachine = .connectToBroker) : ∃ t, ReflTransGen (Goes cfg) s t ∧ Serves t := by
  let s₁ : Worker := { s with
    disconnectReqExternal := false, connected := false, pc := .connectWait }
  let s₂ : Worker := { s₁ with pc := .connectCheck }
  let s₃ : Worker := mqttEvtHandler s₂ .connack 0
  let s₄ : Worker := connectReturned s₃ 0
  have h₁ : Goes cfg s s₁ :=
    ⟨.mqttConnect 0, [.mqttConnect 0], trivial, by simp [worker, hpc, hst, s₁]⟩
  have h₂ : Goes cfg s₁ s₂ := goes_poll _ 1 rfl
  have h₃ : Goes cfg s₂ s₃ := ⟨.event .connack 0, _, ⟨rfl, rfl⟩, rfl⟩
  have h₄ : Goes cfg s₃ s₄ := goes_proceed _ rfl
  have h₅ : Goes cfg s₄ (subscribeReturned s₄ 0) := by
    apply goes_proceed [.subscribeReturned 0]
    simp [worker, s₄, connectReturned, hlist]
  refine ⟨subscribeReturned s₄ 0, .head h₁ (.head h₂ (.head h₃ (.head h₄ (.single h₅)))), ?_⟩
  exact ⟨rfl, rfl, rfl⟩

theorem serves_of_dnsResolve (hlist : cfg.subsList = false) (hpc : s.pc = .dispatch)
    (hst : s.stateMachine = .dnsResolve) : ∃ t, ReflTransGen (Goes cfg) s t ∧ Serves t := by
  let t : Worker := { s with stateMachine := .connectToBroker }
  have hgo : Goes cfg s t := by
    refine ⟨.dnsResolve 0, (dnsResolve cfg s 0).1, trivial, ?_⟩
    cases hlit : cfg.hostLiteral <;> simp [worker, hpc, hst, dnsResolve, hlit, t]
  obtain ⟨u, hu, hserves⟩ := serves_of_connectToBroker (s := t) hlist hpc rfl
  exact ⟨u, .head hgo hu, hserves⟩

/-- The input is looked at: a session that is lost is closed, and the next one opened. -/
theorem serves_of_inputCheck (hlist : cfg.subsList = false) (hpc : s.pc = .inputCheck)
    (hst : s.stateMachine = .connected) : ∃ t, ReflTransGen (Goes cfg) s t ∧ Serves t := by
  cases hconnected : s.connected with
  | false =>
    have hgo : Goes cfg s (inputReturned s (-1)) :=
      goes_proceed [] (by simp [worker, hpc, hconnected])
    obtain ⟨u, hu, hserves⟩ :=
      serves_of_dnsResolve (s := inputReturned s (-1)) hlist rfl rfl
    exact ⟨u, .head hgo hu, hserves⟩
  | true =>
    cases hreq : s.disconnectReqExternal with
    | false => exact ⟨s, .refl, hst, hconnected, hreq⟩
    | true =>
      let t : Worker := { s with pc := .inputExternal }
      let v : Worker := { t with
        conectedAckSem := t.conectedAckSem.tryTake
        connected := false }
      have hgo : Goes cfg s t := goes_proceed [] (by simp [worker, hpc, hconnected, t])
      have hclose : Goes cfg t (inputReturned v (-1)) :=
        goes_proceed [.mqttDisconnect] (by simp [worker, hreq, t, v])
      obtain ⟨u, hu, hserves⟩ :=
        serves_of_dnsResolve (s := inputReturned v (-1)) hlist rfl rfl
      exact ⟨u, .head hgo (.head hclose hu), hserves⟩

theorem serves_of_inputWait (hlist : cfg.subsList = false) (hpc : s.pc = .inputWait)
    (hst : s.stateMachine = .connected) : ∃ t, ReflTransGen (Goes cfg) s t ∧ Serves t := by
  have hgo : Goes cfg s { s with pc := .inputCheck } :=
    goes_poll [] 0 (by simp [worker, hpc, inputOf])
  obtain ⟨u, hu, hserves⟩ :=
    serves_of_inputCheck (s := { s with pc := .inputCheck }) hlist rfl hst
  exact ⟨u, .head hgo hu, hserves⟩

/-- A keepalive is followed by a look at the input, unless its period is zero. -/
theorem serves_of_inputHandle (hlist : cfg.subsList = false)
    (hping : cfg.pingPeriodSec * 1000 ≠ 0) (hpc : s.pc = .inputHandle)
    (hst : s.stateMachine = .connected) : ∃ t, ReflTransGen (Goes cfg) s t ∧ Serves t := by
  have henter : ∀ s : Worker, s.pc = .inputHandle → s.stateMachine = .connected →
      (s.uptime : ℤ) < s.nextAlive → ∃ t, ReflTransGen (Goes cfg) s t ∧ Serves t := by
    intro s hpc hst hnow
    have hgo : Goes cfg s { s with pc := .inputWait } :=
      goes_proceed [] (by simp [worker, hpc, hnow])
    obtain ⟨u, hu, hserves⟩ :=
      serves_of_inputWait (s := { s with pc := .inputWait }) hlist rfl hst
    exact ⟨u, .head hgo hu, hserves⟩
  by_cases hnow : (s.uptime : ℤ) < s.nextAlive
  · exact henter s hpc hst hnow
  · have hlive : Goes cfg s (keepalive cfg s).2 :=
      goes_proceed (keepalive cfg s).1 (by simp [worker, hpc, hnow])
    let t : Worker := { (keepalive cfg s).2 with pc := .inputHandle }
    have hback : Goes cfg (keepalive cfg s).2 t :=
      goes_proceed [] (by simp [worker, keepalive, inputReturned, hst, t])
    have hpos : 0 < (cfg.pingPeriodSec * 1000).toNat := by
      rw [Nat.pos_iff_ne_zero]
      exact fun hzero => hping (UInt32.toNat_inj.mp hzero)
    obtain ⟨u, hu, hserves⟩ := henter t rfl hst (by
      simp only [t, keepalive, inputReturned]
      omega)
    exact ⟨u, .head hlive (.head hback hu), hserves⟩

theorem serves_of_dispatch (hlist : cfg.subsList = false) (hping : cfg.pingPeriodSec * 1000 ≠ 0)
    (hpc : s.pc = .dispatch) (hst : s.stateMachine ≠ .disconnected) :
    ∃ t, ReflTransGen (Goes cfg) s t ∧ Serves t := by
  cases hst' : s.stateMachine with
  | dnsResolve => exact serves_of_dnsResolve hlist hpc hst'
  | connectToBroker => exact serves_of_connectToBroker hlist hpc hst'
  | subscribe =>
    have hgo : Goes cfg s (subscribeReturned s 0) :=
      goes_proceed [.subscribeReturned 0] (by simp [worker, hpc, hst', hlist])
    obtain ⟨u, hu, hserves⟩ :=
      serves_of_inputHandle (s := subscribeReturned s 0) hlist hping rfl rfl
    exact ⟨u, .head hgo hu, hserves⟩
  | connected =>
    have hgo : Goes cfg s { s with pc := .inputHandle } :=
      goes_proceed [] (by simp [worker, hpc, hst'])
    obtain ⟨u, hu, hserves⟩ :=
      serves_of_inputHandle (s := { s with pc := .inputHandle }) hlist hping rfl hst'
    exact ⟨u, .head hgo hu, hserves⟩
  | disconnected => exact absurd hst' hst

/-- One step on, the thread is at the head of its loop. -/
theorem serves_of_proceed (hlist : cfg.subsList = false) (hping : cfg.pingPeriodSec * 1000 ≠ 0)
    (hi : Listless s) {es : List WorkerEvent}
    (hs : (worker cfg).step s .proceed = some (es, t)) (hpc : t.pc = .dispatch) :
    ∃ u, ReflTransGen (Goes cfg) s u ∧ Serves u := by
  obtain ⟨u, hu, hserves⟩ := serves_of_dispatch hlist hping hpc (hi.step hlist hs).disconnected
  exact ⟨u, .head (goes_proceed _ hs) hu, hserves⟩

theorem serves_of_connectCheck (hlist : cfg.subsList = false)
    (hping : cfg.pingPeriodSec * 1000 ≠ 0) (hi : Listless s) (hpc : s.pc = .connectCheck) :
    ∃ u, ReflTransGen (Goes cfg) s u ∧ Serves u := by
  cases hconnected : s.connected with
  | false =>
    have hs : (worker cfg).step s .proceed = some ([.mqttAbort], connectReturned s (-1)) := by
      simp [worker, hpc, hconnected]
    exact serves_of_proceed hlist hping hi hs (connectReturned_fields s (-1)).1
  | true =>
    have hs : (worker cfg).step s .proceed = some ([], connectReturned s 0) := by
      simp [worker, hpc, hconnected]
    exact serves_of_proceed hlist hping hi hs (connectReturned_fields s 0).1

theorem serves_of_inputExternal (hlist : cfg.subsList = false)
    (hping : cfg.pingPeriodSec * 1000 ≠ 0) (hi : Listless s) (hpc : s.pc = .inputExternal) :
    ∃ u, ReflTransGen (Goes cfg) s u ∧ Serves u := by
  cases hreq : s.disconnectReqExternal with
  | false =>
    have hs : (worker cfg).step s .proceed = some ([], inputReturned s 0) := by
      simp [worker, hpc, hreq]
    exact serves_of_proceed hlist hping hi hs rfl
  | true =>
    have hs : (worker cfg).step s .proceed = some ([.mqttDisconnect], inputReturned { s with
        conectedAckSem := s.conectedAckSem.tryTake
        connected := false } (-1)) := by simp [worker, hpc, hreq]
    exact serves_of_proceed hlist hping hi hs rfl

/-- From wherever it stands the thread can get to a session by itself. -/
theorem exists_serves (hlist : cfg.subsList = false) (hping : cfg.pingPeriodSec * 1000 ≠ 0)
    (hi : Listless s) : ∃ t, ReflTransGen (Goes cfg) s t ∧ Serves t := by
  cases hpc : s.pc with
  | waitStart =>
    have hs : (worker cfg).step s .proceed = some ([], { s with pc := .dispatch }) := by
      simp [worker, hpc]
    exact serves_of_proceed hlist hping hi hs rfl
  | dispatch => exact serves_of_dispatch hlist hping hpc hi.disconnected
  | connectFailed ret =>
    have hs : (worker cfg).step s .proceed = some ([.mqttDisconnect], connectReturned s ret) := by
      simp [worker, hpc]
    exact serves_of_proceed hlist hping hi hs (connectReturned_fields s ret).1
  | connectWait =>
    have hs : (worker cfg).step s (.poll 0) = some (inputOf 0, { s with pc := .connectCheck }) := by
      simp [worker, hpc]
    obtain ⟨u, hu, hserves⟩ := serves_of_connectCheck hlist hping (hi.step hlist hs) rfl
    exact ⟨u, .head (goes_poll _ _ hs) hu, hserves⟩
  | connectCheck => exact serves_of_connectCheck hlist hping hi hpc
  | subscribeWait => exact absurd hpc hi.subscribeWait
  | subscribeInput ret => exact absurd hpc (hi.subscribeInput ret)
  | inputHandle => exact serves_of_inputHandle hlist hping hpc (hi.serving (.inl hpc))
  | inputWait => exact serves_of_inputWait hlist hpc (hi.serving (.inr (.inl hpc)))
  | inputCheck => exact serves_of_inputCheck hlist hpc (hi.serving (.inr (.inr (.inl hpc))))
  | inputExternal => exact serves_of_inputExternal hlist hping hi hpc

end Ways
end WlabStation.Mqtt
