import WlabStation.Mqtt.Worker

/-! Sessions with the broker: `mqtt_connect` opens one, and every way back to
`DNS_RESOLVE` closes it but the one after four failed subscriptions. -/
namespace WlabStation.Mqtt
open Machine

def sessionStep : Bool → WorkerEvent → Bool
  | b, .mqttConnect ret => b || ret = 0
  | _, .mqttDisconnect | _, .mqttAbort | _, .event .disconnect _ => false
  | b, _ => b

/-- A session is open after these events. -/
def sessionOpen (h : List WorkerEvent) : Bool := h.foldl sessionStep false

/-- `mqtt_connect` is called only when no session is open. -/
def ConnectsClosed (h : List WorkerEvent) : WorkerEvent → Prop
  | .mqttConnect _ => sessionOpen h = false
  | _ => True

instance (h : List WorkerEvent) : DecidablePred (ConnectsClosed h) := by
  intro e
  unfold ConnectsClosed
  split <;> infer_instance

/-- `input_handle` is about to return 0. -/
def ReturnsToLoop (s : Worker) (a : WorkerAct) : Prop :=
  a = .proceed ∧ (s.pc = .inputExternal ∧ s.disconnectReqExternal = false ∨
    s.pc = .inputHandle ∧ s.nextAlive ≤ s.uptime)

instance (s : Worker) (a : WorkerAct) : Decidable (ReturnsToLoop s a) := by
  unfold ReturnsToLoop
  infer_instance

/-- When the subscription was given up, the session is closed before the loop goes on. -/
def GivesUpClosed (x : List WorkerEvent × Worker) (a : WorkerAct) : Prop :=
  x.2.stateMachine = .dnsResolve → ReturnsToLoop x.2 a → sessionOpen x.1 = false

instance (x : List WorkerEvent × Worker) (a : WorkerAct) : Decidable (GivesUpClosed x a) := by
  unfold GivesUpClosed
  infer_instance

/-- What the thread is about: no session, opening one, or serving one. -/
inductive Phase where
  | idle
  | connecting
  | serving
  deriving DecidableEq, Repr

def Worker.phase (s : Worker) : Phase :=
  match s.pc with
  | .waitStart | .connectFailed _ => .idle
  | .connectWait | .connectCheck => .connecting
  | .dispatch =>
      match s.stateMachine with
      | .dnsResolve | .connectToBroker => .idle
      | _ => .serving
  | _ => .serving

/-- The session is closed while idle; while it is served, `Connected` knows it. -/
structure Sessions (h : List WorkerEvent) (s : Worker) : Prop where
  once : EachEvent ConnectsClosed h
  idle : s.phase = .idle → sessionOpen h = false
  serving : s.phase = .serving → sessionOpen h = true → s.connected = true
  target : s.phase = .serving → s.stateMachine ≠ .connectToBroker

theorem sessions_init : Sessions [] workerInit := by
  constructor
  case once => exact eachEvent_nil _
  case idle =>
    intro _
    rfl
  case serving =>
    intro hphase
    cases hphase
  case target =>
    intro hphase
    cases hphase

/-- Events that neither open nor close a session. -/
def WorkerEvent.keeps : WorkerEvent → Bool
  | .mqttConnect _ | .mqttDisconnect | .mqttAbort | .event .disconnect _ => false
  | _ => true

theorem sessionOpen_concat (h : List WorkerEvent) (e : WorkerEvent) :
    sessionOpen (h ++ [e]) = sessionStep (sessionOpen h) e := by
  simp [sessionOpen]

theorem sessionOpen_keeps {es : List WorkerEvent} (hes : ∀ e ∈ es, e.keeps)
    (h : List WorkerEvent) : sessionOpen (h ++ es) = sessionOpen h := by
  apply Machine.foldl_append_of_fixed
  intro e he o
  have hkeeps := hes e he
  unfold sessionStep
  split
  · cases hkeeps
  · cases hkeeps
  · cases hkeeps
  · cases hkeeps
  · rfl

theorem connectsClosed_keeps {es : List WorkerEvent} (hes : ∀ e ∈ es, e.keeps) :
    ∀ e ∈ es, ∀ k, ConnectsClosed k e := by
  intro e he k
  have hkeeps := hes e he
  unfold ConnectsClosed
  split
  · cases hkeeps
  · trivial

section Steps
variable {cfg : WorkerConfig} {h es : List WorkerEvent} {s t : Worker} {a : WorkerAct}

/-- Steps after which no session is open. -/
theorem Sessions.closed (hi : Sessions h s) (hes : ∀ e ∈ es, ∀ k, ConnectsClosed k e)
    (hclosed : sessionOpen (h ++ es) = false)
    (htarget : t.phase = .serving → t.stateMachine ≠ .connectToBroker) :
    Sessions (h ++ es) t := by
  constructor
  case once => exact (eachEvent_append hes).mpr hi.once
  case idle =>
    intro _
    exact hclosed
  case serving =>
    intro _ hopen
    rw [hclosed] at hopen
    cases hopen
  case target => exact htarget

/-- Steps that go on serving. -/
theorem Sessions.serve (hi : Sessions h s) (hes : ∀ e ∈ es, e.keeps)
    (hphase : s.phase = .serving) (hphase' : t.phase = .serving)
    (hconnected : t.connected = s.connected)
    (hst : t.stateMachine = .connectToBroker → s.stateMachine = .connectToBroker) :
    Sessions (h ++ es) t := by
  constructor
  case once => exact (eachEvent_append (connectsClosed_keeps hes)).mpr hi.once
  case idle =>
    intro hidle
    rw [hphase'] at hidle
    cases hidle
  case serving =>
    intro _ hopen
    rw [sessionOpen_keeps hes] at hopen
    rw [hconnected]
    exact hi.serving hphase hopen
  case target =>
    intro _ htarget
    exact hi.target hphase (hst htarget)

/-- Steps that return to the loop with the state machine as it is. -/
theorem Sessions.back (hi : Sessions h s) (hes : ∀ e ∈ es, e.keeps) (hphase : s.phase = .serving)
    (hpc : t.pc = .dispatch) (hst : t.stateMachine = s.stateMachine)
    (hconnected : t.connected = s.connected)
    (hgive : s.stateMachine = .dnsResolve → sessionOpen h = false) : Sessions (h ++ es) t := by
  have htarget := hi.target hphase
  constructor
  case once => exact (eachEvent_append (connectsClosed_keeps hes)).mpr hi.once
  case idle =>
    intro hidle
    rw [sessionOpen_keeps hes]
    simp only [Worker.phase, hpc, hst] at hidle
    split at hidle
    next hdns => exact hgive hdns
    next hconnect => exact absurd hconnect htarget
    next => cases hidle
  case serving =>
    intro _ hopen
    rw [sessionOpen_keeps hes] at hopen
    rw [hconnected]
    exact hi.serving hphase hopen
  case target =>
    intro _
    rw [hst]
    exact htarget

theorem Sessions.event (hi : Sessions h s) (type : MqttEvtType) (result : ℤ) :
    Sessions (h ++ [.event type result]) (mqttEvtHandler s type result) := by
  obtain ⟨hpc, hst, -, hconnected⟩ := mqttEvtHandler_fields s type result
  have hphase : (mqttEvtHandler s type result).phase = s.phase := by
    unfold Worker.phase
    rw [hpc, hst]
  by_cases htype : type = .disconnect
  · apply hi.closed
    · simp [ConnectsClosed]
    · rw [sessionOpen_concat, htype]
      rfl
    · rw [hphase, hst]
      exact hi.target
  · have hkeeps : ∀ e ∈ [WorkerEvent.event type result], e.keeps := by
      cases type <;> simp [WorkerEvent.keeps] at htype ⊢
    constructor
    case once => exact (eachEvent_append (connectsClosed_keeps hkeeps)).mpr hi.once
    case idle =>
      rw [hphase, sessionOpen_keeps hkeeps]
      exact hi.idle
    case serving =>
      intro hserving hopen
      rw [hphase] at hserving
      rw [sessionOpen_keeps hkeeps] at hopen
      exact hconnected htype (hi.serving hserving hopen)
    case target =>
      rw [hphase, hst]
      exact hi.target

/-- Another thread changed what no session depends on. -/
theorem Sessions.congr (hi : Sessions h s) (hpc : t.pc = s.pc)
    (hst : t.stateMachine = s.stateMachine) (hconnected : t.connected = s.connected) :
    Sessions (h ++ []) t := by
  have hphase : t.phase = s.phase := by
    unfold Worker.phase
    rw [hpc, hst]
  rw [List.append_nil]
  constructor
  case once => exact hi.once
  case idle =>
    rw [hphase]
    exact hi.idle
  case serving =>
    rw [hphase, hconnected]
    exact hi.serving
  case target =>
    rw [hphase, hst]
    exact hi.target

theorem dispatch_target (hpc : t.pc = .dispatch) :
    t.phase = .serving → t.stateMachine ≠ .connectToBroker := by
  intro hphase hst
  simp [Worker.phase, hpc, hst] at hphase

/-- `mqtt_worker_subscribe` returns from a state that differs from `s` in other fields. -/
theorem Sessions.afterSubscribe (hi : Sessions h s) (hes : ∀ e ∈ es, e.keeps)
    (hphase : s.phase = .serving) (hconnected : t.connected = s.connected)
    (hst : t.stateMachine = s.stateMachine) (ret : ℤ) :
    Sessions (h ++ es) (subscribeReturned t ret) := by
  obtain ⟨hpc, -, hconnected', hst'⟩ := subscribeReturned_fields t ret
  apply hi.serve hes hphase
  · rw [Worker.phase, hpc]
  · rw [hconnected', hconnected]
  · rw [← hst]
    exact hst'

theorem Sessions.step (hi : Sessions h s) (hgive : GivesUpClosed (h, s) a)
    (hc : WorkerCase cfg s a es t) : Sessions (h ++ es) t := by
  cases hc with
  | event type result => exact hi.event type result
  | disconnectRequest => exact hi.congr rfl rfl rfl
  | tick ms => exact hi.congr rfl rfl rfl
  | start hpc =>
    apply hi.closed (by simp) _ (dispatch_target rfl)
    rw [List.append_nil]
    exact hi.idle (by simp [Worker.phase, hpc])
  | dnsResolve ret hpc hst =>
    obtain ⟨hpc', -, -⟩ := dnsResolve_fields cfg s ret
    have hkeeps : ∀ e ∈ (dnsResolve cfg s ret).1, e.keeps := dnsResolve_all cfg s ret rfl
    apply hi.closed (connectsClosed_keeps hkeeps) _ (dispatch_target (hpc'.trans hpc))
    rw [sessionOpen_keeps hkeeps]
    exact hi.idle (by simp [Worker.phase, hpc, hst])
  | mqttConnect ret hpc hst =>
    have hclosed := hi.idle (by simp [Worker.phase, hpc, hst])
    have hopen : sessionOpen (h ++ [.mqttConnect ret]) = decide (ret = 0) := by
      rw [sessionOpen_concat, hclosed]
      rfl
    constructor
    case once => exact eachEvent_concat.mpr ⟨hi.once, hclosed⟩
    case idle =>
      intro hidle
      rw [hopen]
      by_cases hret : ret = 0
      · simp [Worker.phase, hret] at hidle
      · simp [hret]
    case serving =>
      intro hserving
      by_cases hret : ret = 0 <;> simp [Worker.phase, hret] at hserving
    case target =>
      intro hserving
      by_cases hret : ret = 0 <;> simp [Worker.phase, hret] at hserving
  | connectFailed ret hpc =>
    obtain ⟨hpc', -⟩ := connectReturned_fields s ret
    exact hi.closed (by simp [ConnectsClosed]) (by rw [sessionOpen_concat]; rfl)
      (dispatch_target hpc')
  | connectPoll ret hpc =>
    constructor
    case once => exact (eachEvent_append (connectsClosed_keeps (inputOf_all ret rfl))).mpr hi.once
    case idle => simp [Worker.phase]
    case serving => simp [Worker.phase]
    case target => simp [Worker.phase]
  | connectAbort hpc hconnected =>
    obtain ⟨hpc', -⟩ := connectReturned_fields s (-1)
    exact hi.closed (by simp [ConnectsClosed]) (by rw [sessionOpen_concat]; rfl)
      (dispatch_target hpc')
  | connectDone hpc hconnected =>
    rw [List.append_nil]
    constructor
    case once => exact hi.once
    case idle => simp [Worker.phase, connectReturned]
    case serving => simp [connectReturned, hconnected]
    case target => simp [connectReturned]
  | subscribeNone hpc hst hnone =>
    apply hi.afterSubscribe <;> simp [WorkerEvent.keeps, Worker.phase, hpc, hst]
  | subscribeFailed ret hpc hst hret =>
    apply hi.afterSubscribe <;> simp [WorkerEvent.keeps, Worker.phase, hpc, hst]
  | mqttSubscribe hpc hst =>
    apply hi.serve <;> simp [WorkerEvent.keeps, Worker.phase, hpc, hst]
  | subscribePoll ret hpc hret =>
    apply hi.serve <;> simp [WorkerEvent.keeps, Worker.phase, hpc]
  | subscribeTimeout ret hpc hret =>
    apply hi.afterSubscribe <;>
      simp [WorkerEvent.keeps, Worker.phase, subscribeEnd, hpc]
  | subscribeAgain ret hpc => apply hi.serve <;> simp [Worker.phase, hpc]
  | subscribeEnd ret hpc =>
    apply hi.afterSubscribe <;>
      simp [WorkerEvent.keeps, Worker.phase, subscribeEnd, hpc]
  | connected hpc hst => apply hi.serve <;> simp [Worker.phase, hpc, hst]
  | disconnected hpc hst => exact hi.congr rfl rfl rfl
  | inputEnter hpc hnow => apply hi.serve <;> simp [Worker.phase, hpc]
  | keepalive hpc hnow =>
    apply hi.back
    case hgive =>
      intro hst
      exact hgive hst ⟨rfl, Or.inr ⟨hpc, hnow⟩⟩
    all_goals simp [WorkerEvent.keeps, Worker.phase, keepalive, inputReturned, hpc]
  | inputPoll ret hpc => apply hi.serve (inputOf_all ret rfl) <;> simp [Worker.phase, hpc]
  | inputLost hpc hconnected =>
    apply hi.closed (by simp) _ (dispatch_target rfl)
    rw [List.append_nil]
    have hserving := hi.serving (by simp [Worker.phase, hpc])
    rw [hconnected] at hserving
    simpa using hserving
  | inputHeld hpc hconnected => apply hi.serve <;> simp [Worker.phase, hpc]
  | inputExternal hpc hreq =>
    exact hi.closed (by simp [ConnectsClosed]) (by rw [sessionOpen_concat]; rfl)
      (dispatch_target rfl)
  | inputDone hpc hreq =>
    apply hi.back
    case hgive =>
      intro hst
      exact hgive hst ⟨rfl, Or.inl ⟨hpc, hreq⟩⟩
    all_goals simp [Worker.phase, inputReturned, hpc]

end Steps

/-- What the thread does when `input_handle` returns 0. -/
theorem ReturnsToLoop.step {cfg : WorkerConfig} {s t : Worker} {a : WorkerAct}
    {es : List WorkerEvent} (hret : ReturnsToLoop s a)
    (hs : (worker cfg).step s a = some (es, t)) :
    (∀ e ∈ es, e.keeps) ∧ t.pc = .dispatch ∧ t.stateMachine = s.stateMachine := by
  obtain ⟨rfl, ⟨hpc, hreq⟩ | ⟨hpc, hnow⟩⟩ := hret
  · have hdone : (worker cfg).step s .proceed = some ([], inputReturned s 0) := by
      simp [worker, hpc, hreq]
    rw [hdone] at hs
    cases hs
    simp [inputReturned]
  · have hlive : (worker cfg).step s .proceed = some (keepalive cfg s) := by
      have hnot : ¬ (s.uptime : ℤ) < s.nextAlive := Int.not_lt.mpr hnow
      simp [worker, hpc, hnot]
    rw [hlive, Option.some.injEq] at hs
    cases hs
    simp [inputReturned, WorkerEvent.keeps]

/-- From `DNS_RESOLVE` the next two steps may resolve the name and connect. -/
theorem exists_connect (cfg : WorkerConfig) {s : Worker} (hpc : s.pc = .dispatch)
    (hst : s.stateMachine = .dnsResolve) :
    ∃ es t, (∀ e ∈ es, e.keeps) ∧
      (worker cfg).Runs s [.dnsResolve 0, .mqttConnect 0] (es ++ [.mqttConnect 0]) t := by
  let d := dnsResolve cfg s 0
  have hd : d.2 = { s with stateMachine := .connectToBroker } := by
    simp only [d, dnsResolve]
    cases cfg.hostLiteral <;> rfl
  have hresolve : (worker cfg).step s (.dnsResolve 0) = some d := by
    simp [worker, hpc, hst, d]
  have hconnect : (worker cfg).step d.2 (.mqttConnect 0) = some ([.mqttConnect 0], { d.2 with
      disconnectReqExternal := false, connected := false, pc := .connectWait }) := by
    rw [hd]
    simp [worker, hpc]
  exact ⟨d.1, _, dnsResolve_all cfg s 0 rfl, Machine.runs_cons.mpr ⟨d.1, d.2, [.mqttConnect 0],
    hresolve, Machine.runs_cons.mpr ⟨_, _, [], hconnect, Machine.runs_nil.mpr ⟨rfl, rfl⟩, rfl⟩,
    rfl⟩⟩

/-- `mqtt_connect` is called with no session open in every run in which the
session is closed whenever the thread goes on after four failed subscriptions;
where it is not, a second session may be opened right after. -/
theorem one_session_at_a_time {cfg : WorkerConfig} {acts : List WorkerAct}
    {h : List WorkerEvent} {s : Worker} (hr : (worker cfg).Runs workerInit acts h s) :
    ((worker cfg).traced.EachStep GivesUpClosed ([], workerInit) acts →
      EachEvent ConnectsClosed h) ∧
    ∀ a es t, ¬ GivesUpClosed (h, s) a → (worker cfg).step s a = some (es, t) →
      ∃ rest k u, (worker cfg).Runs t rest k u ∧ ¬ EachEvent ConnectsClosed (h ++ es ++ k) := by
  constructor
  · intro hC
    have hi : Sessions h s := by
      apply hr.invariant_of_traced sessions_init _ hC
      intro h s a es t hi hgive hs
      exact hi.step hgive (worker_step_cases hs)
    exact hi.once
  · intro a es t hgive hs
    unfold GivesUpClosed at hgive
    push Not at hgive
    obtain ⟨hst, hret, hopen⟩ := hgive
    obtain ⟨hkeeps, hpc', hst'⟩ := hret.step hs
    obtain ⟨k, u, hkeeps', hrun⟩ := exists_connect cfg hpc' (hst'.trans hst)
    use [.dnsResolve 0, .mqttConnect 0], k ++ [.mqttConnect 0], u, hrun
    intro hall
    rw [← List.append_assoc, eachEvent_concat] at hall
    have hclosed := hall.2
    unfold ConnectsClosed at hclosed
    rw [sessionOpen_keeps hkeeps', sessionOpen_keeps hkeeps] at hclosed
    exact hopen hclosed

/-- A session that is subscribed, served once and closed by request; then the next one. -/
def twoSessions : List WorkerAct :=
  connectActs ++ [.poll 1, .event .suback 0, .proceed, .proceed, .proceed, .proceed,
    .disconnectRequest, .poll 0, .proceed, .proceed, .dnsResolve 0, .mqttConnect 0]

theorem second_session_after_first : ∃ h s,
    (worker stationConfig).Runs workerInit twoSessions h s ∧ EachEvent ConnectsClosed h :=
  ⟨_, _, Machine.runs_get (by decide +kernel),
    (one_session_at_a_time (Machine.runs_get (by decide +kernel))).1 (by decide +kernel)⟩

/-- Four failures of `mqtt_subscribe`, the keepalive branch in between. -/
def fourFailures : List WorkerAct :=
  connectActs.dropLast ++ [.mqttSubscribe (-1), .proceed, .mqttSubscribe (-1), .proceed, .poll 0,
    .proceed, .proceed, .mqttSubscribe (-1), .proceed, .poll 0, .proceed, .proceed,
    .mqttSubscribe (-1), .proceed, .poll 0, .proceed, .proceed, .dnsResolve 0, .mqttConnect 0]

theorem four_failures_connect_twice :
    ¬ ∀ cfg acts h s, (worker cfg).Runs workerInit acts h s → EachEvent ConnectsClosed h := by
  intro hall
  have h := hall stationConfig fourFailures _ _ (Machine.runs_get (by decide +kernel))
    (((worker stationConfig).run workerInit fourFailures).get (by decide +kernel)).1.dropLast
    (.mqttConnect 0) [] (by decide +kernel)
  exact absurd h (by decide +kernel)

end WlabStation.Mqtt
