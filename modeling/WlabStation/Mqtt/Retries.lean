import WlabStation.Machine.Temporal
import WlabStation.Mqtt.Resolver

/-! How often the network thread tries again: with one result of the resolver it
connects four times at most, and in one connection that the broker accepted it
subscribes four times at most. -/
namespace WlabStation.Mqtt
open Machine Temporal

def WorkerEvent.isConnect : WorkerEvent → Bool
  | .mqttConnect _ => true
  | _ => false

def WorkerEvent.isSubscribe : WorkerEvent → Bool
  | .mqttSubscribe _ => true
  | _ => false

/-- The broker has accepted the last connection that was tried. -/
def AcceptedLast : List WorkerEvent → Prop :=
  Since (fun e => e.isConnect) (· = .event .connack 0)

/-- An attempt to connect is one of four with the last result of the resolver, if
one is needed; an attempt to subscribe is one of four in a connection accepted. -/
def OneOfFour (cfg : WorkerConfig) (k : List WorkerEvent) : WorkerEvent → Prop
  | .mqttConnect _ => cfg.hostLiteral = false →
      FewerSince 4 WorkerEvent.isConnect (· = .getaddrinfo 0) k
  | .mqttSubscribe _ => FewerSince 4 WorkerEvent.isSubscribe (fun e => e.isConnect) k ∧
      AcceptedLast k
  | _ => True

/-- How often the thread may still connect to the address it has. -/
def connectsLeft (s : Worker) : ℕ :=
  if s.stateMachine ≠ .connectToBroker then 0
  else if s.pc.case = some .connectToBroker then 3 - s.connectErrTrials
  else 4 - s.connectErrTrials

/-- How often it may still subscribe in the session it has, or is about to have. -/
def subscribesLeft (s : Worker) : ℕ :=
  if s.pc = .connectWait ∨ s.pc = .connectCheck then 4
  else if s.stateMachine ≠ .subscribe then 0
  else if s.pc.case = some .subscribe then 3 - s.subscribeErrTrials
  else 4 - s.subscribeErrTrials

/-- The account of the attempts: what is left and what was used make four. -/
structure Budget (cfg : WorkerConfig) (h : List WorkerEvent) (s : Worker) : Prop where
  once : EachEvent (OneOfFour cfg) h
  connectTrials : s.connectErrTrials < 4
  subscribeTrials : s.subscribeErrTrials < 4
  failed : ∀ ret, s.pc = .connectFailed ret → ret ≠ 0
  connects : cfg.hostLiteral = false → 0 < connectsLeft s →
    FewerSince (5 - connectsLeft s) WorkerEvent.isConnect (· = .getaddrinfo 0) h
  subscribes : 0 < subscribesLeft s →
    FewerSince (5 - subscribesLeft s) WorkerEvent.isSubscribe (fun e => e.isConnect) h
  accepted : s.connected = true ∨ s.stateMachine = .subscribe → AcceptedLast h

theorem budget_init (cfg : WorkerConfig) : Budget cfg [] workerInit := by
  constructor
  case once => exact eachEvent_nil _
  all_goals simp [workerInit, connectsLeft, subscribesLeft]

section Steps
variable {cfg : WorkerConfig} {h es : List WorkerEvent} {s t : Worker} {a : WorkerAct}

/-- Neither a query nor an attempt. -/
def WorkerEvent.noAttempt : WorkerEvent → Prop
  | .getaddrinfo _ | .mqttConnect _ | .mqttSubscribe _ => False
  | _ => True

theorem WorkerEvent.noAttempt.kinds {e : WorkerEvent} (he : e.noAttempt) :
    e ≠ .getaddrinfo 0 ∧ e.isConnect = false ∧ e.isSubscribe = false := by
  cases e with
  | getaddrinfo ret | mqttConnect ret | mqttSubscribe ret => cases he
  | _ => exact ⟨by simp, rfl, rfl⟩

theorem WorkerEvent.noAttempt.oneOfFour {e : WorkerEvent} (he : e.noAttempt)
    (k : List WorkerEvent) : OneOfFour cfg k e := by
  cases e with
  | getaddrinfo ret | mqttConnect ret | mqttSubscribe ret => cases he
  | _ => trivial

/-- A step without an attempt, after which no more of them are left. -/
theorem Budget.quiet (hi : Budget cfg h s) (hes : ∀ e ∈ es, e.noAttempt)
    (hc : t.connectErrTrials < 4) (hsub : t.subscribeErrTrials < 4)
    (hfailed : ∀ ret, t.pc = .connectFailed ret → ret ≠ 0)
    (hcleft : connectsLeft t ≤ connectsLeft s) (hsleft : subscribesLeft t ≤ subscribesLeft s)
    (hacc : t.connected = true ∨ t.stateMachine = .subscribe →
      s.connected = true ∨ s.stateMachine = .subscribe) : Budget cfg (h ++ es) t := by
  have hnone : ∀ e ∈ es, ¬ e.isConnect = true := by
    intro e he
    simp [(hes e he).kinds.2.1]
  have hconnects : es.countP WorkerEvent.isConnect = 0 := List.countP_eq_zero.mpr hnone
  have hsubscribes : es.countP WorkerEvent.isSubscribe = 0 := by
    rw [List.countP_eq_zero]
    exact fun e he => by simp [(hes e he).kinds.2.2]
  constructor
  case once => exact (eachEvent_append fun e he => (hes e he).oneOfFour).mpr hi.once
  case connectTrials => exact hc
  case subscribeTrials => exact hsub
  case failed => exact hfailed
  case connects =>
    intro hlit hleft
    have hbefore := (hi.connects hlit (Nat.lt_of_lt_of_le hleft hcleft)).append
      fun e he => (hes e he).kinds.1
    rw [hconnects] at hbefore
    exact hbefore.mono (by omega)
  case subscribes =>
    intro hleft
    have hbefore := (hi.subscribes (Nat.lt_of_lt_of_le hleft hsleft)).append hnone
    rw [hsubscribes] at hbefore
    exact hbefore.mono (by omega)
  case accepted => exact fun ht => (hi.accepted (hacc ht)).append hnone

/-- A step that changes neither the attempts nor where the thread tries. -/
theorem Budget.same (hi : Budget cfg h s) (hes : ∀ e ∈ es, e.noAttempt) (hpc : t.pc = s.pc)
    (hst : t.stateMachine = s.stateMachine) (hc : t.connectErrTrials = s.connectErrTrials)
    (hsub : t.subscribeErrTrials = s.subscribeErrTrials)
    (hconnected : t.connected = true → s.connected = true) : Budget cfg (h ++ es) t := by
  apply hi.quiet hes
  · rw [hc]
    exact hi.connectTrials
  · rw [hsub]
    exact hi.subscribeTrials
  · rw [hpc]
    exact hi.failed
  · exact Nat.le_of_eq (by rw [connectsLeft, connectsLeft, hpc, hst, hc])
  · exact Nat.le_of_eq (by rw [subscribesLeft, subscribesLeft, hpc, hst, hsub])
  · rw [hst]
    exact Or.imp_left hconnected

/-- The thread goes on outside of the two attempts, maybe to another state. -/
theorem Budget.moved (hi : Budget cfg h s) (hes : ∀ e ∈ es, e.noAttempt) (hs : s.pc.case = none)
    (ht : t.pc.case = none) (hst : t.stateMachine = s.stateMachine ∨
      t.stateMachine ≠ .connectToBroker ∧ t.stateMachine ≠ .subscribe)
    (hc : t.connectErrTrials = s.connectErrTrials)
    (hsub : t.subscribeErrTrials = s.subscribeErrTrials ∨ t.subscribeErrTrials = 0 ∧
      t.stateMachine ≠ .subscribe) (hconnected : t.connected = true → s.connected = true) :
    Budget cfg (h ++ es) t := by
  have hout : ∀ pc : WorkerPc, pc.case = none → pc ≠ .connectWait ∧ pc ≠ .connectCheck ∧
      ∀ ret, pc ≠ .connectFailed ret := by
    intro pc hpc
    cases pc <;> simp [WorkerPc.case] at hpc ⊢
  obtain ⟨hswait, hscheck, -⟩ := hout s.pc hs
  obtain ⟨htwait, htcheck, htfailed⟩ := hout t.pc ht
  have hct := hi.connectTrials
  have hst' := hi.subscribeTrials
  apply hi.quiet hes
  · omega
  · omega
  · exact fun ret hpc => absurd hpc (htfailed ret)
  · simp only [connectsLeft, hs, ht, hc, reduceCtorEq, if_false]
    rcases hst with hst | ⟨hst, -⟩
    · exact Nat.le_of_eq (by rw [hst])
    · simp [hst]
  · simp only [subscribesLeft, hs, ht, htwait, htcheck, hswait, hscheck, or_self, reduceCtorEq,
      if_false]
    rcases hsub with hsub | ⟨-, hno⟩
    · rcases hst with hst | ⟨-, hst⟩
      · exact Nat.le_of_eq (by rw [hst, hsub])
      · simp [hst]
    · simp [hno]
  · rcases hst with hst | ⟨-, hst⟩
    · rw [hst]
      exact Or.imp_left hconnected
    · exact fun ht => .inl (hconnected (ht.resolve_right hst))

/-- A connection that failed. -/
theorem Budget.failedConnect (hi : Budget cfg h s) (hes : ∀ e ∈ es, e.noAttempt)
    (hpc : s.pc.case = some .connectToBroker) {ret : ℤ} (hret : ret ≠ 0) :
    Budget cfg (h ++ es) (connectReturned s ret) := by
  have hct := hi.connectTrials
  have hst := hi.subscribeTrials
  have hdispatch : WorkerPc.dispatch.case = none := rfl
  unfold connectReturned
  rw [if_neg hret]
  split_ifs with hfour
  · apply hi.quiet hes
    · exact Nat.succ_pos 3
    · exact hst
    · simp
    · simp [connectsLeft]
    · simp [subscribesLeft]
    · simp only [reduceCtorEq, or_false]
      exact Or.inl
  · have hless : s.connectErrTrials + 1 < 4 := by omega
    apply hi.quiet hes
    · exact hless
    · exact hst
    · simp
    · simp only [connectsLeft, hpc, hdispatch, reduceCtorEq, if_true, if_false]
      split_ifs <;> omega
    · simp only [subscribesLeft, hpc, hdispatch, Option.some.injEq, reduceCtorEq, or_self, if_false]
      split_ifs <;> omega
    · exact id

/-- The end of `mqtt_worker_subscribe` after its wait. -/
theorem Budget.endSubscribe (hi : Budget cfg h s) (hes : ∀ e ∈ es, e.noAttempt)
    (hpc : s.pc.case = some .subscribe) (ret : ℤ) :
    Budget cfg (h ++ es) (subscribeReturned s ret) := by
  have hct := hi.connectTrials
  have hst := hi.subscribeTrials
  have hhandle : WorkerPc.inputHandle.case = none := rfl
  unfold subscribeReturned
  split_ifs with hret hfour
  · apply hi.quiet hes
    · exact hct
    · exact Nat.succ_pos 3
    · simp
    · simp [connectsLeft]
    · simp [subscribesLeft]
    · simp only [reduceCtorEq, or_false]
      exact Or.inl
  · apply hi.quiet hes
    · exact hct
    · exact Nat.succ_pos 3
    · simp
    · simp [connectsLeft]
    · simp [subscribesLeft]
    · simp only [reduceCtorEq, or_false]
      exact Or.inl
  · have hless : s.subscribeErrTrials + 1 < 4 := by omega
    apply hi.quiet hes
    · exact hct
    · exact hless
    · simp
    · simp only [connectsLeft, hpc, hhandle, Option.some.injEq, reduceCtorEq, if_false]
      exact Nat.le_refl _
    · simp only [subscribesLeft, hpc, hhandle, reduceCtorEq, or_self, if_true, if_false]
      split_ifs <;> omega
    · exact id

theorem inputOf_noAttempt (ret : ℤ) : ∀ e ∈ inputOf ret, e.noAttempt :=
  inputOf_all ret trivial

/-- An attempt to connect is counted against the address it is made to, and a
connection that it opens allows four attempts to subscribe. -/
theorem Budget.connect (hi : Budget cfg h s) (hpc : s.pc = .dispatch)
    (hto : s.stateMachine = .connectToBroker) (ret : ℤ) :
    Budget cfg (h ++ [.mqttConnect ret]) { s with
      disconnectReqExternal := false
      connected := false
      pc := if ret ≠ 0 then .connectFailed ret else .connectWait } := by
  have hct := hi.connectTrials
  have hone : [WorkerEvent.mqttConnect ret].countP WorkerEvent.isConnect = 1 := rfl
  have hleft : connectsLeft s = 4 - s.connectErrTrials := by
    simp [connectsLeft, hto, hpc, WorkerPc.case]
  constructor
  case once =>
    refine eachEvent_concat.mpr ⟨hi.once, fun hlit => ?_⟩
    exact (hi.connects hlit (by omega)).mono (by omega)
  case connectTrials => exact hct
  case subscribeTrials => exact hi.subscribeTrials
  case failed =>
    intro r
    dsimp only
    split_ifs with hret
    · rintro ⟨⟩
      exact hret
    · rintro ⟨⟩
  case connects =>
    intro hlit hpos
    have hquiet : ∀ e ∈ [WorkerEvent.mqttConnect ret], e ≠ .getaddrinfo 0 := by simp
    have hbefore := (hi.connects hlit (by omega)).append hquiet
    rw [hone, hleft] at hbefore
    apply hbefore.mono
    by_cases hret : ret = 0
    · simp only [connectsLeft, hto, hret, WorkerPc.case, ne_eq, not_true_eq_false, if_true,
        if_false]
      omega
    · simp only [connectsLeft, hto, hret, WorkerPc.case, ne_eq, not_true_eq_false,
        not_false_eq_true, if_true, if_false]
      omega
  case subscribes =>
    by_cases hret : ret = 0
    · intro hpos
      apply fewerSince_concat (q := fun e : WorkerEvent => e.isConnect) rfl
      simp [subscribesLeft, hret]
    · simp [subscribesLeft, hto, hret]
  case accepted => simp [hto]

/-- An attempt to subscribe is counted against the connection. -/
theorem Budget.subscribe (hi : Budget cfg h s) (hpc : s.pc = .dispatch)
    (hto : s.stateMachine = .subscribe) (ret : ℤ) : Budget cfg (h ++ [.mqttSubscribe ret])
      { s with subscribed := false, pc := .subscribeWait } := by
  have hst := hi.subscribeTrials
  have hone : [WorkerEvent.mqttSubscribe ret].countP WorkerEvent.isSubscribe = 1 := rfl
  have hnone : ∀ e ∈ [WorkerEvent.mqttSubscribe ret], ¬ e.isConnect = true := by
    simp [WorkerEvent.isConnect]
  have hleft : subscribesLeft s = 4 - s.subscribeErrTrials := by
    simp [subscribesLeft, hto, hpc, WorkerPc.case]
  have hbefore := hi.subscribes (by omega)
  rw [hleft] at hbefore
  have haccepted := hi.accepted (.inr hto)
  constructor
  case once => exact eachEvent_concat.mpr ⟨hi.once, hbefore.mono (by omega), haccepted⟩
  case connectTrials => exact hi.connectTrials
  case subscribeTrials => exact hst
  case failed => simp
  case connects => simp [connectsLeft, hto]
  case subscribes =>
    intro hpos
    have hafter := hbefore.append hnone
    rw [hone] at hafter
    apply hafter.mono
    simp only [subscribesLeft, hto, WorkerPc.case, reduceCtorEq, or_self, ne_eq,
      not_true_eq_false, if_true, if_false]
    omega
  case accepted => exact fun _ => haccepted.append hnone

/-- A result of the resolver allows four attempts to connect. -/
theorem Budget.resolve (hi : Budget cfg h s) (hpc : s.pc = .dispatch)
    (hto : s.stateMachine = .dnsResolve) (ret : ℤ) :
    Budget cfg (h ++ (dnsResolve cfg s ret).1) (dnsResolve cfg s ret).2 := by
  cases hlit : cfg.hostLiteral with
  | true =>
    simp only [dnsResolve, hlit, if_true, List.append_nil]
    constructor
    case once => exact hi.once
    case connectTrials => exact hi.connectTrials
    case subscribeTrials => exact hi.subscribeTrials
    case failed => simp [hpc]
    case connects => simp [hlit]
    case subscribes => simp [subscribesLeft, hpc]
    case accepted => exact fun ht => hi.accepted (.inl (ht.resolve_right (by simp)))
  | false =>
    have honce : EachEvent (OneOfFour cfg) (h ++ [.getaddrinfo ret]) :=
      eachEvent_concat.mpr ⟨hi.once, trivial⟩
    have hnone : ∀ e ∈ [WorkerEvent.getaddrinfo ret], ¬ e.isConnect = true := by
      simp [WorkerEvent.isConnect]
    simp only [dnsResolve, hlit, Bool.false_eq_true, if_false]
    by_cases hret : ret = 0
    · rw [if_pos hret]
      constructor
      case once => exact honce
      case connectTrials => exact hi.connectTrials
      case subscribeTrials => exact hi.subscribeTrials
      case failed => simp [hpc]
      case connects =>
        intro _ hpos
        apply fewerSince_concat (by rw [hret])
        simp [connectsLeft, hpc, WorkerPc.case]
        omega
      case subscribes => simp [subscribesLeft, hpc]
      case accepted =>
        exact fun ht => (hi.accepted (.inl (ht.resolve_right (by simp)))).append hnone
    · rw [if_neg hret]
      constructor
      case once => exact honce
      case connectTrials => exact hi.connectTrials
      case subscribeTrials => exact hi.subscribeTrials
      case failed => exact hi.failed
      case connects => simp [connectsLeft, hto]
      case subscribes => simp [subscribesLeft, hpc, hto]
      case accepted => exact fun ht => (hi.accepted ht).append hnone

/-- Only a CONNACK accepts a connection. -/
theorem Budget.event (hi : Budget cfg h s) (type : MqttEvtType) (result : ℤ) :
    Budget cfg (h ++ [.event type result]) (mqttEvtHandler s type result) := by
  obtain ⟨hpc, hst, -⟩ := mqttEvtHandler_fields s type result
  have hsame : Budget cfg (h ++ [.event type result])
      { mqttEvtHandler s type result with connected := s.connected } := by
    apply Budget.same hi (by simp [WorkerEvent.noAttempt])
    · exact hpc
    · exact hst
    · unfold mqttEvtHandler
      split <;> first | rfl | (split_ifs <;> rfl)
    · unfold mqttEvtHandler
      split <;> first | rfl | (split_ifs <;> rfl)
    · exact id
  refine ⟨hsame.once, hsame.connectTrials, hsame.subscribeTrials, hsame.failed, hsame.connects,
    hsame.subscribes, ?_⟩
  intro ht
  by_cases hconnack : type = .connack ∧ result = 0
  · obtain ⟨rfl, rfl⟩ := hconnack
    exact since_append_of_mem (List.mem_singleton.mpr rfl) rfl (by simp [WorkerEvent.isConnect])
  · apply hsame.accepted (ht.imp_left _)
    cases type <;> simp_all [mqttEvtHandler]

theorem Budget.step (hi : Budget cfg h s) (hc : WorkerCase cfg s a es t) :
    Budget cfg (h ++ es) t := by
  have hct := hi.connectTrials
  have hsub := hi.subscribeTrials
  cases hc with
  | event type result => exact hi.event type result
  | disconnectRequest => exact hi.same (by simp) rfl rfl rfl rfl id
  | tick ms => exact hi.same (by simp) rfl rfl rfl rfl id
  | start hpc => exact hi.moved (by simp) (by rw [hpc]; rfl) rfl (.inl rfl) rfl (.inl rfl) id
  | dnsResolve ret hpc hst => exact hi.resolve hpc hst ret
  | mqttConnect ret hpc hto => exact hi.connect hpc hto ret
  | connectFailed ret hpc =>
    exact hi.failedConnect (by simp [WorkerEvent.noAttempt]) (by rw [hpc]; rfl)
      (hi.failed ret hpc)
  | connectPoll ret hpc =>
    apply hi.quiet (inputOf_noAttempt ret)
    · exact hct
    · exact hsub
    · simp
    · simp [connectsLeft, hpc, WorkerPc.case]
    · simp [subscribesLeft, hpc]
    · exact id
  | connectAbort hpc hconnected =>
    exact hi.failedConnect (by simp [WorkerEvent.noAttempt]) (by rw [hpc]; rfl) (by decide)
  | connectDone hpc hconnected =>
    apply hi.quiet (by simp)
    · exact Nat.succ_pos 3
    · exact hsub
    · simp [connectReturned]
    · simp [connectsLeft, connectReturned]
    · simp [subscribesLeft, connectReturned, hpc, WorkerPc.case]
    · exact fun _ => .inl hconnected
  | subscribeNone hpc hst hnone =>
    exact hi.moved (by simp [WorkerEvent.noAttempt]) (by rw [hpc]; rfl) rfl
      (.inr (by simp [subscribeReturned])) rfl (.inr (by simp [subscribeReturned])) id
  | subscribeFailed ret hpc hto hret =>
    have hquiet : ∀ e ∈ [WorkerEvent.subscribeReturned ret], e.noAttempt := by
      simp [WorkerEvent.noAttempt]
    have hend := (hi.subscribe hpc hto ret).endSubscribe hquiet rfl ret
    rw [List.append_assoc] at hend
    have hsame : ∀ pc, subscribeReturned { s with subscribed := false, pc := pc } ret =
        subscribeReturned { s with subscribed := false } ret := by
      intro pc
      unfold subscribeReturned
      split_ifs <;> rfl
    rwa [hsame] at hend
  | mqttSubscribe hpc hto => exact hi.subscribe hpc hto 0
  | subscribePoll ret hpc hret =>
    apply hi.quiet (by simp [WorkerEvent.noAttempt])
    · exact hct
    · exact hsub
    · simp
    · simp [connectsLeft, hpc, WorkerPc.case]
    · simp [subscribesLeft, hpc, WorkerPc.case]
    · exact id
  | subscribeTimeout ret hpc hret =>
    have hi' : Budget cfg (h ++ []) { s with lastEvt := none } :=
      hi.same (by simp) rfl rfl rfl rfl id
    rw [List.append_nil] at hi'
    exact hi'.endSubscribe (by simp [subscribeEnd, WorkerEvent.noAttempt]) (by rw [hpc]; rfl) _
  | subscribeAgain ret hpc =>
    apply hi.quiet (by simp)
    · exact hct
    · exact hsub
    · simp
    · simp [connectsLeft, hpc, WorkerPc.case]
    · simp [subscribesLeft, hpc, WorkerPc.case]
    · exact id
  | subscribeEnd ret hpc =>
    exact hi.endSubscribe (by simp [subscribeEnd, WorkerEvent.noAttempt])
      (by rw [hpc]; rfl) _
  | connected hpc hst =>
    exact hi.moved (by simp) (by rw [hpc]; rfl) rfl (.inl rfl) rfl (.inl rfl) id
  | disconnected hpc hst => exact hi.same (by simp) rfl rfl rfl rfl id
  | inputEnter hpc hnow =>
    exact hi.moved (by simp) (by rw [hpc]; rfl) rfl (.inl rfl) rfl (.inl rfl) id
  | keepalive hpc hnow =>
    exact hi.moved (by simp [keepalive, WorkerEvent.noAttempt]) (by rw [hpc]; rfl) rfl
      (.inl (by simp [keepalive, inputReturned])) rfl (.inl rfl) id
  | inputPoll ret hpc =>
    exact hi.moved (inputOf_noAttempt ret) (by rw [hpc]; rfl) rfl (.inl rfl) rfl (.inl rfl) id
  | inputLost hpc hconnected =>
    exact hi.moved (by simp) (by rw [hpc]; rfl) rfl (.inr (by simp [inputReturned])) rfl
      (.inl rfl) id
  | inputHeld hpc hconnected =>
    exact hi.moved (by simp) (by rw [hpc]; rfl) rfl (.inl rfl) rfl (.inl rfl) id
  | inputExternal hpc hreq =>
    exact hi.moved (by simp [WorkerEvent.noAttempt]) (by rw [hpc]; rfl) rfl
      (.inr (by simp [inputReturned])) rfl (.inl rfl) (by simp [inputReturned])
  | inputDone hpc hreq =>
    exact hi.moved (by simp) (by rw [hpc]; rfl) rfl (.inl (by simp [inputReturned])) rfl
      (.inl rfl) id

end Steps

/-- In every run of the thread each result of the resolver is used for four
connections at most, and each connection that the broker accepted for four
subscriptions at most. -/
theorem retries_bounded {cfg : WorkerConfig} {acts : List WorkerAct} {h : List WorkerEvent}
    {s : Worker} (hr : (worker cfg).Runs workerInit acts h s) : EachEvent (OneOfFour cfg) h := by
  have hi : Budget cfg h s := by
    apply hr.invariant (I := Budget cfg) (budget_init cfg)
    intro h s a es t hi hs
    exact hi.step (worker_step_cases hs)
  exact hi.once

/-- An address is used up, and the next one is asked for. -/
def fourRefusals : List WorkerAct :=
  [.proceed, .dnsResolve 0] ++ (List.replicate 4 [.mqttConnect (-111), .proceed]).flatten ++
    [.dnsResolve 0, .mqttConnect 0, .poll 1, .event .connack 0, .proceed, .mqttSubscribe 0]

theorem four_refusals_bounded : ∃ h s, (worker stationConfig).Runs workerInit fourRefusals h s ∧
    h.countP WorkerEvent.isConnect = 5 ∧ h.count (.getaddrinfo 0) = 2 ∧
      EachEvent (OneOfFour stationConfig) h := by
  have hr : (worker stationConfig).Runs workerInit fourRefusals _ _ := runs_get (by decide +kernel)
  exact ⟨_, _, hr, by decide +kernel, by decide +kernel, retries_bounded hr⟩

end WlabStation.Mqtt
