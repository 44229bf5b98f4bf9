import WlabStation.Mqtt.Worker

/-! When `mqtt_worker_subscribe` may return 0: it looks for a `SUBACK`, but a
poll that times out leaves the 0 of success as its result. -/
namespace WlabStation.Mqtt
open Machine

def subackStep : Bool → WorkerEvent → Bool
  | _, .mqttSubscribe _ => false
  | _, .event .suback _ => true
  | b, _ => b

/-- A `SUBACK` was handled after the last call of `mqtt_subscribe`. -/
def subackSince (h : List WorkerEvent) : Bool := h.foldl subackStep false

/-- `mqtt_worker_subscribe` returns 0 only after a `SUBACK`. -/
def SubackBefore (h : List WorkerEvent) : WorkerEvent → Prop
  | .subscribeReturned ret => ret = 0 → subackSince h = true
  | _ => True

/-- The poll that waits for the `SUBACK` times out only after it came. -/
def TimesOutSubscribed (s : Worker) (a : WorkerAct) : Prop :=
  s.pc = .subscribeWait → a = .poll 0 → s.subscribed = true

instance (s : Worker) (a : WorkerAct) : Decidable (TimesOutSubscribed s a) := by
  unfold TimesOutSubscribed
  infer_instance

theorem subackSince_concat (h : List WorkerEvent) (e : WorkerEvent) :
    subackSince (h ++ [e]) = subackStep (subackSince h) e := by
  simp [subackSince]

/-- Events that neither begin nor end a subscription. -/
def WorkerEvent.neutral : WorkerEvent → Bool
  | .mqttSubscribe _ | .subscribeReturned _ | .event .suback _ => false
  | _ => true

theorem subackSince_neutral {es : List WorkerEvent} (hes : ∀ e ∈ es, e.neutral)
    (h : List WorkerEvent) : subackSince (h ++ es) = subackSince h := by
  apply Machine.foldl_append_of_fixed
  intro e he b
  have hneutral := hes e he
  unfold subackStep
  split
  · cases hneutral
  · cases hneutral
  · rfl

theorem subackBefore_neutral {es : List WorkerEvent} (hes : ∀ e ∈ es, e.neutral) :
    ∀ e ∈ es, ∀ k, SubackBefore k e := by
  intro e he k
  have hneutral := hes e he
  unfold SubackBefore
  split
  · cases hneutral
  · trivial

/-- The flag tells whether the `SUBACK` came, and `CONNECTED` is entered after it. -/
structure Subscribing (h : List WorkerEvent) (s : Worker) : Prop where
  flag : s.subscribed = subackSince h
  input : ∀ ret, s.pc = .subscribeInput ret → 0 < ret
  connected : EachEvent SubackBefore h → s.stateMachine = .connected → subackSince h = true

theorem subscribing_init : Subscribing [] workerInit := by
  constructor
  case flag => rfl
  case input =>
    intro ret hpc
    cases hpc
  case connected =>
    intro _ hst
    cases hst

section Steps
variable {cfg : WorkerConfig} {h es : List WorkerEvent} {s t : Worker} {a : WorkerAct}

theorem Subscribing.neutral (hi : Subscribing h s) (hes : ∀ e ∈ es, e.neutral)
    (hsub : t.subscribed = s.subscribed) (hpc : ∀ ret, t.pc = .subscribeInput ret → 0 < ret)
    (hst : t.stateMachine = .connected → s.stateMachine = .connected)
    (hC : TimesOutSubscribed s a) :
    Subscribing (h ++ es) t ∧
      (EachEvent SubackBefore (h ++ es) ↔
        EachEvent SubackBefore h ∧ TimesOutSubscribed s a) := by
  have hsame := subackSince_neutral hes h
  have hevents := eachEvent_append (h := h) (subackBefore_neutral hes)
  constructor
  · constructor
    case flag => rw [hsub, hsame, hi.flag]
    case input => exact hpc
    case connected =>
      intro hall hconnected
      rw [hsame]
      exact hi.connected (hevents.mp hall) (hst hconnected)
  · rw [hevents]
    exact (and_iff_left hC).symm

theorem Subscribing.afterConnect (hi : Subscribing h s) (hes : ∀ e ∈ es, e.neutral)
    (hC : TimesOutSubscribed s a) (ret : ℤ) :
    Subscribing (h ++ es) (connectReturned s ret) ∧
      (EachEvent SubackBefore (h ++ es) ↔
        EachEvent SubackBefore h ∧ TimesOutSubscribed s a) := by
  obtain ⟨hpc, hsub, -, hst⟩ := connectReturned_fields s ret
  exact hi.neutral hes hsub (by simp [hpc]) hst hC

/-- The end of the wait reports success with the flag, or with the 0 of a timeout. -/
theorem Subscribing.finish (hi : Subscribing h s) (ret : ℤ) :
    Subscribing (h ++ (subscribeEnd s ret).1) (subscribeEnd s ret).2 ∧
      (EachEvent SubackBefore (h ++ (subscribeEnd s ret).1) ↔
        EachEvent SubackBefore h ∧ (ret = 0 → s.subscribed = true)) := by
  have hevents : EachEvent SubackBefore (h ++ (subscribeEnd s ret).1) ↔
      EachEvent SubackBefore h ∧ (ret = 0 → s.subscribed = true) := by
    rw [subscribeEnd, eachEvent_concat]
    apply and_congr_right
    intro _
    unfold SubackBefore subscribeResult
    rw [← hi.flag]
    cases hsub : s.subscribed <;> simp
  have hsince : subackSince (h ++ (subscribeEnd s ret).1) = subackSince h := by
    rw [subscribeEnd, subackSince_concat]
    rfl
  obtain ⟨hpc, hsub, -⟩ := subscribeReturned_fields s (subscribeResult s ret)
  constructor
  · constructor
    case flag => rw [hsince, ← hi.flag, ← hsub, subscribeEnd]
    case input =>
      intro r hr
      rw [subscribeEnd, hpc] at hr
      cases hr
    case connected =>
      intro hall hst
      rw [hsince]
      rcases subscribeReturned_connected s _ hst with hret | hst
      · exact (eachEvent_concat.mp hall).2 hret
      · exact hi.connected (eachEvent_concat.mp hall).1 hst
  · exact hevents

theorem Subscribing.event (hi : Subscribing h s) (type : MqttEvtType) (result : ℤ) :
    Subscribing (h ++ [.event type result]) (mqttEvtHandler s type result) := by
  obtain ⟨hpc, hst, hsub, -⟩ := mqttEvtHandler_fields s type result
  have hsince : subackSince (h ++ [.event type result]) =
      if type = .suback then true else subackSince h := by
    rw [subackSince_concat]
    cases type <;> rfl
  constructor
  case flag => rw [hsub, hsince, hi.flag]
  case input =>
    rw [hpc]
    exact hi.input
  case connected =>
    intro hall hconnected
    rw [hsince]
    split_ifs
    · rfl
    · exact hi.connected (eachEvent_concat.mp hall).1 (hst ▸ hconnected)

/-- Steps outside the wait for a `SUBACK` meet its condition. -/
theorem timesOutSubscribed_of_pc (hpc : s.pc ≠ .subscribeWait) : TimesOutSubscribed s a :=
  fun hwait => absurd hwait hpc

theorem Subscribing.step (hlist : cfg.subsList = true) (hi : Subscribing h s)
    (hc : WorkerCase cfg s a es t) :
    Subscribing (h ++ es) t ∧
      (EachEvent SubackBefore (h ++ es) ↔
        EachEvent SubackBefore h ∧ TimesOutSubscribed s a) := by
  cases hc with
  | event type result =>
    constructor
    · exact hi.event type result
    · rw [eachEvent_concat]
      apply and_congr_right
      intro _
      constructor
      · intro _ _ ha
        cases ha
      · intro _
        trivial
  | disconnectRequest =>
    apply hi.neutral
    case hpc => exact hi.input
    all_goals simp [TimesOutSubscribed]
  | tick ms =>
    apply hi.neutral
    case hpc => exact hi.input
    all_goals simp [TimesOutSubscribed]
  | start hpc => apply hi.neutral <;> simp [TimesOutSubscribed, hpc]
  | dnsResolve ret hpc hst =>
    obtain ⟨hpc', hsub, hst'⟩ := dnsResolve_fields cfg s ret
    apply hi.neutral
    case hes => exact dnsResolve_all cfg s ret rfl
    case hsub => exact hsub
    case hpc => simp [hpc', hpc]
    case hst => rcases hst' with hst' | hst' <;> simp [hst']
    case hC => exact timesOutSubscribed_of_pc (by simp [hpc])
  | mqttConnect ret hpc hst =>
    apply hi.neutral
    case hpc =>
      intro r
      dsimp only
      split_ifs <;> simp
    all_goals simp [TimesOutSubscribed, WorkerEvent.neutral]
  | connectFailed ret hpc =>
    exact hi.afterConnect (by simp [WorkerEvent.neutral])
      (timesOutSubscribed_of_pc (by simp [hpc])) ret
  | connectPoll ret hpc =>
    apply hi.neutral
    case hes => exact inputOf_all ret rfl
    all_goals simp [TimesOutSubscribed, hpc]
  | connectAbort hpc hconnected =>
    exact hi.afterConnect (by simp [WorkerEvent.neutral])
      (timesOutSubscribed_of_pc (by simp [hpc])) (-1)
  | connectDone hpc hconnected =>
    exact hi.afterConnect (by simp) (timesOutSubscribed_of_pc (by simp [hpc])) 0
  | subscribeNone hpc hst hnone =>
    rw [hlist] at hnone
    cases hnone
  | subscribeFailed ret hpc hst hret =>
    obtain ⟨hpc', hsub, -⟩ := subscribeReturned_fields { s with subscribed := false } ret
    have hsince : subackSince (h ++ [.mqttSubscribe ret, .subscribeReturned ret]) = false := by
      simp [subackSince, subackStep]
    constructor
    · constructor
      case flag => rw [hsub, hsince]
      case input => simp [hpc']
      case connected =>
        intro _ hconnected
        rcases subscribeReturned_connected _ _ hconnected with hzero | hconnected
        · exact absurd hzero hret
        · rw [hst] at hconnected
          cases hconnected
    · rw [List.append_cons, eachEvent_concat, eachEvent_concat]
      have hC : TimesOutSubscribed s (.mqttSubscribe ret) := by
        intro _ ha
        cases ha
      simp [SubackBefore, hret, hC]
  | mqttSubscribe hpc hst =>
    constructor
    · constructor
      case flag => simp [subackSince, subackStep]
      case input => simp
      case connected =>
        intro _ hconnected
        rw [hst] at hconnected
        cases hconnected
    · rw [eachEvent_concat]
      have hC : TimesOutSubscribed s (.mqttSubscribe 0) := by
        intro _ ha
        cases ha
      simp [SubackBefore, hC]
  | subscribePoll ret hpc hret =>
    apply hi.neutral
    case hpc =>
      intro r hr
      cases hr
      exact hret
    case hC =>
      intro _ ha
      cases ha
      exact absurd hret (by simp)
    all_goals simp [WorkerEvent.neutral]
  | subscribeTimeout ret hpc hret =>
    have hi' : Subscribing h { s with lastEvt := none } := ⟨hi.flag, hi.input, hi.connected⟩
    have hfinish := hi'.finish ret
    have hC : TimesOutSubscribed s (.poll ret) ↔ (ret = 0 → s.subscribed = true) := by
      simp [TimesOutSubscribed, hpc]
    rw [hC]
    exact hfinish
  | subscribeAgain ret hpc => apply hi.neutral <;> simp [TimesOutSubscribed, hpc]
  | subscribeEnd ret hpc =>
    have hpos := hi.input ret hpc
    have hC : TimesOutSubscribed s .proceed := timesOutSubscribed_of_pc (by simp [hpc])
    have hfinish := hi.finish ret
    have hne : ret ≠ 0 := by omega
    simpa [hC, hne] using hfinish
  | connected hpc hst => apply hi.neutral <;> simp [TimesOutSubscribed, hpc]
  | disconnected hpc hst => apply hi.neutral <;> simp [TimesOutSubscribed, hpc]
  | inputEnter hpc hnow => apply hi.neutral <;> simp [TimesOutSubscribed, hpc]
  | keepalive hpc hnow =>
    apply hi.neutral <;>
      simp [TimesOutSubscribed, WorkerEvent.neutral, keepalive, inputReturned, hpc]
  | inputPoll ret hpc =>
    apply hi.neutral
    case hes => exact inputOf_all ret rfl
    all_goals simp [TimesOutSubscribed, hpc]
  | inputLost hpc hconnected =>
    apply hi.neutral <;> simp [TimesOutSubscribed, inputReturned, hpc]
  | inputHeld hpc hconnected => apply hi.neutral <;> simp [TimesOutSubscribed, hpc]
  | inputExternal hpc hreq =>
    apply hi.neutral <;> simp [TimesOutSubscribed, WorkerEvent.neutral, inputReturned, hpc]
  | inputDone hpc hreq => apply hi.neutral <;> simp [TimesOutSubscribed, inputReturned, hpc]

end Steps

/-- A run with a subscription list takes `mqtt_worker_subscribe` for successful
without a `SUBACK` exactly when one of its polls times out too early; without
such a poll the worker is `CONNECTED` only while subscribed. -/
theorem connected_only_if_subscribed {cfg : WorkerConfig} (hlist : cfg.subsList = true)
    {acts : List WorkerAct} {h : List WorkerEvent} {s : Worker}
    (hr : (worker cfg).Runs workerInit acts h s) :
    (EachEvent SubackBefore h ↔ (worker cfg).EachStep TimesOutSubscribed workerInit acts) ∧
      ((worker cfg).EachStep TimesOutSubscribed workerInit acts →
        s.stateMachine = .connected → subackSince h = true) := by
  obtain ⟨hi, hiff⟩ := hr.eachEvent_iff subscribing_init
    fun _ _ _ _ _ hi hs => hi.step hlist (worker_step_cases hs)
  constructor
  · exact hiff
  · intro hC
    exact hi.connected (hiff.mpr hC)

def subackActs : List WorkerAct := connectActs ++ [.poll 1, .event .suback 0, .proceed]

theorem suback_connects : ∃ h s, (worker stationConfig).Runs workerInit subackActs h s ∧
    s.stateMachine = .connected ∧ subackSince h = true :=
  ⟨_, _, Machine.runs_get (by decide +kernel), by decide +kernel,
    (connected_only_if_subscribed rfl (Machine.runs_get (by decide +kernel))).2
      (by decide +kernel) (by decide +kernel)⟩

/-- No answer within four seconds. -/
theorem timeout_connects_unsubscribed :
    ¬ ∀ cfg : WorkerConfig, cfg.subsList = true → ∀ acts h s,
      (worker cfg).Runs workerInit acts h s → EachEvent SubackBefore h := by
  intro hall
  have h := hall stationConfig rfl (connectActs ++ [.poll 0]) _ _
    (Machine.runs_get (by decide +kernel))
    [.getaddrinfo 0, .mqttConnect 0, .mqttInput, .event .connack 0, .mqttSubscribe 0]
    (.subscribeReturned 0) [] (by decide +kernel) rfl
  exact absurd h (by decide +kernel)

end WlabStation.Mqtt
