import WlabStation.System.Threads

/-! What each component takes part in when the whole station runs is a run of
its own, so all that holds of the runs of a component holds in the station. -/
namespace WlabStation.System
open Wlab Station Mqtt Network Sensor Settings

/-- A property of steps that the steps of the components have and that is kept
when steps are put together. -/
structure Closed (cfg : Config) (C : Step → Prop) : Prop where
  refuse : C .refuse
  andThen : ∀ f g, C f → C g → C (f.andThen g)
  when : ∀ (p : SystemState → Prop) [DecidablePred p], C (.when p)
  reading : ∀ r : SystemState → Step, (∀ s, C (r s)) → C (.reading r)
  emit : ∀ es, (∀ e ∈ es, e ∈ [SystemEvent.address, .synced, .alive]) → C (.emit es)
  main : ∀ a, C (doMain cfg a)
  wifi : ∀ a, C (doWifi a)
  worker : ∀ a, C (doWorker cfg a)
  publish : ∀ a, C (doPublish a)
  sensor : ∀ a, C (.ofPart sensorPart Sensor.sensor .sensor a)
  connAck : ∀ sem, C (.modify fun s =>
    { s with worker := { s.worker with conectedAckSem := sem } })
  deviceId : ∀ uid, C (.modify fun s => { s with deviceId := uid })
  sample : ∀ x, C (.modify fun s => { s with sample := x })

section Closed
variable {cfg : Config} {C : Step → Prop}

theorem Closed.wait (hC : Closed cfg C) (a : ℕ → MainAct) : C (doWait cfg a) :=
  hC.reading _ fun _ => hC.main _

theorem Closed.wifiWait (hC : Closed cfg C) (a : WifiAct) (given : Bool) :
    C (doWifiWait cfg a given) := by
  apply hC.reading
  intro s
  split
  · exact hC.andThen _ _ (hC.wifi a) (hC.wait _)
  · exact hC.refuse

theorem Closed.mqttWait (hC : Closed cfg C) (given : Bool) : C (doMqttWait cfg given) := by
  apply hC.reading
  intro s
  split
  · exact hC.andThen _ _ (hC.connAck _) (hC.wait _)
  · exact hC.wait _
  · exact hC.refuse

theorem Closed.doReturn (hC : Closed cfg C) (rc : ℤ) : C (doReturn cfg rc) := by
  apply hC.reading
  intro s
  split
  · exact hC.wait _
  · exact hC.andThen _ _ (hC.when _) (hC.andThen _ _ (hC.wait _) (hC.sample none))
  · exact hC.refuse

theorem Closed.call (hC : Closed cfg C) (a : PublishAct) : C (doCall cfg a) := by
  apply hC.reading
  intro s
  split
  · exact hC.publish a
  · exact hC.andThen _ _ (hC.publish a) (hC.doReturn _)

theorem Closed.process (hC : Closed cfg C) (usNow : UInt32) (w : Waveform) (publishRc : ℤ) :
    C (doProcess cfg usNow w publishRc) := by
  apply hC.reading
  intro s
  split
  · exact hC.refuse
  · dsimp only
    split_ifs
    · exact hC.andThen _ _ (hC.sensor _) (hC.andThen _ _ (hC.main _) (hC.sample _))
    · exact hC.main _

theorem Closed.authorize (hC : Closed cfg C) (fs : NvsFs) (name deviceId position : GetCall) :
    C (doAuthorize cfg fs name deviceId position) := by
  apply hC.reading
  intro s
  split
  · split_ifs
    · exact hC.andThen _ _ (hC.deviceId _) (hC.call _)
    · exact hC.refuse
  · exact hC.refuse

theorem Closed.doSample (hC : Closed cfg C) : C (doSample cfg) := by
  apply hC.reading
  intro s
  split
  · split_ifs
    · exact hC.call _
    · exact hC.refuse
  · exact hC.refuse

theorem Closed.handler (hC : Closed cfg C) (a : WifiAct) : C (doHandler cfg a) := by
  apply hC.reading
  intro s
  split
  · split_ifs
    · exact hC.andThen _ _ (hC.wifi _) (hC.emit _ (by simp))
    · exact hC.wifi _
  · split_ifs
    · exact hC.andThen _ _ (hC.wifi _) (hC.worker _)
    · exact hC.wifi _
  · exact hC.wifi _

theorem Closed.keepalive (hC : Closed cfg C) : C (doKeepalive cfg) := by
  apply hC.reading
  intro s
  apply hC.andThen _ _ (hC.main _)
  apply hC.emit
  cases keepaliveTest cfg.maxPingNoAnsMins s.worker <;> simp

theorem Closed.effect (hC : Closed cfg C) (a : SystemAct) : C (effect cfg a) := by
  cases a with
  | tick ms => exact hC.andThen _ _ (hC.when _) (hC.worker _)
  | wifiInit ret => exact hC.andThen _ _ (hC.when _) (hC.andThen _ _ (hC.main _) (hC.wifi _))
  | wifiTaken => exact hC.wifiWait _ _
  | wifiTimeout => exact hC.wifiWait _ _
  | mqttInit => exact hC.andThen _ _ (hC.when _) (hC.andThen _ _ (hC.wifi _) (hC.main _))
  | mqttTaken => exact hC.mqttWait _
  | mqttTimeout => exact hC.mqttWait _
  | proceed => exact hC.andThen _ _ (hC.when _) (hC.main _)
  | sync answer =>
    apply hC.andThen _ _ (hC.wait _)
    apply hC.emit
    cases answer <;> simp
  | authorize fs name deviceId position => exact hC.authorize _ _ _ _
  | sleep => exact hC.wait _
  | process usNow w publishRc => exact hC.process _ _ _
  | pulse => exact hC.wait _
  | frame => exact hC.wait _
  | sample => exact hC.doSample
  | publish a =>
    simp only [System.effect]
    split_ifs
    · exact hC.call a
    · exact hC.refuse
  | keepalive => exact hC.keepalive
  | wifi a =>
    simp only [System.effect]
    split_ifs
    · exact hC.handler a
    · exact hC.refuse
  | worker a => exact hC.andThen _ _ (hC.when _) (hC.worker _)
  | puback id result =>
    exact hC.andThen _ _ (hC.when _) (hC.andThen _ _ (hC.worker _) (hC.publish _))
  | broker a =>
    simp only [System.effect]
    split_ifs
    · exact hC.publish a
    · exact hC.refuse
  | stray usNow => exact hC.sensor _

end Closed

/-- What each component observes. -/
def wlabOf : SystemEvent → List WlabEvent
  | .wlab e => [e]
  | _ => []

def wifiOf : SystemEvent → List WifiEvent
  | .wifi e => [e]
  | _ => []

def workerOf : SystemEvent → List WorkerEvent
  | .worker e => [e]
  | _ => []

def publishOf : SystemEvent → List PublishEvent
  | .publish e => [e]
  | _ => []

def sensorOf : SystemEvent → List ReadResult
  | .sensor r => [r]
  | _ => []

/-- The station's own observations are none of a component. -/
theorem flatMap_own {β : Type*} {obs : SystemEvent → List β} (haddress : obs .address = [])
    (hsynced : obs .synced = []) (halive : obs .alive = []) {es : List SystemEvent}
    (hes : ∀ e ∈ es, e ∈ [SystemEvent.address, .synced, .alive]) : es.flatMap obs = [] := by
  rw [List.flatMap_eq_nil_iff]
  intro e he
  have hmem := hes e he
  simp only [List.mem_cons, List.not_mem_nil, or_false] at hmem
  rcases hmem with rfl | rfl | rfl
  · exact haddress
  · exact hsynced
  · exact halive

section Follow
variable {cfg : Config} {τ β δ : Type*} {N : Machine τ β δ} {R : SystemState → τ → Prop}
  {obs : SystemEvent → List δ}

/-- The steps of the components, seen by one of them or by another machine. -/
theorem closed_follows (haddress : obs .address = []) (hsynced : obs .synced = [])
    (halive : obs .alive = []) (main : ∀ a, Effect.Follows N R obs (doMain cfg a))
    (wifi : ∀ a, Effect.Follows N R obs (doWifi a))
    (worker : ∀ a, Effect.Follows N R obs
      (.ofPart workerPart (Mqtt.worker cfg.worker) .worker a))
    (publish : ∀ a, Effect.Follows N R obs (doPublish a))
    (sensor : ∀ a, Effect.Follows N R obs (.ofPart sensorPart Sensor.sensor .sensor a))
    (connAck : ∀ s t sem, R s t →
      R { s with worker := { s.worker with conectedAckSem := sem } } t)
    (deviceId : ∀ s t uid, R s t → R { s with deviceId := uid } t)
    (sample : ∀ s t x, R s t → R { s with sample := x } t) :
    Closed cfg (Effect.Follows N R obs) where
  refuse := .refuse
  andThen _ _ hf hg := hf.andThen hg
  when p _ := .when p
  reading _ hr := .reading hr
  emit _ hes := .emit (flatMap_own haddress hsynced halive hes)
  main := main
  wifi := wifi
  worker a := (worker a).andThen (.reading fun _ => (publish _).andThen (publish _))
  publish := publish
  sensor := sensor
  connAck sem := .modify fun s t => connAck s t sem
  deviceId uid := .modify fun s t => deviceId s t uid
  sample x := .modify fun s t => sample s t x

/-- A component of which all steps are seen. -/
theorem runs_follow (hC : Closed cfg (Effect.Follows N R obs)) {acts : List SystemAct}
    {h : List SystemEvent} {s u : SystemState} {t : τ} (hst : R s t)
    (hr : (system cfg).Runs s acts h u) : ∃ bs v, N.Runs t bs (h.flatMap obs) v ∧ R u v :=
  hr.follow (fun a => hC.andThen _ _ (hC.when _) (hC.effect a)) hst

end Follow

section Runs
variable {cfg : Config} {acts : List SystemAct} {h : List SystemEvent} {s : SystemState}

theorem main_runs (hr : (system cfg).Runs powerOn acts h s) :
    ∃ bs, (mainNormal cfg.period).Runs mainBoot bs (h.flatMap wlabOf) s.main := by
  have hC : Closed cfg
      (Effect.Follows (mainNormal cfg.period) (fun s t => mainPart.get s = t) wlabOf) := by
    apply closed_follows rfl rfl rfl
    case main => exact .own fun _ => rfl
    case wifi => exact .other (fun _ => rfl) fun _ _ _ h => h
    case worker => exact .other (fun _ => rfl) fun _ _ _ h => h
    case publish => exact .other (fun _ => rfl) fun _ _ _ h => h
    case sensor => exact .other (fun _ => rfl) fun _ _ _ h => h
    all_goals exact fun _ _ _ h => h
  obtain ⟨bs, v, hbs, rfl⟩ := runs_follow hC rfl hr
  exact ⟨bs, hbs⟩

theorem wifi_runs (hr : (system cfg).Runs powerOn acts h s) :
    ∃ bs, Network.wifi.Runs wifiBoot bs (h.flatMap wifiOf) s.wifi := by
  have hC : Closed cfg (Effect.Follows Network.wifi (fun s t => wifiPart.get s = t) wifiOf) := by
    apply closed_follows rfl rfl rfl
    case main => exact .other (fun _ => rfl) fun _ _ _ h => h
    case wifi => exact .own fun _ => rfl
    case worker => exact .other (fun _ => rfl) fun _ _ _ h => h
    case publish => exact .other (fun _ => rfl) fun _ _ _ h => h
    case sensor => exact .other (fun _ => rfl) fun _ _ _ h => h
    all_goals exact fun _ _ _ h => h
  obtain ⟨bs, v, hbs, rfl⟩ := runs_follow hC rfl hr
  exact ⟨bs, hbs⟩

theorem publish_runs (hr : (system cfg).Runs powerOn acts h s) :
    ∃ bs, publisher.Runs publishInit bs (h.flatMap publishOf) s.publish := by
  have hC : Closed cfg (Effect.Follows publisher (fun s t => publishPart.get s = t) publishOf) := by
    apply closed_follows rfl rfl rfl
    case main => exact .other (fun _ => rfl) fun _ _ _ h => h
    case wifi => exact .other (fun _ => rfl) fun _ _ _ h => h
    case worker => exact .other (fun _ => rfl) fun _ _ _ h => h
    case publish => exact .own fun _ => rfl
    case sensor => exact .other (fun _ => rfl) fun _ _ _ h => h
    all_goals exact fun _ _ _ h => h
  obtain ⟨bs, v, hbs, rfl⟩ := runs_follow hC rfl hr
  exact ⟨bs, hbs⟩

end Runs

/-- The network thread, but for the semaphore that `main` takes. -/
def withSem (s : Worker) (sem : Sem) : Worker := { s with conectedAckSem := sem }

section Sem
variable (s : Worker) (sem : Sem) (ret : ℤ)

theorem connectReturned_withSem :
    connectReturned (withSem s sem) ret = withSem (connectReturned s ret) sem := by
  unfold connectReturned
  split_ifs <;> first | rfl | contradiction

theorem subscribeReturned_withSem :
    subscribeReturned (withSem s sem) ret = withSem (subscribeReturned s ret) sem := by
  unfold subscribeReturned
  split_ifs <;> first | rfl | contradiction

theorem subscribeEnd_withSem : subscribeEnd (withSem s sem) ret =
    ((subscribeEnd s ret).1, withSem (subscribeEnd s ret).2 sem) := by
  unfold subscribeEnd
  rw [subscribeReturned_withSem]
  rfl

theorem dnsResolve_withSem (cfg : WorkerConfig) : dnsResolve cfg (withSem s sem) ret =
    ((dnsResolve cfg s ret).1, withSem (dnsResolve cfg s ret).2 sem) := by
  unfold dnsResolve
  dsimp only
  split_ifs <;> rfl

end Sem

/-- The network thread does not look at `ConectedAckSem`. -/
theorem worker_step_sem {cfg : WorkerConfig} {s t : Worker} {a : WorkerAct}
    {es : List WorkerEvent} (h : (Mqtt.worker cfg).step s a = some (es, t)) (sem : Sem) :
    ∃ sem', (Mqtt.worker cfg).step (withSem s sem) a = some (es, withSem t sem') := by
  have hpcs : (withSem s sem).pc = s.pc := rfl
  have hsts : (withSem s sem).stateMachine = s.stateMachine := rfl
  cases a with
  | event type result =>
    cases h
    cases type <;> by_cases hr : result = 0 <;>
      exact ⟨_, by simp [Mqtt.worker, mqttEvtHandler, hr, withSem]; rfl⟩
  | disconnectRequest =>
    cases h
    exact ⟨sem, rfl⟩
  | tick ms =>
    cases h
    exact ⟨sem, rfl⟩
  | dnsResolve ret =>
    cases hpc : s.pc <;> simp only [Mqtt.worker, hpcs, hsts, hpc, reduceCtorEq,
      Option.ite_none_right_eq_some] at h ⊢
    obtain ⟨hst, hr⟩ := h
    rw [Option.some.injEq] at hr
    rw [dnsResolve_withSem, hr]
    exact ⟨sem, hst, rfl⟩
  | mqttConnect ret =>
    cases hpc : s.pc <;> simp only [Mqtt.worker, hpcs, hsts, hpc, reduceCtorEq,
      Option.ite_none_right_eq_some] at h ⊢
    obtain ⟨hst, hr⟩ := h
    cases hr
    exact ⟨sem, hst, rfl⟩
  | mqttSubscribe ret =>
    cases hpc : s.pc <;> simp only [Mqtt.worker, hpcs, hsts, hpc, reduceCtorEq,
      Option.ite_none_right_eq_some] at h ⊢
    obtain ⟨hst, hr⟩ := h
    refine ⟨sem, hst, ?_⟩
    split_ifs at hr ⊢
    · cases hr
      exact congrArg some
        (congrArg _ (subscribeReturned_withSem { s with subscribed := false } sem ret))
    · cases hr
      rfl
  | poll ret =>
    cases hpc : s.pc <;> simp only [Mqtt.worker, hpcs, hsts, hpc, reduceCtorEq] at h ⊢
    case connectWait => 
      cases h
      exact ⟨sem, rfl⟩
    case subscribeWait =>
      split_ifs at h ⊢
      · cases h
        exact ⟨sem, rfl⟩
      · rw [Option.some.injEq] at h
        have := subscribeEnd_withSem { s with pc := .subscribeWait, lastEvt := none } sem ret
        rw [h] at this
        exact ⟨sem, congrArg some this⟩
    case inputWait => 
      cases h
      exact ⟨sem, rfl⟩
  | proceed =>
    cases hpc : s.pc with
    | dispatch =>
      simp only [Mqtt.worker, hpcs, hsts, hpc] at h ⊢
      cases hst : s.stateMachine <;> simp only [hst, reduceCtorEq] at h ⊢
      · split_ifs at h ⊢
        cases h
        exact ⟨sem, congrArg some (congrArg _ (subscribeReturned_withSem s sem 0))⟩
      · cases h
        exact ⟨sem, rfl⟩
      · cases h
        exact ⟨sem, rfl⟩
    | waitStart =>
      simp only [Mqtt.worker, hpcs, hpc] at h ⊢
      cases h
      exact ⟨sem, rfl⟩
    | connectFailed ret =>
      simp only [Mqtt.worker, hpcs, hpc] at h ⊢
      cases h
      exact ⟨sem, congrArg some (congrArg _ (connectReturned_withSem s sem ret))⟩
    | connectCheck =>
      simp only [Mqtt.worker, hpcs, hpc] at h ⊢
      have hc : (withSem s sem).connected = s.connected := rfl
      rw [hc]
      split_ifs at h ⊢
      · cases h
        exact ⟨sem, congrArg some (congrArg _ (connectReturned_withSem s sem 0))⟩
      · cases h
        exact ⟨sem, congrArg some (congrArg _ (connectReturned_withSem s sem (-1)))⟩
    | subscribeInput ret =>
      simp only [Mqtt.worker, hpcs, hpc] at h ⊢
      have hc : (withSem s sem).lastEvt = s.lastEvt := rfl
      rw [hc]
      split_ifs at h ⊢
      · cases h
        exact ⟨sem, rfl⟩
      · rw [Option.some.injEq] at h
        have := subscribeEnd_withSem s sem ret
        rw [h] at this
        exact ⟨sem, congrArg some this⟩
    | inputHandle =>
      simp only [Mqtt.worker, hpcs, hpc] at h ⊢
      have hc : (withSem s sem).uptime = s.uptime ∧ (withSem s sem).nextAlive = s.nextAlive :=
        ⟨rfl, rfl⟩
      rw [hc.1, hc.2]
      split_ifs at h ⊢
      · cases h
        exact ⟨sem, rfl⟩
      · cases h
        exact ⟨sem, rfl⟩
    | inputCheck =>
      simp only [Mqtt.worker, hpcs, hpc] at h ⊢
      have hc : (withSem s sem).connected = s.connected := rfl
      rw [hc]
      split_ifs at h ⊢
      · cases h
        exact ⟨sem, rfl⟩
      · cases h
        exact ⟨sem, rfl⟩
    | inputExternal =>
      simp only [Mqtt.worker, hpcs, hpc] at h ⊢
      have hc : (withSem s sem).disconnectReqExternal = s.disconnectReqExternal := rfl
      rw [hc]
      split_ifs at h ⊢
      · cases h
        exact ⟨sem.tryTake, rfl⟩
      · cases h
        exact ⟨sem, rfl⟩
    | _ => simp [Mqtt.worker, hpc] at h

theorem worker_runs {cfg : Config} {acts : List SystemAct} {h : List SystemEvent}
    {s : SystemState} (hr : (system cfg).Runs powerOn acts h s) :
    ∃ bs sem, (Mqtt.worker cfg.worker).Runs workerInit bs (h.flatMap workerOf)
      (withSem s.worker sem) := by
  have hC : Closed cfg (Effect.Follows (Mqtt.worker cfg.worker)
      (fun s t => ∃ sem, t = withSem s.worker sem) workerOf) := by
    apply closed_follows rfl rfl rfl
    case main => exact .other (fun _ => rfl) fun _ _ _ h => h
    case wifi => exact .other (fun _ => rfl) fun _ _ _ h => h
    case worker =>
      intro a
      apply Effect.Follows.part fun _ => rfl
      rintro s t ds v ⟨sem, rfl⟩ hs
      obtain ⟨sem', hs⟩ := worker_step_sem hs sem
      exact ⟨_, hs, sem', rfl⟩
    case publish => exact .other (fun _ => rfl) fun _ _ _ h => h
    case sensor => exact .other (fun _ => rfl) fun _ _ _ h => h
    case connAck => exact fun _ _ _ h => h
    case deviceId => exact fun _ _ _ h => h
    case sample => exact fun _ _ _ h => h
  obtain ⟨bs, v, hbs, sem, rfl⟩ := runs_follow hC ⟨workerInit.conectedAckSem, rfl⟩ hr
  exact ⟨bs, sem, hbs⟩

end WlabStation.System
