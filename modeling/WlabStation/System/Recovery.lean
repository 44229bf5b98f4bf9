import WlabStation.Mqtt.Recovery
import WlabStation.System.Gate

/-! What the station can come back from: the network thread opens one session at
a time, and gets back to one wherever there is a Wi-Fi connection or a retry of
it, exactly if its ping period is not taken for zero. -/
namespace WlabStation.System
open Machine Relation Wlab Station Mqtt Network

section Joined
variable {cfg : Config} {h es : List SystemEvent} {s u : SystemState}

/-- `main` has left `wifi_net_init` only when it has returned. -/
def Joined (s : SystemState) : Prop := 1 ≤ stage s.main.pc → s.wifi.phase = .returned

/-- Only the first semaphore leads out of `wifi_net_init`. -/
theorem stage_begun {period : ℕ} {s m : MainState} {a : MainAct} {ds : List WlabEvent}
    (hc : MainCase period s a ds m) (hgiven : ∀ secCnt, s.pc = .wifiWait secCnt →
      ∀ ms, a ≠ .semWait true ms) : 1 ≤ stage m.pc → 1 ≤ stage s.pc := by
  cases hc with
  | wifiFeed secCnt hpc => simp [MainState.feed, stage]
  | wifiWait secCnt ms given hpc hms =>
    cases given with
    | true => exact absurd rfl (hgiven secCnt hpc ms)
    | false =>
      by_cases hlast : secCnt + 1 = CONFIG_WIFI_FIRST_CONN_TIMEOUT_SEC <;>
        simp [MainState.wait, stage, hlast]
  | _ => simp_all [stage]

theorem Joined.other (hi : Joined s) (hwifi : u.wifi = s.wifi)
    (hmain : 1 ≤ stage u.main.pc → 1 ≤ stage s.main.pc) : Joined u := by
  intro hpc
  rw [hwifi]
  exact hi (hmain hpc)

theorem Joined.call (hi : Joined s) {a : PublishAct} (hc : CallCase cfg s a es u) : Joined u := by
  cases hc with
  | goes ds p hp hnone => exact hi
  | authorized ds p attempts rc m hp hrc hpc hm =>
    exact hi.other rfl (stage_begun hm (by simp))
  | sampled ds p rc m hp hrc hsample hm => exact hi.other rfl (stage_begun hm (by simp))

/-- The handlers do not end `wifi_net_init`. -/
theorem handler_phase {s w : Wifi} {a : WifiAct} {ds : List WifiEvent} (ha : handlerAct a)
    (hc : WifiCase s a ds w) : w.phase = s.phase := by
  cases hc with
  | register | netInit ssid passwd ret hp | firstConnTaken sem htake | reboot
  | nextSecond secCnt => cases ha
  | connectResult status hl hpos =>
    unfold handleWifiConnectResult
    split_ifs <;> rfl
  | disconnectResult status hl => rfl
  | ipv4AddrAdd dhcp hl hhad => rfl
  | timerExpired hl harmed => rfl
  | workStart hl hqueued hrunning => rfl
  | requestResult ret hl hrunning => rw [request_eq]

theorem Joined.handler (hi : Joined s) (hmain : u.main = s.main) {a : WifiAct}
    {ds : List WifiEvent} (ha : handlerAct a) (hc : WifiCase s.wifi a ds u.wifi) : Joined u := by
  intro hpc
  rw [handler_phase ha hc]
  exact hi (by rwa [hmain] at hpc)

theorem Joined.step (hi : Joined s) {a : SystemAct} (hc : SystemCase cfg s a es u) : Joined u := by
  cases hc with
  | tick ms hlimit => exact hi
  | wifiInit ret m ds w hpc hm hw =>
    intro hpc'
    have hbegun := stage_begun hm (by simp) hpc'
    simp [hpc, stage] at hbegun
  | wifiWait act a given secCnt m ds w hgiven hpc hw hm =>
    rcases hgiven with ⟨rfl, rfl⟩ | ⟨rfl, rfl⟩
    · cases hw
      exact fun _ => rfl
    · intro hpc'
      have hbegun := stage_begun hm (by simp) hpc'
      simp [hpc, stage] at hbegun
  | mqttInit m w hpc hw hm =>
    cases hw
    exact fun _ => hi (by simp [hpc, stage])
  | mqttTaken secCnt sem m hpc htake hm => exact fun _ => hi (by simp [hpc, stage])
  | mqttTimeout secCnt m hpc hm => exact hi.other rfl (stage_begun hm (by simp))
  | proceed m hpc hpc' hm => exact hi.other rfl (stage_begun (main_step_cases hm) (by simp))
  | sync answer m hm => exact hi.other rfl (stage_begun hm (by simp))
  | authorize fs name deviceId position attempts text uid es u hpc htext huid hidle hc =>
    have hi' : Joined { s with deviceId := uid } := hi
    exact hi'.call hc
  | wait act a m ha hm =>
    refine hi.other rfl (stage_begun hm ?_)
    rcases ha with rfl | rfl | rfl <;> simp
  | skip usNow w publishRc wl ds m hwl hreads hm => exact hi.other rfl (stage_begun hm (by simp))
  | read usNow w publishRc wl r reading ds m d hwl hreads hr hreading hm =>
    exact hi.other rfl (stage_begun hm (by simp))
  | sample p slept pulse frame text es u hpc hp htext hidle hc => exact hi.call hc
  | publish a es u ha hc => exact hi.call hc
  | keepalive m hm => exact hi.other rfl (stage_begun hm (by simp))
  | address dhcp w hmem hw => exact hi.handler rfl rfl hw
  | lost status ds w hdisco hw => exact hi.handler rfl rfl hw
  | handler a ds w ha hno hdisco hw => exact hi.handler rfl ha hw
  | worker a ds t ha hs => exact hi
  | puback id result ds p hinput hp => exact hi
  | broker a ds p ha hp => exact hi
  | stray usNow => exact hi

/-- The handlers run as long as the network thread does. -/
theorem listening_of_started {acts : List SystemAct} (hr : (system cfg).Runs powerOn acts h s)
    (hrunning : s.main.pc ≠ .stopped) (hstarted : started s.main.pc) :
    s.wifi.listening = true := by
  have hjoined : Joined s := by
    apply hr.invariant (I := fun _ s => Joined s)
    · simp [Joined, powerOn, mainBoot, stage]
    · intro h s a es u hi hs
      exact hi.step (system_step_cases hs).2
  have hstage : 1 ≤ stage s.main.pc := by
    cases hpc : s.main.pc <;> simp_all [started, stage]
  simp [Wifi.listening, hjoined hstage]

end Joined

/-- What comes over the air, or tells that it comes no more. -/
def overWifi : SystemAct → Bool
  | .worker (.dnsResolve ret) | .worker (.mqttConnect ret) => ret = 0
  | .worker (.poll ret) => 0 < ret
  | .worker (.event type _) => type ≠ .disconnect
  | .wifi (.ipv4AddrAdd _) | .wifi (.disconnectResult _) | .puback _ _ | .broker _ => true
  | _ => false

/-- A step without `main`, over a Wi-Fi connection where it needs one. -/
def Unaided (s : SystemState) (a : SystemAct) : Prop :=
  byOthers a ∧ (overWifi a → s.wifi.connected = true)

/-- A message would be placed. -/
def CanPublish (s : SystemState) : Prop :=
  s.publish.connected = true ∧ s.publish.disconnectReqExternal = false

/-- With no step of `main` the station can get to where it can publish over the Wi-Fi. -/
def Recovers (cfg : Config) (s : SystemState) : Prop :=
  ∃ acts h u, (system cfg).Runs s acts h u ∧ (system cfg).EachStep Unaided s acts ∧
    u.wifi.connected = true ∧ CanPublish u

section Thread
variable {cfg : Config} {acts : List SystemAct} {h : List SystemEvent} {s : SystemState}

/-- The thread of the station has no subscription list. -/
theorem listless_sessions (hr : (system cfg).Runs powerOn acts h s) :
    Listless s.worker ∧ EachEvent ConnectsClosed (h.flatMap workerOf) := by
  obtain ⟨bs, sem, hbs⟩ := worker_runs hr
  obtain ⟨hi, hsessions⟩ := listless_run rfl hbs
  exact ⟨hi.same rfl rfl, hsessions.once⟩

/-- What the thread can do in its machine it can do in a station that is connected. -/
theorem moves_of_goes (hrunning : s.main.pc ≠ .stopped) (hstarted : started s.main.pc)
    (hup : s.wifi.connected = true) {t v : Worker} (hgo : Goes cfg.worker t v) :
    (system cfg).Moves Unaided (s.withWorker t) (s.withWorker v) := by
  obtain ⟨a, es, ha, hs⟩ := hgo
  have hthread : threadAct s.main.pc t.pc a := by
    unfold OwnAct at ha
    split at ha
    next type result =>
      obtain ⟨rfl, hpc⟩ := ha
      rw [hpc]
      rfl
    next => exact ha.elim
    next => exact ha.elim
    next =>
      unfold threadAct
      split <;> simp_all
  refine ⟨.worker a, es.map .worker, ⟨rfl, fun _ => hup⟩, ?_⟩
  have hflags : doFlags (s.withWorker v) = some ([], s.withWorker v) := rfl
  have hworker : doWorker cfg a (s.withWorker t) = some (es.map .worker, s.withWorker v) := by
    rw [doWorker, Effect.andThen_eq_some]
    refine ⟨es.map .worker, { s.withWorker t with worker := v }, [], ?_, rfl, by simp⟩
    exact Effect.ofPart_eq_some.mpr ⟨es, v, hs, rfl, rfl⟩
  refine Effect.andThen_eq_some.mpr ⟨[], s.withWorker t, _,
    Effect.when_eq_some.mpr ⟨hrunning, rfl, rfl⟩, ?_, rfl⟩
  exact Effect.andThen_eq_some.mpr ⟨[], s.withWorker t, _,
    Effect.when_eq_some.mpr ⟨hthread, rfl, rfl⟩, hworker, rfl⟩

/-- The retry of the Wi-Fi needs no connection. -/
theorem moves_of_renews (hrunning : s.main.pc ≠ .stopped) {w v : Wifi}
    (hrenew : Network.wifi.Moves (fun _ a => renews a) w v) :
    (system cfg).Moves Unaided { s with wifi := w } { s with wifi := v } := by
  obtain ⟨a, es, ha, hs⟩ := hrenew
  have hpart : doWifi a { s with wifi := w } = some (es.map .wifi, { s with wifi := v }) :=
    Effect.ofPart_eq_some.mpr ⟨es, v, hs, rfl, rfl⟩
  have hkind : handlerAct a = true ∧ overWifi (.wifi a) = false ∧
      doHandler cfg a { s with wifi := w } = doWifi a { s with wifi := w } := by
    cases a with
    | timerExpired | workStart | requestResult ret | connectResult status => exact ⟨rfl, rfl, rfl⟩
    | _ => cases ha
  obtain ⟨hhandler, hair, hdo⟩ := hkind
  refine ⟨.wifi a, es.map .wifi, ⟨rfl, by simp [hair]⟩, ?_⟩
  refine Effect.andThen_eq_some.mpr ⟨[], { s with wifi := w }, _,
    Effect.when_eq_some.mpr ⟨hrunning, rfl, rfl⟩, ?_, rfl⟩
  rw [System.effect, if_pos hhandler, hdo, hpart]

/-- The caller of a publish sees the flags of the thread. -/
theorem withWorker_self (hshared : s.publish.connected = s.worker.connected ∧
    s.publish.disconnectReqExternal = s.worker.disconnectReqExternal) :
    s.withWorker s.worker = s := by
  rw [SystemState.withWorker, ← hshared.1, ← hshared.2]

/-- First the Wi-Fi is connected again, then the thread opens a session over it. -/
theorem recovers_of_pending (hping : cfg.pingPeriodSec * 1000 ≠ 0)
    (hr : (system cfg).Runs powerOn acts h s) (hrunning : s.main.pc ≠ .stopped)
    (hstarted : started s.main.pc) (hwifi : s.wifi.connected = true ∨ s.wifi.RetryPending) :
    Recovers cfg s := by
  have hreconnected : ∃ w, ReflTransGen (Network.wifi.Moves fun _ a => renews a) s.wifi w ∧
      w.connected = true := by
    rcases hwifi with hup | hpending
    · exact ⟨s.wifi, .refl, hup⟩
    · exact exists_reconnected (listening_of_started hr hrunning hstarted) hpending
  obtain ⟨w, hw, hup⟩ := hreconnected
  let v : SystemState := { s with wifi := w }
  have hfirst : ReflTransGen ((system cfg).Moves Unaided) s v :=
    hw.lift (fun w => { s with wifi := w }) fun _ _ hrenew => moves_of_renews hrunning hrenew
  have hlist : cfg.worker.subsList = false := rfl
  obtain ⟨t, ht, hserves⟩ := exists_serves hlist hping (listless_sessions hr).1
  have hthen : ReflTransGen ((system cfg).Moves Unaided) (v.withWorker v.worker) (v.withWorker t) :=
    ht.lift v.withWorker fun _ _ hgo =>
      moves_of_goes (s := v) hrunning hstarted hup hgo
  have hself : v.withWorker v.worker = v := withWorker_self (gate_run hr).shared
  rw [hself] at hthen
  obtain ⟨acts', k, hrun, hunaided⟩ := leads_iff_runs.mp (hfirst.trans hthen)
  exact ⟨acts', k, v.withWorker t, hrun, hunaided, hup, hserves.connected, hserves.kept⟩

end Thread

section Stranded
variable {cfg : Config} {es : List SystemEvent} {s u : SystemState}

/-- Nobody but `main` and a loss of the Wi-Fi begins a retry of it. -/
theorem not_retryPending_unaided (hdown : s.wifi.connected = false) (hlost : ¬ s.wifi.RetryPending)
    {a : SystemAct} (ha : Unaided s a) (hc : SystemCase cfg s a es u) :
    u.wifi.connected = false ∧ ¬ u.wifi.RetryPending := by
  obtain ⟨hothers, hair⟩ := ha
  have hloss : ∀ status, a ≠ .wifi (.disconnectResult status) := by
    rintro status rfl
    rw [hair rfl] at hdown
    cases hdown
  cases hc with
  | tick ms hlimit | worker a ds t ha hs | puback id result ds p hinput hp | broker a ds p ha hp
  | stray usNow => exact ⟨hdown, hlost⟩
  | address dhcp w hmem hw => exact not_retryPending_step hdown hlost (by simp) (by simp) hw
  | lost status ds w hdisco hw => exact absurd rfl (hloss status)
  | handler a ds w ha hno hdisco hw =>
    apply not_retryPending_step hdown hlost _ _ hw
    · rintro ssid passwd ret rfl
      cases ha
    · rintro status rfl
      exact hloss status rfl
  | wifiWait act a given secCnt m ds w hgiven hpc hw hm hact => simp [hact] at hothers
  | wait act a m ha hm hact => simp [hact] at hothers
  | _ => cases hothers

theorem pending_of_recovers (hrec : Recovers cfg s) :
    s.wifi.connected = true ∨ s.wifi.RetryPending := by
  by_contra hno
  simp only [not_or, Bool.not_eq_true] at hno
  obtain ⟨acts, h, u, hr, hunaided, hup, -⟩ := hrec
  have hu : u.wifi.connected = false ∧ ¬ u.wifi.RetryPending := by
    apply hr.invariant_of_eachStep
      (I := fun _ u => u.wifi.connected = false ∧ ¬ u.wifi.RetryPending) hno _ hunaided
    rintro h s a es u ⟨hdown, hlost⟩ ha hs
    exact not_retryPending_unaided hdown hlost ha (system_step_cases hs).2
  rw [hup] at hu
  cases hu.1

end Stranded

/-- The session is lost, and every turn of the thread takes the keepalive branch. -/
structure Wedged (s : Worker) : Prop where
  stateMachine : s.stateMachine = .connected
  lost : s.connected = false
  place : s.pc = .dispatch ∨ s.pc = .inputHandle
  due : s.nextAlive ≤ s.uptime

section Wedge
variable {cfg : Config} {h es : List SystemEvent} {s u : SystemState}

theorem Wedged.deaf {s : Worker} (hi : Wedged s) : inInput s.pc = false := by
  obtain hpc | hpc := hi.place <;> rw [hpc] <;> rfl

/-- A step that the wedged thread can take, its ping period being zero. -/
theorem Wedged.thread (hping : cfg.pingPeriodSec * 1000 = 0) {main : MainPc} {s t : Worker}
    (hi : Wedged s) {a : WorkerAct} {ds : List WorkerEvent} (ha : threadAct main s.pc a)
    (hc : WorkerCase cfg.worker s a ds t) : Wedged t := by
  have hdeaf := hi.deaf
  obtain ⟨hst, hlost, hplace, hdue⟩ := hi
  cases hc with
  | event type result =>
    cases type with
    | disconnect => exact ⟨hst, rfl, hplace, hdue⟩
    | _ => simp [threadAct, hdeaf] at ha
  | tick ms => simp [threadAct] at ha
  | disconnectRequest => simp [threadAct] at ha
  | connected hpc hst' => exact ⟨hst, hlost, .inr rfl, hdue⟩
  | keepalive hpc hnow =>
    have hzero : (cfg.worker.pingPeriodSec * 1000).toNat = 0 := by
      rw [Config.worker, hping]
      rfl
    exact ⟨hst, hlost, .inl rfl, by simp [keepalive, inputReturned, hzero]⟩
  | inputEnter hpc hnow => exact absurd hdue (not_le.mpr hnow)
  | _ => simp_all

theorem Wedged.call (hi : Wedged s.worker) {a : PublishAct} (hc : CallCase cfg s a es u) :
    Wedged u.worker := by
  cases hc <;> exact hi

theorem Wedged.step (hping : cfg.pingPeriodSec * 1000 = 0) (hi : Wedged s.worker) {a : SystemAct}
    (hc : SystemCase cfg s a es u) : Wedged u.worker := by
  have hdeaf := hi.deaf
  have ⟨hst, hlost, hplace, hdue⟩ := hi
  cases hc with
  | tick ms hlimit =>
    refine ⟨hst, hlost, hplace, ?_⟩
    simp only [SystemState.withWorker]
    omega
  | worker a ds t ha hs => exact hi.thread hping ha (worker_step_cases hs)
  | puback id result ds p hinput hp => simp [hdeaf] at hinput
  | authorize fs name deviceId position attempts text uid es u hpc htext huid hidle hc =>
    exact hi.call (s := { s with deviceId := uid }) hc
  | sample p slept pulse frame text es u hpc hp htext hidle hc => exact hi.call hc
  | publish a es u ha hc => exact hi.call hc
  | _ => exact ⟨hst, hlost, hplace, hdue⟩

/-- A session that is lost right after its first keepalive. -/
def lostAfterKeepalive : List SystemAct :=
  [.wifiInit 0, .wifi (.connectResult 0), .wifi (.ipv4AddrAdd [true]), .wifiTaken, .mqttInit,
    .worker .proceed, .worker (.dnsResolve 0), .worker (.mqttConnect 0), .worker (.poll 1),
    .worker (.event .connack 0), .worker .proceed, .worker .proceed, .worker .proceed,
    .worker (.event .disconnect 0)]

theorem exists_wedged (hping : cfg.pingPeriodSec * 1000 = 0) : ∃ h s,
    (system cfg).Runs powerOn lostAfterKeepalive h s ∧ s.main.pc = .mqttWait 0 ∧
      s.wifi.connected = true ∧ Wedged s.worker := by
  obtain ⟨lit, ping, mins, period, ssid, passwd, mac, lib⟩ := cfg
  have hzero : (ping * 1000).toNat = 0 := by
    rw [show ping * 1000 = 0 from hping]
    rfl
  cases lit with
  | false =>
    refine ⟨_, _, rfl, rfl, rfl, rfl, rfl, .inl rfl, ?_⟩
    change (0 : ℤ) + (ping * 1000).toNat ≤ 0
    omega
  | true =>
    refine ⟨_, _, rfl, rfl, rfl, rfl, rfl, .inl rfl, ?_⟩
    change (0 : ℤ) + (ping * 1000).toNat ≤ 0
    omega

theorem not_canPublish (hping : cfg.pingPeriodSec * 1000 = 0) {acts : List SystemAct}
    (hr : (system cfg).Runs powerOn acts h s) (hi : Wedged s.worker) {acts' : List SystemAct}
    {k : List SystemEvent} (hr' : (system cfg).Runs s acts' k u) : ¬ CanPublish u := by
  have hu : Wedged u.worker := by
    apply hr'.invariant (I := fun _ u => Wedged u.worker) hi
    intro h t a es v ht hs
    exact ht.step hping (system_step_cases hs).2
  have hshared := (gate_run (runs_append.mpr ⟨s, h, k, hr, hr', rfl⟩)).shared.1
  rw [CanPublish, hshared, hu.lost]
  simp

end Wedge

/-- The station comes back from exactly the states in which the Wi-Fi is connected
or somebody is to connect it again, if the ping period in ms, as the thread
computes it, is not zero; and only then from all of these. -/
theorem recovers_iff (cfg : Config) : (∀ acts h s, (system cfg).Runs powerOn acts h s →
    s.main.pc ≠ .stopped → started s.main.pc →
      (Recovers cfg s ↔ s.wifi.connected = true ∨ s.wifi.RetryPending)) ↔
    cfg.pingPeriodSec * 1000 ≠ 0 := by
  constructor
  · intro hall hping
    obtain ⟨h, s, hr, hpc, hup, hi⟩ := exists_wedged hping
    have hstarted : started s.main.pc := by
      rw [hpc]
      rfl
    obtain ⟨acts', k, u, hr', -, -, hcan⟩ :=
      (hall _ h s hr (by simp [hpc]) hstarted).mpr (.inl hup)
    exact not_canPublish hping hr hi hr' hcan
  · intro hping acts h s hr hrunning hstarted
    exact ⟨pending_of_recovers, recovers_of_pending hping hr hrunning hstarted⟩

/-- In every run of the station `mqtt_connect` is called only when no session is
open, whatever the threads, the broker and the Wi-Fi do. -/
theorem connects_closed {cfg : Config} {acts : List SystemAct} {h : List SystemEvent}
    {s : SystemState} (hr : (system cfg).Runs powerOn acts h s) :
    EachEvent ConnectsClosed (h.flatMap workerOf) := (listless_sessions hr).2

/-- The session after one that was lost. -/
def secondSession : List SystemAct :=
  lostAfterKeepalive ++ [.worker .proceed, .worker .proceed, .worker (.poll 0), .worker .proceed,
    .worker (.dnsResolve 0), .worker (.mqttConnect 0)]

theorem second_session_closed : ∃ h s, (system someStation).Runs powerOn secondSession h s ∧
    (h.flatMap workerOf).count (.mqttConnect 0) = 2 ∧
      EachEvent ConnectsClosed (h.flatMap workerOf) := by
  have hr : (system someStation).Runs powerOn secondSession _ _ := runs_get (by decide +kernel)
  exact ⟨_, _, hr, by decide +kernel, connects_closed hr⟩

end WlabStation.System
