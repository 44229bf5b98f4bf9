import WlabStation.System.Threads
import WlabStation.Network.Reconnect

/-! All that one step of the station can do, in terms of what one step of each
component can do. -/
namespace WlabStation.System
open Wlab Station Mqtt Network Sensor Settings

/-- The network thread has taken a step; the caller of a publish sees its flags. -/
def SystemState.withWorker (s : SystemState) (t : Worker) : SystemState :=
  { s with
    worker := t
    publish := { s.publish with
      connected := t.connected
      disconnectReqExternal := t.disconnectReqExternal } }

/-- A step of a call of `mqtt_worker_publish_qos1` and, if it ends the call,
the step of `main` that it returns to. -/
inductive CallCase (cfg : Config) (s : SystemState) (a : PublishAct) :
    List SystemEvent → SystemState → Prop where
  | goes (es : List PublishEvent) (p : PublishState) :
      publisher.step s.publish a = some (es, p) → returnCode es = none →
      CallCase cfg s a (es.map .publish) { s with publish := p }
  | authorized (es : List PublishEvent) (p : PublishState) (attempts : ℕ) (rc : ℤ)
      (m : MainState) : publisher.step s.publish a = some (es, p) → returnCode es = some rc →
      s.main.pc = .authWait attempts → MainCase cfg.period s.main (.publish rc s.waited) [] m →
      CallCase cfg s a (es.map .publish) { s with publish := p, main := m }
  | sampled (es : List PublishEvent) (p : PublishState) (rc : ℤ) (m : MainState) :
      publisher.step s.publish a = some (es, p) → returnCode es = some rc →
      s.sample.map Prod.snd = some rc →
      MainCase cfg.period s.main (.ack s.waited) [] m →
      CallCase cfg s a (es.map .publish) { s with publish := p, main := m, sample := none }

/-- Steps of the other parties than `main`. -/
def byOthers : SystemAct → Bool
  | .tick _ | .wifi _ | .worker _ | .puback _ _ | .broker _ | .stray _ => true
  | _ => false

/-- All that one step can do. -/
inductive SystemCase (cfg : Config) (s : SystemState) :
    SystemAct → List SystemEvent → SystemState → Prop where
  | tick (ms : ℕ) : (s.worker.uptime + ms : ℤ) ≤ s.main.uptime + blockLimit s.main →
      SystemCase cfg s (.tick ms) []
        (s.withWorker { s.worker with uptime := s.worker.uptime + ms })
  | wifiInit (ret : ℤ) (m : MainState) (ds : List WifiEvent) (w : Wifi) : s.main.pc = .wifiInit 0 →
      MainCase cfg.period s.main .proceed [] m →
      WifiCase s.wifi (.netInit cfg.ssid (some cfg.passwd) ret) ds w →
      SystemCase cfg s (.wifiInit ret) (ds.map .wifi) { s with main := m, wifi := w }
  | wifiWait (act : SystemAct) (a : WifiAct) (given : Bool) (secCnt : ℕ) (m : MainState)
      (ds : List WifiEvent) (w : Wifi) :
      given = true ∧ a = .firstConnTaken ∨ given = false ∧ a = .secondElapsed →
      s.main.pc = .wifiWait secCnt → WifiCase s.wifi a ds w →
      MainCase cfg.period s.main (.semWait given s.waited) [] m → byOthers act = false →
      SystemCase cfg s act (ds.map .wifi) { s with main := m, wifi := w }
  | mqttInit (m : MainState) (w : Wifi) : s.main.pc = .mqttInit 0 →
      WifiCase s.wifi .register [] w → MainCase cfg.period s.main .proceed [] m →
      SystemCase cfg s .mqttInit [] { s with main := m, wifi := w }
  | mqttTaken (secCnt : ℕ) (sem : Sem) (m : MainState) : s.main.pc = .mqttWait secCnt →
      s.worker.conectedAckSem.take = some sem →
      MainCase cfg.period s.main (.semWait true s.waited) [] m →
      SystemCase cfg s .mqttTaken []
        { s with main := m, worker := { s.worker with conectedAckSem := sem } }
  | mqttTimeout (secCnt : ℕ) (m : MainState) : s.main.pc = .mqttWait secCnt →
      MainCase cfg.period s.main (.semWait false s.waited) [] m →
      SystemCase cfg s .mqttTimeout [] { s with main := m }
  | proceed (m : MainState) : s.main.pc ≠ .wifiInit 0 → s.main.pc ≠ .mqttInit 0 →
      (mainNormal cfg.period).step s.main .proceed = some ([], m) →
      SystemCase cfg s .proceed [] { s with main := m }
  | sync (answer : Option ℤ) (m : MainState) :
      MainCase cfg.period s.main (.sntp answer s.waited) [] m →
      SystemCase cfg s (.sync answer) (if answer.isSome then [.synced] else []) { s with main := m }
  | authorize (fs : NvsFs) (name deviceId position : GetCall) (attempts : ℕ) (text : List UInt8)
      (uid : List Char) (es : List SystemEvent) (u : SystemState) :
      s.main.pc = .authWait attempts →
      (wlabAuthorize cfg.lib cfg.mac fs name deviceId position).1 = some text →
      uid = (wlabStrDeviceIdGet (fetch .wlabName fs name).2 cfg.mac deviceId).1 →
      s.publish.pc = .idle →
      CallCase cfg { s with deviceId := uid }
        (.call (textBytes CONFIG_WLAB_AUTH_TOPIC) (.text text)) es u →
      SystemCase cfg s (.authorize fs name deviceId position) es u
  | wait (act : SystemAct) (a : MainAct) (m : MainState) :
      a = .sleep s.waited ∨ a = .pulse s.waited ∨ a = .frame s.waited →
      MainCase cfg.period s.main a [] m → byOthers act = false →
      SystemCase cfg s act [] { s with main := m }
  | skip (usNow : UInt32) (w : Waveform) (publishRc : ℤ) (wl : WlabState) (ds : List WlabEvent)
      (m : MainState) : s.main.wlab = .ok wl →
      ¬ Reads wl ⟨timestampGet s.main.clock s.main.uptime, none, publishRc⟩ →
      MainCase cfg.period s.main (.process none publishRc) ds m →
      SystemCase cfg s (.process usNow w publishRc) (ds.map .wlab) { s with main := m }
  | read (usNow : UInt32) (w : Waveform) (publishRc : ℤ) (wl : WlabState) (r : ReadResult)
      (reading : Option Reading) (ds : List WlabEvent) (m : MainState) (d : Dht) :
      s.main.wlab = .ok wl →
      Reads wl ⟨timestampGet s.main.clock s.main.uptime, none, publishRc⟩ →
      dht2xRead s.sensor usNow w 0 0 = (r, d) → reading = readingOf r →
      MainCase cfg.period s.main (.process reading publishRc) ds m →
      SystemCase cfg s (.process usNow w publishRc) (.sensor r :: ds.map .wlab)
        { s with main := m, sensor := d, sample := sampleOf ds }
  | sample (p : SampleArgs × ℤ) (slept pulse frame : ℕ) (text : List UInt8)
      (es : List SystemEvent) (u : SystemState) : s.main.pc = .ack slept pulse frame →
      s.sample = some p → sampleText (asciiBytes s.deviceId ++ [0]) p.1 = some text →
      s.publish.pc = .idle →
      CallCase cfg s (.call (textBytes CONFIG_WLAB_PUB_TOPIC) (.text text)) es u →
      SystemCase cfg s .sample es u
  | publish (a : PublishAct) (es : List SystemEvent) (u : SystemState) : callAct a →
      CallCase cfg s a es u → SystemCase cfg s (.publish a) es u
  | keepalive (m : MainState) :
      MainCase cfg.period s.main (.keepalive (keepaliveTest cfg.maxPingNoAnsMins s.worker)) [] m →
      SystemCase cfg s .keepalive
        (if keepaliveTest cfg.maxPingNoAnsMins s.worker then [] else [.alive])
        { s with main := m }
  | address (dhcp : List Bool) (w : Wifi) : true ∈ dhcp →
      WifiCase s.wifi (.ipv4AddrAdd dhcp) [] w →
      SystemCase cfg s (.wifi (.ipv4AddrAdd dhcp)) [.address] { s with wifi := w }
  | lost (status : ℤ) (ds : List WifiEvent) (w : Wifi) : s.wifi.discoCb = true →
      WifiCase s.wifi (.disconnectResult status) ds w →
      SystemCase cfg s (.wifi (.disconnectResult status)) (ds.map .wifi)
        (({ s with wifi := w }).withWorker { s.worker with disconnectReqExternal := true })
  | handler (a : WifiAct) (ds : List WifiEvent) (w : Wifi) : handlerAct a →
      (∀ dhcp, a = .ipv4AddrAdd dhcp → true ∉ dhcp) →
      (∀ status, a = .disconnectResult status → s.wifi.discoCb = false) → WifiCase s.wifi a ds w →
      SystemCase cfg s (.wifi a) (ds.map .wifi) { s with wifi := w }
  | worker (a : WorkerAct) (es : List WorkerEvent) (t : Worker) :
      threadAct s.main.pc s.worker.pc a →
      (Mqtt.worker cfg.worker).step s.worker a = some (es, t) →
      SystemCase cfg s (.worker a) (es.map .worker) (s.withWorker t)
  | puback (id : UInt16) (result : ℤ) (es : List PublishEvent) (p : PublishState) :
      inInput s.worker.pc →
      publisher.step (s.withWorker (mqttEvtHandler s.worker .puback result)).publish
        (.puback id result) = some (es, p) →
      SystemCase cfg s (.puback id result)
        (.worker (.event .puback result) :: es.map .publish)
        { s.withWorker (mqttEvtHandler s.worker .puback result) with publish := p }
  | broker (a : PublishAct) (es : List PublishEvent) (p : PublishState) : brokerAct a →
      publisher.step s.publish a = some (es, p) →
      SystemCase cfg s (.broker a) (es.map .publish) { s with publish := p }
  | stray (usNow : UInt32) :
      SystemCase cfg s (.stray usNow) [] { s with sensor := edge s.sensor usNow }

section Inversion
variable {cfg : Config} {s u : SystemState} {es : List SystemEvent}

/-- Only `wlab_process` leaves a trace in `main`. -/
theorem main_quiet {period : ℕ} {s m : MainState} {a : MainAct} {ds : List WlabEvent}
    (h : MainCase period s a ds m) (ha : ∀ sensor rc, a ≠ .process sensor rc) : ds = [] := by
  cases h with
  | process slept w c hpc hw hc => exact absurd rfl (ha _ _)
  | _ => rfl

/-- What `wlab_process` observes in `main`. -/
theorem process_events {period : ℕ} {s m : MainState} {sensor : Option Reading} {rc : ℤ}
    {ds : List WlabEvent} {wl : WlabState} (h : MainCase period s (.process sensor rc) ds m)
    (hwl : s.wlab = .ok wl) :
    ds = (wlabProcess period wl ⟨timestampGet s.clock s.uptime, sensor, rc⟩).1 := by
  cases h with
  | process slept w c hpc hw hc =>
    rw [hw] at hwl
    cases hwl
    rw [← hc]

theorem process_pc {period : ℕ} {s m : MainState} {sensor : Option Reading} {rc : ℤ}
    {ds : List WlabEvent} (h : MainCase period s (.process sensor rc) ds m) :
    ∃ slept, s.pc = .process slept := by
  cases h with
  | process slept w c hpc hw hc => exact ⟨slept, hpc⟩

theorem doMain_cases {a : MainAct} (h : doMain cfg a s = some (es, u)) :
    ∃ ds m, MainCase cfg.period s.main a ds m ∧ es = ds.map .wlab ∧ u = { s with main := m } := by
  obtain ⟨ds, m, hm, hes, hu⟩ := Effect.ofPart_eq_some.mp h
  exact ⟨ds, m, main_step_cases hm, hes, hu⟩

/-- The other steps of `main`. -/
theorem doMain_quiet {a : MainAct} (ha : ∀ sensor rc, a ≠ .process sensor rc)
    (h : doMain cfg a s = some (es, u)) :
    ∃ m, MainCase cfg.period s.main a [] m ∧ es = [] ∧ u = { s with main := m } := by
  obtain ⟨ds, m, hm, rfl, rfl⟩ := doMain_cases h
  obtain rfl := main_quiet hm ha
  exact ⟨m, hm, rfl, rfl⟩

theorem doWait_cases {a : ℕ → MainAct} (ha : ∀ ms sensor rc, a ms ≠ .process sensor rc)
    (h : doWait cfg a s = some (es, u)) :
    ∃ m, MainCase cfg.period s.main (a s.waited) [] m ∧ es = [] ∧ u = { s with main := m } :=
  doMain_quiet (ha _) h

theorem doWifi_cases {a : WifiAct} (h : doWifi a s = some (es, u)) :
    ∃ ds w, WifiCase s.wifi a ds w ∧ es = ds.map .wifi ∧ u = { s with wifi := w } := by
  obtain ⟨ds, w, hw, hes, hu⟩ := Effect.ofPart_eq_some.mp h
  exact ⟨ds, w, wifi_step_cases hw, hes, hu⟩

theorem doPublish_cases {a : PublishAct} (h : doPublish a s = some (es, u)) :
    ∃ ds p, publisher.step s.publish a = some (ds, p) ∧ es = ds.map .publish ∧
      u = { s with publish := p } :=
  Effect.ofPart_eq_some.mp h

theorem doWorker_cases {a : WorkerAct} (h : doWorker cfg a s = some (es, u)) :
    ∃ ds t, (Mqtt.worker cfg.worker).step s.worker a = some (ds, t) ∧ es = ds.map .worker ∧
      u = s.withWorker t := by
  obtain ⟨k, v, l, hk, hl, rfl⟩ := Effect.andThen_eq_some.mp h
  obtain ⟨ds, t, ht, rfl, rfl⟩ := Effect.ofPart_eq_some.mp hk
  cases hl
  exact ⟨ds, t, ht, List.append_nil _, rfl⟩

theorem doCall_cases {a : PublishAct} (h : doCall cfg a s = some (es, u)) :
    CallCase cfg s a es u := by
  unfold doCall at h
  obtain ⟨f, hf, h⟩ := Effect.exists_of_reading h
  split at hf <;> subst hf
  next hnone =>
    obtain ⟨ds, p, hp, rfl, rfl⟩ := doPublish_cases h
    rw [hp] at hnone
    exact .goes ds p hp hnone
  next rc hrc =>
    obtain ⟨k, v, l, hk, hl, rfl⟩ := Effect.andThen_eq_some.mp h
    obtain ⟨ds, p, hp, rfl, rfl⟩ := doPublish_cases hk
    rw [hp] at hrc
    unfold doReturn at hl
    obtain ⟨f, hf, hl⟩ := Effect.exists_of_reading hl
    split at hf <;> subst hf
    next attempts hpc =>
      obtain ⟨m, hm, rfl, rfl⟩ := doWait_cases (by simp) hl
      rw [List.append_nil]
      exact .authorized ds p attempts rc m hp hrc hpc hm
    next =>
      obtain ⟨_, _, _, hwhen, hl, rfl⟩ := Effect.andThen_eq_some.mp hl
      obtain ⟨hsample, rfl, rfl⟩ := Effect.when_eq_some.mp hwhen
      obtain ⟨_, _, _, hwait, hl, rfl⟩ := Effect.andThen_eq_some.mp hl
      obtain ⟨m, hm, rfl, rfl⟩ := doWait_cases (by simp) hwait
      obtain ⟨rfl, rfl⟩ := Effect.modify_eq_some.mp hl
      rw [List.append_nil, List.append_nil, List.append_nil]
      exact .sampled ds p rc m hp hrc hsample hm
    next => exact absurd hl Effect.refuse_eq_some

theorem doWifiWait_cases {a : WifiAct} {given : Bool} (act : SystemAct)
    (hact : byOthers act = false)
    (hgiven : given = true ∧ a = .firstConnTaken ∨ given = false ∧ a = .secondElapsed)
    (h : doWifiWait cfg a given s = some (es, u)) : SystemCase cfg s act es u := by
  unfold doWifiWait at h
  obtain ⟨f, hf, h⟩ := Effect.exists_of_reading h
  split at hf <;> subst hf
  next secCnt hpc =>
    obtain ⟨_, _, _, hwifi, hl, rfl⟩ := Effect.andThen_eq_some.mp h
    obtain ⟨ds, w, hw, rfl, rfl⟩ := doWifi_cases hwifi
    obtain ⟨m, hm, rfl, rfl⟩ := doWait_cases (by simp) hl
    rw [List.append_nil]
    exact .wifiWait act a given secCnt m ds w hgiven hpc hw hm hact
  next => exact absurd h Effect.refuse_eq_some

theorem doHandler_cases {a : WifiAct} (ha : handlerAct a)
    (h : doHandler cfg a s = some (es, u)) : SystemCase cfg s (.wifi a) es u := by
  unfold doHandler at h
  obtain ⟨f, hf, h⟩ := Effect.exists_of_reading h
  split at hf <;> subst hf
  next dhcp _ =>
    split_ifs at h with hdhcp
    · obtain ⟨_, _, _, hwifi, hl, rfl⟩ := Effect.andThen_eq_some.mp h
      obtain ⟨ds, w, hw, rfl, rfl⟩ := doWifi_cases hwifi
      obtain ⟨rfl, rfl⟩ := Effect.emit_eq_some.mp hl
      cases hw with
      | ipv4AddrAdd dhcp hlisten hhad =>
        exact .address dhcp _ hdhcp (.ipv4AddrAdd dhcp hlisten hhad)
    · obtain ⟨ds, w, hw, rfl, rfl⟩ := doWifi_cases h
      exact .handler _ ds w ha (by rintro d ⟨⟩; exact hdhcp) (by simp) hw
  next status _ =>
    split_ifs at h with hdisco
    · obtain ⟨_, _, _, hwifi, hl, rfl⟩ := Effect.andThen_eq_some.mp h
      obtain ⟨ds, w, hw, rfl, rfl⟩ := doWifi_cases hwifi
      obtain ⟨ks, t, ht, rfl, rfl⟩ := doWorker_cases hl
      cases ht
      rw [List.map_nil, List.append_nil]
      exact .lost status ds w hdisco hw
    · obtain ⟨ds, w, hw, rfl, rfl⟩ := doWifi_cases h
      exact .handler _ ds w ha (by simp) (fun _ _ => Bool.eq_false_iff.mpr hdisco) hw
  next hno hno' =>
    obtain ⟨ds, w, hw, rfl, rfl⟩ := doWifi_cases h
    exact .handler a ds w ha (fun dhcp hd => absurd hd (hno dhcp))
      (fun status hd => absurd hd (hno' status)) hw

end Inversion

theorem effect_cases {cfg : Config} {s u : SystemState} {a : SystemAct}
    {es : List SystemEvent} (h : effect cfg a s = some (es, u)) : SystemCase cfg s a es u := by
  cases a with
  | tick ms =>
    obtain ⟨_, _, _, hwhen, hl, rfl⟩ := Effect.andThen_eq_some.mp h
    obtain ⟨hlimit, rfl, rfl⟩ := Effect.when_eq_some.mp hwhen
    obtain ⟨ds, t, ht, rfl, rfl⟩ := doWorker_cases hl
    cases ht
    exact .tick ms hlimit
  | wifiInit ret =>
    obtain ⟨_, _, _, hwhen, hl, rfl⟩ := Effect.andThen_eq_some.mp h
    obtain ⟨hpc, rfl, rfl⟩ := Effect.when_eq_some.mp hwhen
    obtain ⟨_, _, _, hmain, hl, rfl⟩ := Effect.andThen_eq_some.mp hl
    obtain ⟨m, hm, rfl, rfl⟩ := doMain_quiet (by simp) hmain
    obtain ⟨ds, w, hw, rfl, rfl⟩ := doWifi_cases hl
    exact .wifiInit ret m ds w hpc hm hw
  | wifiTaken => exact doWifiWait_cases _ rfl (.inl ⟨rfl, rfl⟩) h
  | wifiTimeout => exact doWifiWait_cases _ rfl (.inr ⟨rfl, rfl⟩) h
  | mqttInit =>
    obtain ⟨_, _, _, hwhen, hl, rfl⟩ := Effect.andThen_eq_some.mp h
    obtain ⟨hpc, rfl, rfl⟩ := Effect.when_eq_some.mp hwhen
    obtain ⟨_, _, _, hwifi, hl, rfl⟩ := Effect.andThen_eq_some.mp hl
    obtain ⟨ds, w, hw, rfl, rfl⟩ := doWifi_cases hwifi
    obtain ⟨m, hm, rfl, rfl⟩ := doMain_quiet (by simp) hl
    cases hw
    exact .mqttInit m _ hpc .register hm
  | mqttTaken =>
    unfold effect doMqttWait at h
    obtain ⟨f, hf, h⟩ := Effect.exists_of_reading h
    split at hf <;> subst hf
    next secCnt sem hpc htake hgiven =>
      obtain ⟨_, _, _, hmodify, hl, rfl⟩ := Effect.andThen_eq_some.mp h
      obtain ⟨rfl, rfl⟩ := Effect.modify_eq_some.mp hmodify
      obtain ⟨m, hm, rfl, rfl⟩ := doWait_cases (by simp) hl
      exact .mqttTaken secCnt sem m hpc htake hm
    next hgiven => cases hgiven
    next => exact absurd h Effect.refuse_eq_some
  | mqttTimeout =>
    unfold effect doMqttWait at h
    obtain ⟨f, hf, h⟩ := Effect.exists_of_reading h
    split at hf <;> subst hf
    next hgiven => cases hgiven
    next secCnt hpc htake hgiven =>
      obtain ⟨m, hm, rfl, rfl⟩ := doWait_cases (by simp) h
      exact .mqttTimeout secCnt m hpc hm
    next => exact absurd h Effect.refuse_eq_some
  | proceed =>
    obtain ⟨_, _, _, hwhen, hl, rfl⟩ := Effect.andThen_eq_some.mp h
    obtain ⟨hpc, rfl, rfl⟩ := Effect.when_eq_some.mp hwhen
    obtain ⟨ds, m, hm, rfl, rfl⟩ := Effect.ofPart_eq_some.mp hl
    obtain rfl := main_quiet (main_step_cases hm) (by simp)
    exact .proceed m hpc.1 hpc.2 hm
  | sync answer =>
    obtain ⟨_, _, _, hwait, hl, rfl⟩ := Effect.andThen_eq_some.mp h
    obtain ⟨m, hm, rfl, rfl⟩ := doWait_cases (by simp) hwait
    obtain ⟨rfl, rfl⟩ := Effect.emit_eq_some.mp hl
    exact .sync answer m hm
  | authorize fs name deviceId position =>
    unfold effect doAuthorize at h
    obtain ⟨f, hf, h⟩ := Effect.exists_of_reading h
    split at hf <;> subst hf
    next attempts text hpc htext =>
      split_ifs at h with hidle
      · obtain ⟨_, _, _, hmodify, hl, rfl⟩ := Effect.andThen_eq_some.mp h
        obtain ⟨rfl, rfl⟩ := Effect.modify_eq_some.mp hmodify
        exact .authorize fs name deviceId position attempts text _ _ u hpc htext rfl hidle
          (doCall_cases hl)
      · exact absurd h Effect.refuse_eq_some
    next => exact absurd h Effect.refuse_eq_some
  | sleep =>
    obtain ⟨m, hm, rfl, rfl⟩ := doWait_cases (by simp) h
    exact .wait _ _ m (.inl rfl) hm rfl
  | process usNow w publishRc =>
    unfold effect doProcess at h
    obtain ⟨f, hf, h⟩ := Effect.exists_of_reading h
    split at hf <;> subst hf
    next => exact absurd h Effect.refuse_eq_some
    next wl hwl =>
      dsimp only at h
      split_ifs at h with hreads
      · obtain ⟨_, _, _, hsensor, hl, rfl⟩ := Effect.andThen_eq_some.mp h
        obtain ⟨ds, d, hd, rfl, rfl⟩ := Effect.ofPart_eq_some.mp hsensor
        obtain ⟨_, _, _, hmain, hl, rfl⟩ := Effect.andThen_eq_some.mp hl
        obtain ⟨es, m, hm, rfl, rfl⟩ := doMain_cases hmain
        obtain ⟨rfl, rfl⟩ := Effect.modify_eq_some.mp hl
        cases hd
        have hes : es = (wlabProcess cfg.period wl ⟨timestampGet s.main.clock s.main.uptime,
            readingOf (dht2xRead s.sensor usNow w 0 0).1, publishRc⟩).1 := process_events hm hwl
        rw [List.append_nil, ← hes]
        exact .read usNow w publishRc wl _ _ es m _ hwl hreads rfl rfl hm
      · obtain ⟨ds, m, hm, rfl, rfl⟩ := doMain_cases h
        exact .skip usNow w publishRc wl ds m hwl hreads hm
  | pulse =>
    obtain ⟨m, hm, rfl, rfl⟩ := doWait_cases (by simp) h
    exact .wait _ _ m (.inr (.inl rfl)) hm rfl
  | frame =>
    obtain ⟨m, hm, rfl, rfl⟩ := doWait_cases (by simp) h
    exact .wait _ _ m (.inr (.inr rfl)) hm rfl
  | sample =>
    unfold effect doSample at h
    obtain ⟨f, hf, h⟩ := Effect.exists_of_reading h
    split at hf <;> subst hf
    next slept pulse frame text hpc htext =>
      obtain ⟨p, hp, htext⟩ := Option.bind_eq_some_iff.mp htext
      split_ifs at h with hidle
      · exact .sample p slept pulse frame text es u hpc hp htext hidle (doCall_cases h)
      · exact absurd h Effect.refuse_eq_some
    next => exact absurd h Effect.refuse_eq_some
  | publish a =>
    simp only [effect] at h
    split_ifs at h with ha
    · exact .publish a es u ha (doCall_cases h)
    · exact absurd h Effect.refuse_eq_some
  | keepalive =>
    unfold effect doKeepalive at h
    obtain ⟨f, rfl, h⟩ := Effect.exists_of_reading h
    obtain ⟨_, _, _, hmain, hl, rfl⟩ := Effect.andThen_eq_some.mp h
    obtain ⟨m, hm, rfl, rfl⟩ := doMain_quiet (by simp) hmain
    obtain ⟨rfl, rfl⟩ := Effect.emit_eq_some.mp hl
    exact .keepalive m hm
  | wifi a =>
    simp only [effect] at h
    split_ifs at h with ha
    · exact doHandler_cases ha h
    · exact absurd h Effect.refuse_eq_some
  | worker a =>
    obtain ⟨_, _, _, hwhen, hl, rfl⟩ := Effect.andThen_eq_some.mp h
    obtain ⟨ha, rfl, rfl⟩ := Effect.when_eq_some.mp hwhen
    obtain ⟨ds, t, ht, rfl, rfl⟩ := doWorker_cases hl
    exact .worker a ds t ha ht
  | puback id result =>
    obtain ⟨_, _, _, hwhen, hl, rfl⟩ := Effect.andThen_eq_some.mp h
    obtain ⟨hinput, rfl, rfl⟩ := Effect.when_eq_some.mp hwhen
    obtain ⟨_, _, _, hworker, hl, rfl⟩ := Effect.andThen_eq_some.mp hl
    obtain ⟨ds, t, ht, rfl, rfl⟩ := doWorker_cases hworker
    cases ht
    obtain ⟨ds, p, hp, rfl, rfl⟩ := doPublish_cases hl
    exact .puback id result ds p hinput hp
  | broker a =>
    simp only [effect] at h
    split_ifs at h with ha
    · obtain ⟨ds, p, hp, rfl, rfl⟩ := doPublish_cases h
      exact .broker a ds p ha hp
    · exact absurd h Effect.refuse_eq_some
  | stray usNow =>
    obtain ⟨ds, d, hd, rfl, rfl⟩ := Effect.ofPart_eq_some.mp h
    cases hd
    exact .stray usNow

theorem system_step_cases {cfg : Config} {s u : SystemState} {a : SystemAct}
    {es : List SystemEvent} (h : (system cfg).step s a = some (es, u)) :
    s.main.pc ≠ .stopped ∧ SystemCase cfg s a es u := by
  obtain ⟨_, _, _, hwhen, hl, rfl⟩ := Effect.andThen_eq_some.mp h
  obtain ⟨hrunning, rfl, rfl⟩ := Effect.when_eq_some.mp hwhen
  exact ⟨hrunning, effect_cases hl⟩

end WlabStation.System
