import WlabStation.Mqtt.Endpoint
import WlabStation.Network.Credentials
import WlabStation.Settings.Shell
import WlabStation.System.Boot

/-! From the shell to the air. A start takes from the flash what the station runs
on, and until the next one no request is made with anything else. -/
namespace WlabStation.System
open Machine Wlab Station Mqtt Network Settings

/-- What a station has besides its flash. -/
structure Hardware where
  net : Resolver
  mac : Fin 6 → UInt8
  lib : FloatText

/-- The arguments of `wifi_net_init` and `mqtt_worker_init`, and the period in `wlab_init`. -/
def startConfig (d : Hardware) (c : NetConfig) (period : ℕ) : Option Config := do
  let (ssid, passwd) ← mainNetInit c.wificfg
  let endpoint := Endpoint.ofMqttConfig c.mqttcfg
  return {
    hostLiteral := decide ((d.net.inetPton (cString endpoint.brokerHostnameStr)).1 ≠ 0)
    pingPeriodSec := .ofNat (mqttPingPeriod c.mqttcfg)
    maxPingNoAnsMins := .ofNat (mqttMaxPingNoAnswer c.mqttcfg)
    period := period
    ssid := ssid
    passwd := passwd.getD []
    mac := d.mac
    lib := d.lib }

/-- The two objects of `main`. The shell may be used while `wifi_net_init` waits, so the
second one comes from the flash that is found afterwards, `fs'`. -/
def startNetConfig (fs fs' : NvsFs) (m m' : Memory) (wificfg mqttcfg : ℕ) (f : StartFaults) :
    NetConfig :=
  ⟨(mainNetConfig fs m wificfg mqttcfg f).wificfg,
    (nvsDataMqttConfigGet fs' m' mqttcfg f.mqttRead f.mqttWrite).1.load mqttcfg mqttConfigLen⟩

/-- The station runs on these two objects and on this period: every connect request
has the two strings of the first. -/
structure RunsOn (wificfg mqttcfg : List UInt8) (period : ℕ) (cfg : Config)
    (h : List SystemEvent) : Prop where
  credentials : ∃ passwd, mainNetInit wificfg = some (cfg.ssid, some passwd) ∧
    ∀ p ret, .wifi (.connectRequest p ret) ∈ h → Carries cfg.ssid (some passwd) p
  pingPeriod : cfg.pingPeriodSec = .ofNat (mqttPingPeriod mqttcfg)
  maxPingNoAnswer : cfg.maxPingNoAnsMins = .ofNat (mqttMaxPingNoAnswer mqttcfg)
  period : cfg.period = period

/-- `WifiInit` from its first use on, and the requests that were made with it. -/
structure Requesting (params : WifiConnectReqParams) (h : List SystemEvent) (s : SystemState) :
    Prop where
  sent : ∀ p ret, .wifi (.connectRequest p ret) ∈ h → p = params
  begun : s.main.pc ≠ .wifiInit 0 → s.wifi.phase ≠ .start
  fresh : s.wifi.phase = .start → s.wifi.wifiInit = wifiBoot.wifiInit
  filled : s.wifi.phase ≠ .start → s.wifi.wifiInit = params

section Steps
variable {cfg : Config} {params : WifiConnectReqParams} {h es : List SystemEvent}
  {s u : SystemState}

/-- Only the first call of `main` is made at its beginning. -/
theorem main_begun {period : ℕ} {s m : MainState} {a : MainAct} {ds : List WlabEvent}
    (hc : MainCase period s a ds m) (ha : a ≠ .proceed) : s.pc ≠ .wifiInit 0 := by
  cases hc <;> simp_all

/-- After `wifi_net_init` the handlers do not assign `WifiInit`. -/
theorem wifi_params_kept {s w : Wifi} {a : WifiAct} {ds : List WifiEvent}
    (hc : WifiCase s a ds w) (ha : ∀ ssid passwd ret, a ≠ .netInit ssid passwd ret)
    (hs : s.phase ≠ .start) : w.phase ≠ .start ∧ w.wifiInit = s.wifiInit ∧
      ∀ p ret, .connectRequest p ret ∈ ds → p = s.wifiInit := by
  cases hc with
  | netInit ssid passwd ret hstart => exact absurd rfl (ha _ _ _)
  | register => exact ⟨hs, rfl, by simp⟩
  | firstConnTaken sem htake => exact ⟨by simp, rfl, by simp⟩
  | reboot => exact ⟨by simp, rfl, by simp⟩
  | nextSecond secCnt => exact ⟨by simp, rfl, by simp⟩
  | connectResult status hl hout =>
    unfold handleWifiConnectResult
    split_ifs <;> exact ⟨hs, rfl, by simp⟩
  | disconnectResult status hl =>
    refine ⟨hs, rfl, ?_⟩
    intro p ret hmem
    simp only [handleWifiDisconnectResult] at hmem
    split_ifs at hmem <;> simp at hmem
  | ipv4AddrAdd dhcp hl hhad => exact ⟨hs, rfl, by simp⟩
  | timerExpired hl htimer => exact ⟨hs, rfl, by simp⟩
  | workStart hl hqueued hrunning => exact ⟨hs, rfl, by simp⟩
  | requestResult ret hl hrunning =>
    rw [request_eq]
    refine ⟨hs, rfl, ?_⟩
    intro p ret' hmem
    cases List.mem_singleton.mp hmem
    rfl

/-- Steps of the other parties. -/
theorem Requesting.other (hi : Requesting params h s) (hes : ∀ e, .wifi e ∉ es)
    (hwifi : u.wifi = s.wifi) (hmain : u.main = s.main ∨ s.main.pc ≠ .wifiInit 0) :
    Requesting params (h ++ es) u := by
  constructor
  case sent =>
    intro p ret hmem
    exact hi.sent p ret ((List.mem_append.mp hmem).resolve_right (hes _))
  case begun =>
    rw [hwifi]
    rcases hmain with hmain | hmain
    · rw [hmain]
      exact hi.begun
    · exact fun _ => hi.begun hmain
  case fresh =>
    rw [hwifi]
    exact hi.fresh
  case filled =>
    rw [hwifi]
    exact hi.filled

/-- Steps of the handlers, and of `main` in `wifi_net_init` and after it. -/
theorem Requesting.wifi (hi : Requesting params h s) {a : WifiAct} {ds : List WifiEvent}
    (hw : WifiCase s.wifi a ds u.wifi) (ha : ∀ ssid passwd ret, a ≠ .netInit ssid passwd ret)
    (hs : s.wifi.phase ≠ .start) (hes : ∀ e, .wifi e ∈ es → e ∈ ds) :
    Requesting params (h ++ es) u := by
  obtain ⟨hphase, hinit, hsent⟩ := wifi_params_kept hw ha hs
  have hparams := hi.filled hs
  constructor
  case sent =>
    intro p ret hmem
    rcases List.mem_append.mp hmem with hold | hnew
    · exact hi.sent p ret hold
    · exact (hsent p ret (hes _ hnew)).trans hparams
  case begun => exact fun _ => hphase
  case fresh => exact fun hstart => absurd hstart hphase
  case filled => exact fun _ => hinit.trans hparams

theorem Requesting.call (hi : Requesting params h s) {a : PublishAct}
    (hc : CallCase cfg s a es u) : Requesting params (h ++ es) u := by
  cases hc with
  | goes ds p hp hnone => exact hi.other (by simp) rfl (.inl rfl)
  | authorized ds p attempts rc m hp hrc hpc hm =>
    exact hi.other (by simp) rfl (.inr (main_begun hm (by simp)))
  | sampled ds p rc m hp hrc hsample hm =>
    exact hi.other (by simp) rfl (.inr (main_begun hm (by simp)))

theorem Requesting.step
    (hi : Requesting (wifiInitParams wifiBoot.wifiInit cfg.ssid (some cfg.passwd)) h s)
    {a : SystemAct} (hc : SystemCase cfg s a es u) :
    Requesting (wifiInitParams wifiBoot.wifiInit cfg.ssid (some cfg.passwd)) (h ++ es) u := by
  cases hc with
  | tick ms hlimit => exact hi.other (by simp) rfl (.inl rfl)
  | wifiInit ret m ds w hpc hm hw =>
    cases hw with
    | netInit ssid passwd ret hstart =>
      rw [request_eq, hi.fresh hstart]
      constructor
      case sent =>
        intro p ret' hmem
        rcases List.mem_append.mp hmem with hold | hnew
        · exact hi.sent p ret' hold
        · simp only [List.map_cons, List.map_nil, List.mem_cons, List.not_mem_nil, or_false,
            SystemEvent.wifi.injEq, WifiEvent.connectRequest.injEq, reduceCtorEq] at hnew
          exact hnew.1
      case begun => simp
      case fresh => simp
      case filled => exact fun _ => rfl
  | wifiWait act a given secCnt m ds w hgiven hpc hw hm =>
    apply hi.wifi hw
    · rcases hgiven with ⟨-, rfl⟩ | ⟨-, rfl⟩ <;> simp
    · exact hi.begun (main_begun hm (by simp))
    · simp
  | mqttInit m w hpc hw hm =>
    exact hi.wifi hw (by simp) (hi.begun (by simp [hpc])) (by simp)
  | mqttTaken secCnt sem m hpc htake hm =>
    exact hi.other (by simp) rfl (.inr (main_begun hm (by simp)))
  | mqttTimeout secCnt m hpc hm => exact hi.other (by simp) rfl (.inr (main_begun hm (by simp)))
  | proceed m hpc hpc' hm => exact hi.other (by simp) rfl (.inr hpc)
  | sync answer m hm =>
    refine hi.other ?_ rfl (.inr (main_begun hm (by simp)))
    split_ifs <;> simp
  | authorize fs name deviceId position attempts text uid es u hpc htext huid hidle hc =>
    have hi' : Requesting (wifiInitParams wifiBoot.wifiInit cfg.ssid (some cfg.passwd)) h
        { s with deviceId := uid } := ⟨hi.sent, hi.begun, hi.fresh, hi.filled⟩
    exact hi'.call hc
  | wait act a m ha hm =>
    have hne : a ≠ .proceed := by
      rcases ha with rfl | rfl | rfl <;> simp
    exact hi.other (by simp) rfl (.inr (main_begun hm hne))
  | skip usNow w publishRc wl ds m hwl hreads hm =>
    exact hi.other (by simp) rfl (.inr (main_begun hm (by simp)))
  | read usNow w publishRc wl r reading ds m d hwl hreads hr hreading hm =>
    exact hi.other (by simp) rfl (.inr (main_begun hm (by simp)))
  | sample p slept pulse frame text es u hpc hp htext hidle hc => exact hi.call hc
  | publish a es u ha hc => exact hi.call hc
  | keepalive m hm =>
    refine hi.other ?_ rfl (.inr (main_begun hm (by simp)))
    split_ifs <;> simp
  | address dhcp w hmem hw =>
    cases hw with
    | ipv4AddrAdd dhcp hl hhad =>
      exact hi.wifi (.ipv4AddrAdd dhcp hl hhad) (by simp) (listening_phase hl) (by simp)
  | lost status ds w hdisco hw =>
    cases hw with
    | disconnectResult status hl =>
      exact hi.wifi (.disconnectResult status hl) (by simp) (listening_phase hl) (by simp)
  | handler a ds w ha hno hdisco hw =>
    have hlisten : s.wifi.listening := by
      cases hw with
      | register | netInit ssid passwd ret hstart | firstConnTaken sem htake | reboot
      | nextSecond secCnt => cases ha
      | connectResult status hl hout => exact hl
      | disconnectResult status hl => exact hl
      | ipv4AddrAdd dhcp hl hhad => exact hl
      | timerExpired hl htimer => exact hl
      | workStart hl hqueued hrunning => exact hl
      | requestResult ret hl hrunning => exact hl
    apply hi.wifi hw _ (listening_phase hlisten) (by simp)
    rintro ssid passwd ret rfl
    cases ha
  | worker a ds t ha hs => exact hi.other (by simp) rfl (.inl rfl)
  | puback id result ds p hinput hp => exact hi.other (by simp) rfl (.inl rfl)
  | broker a ds p ha hp => exact hi.other (by simp) rfl (.inl rfl)
  | stray usNow => exact hi.other (by simp) rfl (.inl rfl)

end Steps

/-- The credentials are those that `main` passed. -/
theorem requests_carry {cfg : Config} {acts : List SystemAct} {h : List SystemEvent}
    {s : SystemState} (hr : (system cfg).Runs powerOn acts h s) (p : WifiConnectReqParams)
    (ret : ℤ) (hmem : .wifi (.connectRequest p ret) ∈ h) :
    Carries cfg.ssid (some cfg.passwd) p := by
  have hi : Requesting (wifiInitParams wifiBoot.wifiInit cfg.ssid (some cfg.passwd)) h s := by
    apply hr.invariant (I := Requesting _)
    · constructor
      case sent => simp
      case begun => simp [powerOn, mainBoot]
      case fresh => exact fun _ => rfl
      case filled => simp [powerOn, wifiBoot]
    · intro h s a es u hi hs
      exact hi.step (system_step_cases hs).2
  rw [hi.sent p ret hmem]
  exact carries_init_iff.mpr ⟨rfl, rfl⟩

/-- A start runs on the variables that `pconfig` prints: the network settings after one
history of the shell, those of the broker and the period after later ones. -/
theorem runs_on_settings (d : Hardware) (uses waited later : List ShellUse) (m mm pm : Memory)
    (wificfg mqttcfg pubPeriod : ℕ) (f : StartFaults) (g : GetFault) {cfg : Config}
    (hstart : startConfig d (startNetConfig (flashAfter d.lib uses) (flashAfter d.lib waited) m mm
      wificfg mqttcfg f) (deliveredPeriod (flashAfter d.lib later) pm pubPeriod g.read g.write) =
        some cfg)
    {acts : List SystemAct} {h : List SystemEvent} {s : SystemState}
    (hr : (system cfg).Runs powerOn acts h s) :
    RunsOn ((variablesAfter d.lib uses).read .wifiConfig f.wifiRead)
      ((variablesAfter d.lib waited).read .mqttConfig f.mqttRead)
      (leNat ((variablesAfter d.lib later).read .wlabPubPeriod g.read)) cfg h := by
  have hmqtt := (flash_represents d.lib waited).get_load .mqttConfig mm mqttcfg
    ⟨f.mqttRead, f.mqttWrite⟩
  rw [startNetConfig, (flash_represents d.lib uses).mainNetConfig_eq,
    (flash_represents d.lib later).deliveredPeriod_eq] at hstart
  change startConfig d ⟨_, (Setting.mqttConfig.get _ _ _ _ _).1.load _ Setting.mqttConfig.size⟩ _ =
    _ at hstart
  rw [hmqtt] at hstart
  simp only [startConfig, Option.bind_eq_bind, Option.bind_eq_some_iff, Prod.exists,
    Option.pure_def, Option.some.injEq] at hstart
  obtain ⟨ssid, pass, hpassed, rfl⟩ := hstart
  obtain ⟨-, passwd, -, rfl⟩ := mainNetInit_eq_some.mp hpassed
  constructor
  case credentials => exact ⟨passwd, hpassed, requests_carry hr⟩
  case pingPeriod => rfl
  case maxPingNoAnswer => rfl
  case period => rfl

def someHardware : Hardware := ⟨someResolver, fun _ => 1, zeroCoordinates⟩

/-- The network is configured after what the kitchen station has seen before. -/
def netHistory : List ShellUse :=
  someHistory ++ [.command .wificonf [textBytes "wificonf", textBytes "wifi_1234",
      textBytes "qwerty1234"] (fun _ => 170) 16 none,
    .command .mqttconf [textBytes "mqttconf", textBytes "broker.local", textBytes "1883",
      textBytes "60", textBytes "10"] (fun _ => 170) 16 none]

/-- While it waits for the network another ping period is set. -/
def waitedHistory : List ShellUse :=
  netHistory ++ [.boot ⟨none, none⟩, .get .wifiConfig (fun _ => 0) 16 ⟨none, none⟩,
    .command .mqttconf [textBytes "mqttconf", textBytes "broker.local", textBytes "1883",
      textBytes "90", textBytes "10"] (fun _ => 170) 16 none]

def kitchenStart : Option Config :=
  startConfig someHardware
    (startNetConfig (flashAfter zeroCoordinates netHistory)
      (flashAfter zeroCoordinates waitedHistory) (fun _ => 170) (fun _ => 170) 16 128 .none)
    (deliveredPeriod (flashAfter zeroCoordinates waitedHistory) (fun _ => 170) 16 none none)

/-- The first connection is refused, and a second one is requested. -/
def secondRequest : List SystemAct :=
  [.wifiInit 0, .tick 300, .wifi (.connectResult 1), .wifi .timerExpired, .wifi .workStart,
    .wifi (.requestResult 0)]

theorem kitchen_runs_on_settings : ∃ cfg h s, kitchenStart = some cfg ∧
    (system cfg).Runs powerOn secondRequest h s ∧ (h.flatMap wifiOf).length = 3 ∧
    cfg.ssid = textBytes "wifi_1234" ∧ cfg.pingPeriodSec = 90 ∧ cfg.period = 10 ∧
    RunsOn ((variablesAfter zeroCoordinates netHistory).read .wifiConfig none)
      ((variablesAfter zeroCoordinates waitedHistory).read .mqttConfig none)
      (leNat ((variablesAfter zeroCoordinates waitedHistory).read .wlabPubPeriod none)) cfg h := by
  have hstart : kitchenStart = some (kitchenStart.get (by decide +kernel)) :=
    (Option.some_get _).symm
  have hr : (system (kitchenStart.get (by decide +kernel))).Runs powerOn secondRequest _ _ :=
    runs_get (by decide +kernel)
  refine ⟨_, _, _, hstart, hr, by decide +kernel, by decide +kernel, by decide +kernel,
    by decide +kernel, ?_⟩
  exact runs_on_settings someHardware netHistory waitedHistory waitedHistory _ _ _ _ _ _ _
    ⟨none, none⟩ hstart hr

end WlabStation.System
