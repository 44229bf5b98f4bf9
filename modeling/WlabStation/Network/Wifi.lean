import WlabStation.Machine.Run
import WlabStation.Machine.Kernel
import Mathlib.Data.Int.Notation

/-! The Wi-Fi connection of `wifi_net.c`: its initialisation, the handlers of
the network events, and the timer and the work item that connect again. -/
namespace WlabStation.Network

def CONFIG_WIFI_FIRST_CONN_TIMEOUT_SEC : ℕ := 20

inductive WifiSecurity where
  | none
  | psk
  deriving DecidableEq, Repr

/-- The fields of `WifiInit` that depend on the settings. -/
structure WifiConnectReqParams where
  ssid : List UInt8
  ssidLength : ℕ
  security : WifiSecurity
  psk : List UInt8
  pskLength : ℕ
  deriving DecidableEq, Repr

/-- The assignments of `wifi_net_init`; `passwd` may be `NULL`. -/
def wifiInitParams (p : WifiConnectReqParams) (ssid : List UInt8) (passwd : Option (List UInt8)) :
    WifiConnectReqParams :=
  let p := { p with ssid := ssid, ssidLength := ssid.length }
  match passwd with
  | none => p
  | some psk => { p with security := .psk, psk := psk, pskLength := psk.length }

/-- Where `wifi_net_init` stands: it waits at most `secCnt` more times. -/
inductive InitPhase where
  | start
  | waiting (secCnt : ℕ)
  | returned
  | rebooted
  deriving DecidableEq, Repr

/-- The statics of `wifi_net.c` with its timer and work item. What the results
told about the station and the requests without a result are kept beside them. -/
structure Wifi where
  phase : InitPhase
  wifiInit : WifiConnectReqParams
  firstConnSem : Sem
  discoCb : Bool
  reconnectTimer : Bool
  workQueued : Bool
  workRunning : Bool
  connected : Bool
  hadConnected : Bool
  outstanding : ℕ
  deriving DecidableEq, Repr

inductive WifiAct where
  | register
  | netInit (ssid : List UInt8) (passwd : Option (List UInt8)) (ret : ℤ)
  | firstConnTaken
  | secondElapsed
  | connectResult (status : ℤ)
  | disconnectResult (status : ℤ)
  | ipv4AddrAdd (dhcp : List Bool)
  | timerExpired
  | workStart
  | requestResult (ret : ℤ)
  deriving DecidableEq, Repr

inductive WifiEvent where
  | connectRequest (params : WifiConnectReqParams) (ret : ℤ)
  | wdgFeed
  | discoCb (status : ℤ)
  | reboot
  deriving DecidableEq, Repr

/-- `net_mgmt(NET_REQUEST_WIFI_CONNECT)`: an accepted request gets a result later. -/
def Wifi.request (s : Wifi) (ret : ℤ) : Wifi :=
  if ret ≠ 0 then s else { s with outstanding := s.outstanding + 1 }

/-- `handle_wifi_connect_result`. -/
def handleWifiConnectResult (s : Wifi) (status : ℤ) : Wifi :=
  if status ≠ 0 then { s with reconnectTimer := true, connected := false }
  else { s with connected := true, hadConnected := true }

/-- `handle_wifi_disconnect_result`. -/
def handleWifiDisconnectResult (s : Wifi) (status : ℤ) : List WifiEvent × Wifi :=
  (if s.discoCb then [.discoCb status] else [],
    { s with reconnectTimer := true, connected := false })

/-- `handle_ipv4_result` over the addresses of the interface. -/
def handleIpv4Result (s : Wifi) (dhcp : List Bool) : Wifi :=
  { s with
    firstConnSem := dhcp.foldl (fun sem isDhcp => if isDhcp then sem.give else sem) s.firstConnSem }

/-- The callbacks are registered and the station runs. -/
def Wifi.listening (s : Wifi) : Bool :=
  match s.phase with
  | .waiting _ | .returned => true
  | .start | .rebooted => false

/-- The threads, the timer and the driver. Each request that was accepted gets
one result, and an address comes only over a connection. -/
def wifi : Machine Wifi WifiAct WifiEvent where
  step s a :=
    match a with
    | .register =>
        if s.phase ≠ .rebooted then some ([], { s with discoCb := true }) else none
    | .netInit ssid passwd ret =>
        if s.phase = .start then
          let params := wifiInitParams s.wifiInit ssid passwd
          some ([.connectRequest params ret, .wdgFeed],
            { s with
              wifiInit := params
              phase := .waiting CONFIG_WIFI_FIRST_CONN_TIMEOUT_SEC }.request ret)
        else none
    | .firstConnTaken =>
        match s.phase with
        | .waiting _ => s.firstConnSem.take.map fun sem =>
            ([], { s with firstConnSem := sem, phase := .returned })
        | _ => none
    | .secondElapsed =>
        match s.phase with
        | .waiting secCnt =>
            if s.firstConnSem.take = none then
              if secCnt = 1 then some ([.reboot], { s with phase := .rebooted })
              else some ([.wdgFeed], { s with phase := .waiting (secCnt - 1) })
            else none
        | _ => none
    | .connectResult status =>
        if s.listening ∧ 0 < s.outstanding then
          some ([], handleWifiConnectResult { s with outstanding := s.outstanding - 1 } status)
        else none
    | .disconnectResult status =>
        if s.listening then some (handleWifiDisconnectResult s status) else none
    | .ipv4AddrAdd dhcp =>
        if s.listening ∧ s.hadConnected then some ([], handleIpv4Result s dhcp) else none
    | .timerExpired =>
        if s.listening ∧ s.reconnectTimer then
          some ([], { s with reconnectTimer := false, workQueued := true })
        else none
    | .workStart =>
        if s.listening ∧ s.workQueued ∧ s.workRunning = false then
          some ([], { s with workQueued := false, workRunning := true })
        else none
    | .requestResult ret =>
        if s.listening ∧ s.workRunning then
          some ([.connectRequest s.wifiInit ret], { s with workRunning := false }.request ret)
        else none

def wifiBoot : Wifi where
  phase := .start
  wifiInit := ⟨[], 0, .none, [], 0⟩
  firstConnSem := ⟨0, 1⟩
  discoCb := false
  reconnectTimer := false
  workQueued := false
  workRunning := false
  connected := false
  hadConnected := false
  outstanding := 0

/-- All that one step can do. -/
inductive WifiCase (s : Wifi) : WifiAct → List WifiEvent → Wifi → Prop where
  | register : WifiCase s .register [] { s with discoCb := true }
  | netInit (ssid : List UInt8) (passwd : Option (List UInt8)) (ret : ℤ) : s.phase = .start →
      WifiCase s (.netInit ssid passwd ret)
        [.connectRequest (wifiInitParams s.wifiInit ssid passwd) ret, .wdgFeed]
        ({ s with
          wifiInit := wifiInitParams s.wifiInit ssid passwd
          phase := .waiting CONFIG_WIFI_FIRST_CONN_TIMEOUT_SEC }.request ret)
  | firstConnTaken (sem : Sem) : s.firstConnSem.take = some sem →
      WifiCase s .firstConnTaken [] { s with firstConnSem := sem, phase := .returned }
  | reboot : WifiCase s .secondElapsed [.reboot] { s with phase := .rebooted }
  | nextSecond (secCnt : ℕ) :
      WifiCase s .secondElapsed [.wdgFeed] { s with phase := .waiting secCnt }
  | connectResult (status : ℤ) : s.listening = true → 0 < s.outstanding →
      WifiCase s (.connectResult status) []
        (handleWifiConnectResult { s with outstanding := s.outstanding - 1 } status)
  | disconnectResult (status : ℤ) : s.listening = true →
      WifiCase s (.disconnectResult status) (handleWifiDisconnectResult s status).1
        (handleWifiDisconnectResult s status).2
  | ipv4AddrAdd (dhcp : List Bool) : s.listening = true → s.hadConnected = true →
      WifiCase s (.ipv4AddrAdd dhcp) [] (handleIpv4Result s dhcp)
  | timerExpired : s.listening = true → s.reconnectTimer = true →
      WifiCase s .timerExpired [] { s with reconnectTimer := false, workQueued := true }
  | workStart : s.listening = true → s.workQueued = true → s.workRunning = false →
      WifiCase s .workStart [] { s with workQueued := false, workRunning := true }
  | requestResult (ret : ℤ) : s.listening = true → s.workRunning = true →
      WifiCase s (.requestResult ret) [.connectRequest s.wifiInit ret]
        ({ s with workRunning := false }.request ret)

theorem wifi_step_cases {s t : Wifi} {a : WifiAct} {es : List WifiEvent}
    (h : wifi.step s a = some (es, t)) : WifiCase s a es t := by
  cases a with
  | register =>
    simp only [wifi, Option.ite_none_right_eq_some] at h
    cases h.2
    exact .register
  | netInit ssid passwd ret =>
    simp only [wifi, Option.ite_none_right_eq_some] at h
    cases h.2
    exact .netInit ssid passwd ret h.1
  | firstConnTaken =>
    simp only [wifi] at h
    split at h
    · obtain ⟨sem, htake, hr⟩ := Option.map_eq_some_iff.mp h
      cases hr
      exact .firstConnTaken sem htake
    · cases h
  | secondElapsed =>
    simp only [wifi] at h
    split at h
    · rw [Option.ite_none_right_eq_some] at h
      obtain ⟨-, hr⟩ := h
      split_ifs at hr
      · cases hr
        exact .reboot
      · cases hr
        exact .nextSecond _
    · cases h
  | connectResult status =>
    simp only [wifi, Option.ite_none_right_eq_some] at h
    cases h.2
    exact .connectResult status h.1.1 h.1.2
  | disconnectResult status =>
    simp only [wifi, Option.ite_none_right_eq_some] at h
    cases h.2
    exact .disconnectResult status h.1
  | ipv4AddrAdd dhcp =>
    simp only [wifi, Option.ite_none_right_eq_some] at h
    cases h.2
    exact .ipv4AddrAdd dhcp h.1.1 h.1.2
  | timerExpired =>
    simp only [wifi, Option.ite_none_right_eq_some] at h
    cases h.2
    exact .timerExpired h.1.1 h.1.2
  | workStart =>
    simp only [wifi, Option.ite_none_right_eq_some] at h
    cases h.2
    exact .workStart h.1.1 h.1.2.1 h.1.2.2
  | requestResult ret =>
    simp only [wifi, Option.ite_none_right_eq_some] at h
    cases h.2
    exact .requestResult ret h.1.1 h.1.2

end WlabStation.Network
