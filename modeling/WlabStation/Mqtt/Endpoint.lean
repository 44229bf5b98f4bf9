import WlabStation.Mqtt.Worker
import WlabStation.Settings.Startup

/-! The host name and the port of the broker on their way from the shell through
the flash and the statics of `mqtt_worker.c` to the resolver and the socket. -/
namespace WlabStation.Mqtt
open Settings

/-- Conversion to `uint16_t`. -/
def u16 (x : ℤ) : ℕ := (x % 65536).toNat

/-- `htons` of the little-endian target; `ntohs` is the same function. -/
def htons (v : ℕ) : ℕ := v % 256 * 256 + v / 256

/-- The size of `BrokerHostnameStr` and of `BrokerPortStr`. -/
def brokerStrLen : ℕ := 32

/-- The statics of the endpoint, in their bytes. -/
structure Endpoint where
  brokerHostnameStr : List UInt8
  brokerPort : ℤ
  brokerPortStr : List UInt8
  deriving DecidableEq, Repr

/-- The address functions of the network stack: their return values, and the
four bytes of the address they give. An unterminated string is `none`. -/
structure Resolver where
  inetPton : Option (List UInt8) → ℤ × List UInt8
  getaddrinfo : Option (List UInt8) → Option (List UInt8) → ℤ × List UInt8

inductive ResolverCall where
  | inetPton (host : Option (List UInt8))
  | getaddrinfo (host service : Option (List UInt8))
  deriving DecidableEq, Repr

def ResolverCall.host : ResolverCall → Option (List UInt8)
  | .inetPton host => host
  | .getaddrinfo host _ => host

/-- The members of `Broker` that are set, the port in network order. -/
structure SockaddrIn where
  sinPort : ℕ
  sinAddr : List UInt8
  deriving DecidableEq, Repr

structure Resolution where
  ret : ℤ
  calls : List ResolverCall
  broker : SockaddrIn
  deriving DecidableEq, Repr

namespace Endpoint

/-- The endpoint in `mqtt_worker_init`. `strncpy` stops at the terminator of
`hostname`, and `BrokerPortStr` is zero before the `snprintf`. -/
def mqttWorkerInit (hostname : List UInt8) (port : ℤ) : Endpoint where
  brokerHostnameStr := strncpy (hostname.takeWhile fun b => b ≠ 0) brokerStrLen
  brokerPort := port
  brokerPortStr := strncpy ((asciiBytes (intText port)).take (brokerStrLen - 1)) brokerStrLen

/-- `dns_resolve`. -/
def dnsResolve (e : Endpoint) (net : Resolver) : Resolution :=
  let host := cString e.brokerHostnameStr
  let service := cString e.brokerPortStr
  let pton := net.inetPton host
  if pton.1 ≠ 0 then ⟨0, [.inetPton host], ⟨htons (u16 e.brokerPort), pton.2⟩⟩
  else
    let haddr := net.getaddrinfo host service
    if haddr.1 ≠ 0 then
      ⟨haddr.1, [.inetPton host, .getaddrinfo host service], ⟨htons (u16 e.brokerPort), pton.2⟩⟩
    else ⟨0, [.inetPton host, .getaddrinfo host service], ⟨htons (u16 e.brokerPort), haddr.2⟩⟩

/-- The call in `main`. -/
def ofMqttConfig (mqttcfg : List UInt8) : Endpoint :=
  mqttWorkerInit (mqttBroker mqttcfg) (i32 (mqttPort mqttcfg))

end Endpoint

/-- The resolver gets exactly this host, and the socket address this port. -/
structure EndpointKept (net : Resolver) (mqttcfg host : List UInt8) (port : ℕ) : Prop where
  host : ∀ call ∈ ((Endpoint.ofMqttConfig mqttcfg).dnsResolve net).calls, call.host = some host
  port : htons ((Endpoint.ofMqttConfig mqttcfg).dnsResolve net).broker.sinPort = port

/-- The bytes are swapped back. -/
theorem htons_htons {v : ℕ} (hv : v < 65536) : htons (htons v) = v := by
  unfold htons
  omega

theorem u16_lt (x : ℤ) : u16 x < 65536 := by
  unfold u16
  omega

/-- Two narrowing conversions of a port. -/
theorem u16_i32 (p : ℕ) : u16 (i32 p) = p % 65536 := by
  unfold u16 i32
  rw [Int.bmod_def]
  split_ifs
  · omega
  · omega

namespace Endpoint
variable (e : Endpoint) (net : Resolver)

/-- All calls are about the static host name. -/
theorem host_of_mem_calls {call : ResolverCall} (hcall : call ∈ (e.dnsResolve net).calls) :
    call.host = cString e.brokerHostnameStr := by
  simp only [dnsResolve] at hcall
  split_ifs at hcall
  · rw [List.mem_singleton.mp hcall]
    rfl
  · rcases List.mem_pair.mp hcall with rfl | rfl
    · rfl
    · rfl
  · rcases List.mem_pair.mp hcall with rfl | rfl
    · rfl
    · rfl

/-- The first call is made in every case. -/
theorem inetPton_mem_calls :
    .inetPton (cString e.brokerHostnameStr) ∈ (e.dnsResolve net).calls := by
  simp only [dnsResolve]
  split_ifs
  · exact List.mem_cons_self
  · exact List.mem_cons_self
  · exact List.mem_cons_self

theorem sinPort_eq : (e.dnsResolve net).broker.sinPort = htons (u16 e.brokerPort) := by
  simp only [dnsResolve]
  split_ifs
  · rfl
  · rfl
  · rfl

theorem ret_eq : (e.dnsResolve net).ret =
    if (net.inetPton (cString e.brokerHostnameStr)).1 ≠ 0 then 0
    else (net.getaddrinfo (cString e.brokerHostnameStr) (cString e.brokerPortStr)).1 := by
  simp only [dnsResolve]
  split_ifs with hpton hret
  · rfl
  · rfl
  · exact (not_not.mp hret).symm

/-- The worker's state machine takes the return value of this resolution. -/
theorem worker_dnsResolve {cfg : WorkerConfig}
    (hcfg : cfg.hostLiteral = decide ((net.inetPton (cString e.brokerHostnameStr)).1 ≠ 0))
    (s : Worker) :
    (Mqtt.dnsResolve cfg s
      (net.getaddrinfo (cString e.brokerHostnameStr) (cString e.brokerPortStr)).1).2 =
        if (e.dnsResolve net).ret = 0 then { s with stateMachine := .connectToBroker } else s := by
  rw [Mqtt.dnsResolve, ret_eq, hcfg]
  simp only [decide_eq_true_eq]
  split_ifs
  · rfl
  · rfl
  · rfl
  · rfl

end Endpoint

/-- The endpoint of a configuration with this broker and this port. -/
theorem endpointKept_iff_of_members (net : Resolver) {mqttcfg broker : List UInt8} {p : ℕ}
    (hbroker : mqttBroker mqttcfg = strncpy broker CONFIG_BUFF_MAX_STRING_LEN)
    (hzero : 0 ∉ broker) (hport : mqttPort mqttcfg = p) (host : List UInt8) (port : ℕ) :
    EndpointKept net mqttcfg host port ↔
      (broker.length < brokerStrLen ∧ broker = host) ∧ p % 65536 = port := by
  have hstr : cString (Endpoint.ofMqttConfig mqttcfg).brokerHostnameStr =
      if broker.length < brokerStrLen then some broker else none := by
    simp only [Endpoint.ofMqttConfig, Endpoint.mqttWorkerInit]
    rw [hbroker, takeWhile_strncpy hzero, strncpy_take broker (by decide),
      cString_strncpy hzero]
  have hsin : htons ((Endpoint.ofMqttConfig mqttcfg).dnsResolve net).broker.sinPort =
      p % 65536 := by
    rw [Endpoint.sinPort_eq, htons_htons (u16_lt _)]
    simp only [Endpoint.ofMqttConfig, Endpoint.mqttWorkerInit, hport]
    exact u16_i32 p
  constructor
  · intro hkept
    have hcall := hkept.host _ (Endpoint.inetPton_mem_calls _ net)
    rw [ResolverCall.host, hstr, Option.ite_none_right_eq_some] at hcall
    exact ⟨⟨hcall.1, Option.some.inj hcall.2⟩, hsin.symm.trans hkept.port⟩
  · rintro ⟨⟨hlen, rfl⟩, hmod⟩
    constructor
    case host =>
      intro call hcall
      rw [Endpoint.host_of_mem_calls _ net hcall, hstr, if_pos hlen]
    case port => exact hsin.trans hmod

/-- The two members of an image. -/
theorem mqttBroker_image (argv : List (List UInt8)) :
    mqttBroker (mqttConfigImage argv) =
      strncpy (argv.getD 1 []) CONFIG_BUFF_MAX_STRING_LEN := by
  rw [mqttBroker, mqttConfigImage, List.append_assoc, List.append_assoc]
  exact List.take_left' (strncpy_length _ _)

theorem mqttPort_image (argv : List (List UInt8)) :
    mqttPort (mqttConfigImage argv) = strtoul (argv.getD 2 []) := by
  rw [mqttPort, mqttConfigImage, List.append_assoc, List.append_assoc,
    List.drop_left' (strncpy_length _ _), List.take_left' (leBytes_length _ _), leNat_leBytes]
  exact Nat.mod_eq_of_lt (strtoul_lt _)

/-- The two members of the default. -/
theorem mqttBroker_default :
    mqttBroker (List.replicate mqttConfigLen 0) = strncpy [] CONFIG_BUFF_MAX_STRING_LEN := by
  rw [mqttBroker, List.take_replicate]
  rfl

theorem mqttPort_default : mqttPort (List.replicate mqttConfigLen 0) = 0 := by
  rw [mqttPort, List.drop_replicate, List.take_replicate, leNat_replicate_zero]

/-- After every run of the settings, from any flash on. -/
theorem endpoint_kept_iff {fs fs' : NvsFs} {uses : List (SettingUse mqttconf.setting)}
    {h : List (List (List UInt8))} (hr : mqttconf.store.Runs fs uses h fs')
    {cmd host port pingPeriod maxPingNoAnswer : List UInt8}
    (hlast : h.getLast? = some [cmd, host, port, pingPeriod, maxPingNoAnswer]) (hzero : 0 ∉ host)
    (m : Memory) (wificfg mqttcfg : ℕ) (f : StartFaults) (net : Resolver) :
    EndpointKept net (mainNetConfig fs' m wificfg mqttcfg f).mqttcfg host (strtoul port) ↔
      host.length < brokerStrLen ∧ strtoul port < 65536 ∧
        (mqttconf.Delivers fs' [cmd, host, port, pingPeriod, maxPingNoAnswer] f.mqttRead ∨
          host = [] ∧ strtoul port = 0) := by
  rw [mainNetConfig_mqttcfg (SettingCommand.store_holds hr) hlast]
  split_ifs with hdelivers
  · have hbroker : mqttBroker (mqttConfigImage [cmd, host, port, pingPeriod, maxPingNoAnswer]) =
        strncpy host CONFIG_BUFF_MAX_STRING_LEN := mqttBroker_image _
    have hport : mqttPort (mqttConfigImage [cmd, host, port, pingPeriod, maxPingNoAnswer]) =
        strtoul port := mqttPort_image _
    rw [endpointKept_iff_of_members net hbroker hzero hport]
    constructor
    · rintro ⟨⟨hlen, -⟩, hmod⟩
      exact ⟨hlen, by omega, .inl hdelivers⟩
    · rintro ⟨hlen, hlt, -⟩
      exact ⟨⟨hlen, rfl⟩, Nat.mod_eq_of_lt hlt⟩
  · rw [endpointKept_iff_of_members net mqttBroker_default List.not_mem_nil mqttPort_default]
    constructor
    · rintro ⟨⟨hlen, rfl⟩, hport⟩
      exact ⟨hlen, by omega, .inr ⟨rfl, hport.symm⟩⟩
    · rintro ⟨hlen, -, hstored | ⟨rfl, hport⟩⟩
      · exact absurd hstored hdelivers
      · exact ⟨⟨hlen, rfl⟩, hport.symm⟩

/-- A stack that knows no literal and resolves every name. -/
def someResolver : Resolver where
  inetPton _ := (0, [0, 0, 0, 0])
  getaddrinfo _ _ := (0, [192, 168, 0, 1])

/-- The first configuration of a station is accepted. -/
theorem mqttconf_first_run (cmd broker port pingPeriod maxPingNoAnswer : List UInt8) :
    mqttconf.store.Runs (fun _ => none)
      [.command [cmd, broker, port, pingPeriod, maxPingNoAnswer] (fun _ => 0) 0 none]
      [[cmd, broker, port, pingPeriod, maxPingNoAnswer]]
      (Function.update (fun _ => none) NVS_ID_MQTT_CONFIG
        (some (mqttConfigImage [cmd, broker, port, pingPeriod, maxPingNoAnswer]))) :=
  mqttconf.runs_command (shellSet_ok .mqttConfig rfl _ _ _)

/-- A short name and the usual port. -/
theorem usual_broker_kept :
    let argv := [textBytes "mqttconf", textBytes "broker.local", textBytes "1883",
      textBytes "30", textBytes "2"]
    let fs := Function.update (fun _ => none) NVS_ID_MQTT_CONFIG (some (mqttConfigImage argv))
    mqttconf.store.Runs (fun _ => none) [.command argv (fun _ => 0) 0 none] [argv] fs ∧
      EndpointKept someResolver (mainNetConfig fs (fun _ => 0) 0 96 .none).mqttcfg
        (textBytes "broker.local") (strtoul (textBytes "1883")) := by
  intro argv fs
  have hrun := mqttconf_first_run (textBytes "mqttconf") (textBytes "broker.local")
    (textBytes "1883") (textBytes "30") (textBytes "2")
  constructor
  · exact hrun
  · refine (endpoint_kept_iff hrun rfl (by decide) _ _ _ _ _).mpr ⟨by decide, by decide, .inl ?_⟩
    exact ⟨Function.update_self _ _ _, rfl⟩

/-- A name of 32 bytes fits the flash, and leaves no room for the terminator. -/
theorem long_hostname_unterminated :
    let host := textBytes "mqtt-broker.some-company.example"
    let argv := [textBytes "mqttconf", host, textBytes "1883", textBytes "30", textBytes "2"]
    let fs := Function.update (fun _ => none) NVS_ID_MQTT_CONFIG (some (mqttConfigImage argv))
    mqttconf.store.Runs (fun _ => none) [.command argv (fun _ => 0) 0 none] [argv] fs ∧
      ¬ EndpointKept someResolver (mainNetConfig fs (fun _ => 0) 0 96 .none).mqttcfg host 1883 := by
  intro host argv fs
  have hrun := mqttconf_first_run (textBytes "mqttconf") host (textBytes "1883")
    (textBytes "30") (textBytes "2")
  constructor
  · exact hrun
  · intro hkept
    have hdelivers : mqttconf.Delivers fs argv none := ⟨Function.update_self _ _ _, rfl⟩
    have hbroker : mqttBroker (mqttConfigImage argv) = strncpy host CONFIG_BUFF_MAX_STRING_LEN :=
      mqttBroker_image argv
    have hfound : (mainNetConfig fs (fun _ => 0) 0 96 .none).mqttcfg = mqttConfigImage argv :=
      (mainNetConfig_mqttcfg (SettingCommand.store_holds hrun) rfl _ _ _ _).trans
        (if_pos hdelivers)
    rw [hfound, endpointKept_iff_of_members _ hbroker (by decide) (mqttPort_image argv)] at hkept
    exact absurd hkept.1.1 (by decide)

end WlabStation.Mqtt
