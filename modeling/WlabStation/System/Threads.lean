import WlabStation.Machine.Effect
import WlabStation.Mqtt.Keepalive
import WlabStation.Mqtt.Publish
import WlabStation.Network.Wifi
import WlabStation.Sensor.History
import WlabStation.Station.Watchdog
import WlabStation.Wlab.Authorize

/-! The station as a whole in normal mode: `main`, the network thread, the
handlers of the Wi-Fi events, the sensor and the broker take steps in any order,
and meet where one of them waits for or calls another. -/
namespace WlabStation.System
open Wlab Station Mqtt Network Sensor Settings

/-- What stays as it is from one start to the next. -/
structure Config where
  hostLiteral : Bool
  pingPeriodSec : UInt32
  maxPingNoAnsMins : UInt32
  period : ℕ
  ssid : List UInt8
  passwd : List UInt8
  mac : Fin 6 → UInt8
  lib : FloatText

/-- `main` passes no list of subscriptions. -/
def Config.worker (cfg : Config) : WorkerConfig := ⟨false, cfg.hostLiteral, cfg.pingPeriodSec⟩

def CONFIG_WLAB_PUB_TOPIC : String := "/wlabdb"
def CONFIG_WLAB_AUTH_TOPIC : String := "/wlabauth"

/-- The statics of all modules. Between `wlab_process` and the return of its
publish, `sample` holds the arguments and the result that the call gets. -/
structure SystemState where
  main : MainState
  wifi : Wifi
  worker : Worker
  publish : PublishState
  sensor : Dht
  deviceId : List Char
  sample : Option (SampleArgs × ℤ)

/-- Steps of `main` by the call they complete, then those of the other parties. -/
inductive SystemAct where
  | tick (ms : ℕ)
  | wifiInit (ret : ℤ)
  | wifiTaken
  | wifiTimeout
  | mqttInit
  | mqttTaken
  | mqttTimeout
  | proceed
  | sync (answer : Option ℤ)
  | authorize (fs : NvsFs) (name deviceId position : GetCall)
  | sleep
  | process (usNow : UInt32) (w : Waveform) (publishRc : ℤ)
  | pulse
  | frame
  | sample
  | publish (a : PublishAct)
  | keepalive
  | wifi (a : WifiAct)
  | worker (a : WorkerAct)
  | puback (id : UInt16) (result : ℤ)
  | broker (a : PublishAct)
  | stray (usNow : UInt32)

/-- What the components observe; an address was obtained, the clock was set, a
keepalive test passed. -/
inductive SystemEvent where
  | wlab (e : WlabEvent)
  | wifi (e : WifiEvent)
  | worker (e : WorkerEvent)
  | publish (e : PublishEvent)
  | sensor (r : ReadResult)
  | address
  | synced
  | alive

abbrev Step := Effect SystemState SystemEvent

def mainPart : Part SystemState MainState := ⟨fun s => s.main, fun t s => { s with main := t },
  fun _ _ => rfl⟩
def wifiPart : Part SystemState Wifi := ⟨fun s => s.wifi, fun t s => { s with wifi := t },
  fun _ _ => rfl⟩
def workerPart : Part SystemState Worker := ⟨fun s => s.worker, fun t s => { s with worker := t },
  fun _ _ => rfl⟩
def publishPart : Part SystemState PublishState := ⟨fun s => s.publish,
  fun t s => { s with publish := t }, fun _ _ => rfl⟩
def sensorPart : Part SystemState Dht := ⟨fun s => s.sensor, fun t s => { s with sensor := t },
  fun _ _ => rfl⟩

/-- For how long the call that `main` is in may still block it. -/
def blockLimit (s : MainState) : ℕ :=
  match s.pc with
  | .wifiWait _ | .mqttWait _ => 1000
  | .timestampInit _ _ => 4000
  | .authWait _ | .ack _ _ _ => 1000 * MQTT_WORKER_PUBLISH_ACK_TIMEOUT
  | .sleep => 200
  | .pulse _ _ => 18
  | .frame _ _ _ => 50
  | .update _ _ _ _ => if Stale s.clock s.uptime then 4000 else 0
  | _ => 0

/-- For how long the call that `main` is in has blocked it; the uptime of `main`
is that of its last step. -/
def SystemState.waited (s : SystemState) : ℕ := (s.worker.uptime - s.main.uptime).toNat

/-- `WorkerProcStartSem` has been given. -/
def started : MainPc → Bool
  | .wifiInit _ | .wifiWait _ | .mqttInit 0 => false
  | _ => true

/-- `mqtt_input` may have been called and not returned yet. -/
def inInput : WorkerPc → Bool
  | .connectCheck | .subscribeInput _ | .inputCheck => true
  | _ => false

/-- Steps of the network thread in `mqtt_proc` and of the handler that the library
calls: for a lost connection at any time, for a packet in `mqtt_input`. Time,
Wi-Fi and PUBACKs come with steps of other parties. -/
def threadAct (main : MainPc) (pc : WorkerPc) : WorkerAct → Bool
  | .tick _ | .disconnectRequest | .event .puback _ => false
  | .event .disconnect _ => pc ≠ .waitStart
  | .event _ _ => inInput pc
  | .proceed => pc ≠ .waitStart || started main
  | _ => true

/-- Steps of the handlers, the timer and the work queue. -/
def handlerAct : WifiAct → Bool
  | .register | .netInit _ _ _ | .firstConnTaken | .secondElapsed => false
  | _ => true

/-- Steps of a call of `mqtt_worker_publish_qos1` that has begun. -/
def callAct : PublishAct → Bool
  | .drain | .send _ | .ackTaken | .ackTimeout => true
  | _ => false

/-- Steps of the broker and of the network between. -/
def brokerAct : PublishAct → Bool
  | .brokerReceive _ | .lose _ | .brokerAck _ | .loseAck _ => true
  | _ => false

/-- What a call returned. -/
def returnCode (es : List PublishEvent) : Option ℤ :=
  es.findSome? fun
    | .returned rc => some rc
    | _ => none

/-- The sample that a call of `wlab_process` publishes. -/
def sampleOf (es : List WlabEvent) : Option (SampleArgs × ℤ) :=
  es.findSome? fun
    | .publish _ args rc => some (args, rc)
    | _ => none

section Steps
variable (cfg : Config)

def doMain (a : MainAct) : Step := .ofPart mainPart (mainNormal cfg.period) .wlab a
def doWifi (a : WifiAct) : Step := .ofPart wifiPart Network.wifi .wifi a
def doPublish (a : PublishAct) : Step := .ofPart publishPart publisher .publish a

/-- The caller of `mqtt_worker_publish_qos1` sees the flags of the worker. -/
def doFlags : Step := .reading fun s =>
  (doPublish (.setConnected s.worker.connected)).andThen
    (doPublish (.setDisconnectReq s.worker.disconnectReqExternal))

def doWorker (a : WorkerAct) : Step :=
  (Effect.ofPart workerPart (Mqtt.worker cfg.worker) .worker a).andThen doFlags

/-- `main` completes a call that has blocked it until now. -/
def doWait (a : ℕ → MainAct) : Step := .reading fun s => doMain cfg (a s.waited)

/-- The call of `mqtt_worker_publish_qos1` returns to `main`. -/
def doReturn (rc : ℤ) : Step := .reading fun s =>
  match s.main.pc with
  | .authWait _ => doWait cfg (.publish rc)
  | .ack _ _ _ => (Effect.when fun s => s.sample.map Prod.snd = some rc).andThen
      ((doWait cfg .ack).andThen (.modify fun s => { s with sample := none }))
  | _ => .refuse

/-- A step of a call, after which it may return. -/
def doCall (a : PublishAct) : Step := .reading fun s =>
  match (publisher.step s.publish a).bind fun r => returnCode r.1 with
  | none => doPublish a
  | some rc => (doPublish a).andThen (doReturn cfg rc)

/-- A wait for `FirstConnSem` in `wifi_net_init` ends. -/
def doWifiWait (a : WifiAct) (given : Bool) : Step := .reading fun s =>
  match s.main.pc with
  | .wifiWait _ => (doWifi a).andThen (doWait cfg (.semWait given))
  | _ => .refuse

/-- A wait for `ConectedAckSem` in `mqtt_worker_init` ends. -/
def doMqttWait (given : Bool) : Step := .reading fun s =>
  match s.main.pc, s.worker.conectedAckSem.take, given with
  | .mqttWait _, some sem, true =>
      (Effect.modify fun s => { s with worker := { s.worker with conectedAckSem := sem } }).andThen
        (doWait cfg (.semWait true))
  | .mqttWait _, none, false => doWait cfg (.semWait false)
  | _, _, _ => .refuse

/-- The values of a call of `dht2x_read` that returned 0. -/
def readingOf (r : ReadResult) : Option Reading := if r.ret = 0 then some ⟨r.temp, r.rh⟩ else none

/-- `wlab_process` with the call of `dht2x_read` it makes. -/
def doProcess (usNow : UInt32) (w : Waveform) (publishRc : ℤ) : Step := .reading fun s =>
  match s.main.wlab with
  | .error _ => .refuse
  | .ok wl =>
      let secs := timestampGet s.main.clock s.main.uptime
      if Reads wl ⟨secs, none, publishRc⟩ then
        let reading := readingOf (dht2xRead s.sensor usNow w 0 0).1
        let es := (wlabProcess cfg.period wl ⟨secs, reading, publishRc⟩).1
        (Effect.ofPart sensorPart Sensor.sensor .sensor (.read usNow w 0 0)).andThen
          ((doMain cfg (.process reading publishRc)).andThen
            (.modify fun s => { s with sample := sampleOf es }))
      else doMain cfg (.process none publishRc)

/-- `wlab_authorize` up to the call of `mqtt_worker_publish_qos1` and into it. -/
def doAuthorize (fs : NvsFs) (name deviceId position : GetCall) : Step := .reading fun s =>
  match s.main.pc, (wlabAuthorize cfg.lib cfg.mac fs name deviceId position).1 with
  | .authWait _, some text => if s.publish.pc = .idle then
      (Effect.modify fun s => { s with
        deviceId := (wlabStrDeviceIdGet (fetch .wlabName fs name).2 cfg.mac deviceId).1 }).andThen
        (doCall cfg (.call (textBytes CONFIG_WLAB_AUTH_TOPIC) (.text text)))
      else .refuse
  | _, _ => .refuse

/-- The call of `mqtt_worker_publish_qos1` in `wlab_dht_publish_sample`. -/
def doSample : Step := .reading fun s =>
  match s.main.pc, s.sample.bind fun p => sampleText (asciiBytes s.deviceId ++ [0]) p.1 with
  | .ack _ _ _, some text => if s.publish.pc = .idle then
      doCall cfg (.call (textBytes CONFIG_WLAB_PUB_TOPIC) (.text text))
      else .refuse
  | _, _ => .refuse

/-- A handler of a network event; `DiscoCb` is `mqtt_worker_disconnect`. -/
def doHandler (a : WifiAct) : Step := .reading fun s =>
  match a with
  | .ipv4AddrAdd dhcp => if true ∈ dhcp then (doWifi a).andThen (.emit [.address]) else doWifi a
  | .disconnectResult _ => if s.wifi.discoCb then
      (doWifi a).andThen (doWorker cfg .disconnectRequest) else doWifi a
  | _ => doWifi a

def doKeepalive : Step := .reading fun s =>
  let expired := keepaliveTest cfg.maxPingNoAnsMins s.worker
  (doMain cfg (.keepalive expired)).andThen (.emit (if expired then [] else [.alive]))

end Steps

/-- What an action does where its party is ready for it. -/
def effect (cfg : Config) : SystemAct → Step
  | .tick ms =>
      (Effect.when fun s =>
        (s.worker.uptime + ms : ℤ) ≤ s.main.uptime + blockLimit s.main).andThen
        (doWorker cfg (.tick ms))
  | .wifiInit ret => (Effect.when fun s => s.main.pc = .wifiInit 0).andThen
      ((doMain cfg .proceed).andThen (doWifi (.netInit cfg.ssid (some cfg.passwd) ret)))
  | .wifiTaken => doWifiWait cfg .firstConnTaken true
  | .wifiTimeout => doWifiWait cfg .secondElapsed false
  | .mqttInit => (Effect.when fun s => s.main.pc = .mqttInit 0).andThen
      ((doWifi .register).andThen (doMain cfg .proceed))
  | .mqttTaken => doMqttWait cfg true
  | .mqttTimeout => doMqttWait cfg false
  | .proceed => (Effect.when fun s => s.main.pc ≠ .wifiInit 0 ∧ s.main.pc ≠ .mqttInit 0).andThen
      (doMain cfg .proceed)
  | .sync answer => (doWait cfg (.sntp answer)).andThen
      (.emit (if answer.isSome then [.synced] else []))
  | .authorize fs name deviceId position => doAuthorize cfg fs name deviceId position
  | .sleep => doWait cfg .sleep
  | .process usNow w publishRc => doProcess cfg usNow w publishRc
  | .pulse => doWait cfg .pulse
  | .frame => doWait cfg .frame
  | .sample => doSample cfg
  | .publish a => if callAct a then doCall cfg a else .refuse
  | .keepalive => doKeepalive cfg
  | .wifi a => if handlerAct a then doHandler cfg a else .refuse
  | .worker a => (Effect.when fun s => threadAct s.main.pc s.worker.pc a).andThen (doWorker cfg a)
  | .puback id result => (Effect.when fun s => inInput s.worker.pc).andThen
      ((doWorker cfg (.event .puback result)).andThen (doPublish (.puback id result)))
  | .broker a => if brokerAct a then doPublish a else .refuse
  | .stray usNow => .ofPart sensorPart Sensor.sensor .sensor (.stray usNow)

/-- A reboot and a failed assertion end the run of all threads. -/
def system (cfg : Config) : Machine SystemState SystemAct SystemEvent where
  step s a := ((Effect.when fun s => s.main.pc ≠ .stopped).andThen (effect cfg a)) s

/-- `main` has started the watchdog and read its settings. -/
def powerOn : SystemState := ⟨mainBoot, wifiBoot, workerInit, publishInit, dhtBoot, [], none⟩

end WlabStation.System
