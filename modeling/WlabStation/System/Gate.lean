import WlabStation.Mqtt.PublishLength
import WlabStation.System.Boot

/-! The test at the head of `mqtt_worker_publish_qos1` against what happened: a
message is placed in `PubData` only in a session that the broker accepted, and after
the Wi-Fi was lost only in a session that was opened since. -/
namespace WlabStation.System
open Machine Temporal Wlab Station Mqtt Network Sensor Settings

/-- The broker accepted a session. -/
def Accepted : SystemEvent → Prop := (· = .worker (.event .connack 0))

/-- A session is given up, lost, or replaced. -/
def SessionEnds : SystemEvent → Prop
  | .worker (.mqttConnect _) | .worker .mqttDisconnect | .worker (.event .disconnect _) => True
  | _ => False

/-- The Wi-Fi told about its loss. -/
def LinkLost : SystemEvent → Prop
  | .wifi (.discoCb _) => True
  | _ => False

def Connects : SystemEvent → Prop
  | .worker (.mqttConnect _) => True
  | _ => False

structure GateOpen (h : List SystemEvent) : Prop where
  accepted : Since SessionEnds Accepted h
  linked : ¬ Since Connects LinkLost h

/-- A call takes a packet id only where the gate is open. -/
def PlacedOpen (k : List SystemEvent) : SystemEvent → Prop
  | .publish (.placed _) => GateOpen k
  | _ => True

/-- Events that the gate does not depend on. -/
def SystemEvent.tacit : SystemEvent → Bool
  | .worker e => e.tacit
  | .wifi (.discoCb _) => false
  | _ => true

/-- The flags tell what happened. -/
structure Gate (h : List SystemEvent) (s : SystemState) : Prop where
  once : EachEvent PlacedOpen h
  shared : s.publish.connected = s.worker.connected ∧
    s.publish.disconnectReqExternal = s.worker.disconnectReqExternal
  accepted : s.worker.connected = true ↔ Since SessionEnds Accepted h
  lost : s.worker.disconnectReqExternal = true ↔ Since Connects LinkLost h
  failed : ∀ ret, s.worker.pc = .connectFailed ret → s.worker.connected = false

theorem gate_init : Gate [] powerOn := by
  constructor
  case once => exact eachEvent_nil _
  case shared => exact ⟨rfl, rfl⟩
  all_goals simp [powerOn, workerInit]

theorem Gate.open_iff {h : List SystemEvent} {s : SystemState} (hi : Gate h s) :
    s.publish.connected = true ∧ s.publish.disconnectReqExternal = false ↔ GateOpen h := by
  rw [hi.shared.1, hi.shared.2, hi.accepted, ← Bool.not_eq_true, hi.lost]
  exact ⟨fun ho => ⟨ho.1, ho.2⟩, fun ho => ⟨ho.accepted, ho.linked⟩⟩

theorem tacit_quiet {e : SystemEvent} (he : e.tacit) :
    (¬ SessionEnds e ∧ ¬ Accepted e) ∧ ¬ Connects e ∧ ¬ LinkLost e := by
  unfold SystemEvent.tacit at he
  split at he
  next d =>
    cases d <;> simp [WorkerEvent.tacit] at he <;> simp [SessionEnds, Accepted, Connects, LinkLost]
  next => cases he
  next e hw hd => cases e <;> simp_all [SessionEnds, Accepted, Connects, LinkLost]

section Steps
variable {cfg : Config} {h es : List SystemEvent} {s u : SystemState}

/-- A step that leaves the flags as they are. -/
theorem Gate.same (hi : Gate h s) (hes : ∀ e ∈ es, e.tacit) (honce : EachEvent PlacedOpen (h ++ es))
    (hpublish : u.publish.connected = s.publish.connected ∧
      u.publish.disconnectReqExternal = s.publish.disconnectReqExternal)
    (hworker : u.worker.connected = s.worker.connected ∧
      u.worker.disconnectReqExternal = s.worker.disconnectReqExternal)
    (hpc : ∀ ret, u.worker.pc = .connectFailed ret → s.worker.pc = .connectFailed ret) :
    Gate (h ++ es) u := by
  constructor
  case once => exact honce
  case shared => rw [hpublish.1, hpublish.2, hworker.1, hworker.2]; exact hi.shared
  case accepted =>
    rw [hworker.1, hi.accepted, since_append_of_quiet fun e he => (tacit_quiet (hes e he)).1]
  case lost =>
    rw [hworker.2, hi.lost, since_append_of_quiet fun e he => (tacit_quiet (hes e he)).2]
  case failed =>
    intro ret hret
    rw [hworker.1]
    exact hi.failed ret (hpc ret hret)

theorem Gate.quiet (hi : Gate h s) (hes : ∀ e ∈ es, e.tacit ∧ ∀ k, PlacedOpen k e)
    (hpublish : u.publish = s.publish) (hworker : u.worker = s.worker) : Gate (h ++ es) u := by
  apply hi.same (fun e he => (hes e he).1)
  · exact (eachEvent_append fun e he => (hes e he).2).mpr hi.once
  · rw [hpublish]
    exact ⟨rfl, rfl⟩
  · rw [hworker]
    exact ⟨rfl, rfl⟩
  · rw [hworker]
    exact fun _ => id

/-- Only the threads that own them set the flags, and a call passes by them. -/
theorem publisher_flags {p q : PublishState} {a : PublishAct} {ds : List PublishEvent}
    (ha : ∀ b, a ≠ .setConnected b ∧ a ≠ .setDisconnectReq b)
    (hs : publisher.step p a = some (ds, q)) :
    (q.connected = p.connected ∧ q.disconnectReqExternal = p.disconnectReqExternal) ∧
      ∀ id, .placed id ∈ ds → ds = [.placed id] ∧ p.connected = true ∧
        p.disconnectReqExternal = false := by
  cases a with
  | call topic formatted =>
    unfold publisher at hs
    cases hpc : p.pc <;> simp only [hpc, reduceCtorEq] at hs
    split_ifs at hs with hgate
    · cases hs
      simp
    · cases hs
      simp only [not_or, Bool.not_eq_true] at hgate
      simp [hgate]
  | setConnected b => exact absurd rfl (ha b).1
  | setDisconnectReq b => exact absurd rfl (ha b).2
  | drain =>
    unfold publisher at hs
    cases hpc : p.pc <;> simp only [hpc, reduceCtorEq] at hs
    cases hs
    simp
  | send ret =>
    unfold publisher at hs
    cases hpc : p.pc <;> simp only [hpc, reduceCtorEq] at hs
    split_ifs at hs <;> cases hs <;> simp
  | ackTaken =>
    unfold publisher at hs
    cases hpc : p.pc <;> simp only [hpc, reduceCtorEq, Option.map_eq_some_iff] at hs
    obtain ⟨sem, -, hs⟩ := hs
    cases hs
    simp
  | ackTimeout =>
    unfold publisher at hs
    cases hpc : p.pc <;> simp only [hpc, reduceCtorEq] at hs
    split_ifs at hs
    cases hs
    simp
  | brokerReceive id =>
    dsimp only [publisher] at hs
    split_ifs at hs
    cases hs
    simp
  | lose id =>
    cases hs
    simp
  | brokerAck id =>
    dsimp only [publisher] at hs
    split_ifs at hs
    cases hs
    simp
  | loseAck id =>
    cases hs
    simp
  | puback id result =>
    dsimp only [publisher] at hs
    split_ifs at hs
    cases hs
    simp

/-- A step of the publisher. -/
theorem Gate.publish (hi : Gate h s) {a : PublishAct} {ds : List PublishEvent} {p : PublishState}
    (ha : ∀ b, a ≠ .setConnected b ∧ a ≠ .setDisconnectReq b)
    (hs : publisher.step s.publish a = some (ds, p)) :
    Gate (h ++ ds.map .publish) { s with publish := p } := by
  obtain ⟨hflags, hplaced⟩ := publisher_flags ha hs
  apply hi.same (u := { s with publish := p }) (by simp [SystemEvent.tacit]) _ hflags ⟨rfl, rfl⟩
    fun _ => id
  by_cases hcall : ∃ id, .placed id ∈ ds
  · obtain ⟨id, hid⟩ := hcall
    obtain ⟨rfl, hgate⟩ := hplaced id hid
    exact eachEvent_concat.mpr ⟨hi.once, hi.open_iff.mp hgate⟩
  · apply (eachEvent_append _).mpr hi.once
    intro e he k
    obtain ⟨d, hd, rfl⟩ := List.mem_map.mp he
    cases d with
    | placed id => exact absurd ⟨id, hd⟩ hcall
    | _ => trivial

theorem Gate.call (hi : Gate h s) {a : PublishAct}
    (ha : ∀ b, a ≠ .setConnected b ∧ a ≠ .setDisconnectReq b) (hc : CallCase cfg s a es u) :
    Gate (h ++ es) u := by
  cases hc with
  | goes ds p hp hnone => exact hi.publish ha hp
  | authorized ds p attempts rc m hp hrc hpc hm =>
    have hi' := hi.publish ha hp
    exact ⟨hi'.once, hi'.shared, hi'.accepted, hi'.lost, hi'.failed⟩
  | sampled ds p rc m hp hrc hsample hm =>
    have hi' := hi.publish ha hp
    exact ⟨hi'.once, hi'.shared, hi'.accepted, hi'.lost, hi'.failed⟩

/-- Events of the network thread and of the Wi-Fi place nothing. -/
theorem eachEvent_placed (hi : Gate h s) (hes : ∀ e ∈ es, ∀ d, e ≠ .publish d) :
    EachEvent PlacedOpen (h ++ es) := by
  apply (eachEvent_append _).mpr hi.once
  intro e he k
  unfold PlacedOpen
  split
  next id => exact absurd rfl (hes _ he (.placed id))
  next => trivial

/-- The handler of the library's events, which accepts a session in `mqtt_input`. -/
theorem Gate.event (hi : Gate h s) {type : MqttEvtType} {result : ℤ}
    (hinput : type = .connack → inInput s.worker.pc) :
    Gate (h ++ [.worker (.event type result)])
      (s.withWorker (mqttEvtHandler s.worker type result)) := by
  have honce : EachEvent PlacedOpen (h ++ [.worker (.event type result)]) :=
    eachEvent_placed hi (by simp)
  have hpc := (mqttEvtHandler_fields s.worker type result).1
  have hlost : (mqttEvtHandler s.worker type result).disconnectReqExternal = true ↔
      Since Connects LinkLost (h ++ [.worker (.event type result)]) := by
    rw [since_append_of_quiet (by simp [Connects, LinkLost]), ← hi.lost]
    cases type with
    | connack => by_cases hresult : result = 0 <;> simp [mqttEvtHandler, hresult]
    | _ => exact Iff.rfl
  constructor
  case once => exact honce
  case shared => exact ⟨rfl, rfl⟩
  case lost => exact hlost
  case accepted =>
    rw [since_concat]
    cases type with
    | connack =>
      by_cases hresult : result = 0
      · simp [SystemState.withWorker, mqttEvtHandler, Accepted, hresult]
      · simp [SystemState.withWorker, mqttEvtHandler, Accepted, SessionEnds, hresult, hi.accepted]
    | _ => simp [SystemState.withWorker, mqttEvtHandler, Accepted, SessionEnds, hi.accepted]
  case failed =>
    intro ret hret
    have hdown := hi.failed ret (hpc.symm.trans hret)
    cases type with
    | connack =>
      have hin := hinput rfl
      simp [hpc.symm.trans hret, inInput] at hin
    | disconnect => rfl
    | _ => exact hdown

/-- A step of the network thread. -/
theorem Gate.thread (hi : Gate h s) {a : WorkerAct} {ds : List WorkerEvent} {t : Worker}
    (ha : threadAct s.main.pc s.worker.pc a) (hc : FlagCase s.worker a ds t) :
    Gate (h ++ ds.map .worker) (s.withWorker t) := by
  have honce : EachEvent PlacedOpen (h ++ ds.map .worker) := eachEvent_placed hi (by simp)
  cases hc with
  | event type result =>
    apply hi.event
    rintro rfl
    exact ha
  | request => cases ha
  | connect ret t hpc hflags =>
    simp only [Worker.flags, Prod.mk.injEq] at hflags
    constructor
    case once => exact honce
    case shared => exact ⟨rfl, rfl⟩
    case accepted =>
      rw [List.map_singleton, since_concat]
      simp [SystemState.withWorker, hflags, Accepted, SessionEnds]
    case lost =>
      rw [List.map_singleton, since_concat]
      simp [SystemState.withWorker, hflags, Connects, LinkLost]
    case failed => exact fun _ _ => hflags.1
  | failed ret t hpc hflags hpc' =>
    simp only [Worker.flags, Prod.mk.injEq] at hflags
    have hdown := hflags.1.trans (hi.failed ret hpc)
    constructor
    case once => exact honce
    case shared => exact ⟨rfl, rfl⟩
    case accepted =>
      rw [List.map_singleton, since_concat]
      simp [SystemState.withWorker, hdown, Accepted, SessionEnds]
    case lost =>
      rw [List.map_singleton, since_append_of_quiet (by simp [Connects, LinkLost]), ← hi.lost]
      simp [SystemState.withWorker, hflags]
    case failed => exact fun _ _ => hdown
  | disconnect t hpc hreq hflags hpc' =>
    simp only [Worker.flags, Prod.mk.injEq] at hflags
    constructor
    case once => exact honce
    case shared => exact ⟨rfl, rfl⟩
    case accepted =>
      rw [List.map_singleton, since_concat]
      simp [SystemState.withWorker, hflags, Accepted, SessionEnds]
    case lost =>
      rw [List.map_singleton, since_append_of_quiet (by simp [Connects, LinkLost]), ← hi.lost]
      simp [SystemState.withWorker, hflags, hreq]
    case failed => exact fun _ _ => hflags.1
  | other a ds t hds hflags hpc =>
    simp only [Worker.flags, Prod.mk.injEq] at hflags
    apply hi.same (u := s.withWorker t) _ honce _ ⟨hflags.1, hflags.2.1⟩ hpc
    · intro e he
      obtain ⟨d, hd, rfl⟩ := List.mem_map.mp he
      exact hds d hd
    · exact ⟨hflags.1.trans hi.shared.1.symm, hflags.2.1.trans hi.shared.2.symm⟩

/-- The Wi-Fi tells about its loss alone. -/
theorem discoCb_notMem {s w : Wifi} {a : WifiAct} {ds : List WifiEvent} (hc : WifiCase s a ds w)
    (hdisco : ∀ status, a = .disconnectResult status → s.discoCb = false) (status : ℤ) :
    .discoCb status ∉ ds := by
  cases hc with
  | disconnectResult status' hl => simp [handleWifiDisconnectResult, hdisco status' rfl]
  | _ => simp

/-- Events of the Wi-Fi but this one. -/
theorem wifi_tacit {ds : List WifiEvent} (hds : ∀ status, .discoCb status ∉ ds) :
    ∀ e ∈ ds.map SystemEvent.wifi, e.tacit ∧ ∀ k, PlacedOpen k e := by
  intro e he
  obtain ⟨d, hd, rfl⟩ := List.mem_map.mp he
  refine ⟨?_, fun _ => trivial⟩
  cases d with
  | discoCb status => exact absurd hd (hds status)
  | _ => rfl

theorem Gate.step (hi : Gate h s) {a : SystemAct} (hc : SystemCase cfg s a es u) :
    Gate (h ++ es) u := by
  cases hc with
  | tick ms hlimit =>
    exact hi.same (by simp) (by simpa using hi.once) ⟨hi.shared.1.symm, hi.shared.2.symm⟩
      ⟨rfl, rfl⟩ fun _ => id
  | wifiInit ret m ds w hpc hm hw =>
    exact hi.quiet (wifi_tacit (discoCb_notMem hw (by simp))) rfl rfl
  | wifiWait act a given secCnt m ds w hgiven hpc hw hm =>
    have ha : ∀ status, a = .disconnectResult status → s.wifi.discoCb = false := by
      rcases hgiven with ⟨-, rfl⟩ | ⟨-, rfl⟩ <;> simp
    exact hi.quiet (wifi_tacit (discoCb_notMem hw ha)) rfl rfl
  | mqttInit m w hpc hw hm => exact hi.quiet (by simp) rfl rfl
  | mqttTaken secCnt sem m hpc htake hm =>
    exact hi.same (by simp) (by simpa using hi.once) ⟨rfl, rfl⟩ ⟨rfl, rfl⟩ fun _ => id
  | mqttTimeout secCnt m hpc hm => exact hi.quiet (by simp) rfl rfl
  | proceed m hpc hpc' hm => exact hi.quiet (by simp) rfl rfl
  | sync answer m hm =>
    refine hi.quiet ?_ rfl rfl
    split_ifs <;> simp [SystemEvent.tacit, PlacedOpen]
  | authorize fs name deviceId position attempts text uid es u hpc htext huid hidle hc =>
    have hi' : Gate h { s with deviceId := uid } :=
      ⟨hi.once, hi.shared, hi.accepted, hi.lost, hi.failed⟩
    exact hi'.call (by simp) hc
  | wait act a m ha hm => exact hi.quiet (by simp) rfl rfl
  | skip usNow w publishRc wl ds m hwl hreads hm =>
    exact hi.quiet (by simp [SystemEvent.tacit, PlacedOpen]) rfl rfl
  | read usNow w publishRc wl r reading ds m d hwl hreads hr hreading hm =>
    exact hi.quiet (by simp [SystemEvent.tacit, PlacedOpen]) rfl rfl
  | sample p slept pulse frame text es u hpc hp htext hidle hc => exact hi.call (by simp) hc
  | publish a es u ha hc =>
    apply hi.call _ hc
    intro b
    constructor <;> rintro rfl <;> cases ha
  | keepalive m hm =>
    refine hi.quiet ?_ rfl rfl
    split_ifs <;> simp [SystemEvent.tacit, PlacedOpen]
  | address dhcp w hmem hw => exact hi.quiet (by simp [SystemEvent.tacit, PlacedOpen]) rfl rfl
  | lost status ds w hdisco hw =>
    cases hw with
    | disconnectResult status hl =>
      have hds : (handleWifiDisconnectResult s.wifi status).1.map SystemEvent.wifi =
          [.wifi (.discoCb status)] := by simp [handleWifiDisconnectResult, hdisco]
      rw [hds]
      constructor
      case once => exact eachEvent_placed hi (by simp)
      case shared => exact ⟨rfl, rfl⟩
      case accepted =>
        rw [since_append_of_quiet (by simp [SessionEnds, Accepted]), ← hi.accepted]
        rfl
      case lost =>
        rw [since_concat]
        simp [SystemState.withWorker, LinkLost]
      case failed => exact hi.failed
  | handler a ds w ha hno hdisco hw =>
    exact hi.quiet (wifi_tacit (discoCb_notMem hw hdisco)) rfl rfl
  | worker a ds t ha hs => exact hi.thread ha (flagCase_of_case (worker_step_cases hs))
  | puback id result ds p hinput hp =>
    rw [List.append_cons]
    exact (hi.event (by simp)).publish (by simp) hp
  | broker a ds p ha hp =>
    apply hi.publish _ hp
    intro b
    constructor <;> rintro rfl <;> cases ha
  | stray usNow => exact hi.quiet (by simp) rfl rfl

theorem gate_run {acts : List SystemAct} (hr : (system cfg).Runs powerOn acts h s) : Gate h s := by
  apply hr.invariant (I := Gate) gate_init
  intro h s a es u hi hs
  exact hi.step (system_step_cases hs).2

end Steps

end WlabStation.System
