import WlabStation.Machine.Temporal
import WlabStation.Mqtt.Flags
import WlabStation.System.Cases
import WlabStation.System.Components

/-! The order in which the station comes up: an address, a session with the
broker, the time, the authorisation, and only then the sensor. -/
namespace WlabStation.System
open Machine Temporal Wlab Station Mqtt Network Sensor Settings

/-- What the station waits for, in this order. -/
def milestones : List (SystemEvent → Prop) :=
  [(· = .address), (· = .worker (.event .connack 0)), (· = .synced),
    fun e => ∃ id, e = .publish (.pubackHandled id 0)]

/-- The first `n` of them have been passed. -/
def Seen (n : ℕ) (h : List SystemEvent) : Prop := Passed (milestones.take n) h

/-- What is not done before its milestones. -/
def BootOrder (k : List SystemEvent) : SystemEvent → Prop
  | .worker (.getaddrinfo _) | .worker (.mqttConnect _) => Seen 1 k
  | .synced => Seen 2 k
  | .publish (.placed _) => Seen 3 k
  | .sensor _ => Seen 4 k
  | _ => True

/-- The milestones that `main` has waited for. -/
def stage : MainPc → ℕ
  | .wifiInit _ | .wifiWait _ | .stopped => 0
  | .mqttInit _ | .mqttWait _ => 1
  | .timestampInit _ _ | .syncFailed _ => 2
  | .authorize _ | .authWait _ => 3
  | _ => 4

theorem Seen.append {n : ℕ} {h : List SystemEvent} (hs : Seen n h) (es : List SystemEvent) :
    Seen n (h ++ es) := Passed.append hs es

theorem Seen.le {m n : ℕ} {h : List SystemEvent} (hs : Seen n h) (hmn : m ≤ n) : Seen m h :=
  Passed.mono hs hmn

theorem seen_zero (h : List SystemEvent) : Seen 0 h := passed_nil h

theorem bootOrder_mono (k l : List SystemEvent) (e : SystemEvent) (h : BootOrder k e) :
    BootOrder (k ++ l) e := by
  unfold BootOrder at h ⊢
  split at h
  · exact h.append l
  · exact h.append l
  · exact h.append l
  · exact h.append l
  · exact h.append l
  · trivial

/-- A step of `main` after which it has waited for no more. -/
theorem stage_le {period : ℕ} {s m : MainState} {a : MainAct} {ds : List WlabEvent}
    (hc : MainCase period s a ds m) (hgiven : ∀ ms, a ≠ .semWait true ms)
    (hsync : ∀ v ms, a ≠ .sntp (some v) ms) (hrc : ∀ ms, a ≠ .publish 0 ms) :
    stage m.pc ≤ stage s.pc := by
  cases hc with
  | wifiWait secCnt ms given hpc hms =>
    cases given with
    | true => exact absurd rfl (hgiven ms)
    | false =>
      rw [hpc]
      by_cases hlast : secCnt + 1 = CONFIG_WIFI_FIRST_CONN_TIMEOUT_SEC <;>
        simp [MainState.wait, stage, hlast]
  | mqttWait secCnt ms given hpc hms =>
    cases given with
    | true => exact absurd rfl (hgiven ms)
    | false =>
      rw [hpc]
      by_cases hlast : secCnt + 1 = CONFIG_MQTT_FIRST_CONN_TIMEOUT_SEC <;>
        simp [MainState.wait, stage, hlast]
  | sync attempts lastWait ms answer hpc hms =>
    cases answer with
    | some v => exact absurd rfl (hsync v ms)
    | none => simp [MainState.wait, stage, hpc]
  | syncFeed attempts hpc =>
    rw [hpc]
    by_cases hlast : attempts = 8 <;> simp [MainState.feed, stage, hlast]
  | authWait attempts ms rc hpc hms =>
    by_cases hzero : rc = 0
    · subst hzero
      exact absurd rfl (hrc ms)
    · rw [hpc]
      by_cases hlast : attempts = 7 <;> simp [MainState.wait, stage, hzero, hlast]
  | process slept w c hpc hw hc =>
    rw [hpc]
    by_cases hnone : (wlabProcess period w c).1 = [] <;> simp [stage, hnone]
  | frame slept pulse ms publishes hpc hms =>
    rw [hpc]
    cases publishes <;> simp [MainState.wait, stage]
  | keepalive expired hpc =>
    rw [hpc]
    cases expired <;> simp [stage]
  | wifiFeed secCnt hpc | mqttFeed secCnt hpc | authFeed attempts hpc | loopFeed hpc
  | sleep ms hpc hms | pulse slept ms publishes hpc hms | ack slept pulse frame ms hpc hms
  | updateSync slept pulse frame ack ms answer hpc hms | updateSkip slept pulse frame ack hpc =>
    simp [MainState.feed, MainState.wait, stage, hpc]

/-- The semaphores and the threads know the milestones. -/
structure InOrder (h : List SystemEvent) (s : SystemState) : Prop where
  once : EachEvent BootOrder h
  main : Seen (stage s.main.pc) h
  firstConn : 0 < s.wifi.firstConnSem.count → Seen 1 h
  thread : s.worker.pc ≠ .waitStart → Seen 1 h
  conectedAck : 0 < s.worker.conectedAckSem.count → Seen 2 h
  call : s.publish.pc ≠ .idle → Seen 3 h
  publishAck : s.publish.pc = .send ∨ s.publish.pc = .waitAck →
    0 < s.publish.publishAckSem.count → Seen 4 h
  binary : s.publish.publishAckSem.limit = 1 ∧ s.publish.publishAckSem.count ≤ 1

theorem inOrder_init : InOrder [] powerOn := by
  constructor
  case once => exact eachEvent_nil _
  case main => exact seen_zero []
  case binary => exact ⟨rfl, Nat.zero_le 1⟩
  all_goals simp [powerOn, wifiBoot, workerInit, publishInit]

section Parts
variable {h es : List SystemEvent} {s : SystemState}

theorem InOrder.append (hi : InOrder h s) (hes : ∀ e ∈ es, BootOrder h e) :
    InOrder (h ++ es) s := by
  constructor
  case once => exact eachEvent_append_of_mono bootOrder_mono hi.once hes
  case main => exact hi.main.append es
  case firstConn => exact fun hpos => (hi.firstConn hpos).append es
  case thread => exact fun hpc => (hi.thread hpc).append es
  case conectedAck => exact fun hpos => (hi.conectedAck hpos).append es
  case call => exact fun hpc => (hi.call hpc).append es
  case publishAck => exact fun hpc hpos => (hi.publishAck hpc hpos).append es
  case binary => exact hi.binary

theorem InOrder.setMain (hi : InOrder h s) {m : MainState} (hm : Seen (stage m.pc) h) :
    InOrder h { s with main := m } :=
  ⟨hi.once, hm, hi.firstConn, hi.thread, hi.conectedAck, hi.call, hi.publishAck, hi.binary⟩

theorem InOrder.setWifi (hi : InOrder h s) {w : Wifi}
    (hw : 0 < w.firstConnSem.count → Seen 1 h) : InOrder h { s with wifi := w } :=
  ⟨hi.once, hi.main, hw, hi.thread, hi.conectedAck, hi.call, hi.publishAck, hi.binary⟩

theorem InOrder.setWorker (hi : InOrder h s) {t : Worker} (hpc : t.pc ≠ .waitStart → Seen 1 h)
    (hack : 0 < t.conectedAckSem.count → Seen 2 h) : InOrder h (s.withWorker t) :=
  ⟨hi.once, hi.main, hi.firstConn, hpc, hack, hi.call, hi.publishAck, hi.binary⟩

theorem InOrder.setPublish (hi : InOrder h s) {p : PublishState} (hcall : p.pc ≠ .idle → Seen 3 h)
    (hack : p.pc = .send ∨ p.pc = .waitAck → 0 < p.publishAckSem.count → Seen 4 h)
    (hbinary : p.publishAckSem.limit = 1 ∧ p.publishAckSem.count ≤ 1) :
    InOrder h { s with publish := p } :=
  ⟨hi.once, hi.main, hi.firstConn, hi.thread, hi.conectedAck, hcall, hack, hbinary⟩

/-- What no milestone depends on. -/
theorem InOrder.setOthers (hi : InOrder h s) (d : Dht) (uid : List Char)
    (x : Option (SampleArgs × ℤ)) :
    InOrder h { s with sensor := d, deviceId := uid, sample := x } :=
  ⟨hi.once, hi.main, hi.firstConn, hi.thread, hi.conectedAck, hi.call, hi.publishAck, hi.binary⟩

/-- `main` takes a step and waits for no more. -/
theorem InOrder.stay (hi : InOrder h s) {period : ℕ} {a : MainAct} {ds : List WlabEvent}
    {m : MainState} (hm : MainCase period s.main a ds m) (hgiven : ∀ ms, a ≠ .semWait true ms)
    (hsync : ∀ v ms, a ≠ .sntp (some v) ms) (hrc : ∀ ms, a ≠ .publish 0 ms) :
    InOrder h { s with main := m } :=
  hi.setMain (hi.main.le (stage_le hm hgiven hsync hrc))

end Parts

/-- `FirstConnSem` is given for an address alone. -/
theorem firstConn_le {s w : Wifi} {a : WifiAct} {ds : List WifiEvent} (hc : WifiCase s a ds w)
    (ha : ∀ dhcp, a = .ipv4AddrAdd dhcp → true ∉ dhcp) :
    w.firstConnSem.count ≤ s.firstConnSem.count := by
  cases hc with
  | netInit ssid passwd ret hp =>
    unfold Wifi.request
    split_ifs <;> exact le_rfl
  | firstConnTaken sem htake =>
    unfold Sem.take at htake
    split_ifs at htake
    cases htake
    exact Nat.sub_le _ _
  | connectResult status hl hpos =>
    unfold handleWifiConnectResult
    split_ifs <;> exact le_rfl
  | ipv4AddrAdd dhcp hl hhad =>
    have hnone := ha dhcp rfl
    suffices hsame : ∀ sem : Sem,
        dhcp.foldl (fun sem isDhcp => if isDhcp then sem.give else sem) sem = sem by
      simp [handleIpv4Result, hsame]
    intro sem
    clear ha hl hhad
    induction dhcp with
    | nil => rfl
    | cons isDhcp dhcp ih =>
      simp only [List.mem_cons, not_or] at hnone
      have hfalse : isDhcp = false := by
        cases isDhcp
        · rfl
        · exact absurd rfl hnone.1
      rw [List.foldl_cons, hfalse]
      exact ih hnone.2
  | requestResult ret hl hrunning =>
    unfold Wifi.request
    split_ifs <;> exact le_rfl
  | _ => exact le_rfl

section Steps
variable {cfg : Config} {h es : List SystemEvent} {s u : SystemState}

/-- A step of the publisher: a call waits for the third milestone, and returns 0
after the fourth. -/
theorem InOrder.publish (hi : InOrder h s) {a : PublishAct} {ds : List PublishEvent}
    {p : PublishState} (hcall : ∀ topic formatted, a = .call topic formatted → Seen 3 h)
    (hack : ∀ id result, a ≠ .puback id result) (hs : publisher.step s.publish a = some (ds, p)) :
    InOrder (h ++ ds.map .publish) { s with publish := p } ∧
      (returnCode ds = some 0 → Seen 4 (h ++ ds.map .publish)) := by
  cases publisher_step_cases hs with
  | refused topic formatted hidle =>
    have hi' : InOrder (h ++ [SystemEvent.publish (.returned (-ENETUNREACH))]) s :=
      hi.append (by simp [BootOrder])
    exact ⟨hi', by simp [returnCode, ENETUNREACH]⟩
  | placed topic formatted d hidle hd =>
    have hseen := hcall topic formatted rfl
    have hi' : InOrder (h ++ [SystemEvent.publish (.placed d.messageId)]) s :=
      hi.append (by simpa [BootOrder] using hseen)
    refine ⟨hi'.setPublish (fun _ => hseen.append _) (by simp) hi'.binary, by simp [returnCode]⟩
  | drain hpc =>
    have hempty : s.publish.publishAckSem.tryTake = ⟨0, 1⟩ :=
      Sem.tryTake_binary hi.binary.1 hi.binary.2
    rw [hempty]
    have hi' : InOrder (h ++ []) s := hi.append (by simp)
    refine ⟨?_, by simp [returnCode]⟩
    exact hi'.setPublish
      (fun _ => (hi.call (by simp [hpc])).append _) (by simp) (by simp)
  | sendFailed ret hpc hret =>
    have hi' : InOrder (h ++ [SystemEvent.publish (.sent s.publish.pubData ret),
        .publish (.returned ret)]) s := hi.append (by simp [BootOrder])
    refine ⟨hi'.setPublish (by simp) (by simp) hi'.binary, ?_⟩
    intro hzero
    exact absurd (by simpa [returnCode] using hzero) hret
  | send hpc =>
    have hi' : InOrder (h ++ [SystemEvent.publish (.sent s.publish.pubData 0)]) s :=
      hi.append (by simp [BootOrder])
    refine ⟨hi'.setPublish ?_ ?_ hi'.binary, by simp [returnCode]⟩
    · exact fun _ => (hi.call (by simp [hpc])).append _
    · exact fun _ hpos => (hi.publishAck (Or.inl hpc) hpos).append _
  | ackTaken sem hpc htake =>
    have hi' : InOrder (h ++ [SystemEvent.publish (.returned 0)]) s :=
      hi.append (by simp [BootOrder])
    unfold Sem.take at htake
    split_ifs at htake with hzero
    cases htake
    have hseen := hi'.publishAck (Or.inr hpc) (Nat.pos_of_ne_zero hzero)
    refine ⟨hi'.setPublish (by simp) (by simp) ?_, fun _ => hseen⟩
    exact ⟨hi'.binary.1, (Nat.sub_le _ _).trans hi'.binary.2⟩
  | ackTimeout hpc htake =>
    have hi' : InOrder (h ++ [SystemEvent.publish (.returned (-EAGAIN))]) s :=
      hi.append (by simp [BootOrder])
    exact ⟨hi'.setPublish (by simp) (by simp) hi'.binary, by simp [returnCode, EAGAIN]⟩
  | puback id result hmem => exact absurd rfl (hack id result)
  | other a p hpc hdata hsem hno =>
    refine ⟨?_, by simp [returnCode]⟩
    rw [List.map_nil, List.append_nil]
    apply hi.setPublish
    · rw [hpc]
      exact hi.call
    · rw [hpc, hsem]
      exact hi.publishAck
    · rw [hsem]
      exact hi.binary

/-- A step of a call of `mqtt_worker_publish_qos1`. -/
theorem InOrder.callStep (hi : InOrder h s) {a : PublishAct}
    (hcall : ∀ topic formatted, a = .call topic formatted → Seen 3 h)
    (hack : ∀ id result, a ≠ .puback id result) (hc : CallCase cfg s a es u) :
    InOrder (h ++ es) u := by
  cases hc with
  | goes ds p hp hnone => exact (hi.publish hcall hack hp).1
  | authorized ds p attempts rc m hp hrc hpc hm =>
    obtain ⟨hi', hzero⟩ := hi.publish hcall hack hp
    apply hi'.setMain
    by_cases hrc0 : rc = 0
    · subst hrc0
      cases hm with
      | authWait attempts ms rc hpc hms => exact hzero hrc
    · exact hi'.main.le (stage_le hm (by simp) (by simp) (by simp [hrc0]))
  | sampled ds p rc m hp hrc hsample hm =>
    obtain ⟨hi', -⟩ := hi.publish hcall hack hp
    exact (hi'.stay hm (by simp) (by simp) (by simp)).setOthers s.sensor s.deviceId none

/-- The callers of `mqtt_worker_publish_qos1` have passed the third milestone. -/
theorem InOrder.caller (hi : InOrder h s) (hpc : 3 ≤ stage s.main.pc) (topic : List UInt8)
    (formatted : Formatted) (topic' : List UInt8) (formatted' : Formatted)
    (_ : PublishAct.call topic formatted = .call topic' formatted') : Seen 3 h :=
  hi.main.le hpc

/-- A step of the network thread. -/
theorem InOrder.thread_step (hi : InOrder h s) (hrunning : s.main.pc ≠ .stopped) {a : WorkerAct}
    {ds : List WorkerEvent} {t : Worker} (ha : threadAct s.main.pc s.worker.pc a)
    (hc : WorkerCase cfg.worker s.worker a ds t) :
    InOrder (h ++ ds.map .worker) (s.withWorker t) := by
  have hcalls : s.worker.pc = .waitStart → ∀ e ∈ ds, ∃ type result, e = .event type result :=
    fun hw => (waitStart_cases hc hw).2
  have hi' : InOrder (h ++ ds.map .worker) s := by
    apply hi.append
    intro e he
    obtain ⟨d, hd, rfl⟩ := List.mem_map.mp he
    unfold BootOrder
    split
    next ret heq =>
      cases heq
      exact hi.thread fun hw => by simpa using hcalls hw _ hd
    next ret heq =>
      cases heq
      exact hi.thread fun hw => by simpa using hcalls hw _ hd
    next heq => cases heq
    next heq => cases heq
    next heq => cases heq
    next => trivial
  apply hi'.setWorker
  · intro ht
    by_cases hw : s.worker.pc = .waitStart
    · have hproceed := (waitStart_cases hc hw).1.resolve_left ht
      subst hproceed
      have hstarted : started s.main.pc = true := by simpa [threadAct, hw] using ha
      apply hi'.main.le
      cases hpc : s.main.pc <;> simp_all [started, stage]
    · exact hi'.thread hw
  · intro hpos
    by_cases hconnack : a = .event .connack 0
    · subst hconnack
      have hw : s.worker.pc ≠ .waitStart := by
        intro hw
        simp [threadAct, hw, inInput] at ha
      cases hc
      exact Passed.next (n := 1) (hi.thread hw) rfl (List.mem_singleton_self _) rfl
    · exact hi'.conectedAck (hpos.trans_le (conectedAckSem_le (flagCase_of_case hc) hconnack))

/-- A PUBACK gives the semaphore for whoever waits for one. -/
theorem InOrder.puback (hi : InOrder h s) {id : UInt16} {result : ℤ} {ds : List PublishEvent}
    {p : PublishState} (hs : publisher.step s.publish (.puback id result) = some (ds, p)) :
    InOrder (h ++ ds.map .publish) { s with publish := p } := by
  cases publisher_step_cases hs with
  | puback id result hmem =>
    have hi' : InOrder (h ++ [SystemEvent.publish (.pubackHandled id result)]) s :=
      hi.append (by simp [BootOrder])
    apply hi'.setPublish
    · exact hi'.call
    · intro hpc hpos
      by_cases hresult : result = 0
      · subst hresult
        have hcall : s.publish.pc ≠ .idle := by
          intro hidle
          rcases hpc with hpc | hpc
          · exact absurd (hidle.symm.trans hpc) (by simp)
          · exact absurd (hidle.symm.trans hpc) (by simp)
        exact Passed.next (n := 3) (hi.call hcall) rfl (List.mem_singleton_self _) ⟨id, rfl⟩
      · simp only [handlePuback, ne_eq, hresult, not_false_eq_true, ↓reduceIte] at hpos
        exact hi'.publishAck hpc hpos
    · unfold handlePuback
      split_ifs
      · exact hi'.binary
      · exact ⟨hi'.binary.1, (Nat.min_le_right _ _).trans hi'.binary.1.le⟩
  | other a p hpc hdata hsem hno => exact absurd rfl (hno id result)

theorem InOrder.step (hi : InOrder h s) (hrunning : s.main.pc ≠ .stopped) {a : SystemAct}
    (hc : SystemCase cfg s a es u) : InOrder (h ++ es) u := by
  have hnil : InOrder (h ++ []) s := hi.append (by simp)
  cases hc with
  | tick ms hlimit => exact hnil.setWorker hnil.thread hnil.conectedAck
  | wifiInit ret m ds w hpc hm hw =>
    have hi' : InOrder (h ++ ds.map .wifi) s := hi.append (by simp [BootOrder])
    apply (hi'.stay hm (by simp) (by simp) (by simp)).setWifi
    exact fun hpos => hi'.firstConn (hpos.trans_le (firstConn_le hw (by simp)))
  | wifiWait act a given secCnt m ds w hgiven hpc hw hm =>
    have hi' : InOrder (h ++ ds.map .wifi) s := hi.append (by simp [BootOrder])
    have hle : w.firstConnSem.count ≤ s.wifi.firstConnSem.count := by
      rcases hgiven with ⟨-, rfl⟩ | ⟨-, rfl⟩
      · exact firstConn_le hw (by simp)
      · exact firstConn_le hw (by simp)
    have hmain : InOrder (h ++ ds.map .wifi) { s with main := m } := by
      rcases hgiven with ⟨rfl, rfl⟩ | ⟨rfl, rfl⟩
      · apply hi'.setMain
        cases hw with
        | firstConnTaken sem htake =>
          unfold Sem.take at htake
          split_ifs at htake with hzero
          have hseen := hi'.firstConn (Nat.pos_of_ne_zero hzero)
          cases hm with
          | wifiWait secCnt' ms given hpc' hms => exact hseen
          | mqttWait secCnt' ms given hpc' hms =>
            rw [hpc] at hpc'
            cases hpc'
      · exact hi'.stay hm (by simp) (by simp) (by simp)
    exact hmain.setWifi fun hpos => hi'.firstConn (hpos.trans_le hle)
  | mqttInit m w hpc hw hm =>
    apply (hnil.stay hm (by simp) (by simp) (by simp)).setWifi
    exact fun hpos => hnil.firstConn (hpos.trans_le (firstConn_le hw (by simp)))
  | mqttTaken secCnt sem m hpc htake hm =>
    unfold Sem.take at htake
    split_ifs at htake with hzero
    cases htake
    have hseen := hnil.conectedAck (Nat.pos_of_ne_zero hzero)
    have hmain : InOrder (h ++ []) { s with main := m } := by
      apply hnil.setMain
      cases hm with
      | wifiWait secCnt' ms given hpc' hms =>
        rw [hpc] at hpc'
        cases hpc'
      | mqttWait secCnt' ms given hpc' hms => exact hseen
    exact ⟨hmain.once, hmain.main, hmain.firstConn, hmain.thread, fun _ => hseen, hmain.call,
      hmain.publishAck, hmain.binary⟩
  | mqttTimeout secCnt m hpc hm => exact hnil.stay hm (by simp) (by simp) (by simp)
  | proceed m hpc hpc' hm =>
    exact hnil.stay (main_step_cases hm) (by simp) (by simp) (by simp)
  | sync answer m hm =>
    cases answer with
    | none => exact hnil.stay hm (by simp) (by simp) (by simp)
    | some v =>
      have hseen : Seen 2 h := by
        cases hm with
        | sync attempts lastWait ms answer hpc hms =>
          have hmain := hi.main
          rwa [hpc] at hmain
        | updateSync slept pulse frame ack ms answer hpc hms =>
          have hmain := hi.main
          rw [hpc] at hmain
          exact hmain.le (by simp [stage])
      have hi' : InOrder (h ++ [.synced]) s := hi.append (by simpa [BootOrder] using hseen)
      have hnext : Seen 3 (h ++ [.synced]) := Passed.next hseen rfl (List.mem_singleton_self _) rfl
      apply hi'.setMain
      cases hm with
      | sync attempts lastWait ms answer hpc hms => exact hnext
      | updateSync slept pulse frame ack ms answer hpc hms =>
        have hmain := hi'.main
        rwa [hpc] at hmain
  | authorize fs name deviceId position attempts text uid es u hpc htext huid hidle hc =>
    have hi' : InOrder h { s with deviceId := uid } := hi.setOthers s.sensor uid s.sample
    exact hi'.callStep (hi'.caller (by simp [stage, hpc]) _ _) (by simp) hc
  | wait act a m ha hm =>
    rcases ha with rfl | rfl | rfl
    · exact hnil.stay hm (by simp) (by simp) (by simp)
    · exact hnil.stay hm (by simp) (by simp) (by simp)
    · exact hnil.stay hm (by simp) (by simp) (by simp)
  | skip usNow w publishRc wl ds m hwl hreads hm =>
    have hi' : InOrder (h ++ ds.map .wlab) s := hi.append (by simp [BootOrder])
    exact hi'.stay hm (by simp) (by simp) (by simp)
  | read usNow w publishRc wl r reading ds m d hwl hreads hr hreading hm =>
    have hseen : Seen 4 h := by
      obtain ⟨slept, hpc⟩ := process_pc hm
      have hmain := hi.main
      rwa [hpc] at hmain
    have hi' : InOrder (h ++ .sensor r :: ds.map .wlab) s :=
      hi.append (by simpa [BootOrder] using hseen)
    exact (hi'.stay hm (by simp) (by simp) (by simp)).setOthers d s.deviceId (sampleOf ds)
  | sample p slept pulse frame text es u hpc hp htext hidle hc =>
    exact hi.callStep (hi.caller (by simp [stage, hpc]) _ _) (by simp) hc
  | publish a es u ha hc =>
    apply hi.callStep _ _ hc
    · rintro topic formatted rfl
      cases ha
    · rintro id result rfl
      cases ha
  | keepalive m hm =>
    apply InOrder.stay _ hm (by simp) (by simp) (by simp)
    apply hi.append
    split_ifs <;> simp [BootOrder]
  | address dhcp w hmem hw =>
    have hi' : InOrder (h ++ [.address]) s := hi.append (by simp [BootOrder])
    apply hi'.setWifi
    exact fun _ => Passed.next (n := 0) (passed_nil h) rfl (List.mem_singleton_self _) rfl
  | lost status ds w hdisco hw =>
    have hi' : InOrder (h ++ ds.map .wifi) s := hi.append (by simp [BootOrder])
    have hwifi : InOrder (h ++ ds.map .wifi) { s with wifi := w } :=
      hi'.setWifi fun hpos => hi'.firstConn (hpos.trans_le (firstConn_le hw (by simp)))
    exact hwifi.setWorker hwifi.thread hwifi.conectedAck
  | handler a ds w ha hno hdisco hw =>
    have hi' : InOrder (h ++ ds.map .wifi) s := hi.append (by simp [BootOrder])
    exact hi'.setWifi fun hpos => hi'.firstConn (hpos.trans_le (firstConn_le hw hno))
  | worker a ds t ha hs => exact hi.thread_step hrunning ha (worker_step_cases hs)
  | puback id result ds p hinput hp =>
    have hi' : InOrder (h ++ [.worker (.event .puback result)])
        (s.withWorker (mqttEvtHandler s.worker .puback result)) :=
      (hi.append (by simp [BootOrder])).setWorker (fun hw => (hi.thread hw).append _)
        fun hpos => (hi.conectedAck hpos).append _
    rw [List.append_cons]
    exact hi'.puback hp
  | broker a ds p ha hp =>
    apply (hi.publish _ _ hp).1
    · rintro topic formatted rfl
      cases ha
    · rintro id result rfl
      cases ha
  | stray usNow => exact hnil.setOthers (edge s.sensor usNow) s.deviceId s.sample

end Steps

/-- In every run the broker's name is looked up and connected to only after an
address was obtained, the clock is set only after the broker accepted a session,
a message is handed over only after that, and the sensor is read only after an
acknowledgement of the authorisation. -/
theorem boots_in_order {cfg : Config} {acts : List SystemAct} {h : List SystemEvent}
    {s : SystemState} (hr : (system cfg).Runs powerOn acts h s) : EachEvent BootOrder h := by
  have hi : InOrder h s := by
    apply hr.invariant (I := InOrder) inOrder_init
    intro h s a es u hi hs
    obtain ⟨hrunning, hc⟩ := system_step_cases hs
    exact hi.step hrunning hc
  exact hi.once

/-- A station with a numeric broker address that publishes every five minutes. -/
def someStation : Config := ⟨true, 60, 10, 5, [119], [112], fun _ => 1, zeroCoordinates⟩

/-- Up to the loop of `main`, with what the time server answers. -/
def bootUpAt (secs : ℤ) : List SystemAct :=
  [.wifiInit 0, .tick 500, .wifi (.connectResult 0), .wifi (.ipv4AddrAdd [true]), .wifiTaken,
    .mqttInit, .worker .proceed, .worker (.dnsResolve 0), .worker (.mqttConnect 0), .tick 100,
    .worker (.poll 1), .worker (.event .connack 0), .worker .proceed, .mqttTaken, .tick 40,
    .sync (some secs), .proceed, .authorize (fun _ => none) (noFaults 16) (noFaults 80)
    (noFaults 96), .publish .drain, .publish (.send 0), .broker (.brokerReceive 2),
    .broker (.brokerAck 2), .worker .proceed, .worker .proceed, .worker .proceed, .worker .proceed,
    .tick 30, .worker (.poll 1), .puback 2 0, .publish .ackTaken]

def bootUp : List SystemAct := bootUpAt 1700000000

/-- The first turn of the loop, up to the call of `dht2x_read`. -/
def firstTurn : List SystemAct :=
  [.proceed, .tick 200, .sleep, .process 0 (frameWaveform frostFrame.toNat) 0]

def firstRead : List SystemAct := bootUp ++ firstTurn

theorem first_read_in_order : ∃ h s, (system someStation).Runs powerOn firstRead h s ∧
    h.flatMap sensorOf = [⟨0, -101, 652⟩] ∧ EachEvent BootOrder h := by
  have hr : (system someStation).Runs powerOn firstRead _ _ := runs_get (by decide +kernel)
  exact ⟨_, _, hr, by decide +kernel, boots_in_order hr⟩

end WlabStation.System
