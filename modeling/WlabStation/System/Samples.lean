import WlabStation.Mqtt.PublishLength
import WlabStation.System.Readings
import WlabStation.System.Silence
import WlabStation.Wlab.TextLength

/-! From the sensor to the broker: every sample that the station sends is complete
and aggregates what the sensor has measured since the publish before it. -/
namespace WlabStation.System
open Machine Wlab Station Mqtt Network Sensor Settings

/-- The window of a series: the readings since the last publish that its filter let pass. -/
def measuredWindow (period : ℕ) (serie : Serie) (h : List SystemEvent) : List Sample :=
  accepted period serie (readingsSince h)

/-- The last publish in the history came after `pre` with one more reading, and
its arguments are those of the windows of `pre`. -/
structure Sampled (period : ℕ) (h pre : List SystemEvent) (args : SampleArgs) : Prop where
  last : ∃ r secs x rc post, h = pre ++ .sensor r :: .wlab (.sensorRead secs x) ::
    .wlab (.publish secs args rc) :: post ∧ published (post.flatMap wlabOf) = []
  args : args = sampleArgs (summary period (measuredWindow period .temperature pre))
    (summary period (measuredWindow period .humidity pre))
  nonempty : ∀ serie, measuredWindow period serie pre ≠ []

/-- The message that a call sends for a text. -/
structure MessageOf (topic : String) (text : List UInt8) (d : PubData) : Prop where
  topic : d.topic = textBytes topic
  payload : d.payload = text.take (MQTT_WORKER_MAX_PUBLISH_LEN - 1)
  payloadLen : d.payloadLen = u32 text.length

/-- The message asks for the authorisation of the station `uid`. -/
def Authorises (uid : List Char) (d : PubData) : Prop :=
  ∃ timezone latitude longitude name text,
    authText timezone latitude longitude name uid = some text ∧
      MessageOf CONFIG_WLAB_AUTH_TOPIC text d

/-- The calls of `mqtt_worker_publish_qos1`, without the PUBACKs handled meanwhile. -/
def callOf : SystemEvent → List PublishEvent
  | .publish (.pubackHandled _ _) => []
  | .publish e => [e]
  | _ => []

/-- During these steps a PUBACK without error was handled. -/
def PubackIn (l : List SystemEvent) : Prop := ∃ id, .publish (.pubackHandled id 0) ∈ l

/-- The call that asked for the authorisation of `uid`, a device id, returned 0
after a PUBACK was handled during it, and none has asked for one since. -/
structure Authorised (h : List SystemEvent) (uid : List Char) : Prop where
  deviceId : IsDeviceId uid
  acknowledged : ∃ k d l post, h = k ++ .publish (.placed d.messageId) ::
      (l ++ .publish (.returned 0) :: post) ∧
    Authorises uid d ∧ l.flatMap callOf = [.sent d 0] ∧ PubackIn l ∧
    ∀ e ret, .publish (.sent e ret) ∈ post → e.topic ≠ textBytes CONFIG_WLAB_AUTH_TOPIC

/-- The message is the text of the last sample, with the authorised device id. -/
def Carries (period : ℕ) (h : List SystemEvent) (d : PubData) : Prop :=
  ∃ uid pre args text, Authorised h uid ∧ Sampled period h pre args ∧
    sampleText (asciiBytes uid ++ [0]) args = some text ∧ MessageOf CONFIG_WLAB_PUB_TOPIC text d

/-- Whatever is sent on the topic of the samples is one. -/
def SendsSamples (period : ℕ) (k : List SystemEvent) : SystemEvent → Prop
  | .publish (.sent d _) => d.topic = textBytes CONFIG_WLAB_PUB_TOPIC → Carries period k d
  | _ => True

/-- The call in progress and what has been observed of it. -/
def CallSoFar (h : List SystemEvent) (p : PublishState) : Prop :=
  ∃ k l, h = k ++ .publish (.placed p.pubData.messageId) :: l ∧
    l.flatMap callOf = (if p.pc = .waitAck then [.sent p.pubData 0] else []) ∧
    (p.pc ≠ .drain → 0 < p.publishAckSem.count → PubackIn l)

/-- Where a call of `mqtt_worker_publish_qos1` stands, and for whom. -/
inductive CallPhase (period : ℕ) (h : List SystemEvent) (s : SystemState) : Prop where
  | idle : s.publish.pc = .idle → (4 ≤ stage s.main.pc → Authorised h s.deviceId) →
      CallPhase period h s
  | authorising (attempts : ℕ) : s.main.pc = .authWait attempts → s.publish.pc ≠ .idle →
      IsDeviceId s.deviceId → Authorises s.deviceId s.publish.pubData →
      CallSoFar h s.publish → CallPhase period h s
  | sampling (slept pulse frame : ℕ) : s.main.pc = .ack slept pulse frame →
      s.publish.pc ≠ .idle → Authorised h s.deviceId → Carries period h s.publish.pubData →
      CallPhase period h s

structure Samples (period : ℕ) (h : List SystemEvent) (s : SystemState) : Prop where
  once : EachEvent (SendsSamples period) h
  windows : ∀ w, s.main.wlab = .ok w → WindowInv period (h.flatMap wlabOf) w ∧ Tracked period h
  sample : ∀ p, s.sample = some p → ∃ pre, Sampled period h pre p.1
  phase : CallPhase period h s
  binary : s.publish.publishAckSem.limit = 1 ∧ s.publish.publishAckSem.count ≤ 1

section Append
variable {period : ℕ} {h es : List SystemEvent}

/-- Events that ask for no authorisation. -/
def NoAuthorisation (es : List SystemEvent) : Prop :=
  ∀ d ret, .publish (.sent d ret) ∈ es → d.topic ≠ textBytes CONFIG_WLAB_AUTH_TOPIC

theorem Authorised.append {uid : List Char} (ha : Authorised h uid) (hes : NoAuthorisation es) :
    Authorised (h ++ es) uid := by
  obtain ⟨hid, k, d, l, post, hh, hd, hl, hack, hpost⟩ := ha
  refine ⟨hid, k, d, l, post ++ es, by simp [hh], hd, hl, hack, ?_⟩
  intro e ret he
  obtain he | he := List.mem_append.mp he
  · exact hpost e ret he
  · exact hes e ret he

/-- Until `wlab_process` is called again its last sample stays. -/
theorem Sampled.append {pre : List SystemEvent} {args : SampleArgs}
    (hs : Sampled period h pre args) (hes : es.flatMap wlabOf = []) :
    Sampled period (h ++ es) pre args := by
  obtain ⟨r, secs, x, rc, post, hh, hpost⟩ := hs.last
  constructor
  case last =>
    refine ⟨r, secs, x, rc, post ++ es, by simp [hh], ?_⟩
    rw [List.flatMap_append, hes, List.append_nil, hpost]
  case args => exact hs.args
  case nonempty => exact hs.nonempty

theorem Carries.append {d : PubData} (hc : Carries period h d) (hes : es.flatMap wlabOf = [])
    (hauth : NoAuthorisation es) : Carries period (h ++ es) d := by
  obtain ⟨uid, pre, args, text, huid, hs, htext, hd⟩ := hc
  exact ⟨uid, pre, args, text, huid.append hauth, hs.append hes, htext, hd⟩

/-- Events between the steps of a call. -/
theorem CallSoFar.append {p : PublishState} (hc : CallSoFar h p) (hes : es.flatMap callOf = []) :
    CallSoFar (h ++ es) p := by
  obtain ⟨k, l, hh, hl, hack⟩ := hc
  refine ⟨k, l ++ es, by simp [hh], ?_, ?_⟩
  · rw [List.flatMap_append, hes, List.append_nil, hl]
  · intro hpc hpos
    obtain ⟨id, hid⟩ := hack hpc hpos
    exact ⟨id, List.mem_append_left _ hid⟩

/-- An event that is none of the sensor, of `wlab_process` or of a call. -/
def Unrelated (e : SystemEvent) : Prop := wlabOf e = [] ∧ sensorOf e = [] ∧ callOf e = []

theorem Unrelated.noAuthorisation (hes : ∀ e ∈ es, Unrelated e) : NoAuthorisation es := by
  intro d ret he
  have hcall := (hes _ he).2.2
  cases hcall

/-- Steps of a call, and what is observed of them. -/
theorem Samples.calls {s : SystemState} (hi : Samples period h s)
    (hes : ∀ e ∈ es, wlabOf e = [] ∧ sensorOf e = [])
    (honce : EachEvent (SendsSamples period) (h ++ es)) {p : PublishState}
    (hphase : CallPhase period (h ++ es) { s with publish := p })
    (hbinary : p.publishAckSem.limit = 1 ∧ p.publishAckSem.count ≤ 1) :
    Samples period (h ++ es) { s with publish := p } := by
  have hwlab : es.flatMap wlabOf = [] := List.flatMap_eq_nil_iff.mpr fun e he => (hes e he).1
  constructor
  case once => exact honce
  case windows =>
    intro w hw
    obtain ⟨hinv, ht⟩ := hi.windows w hw
    rw [List.flatMap_append, hwlab, List.append_nil]
    exact ⟨hinv, ht.quiet hes⟩
  case sample =>
    intro p hp
    obtain ⟨pre, hs⟩ := hi.sample p hp
    exact ⟨pre, hs.append hwlab⟩
  case phase => exact hphase
  case binary => exact hbinary

/-- Events of which nothing is asked. -/
theorem Samples.quiet {s : SystemState} (hi : Samples period h s)
    (hes : ∀ e ∈ es, Unrelated e) : Samples period (h ++ es) s := by
  have hwlab : es.flatMap wlabOf = [] := List.flatMap_eq_nil_iff.mpr fun e he => (hes e he).1
  have hcall : es.flatMap callOf = [] := List.flatMap_eq_nil_iff.mpr fun e he => (hes e he).2.2
  have hauth := Unrelated.noAuthorisation hes
  refine hi.calls (fun e he => ⟨(hes e he).1, (hes e he).2.1⟩) ?_ ?_ hi.binary
  · apply (eachEvent_append _).mpr hi.once
    intro e he k
    unfold SendsSamples
    split
    next d ret =>
      have hnone := (hes _ he).2.2
      cases hnone
    next => trivial
  · cases hi.phase with
    | idle hpc hstage => exact .idle hpc fun hfour => (hstage hfour).append hauth
    | authorising attempts hmain hpc hid hd hc =>
      exact .authorising attempts hmain hpc hid hd (hc.append hcall)
    | sampling slept pulse frame hmain hpc huid hd =>
      exact .sampling slept pulse frame hmain hpc (huid.append hauth) (hd.append hwlab hauth)

theorem Samples.wifi {s : SystemState} (hi : Samples period h s) (ds : List WifiEvent) :
    Samples period (h ++ ds.map .wifi) s :=
  hi.quiet (by simp [Unrelated, wlabOf, sensorOf, callOf])

theorem Samples.worker {s : SystemState} (hi : Samples period h s) (ds : List WorkerEvent) :
    Samples period (h ++ ds.map .worker) s :=
  hi.quiet (by simp [Unrelated, wlabOf, sensorOf, callOf])

end Append

section Main
variable {period : ℕ} {h es : List SystemEvent} {s u : SystemState}

/-- Only `wlab_process` changes the statics of `wlab.c`. -/
theorem main_wlab {period : ℕ} {s m : MainState} {a : MainAct} {ds : List WlabEvent}
    (hc : MainCase period s a ds m) (ha : ∀ sensor rc, a ≠ .process sensor rc) :
    m.wlab = s.wlab := by
  cases hc with
  | process slept w c hpc hw hc => exact absurd rfl (ha _ _)
  | _ => rfl

/-- The loop is entered with an authorisation alone. -/
theorem stage_four {period : ℕ} {s m : MainState} {a : MainAct} {ds : List WlabEvent}
    (hc : MainCase period s a ds m) (hrc : ∀ ms, a ≠ .publish 0 ms) (hm : 4 ≤ stage m.pc) :
    4 ≤ stage s.pc := by
  by_cases hgiven : ∃ ms, a = .semWait true ms
  · obtain ⟨ms, rfl⟩ := hgiven
    cases hc <;> simp [MainState.wait, stage] at hm
  · by_cases hsync : ∃ v ms, a = .sntp (some v) ms
    · obtain ⟨v, ms, rfl⟩ := hsync
      cases hc with
      | sync attempts lastWait ms answer hpc hms => simp [MainState.wait, stage] at hm
      | updateSync slept pulse frame ack ms answer hpc hms => simp [hpc, stage]
    · push Not at hgiven hsync
      exact hm.trans (stage_le hc hgiven hsync hrc)

/-- A call that `main` is in blocks it. -/
theorem main_busy {period : ℕ} {s m : MainState} {a : MainAct} {ds : List WlabEvent}
    (hc : MainCase period s a ds m) :
    (∀ n, s.pc = .authWait n → ∃ rc ms, a = .publish rc ms) ∧
      ∀ slept pulse frame, s.pc = .ack slept pulse frame → ∃ ms, a = .ack ms := by
  cases hc with
  | authWait attempts ms rc hpc hms => simp [hpc]
  | ack slept pulse frame ms hpc hms => simp [hpc]
  | _ => simp_all

/-- A step of `main` that is not one of these calls. -/
theorem Samples.mainStep (hi : Samples period h s) {a : MainAct} {m : MainState}
    (hm : MainCase period s.main a [] m) (hwlab : m.wlab = s.main.wlab)
    (hpublish : ∀ rc ms, a ≠ .publish rc ms) (hack : ∀ ms, a ≠ .ack ms) :
    Samples period h { s with main := m } := by
  constructor
  case once => exact hi.once
  case windows =>
    intro w hw
    exact hi.windows w (hwlab.symm.trans hw)
  case sample => exact hi.sample
  case binary => exact hi.binary
  case phase =>
    obtain ⟨hauth, hsample⟩ := main_busy hm
    cases hi.phase with
    | idle hpc hstage =>
      exact .idle hpc fun hfour => hstage (stage_four hm (fun ms => hpublish 0 ms) hfour)
    | authorising attempts hmain hpc hid hd hsent =>
      obtain ⟨rc, ms, rfl⟩ := hauth attempts hmain
      exact absurd rfl (hpublish rc ms)
    | sampling slept pulse frame hmain hpc hauth hd =>
      obtain ⟨ms, rfl⟩ := hsample slept pulse frame hmain
      exact absurd rfl (hack ms)

/-- What the samples do not depend on. -/
theorem Samples.others (hi : Samples period h s) (hmain : u.main = s.main)
    (hpublish : u.publish.pc = s.publish.pc ∧ u.publish.pubData = s.publish.pubData ∧
      u.publish.publishAckSem = s.publish.publishAckSem)
    (hid : u.deviceId = s.deviceId) (hsample : u.sample = s.sample) : Samples period h u := by
  constructor
  case once => exact hi.once
  case windows => rw [hmain]; exact hi.windows
  case sample => rw [hsample]; exact hi.sample
  case binary => rw [hpublish.2.2]; exact hi.binary
  case phase =>
    obtain ⟨hpc', hdata, hsem⟩ := hpublish
    cases hi.phase with
    | idle hpc hstage =>
      apply CallPhase.idle
      · rw [hpc', hpc]
      · rw [hmain, hid]
        exact hstage
    | authorising attempts hpc hbusy hisid hd hc =>
      apply CallPhase.authorising attempts
      · rw [hmain, hpc]
      · rw [hpc']
        exact hbusy
      · rw [hid]
        exact hisid
      · rw [hid, hdata]
        exact hd
      · unfold CallSoFar
        rw [hpc', hdata, hsem]
        exact hc
    | sampling slept pulse frame hpc hbusy hauth hd =>
      apply CallPhase.sampling slept pulse frame
      · rw [hmain, hpc]
      · rw [hpc']
        exact hbusy
      · rw [hid]
        exact hauth
      · rw [hdata]
        exact hd

end Main

section Calls
variable {cfg : Config} {period : ℕ} {h es : List SystemEvent} {s u : SystemState}

theorem Carries.noAuthorisation {k : List SystemEvent} {d : PubData} (hc : Carries period k d) :
    d.topic ≠ textBytes CONFIG_WLAB_AUTH_TOPIC := by
  obtain ⟨_, _, _, _, -, -, -, hmessage⟩ := hc
  rw [hmessage.topic]
  decide +kernel

/-- What a call in progress sends. -/
theorem Samples.sends (hi : Samples period h s) (hpc : s.publish.pc ≠ .idle) (ret : ℤ) :
    SendsSamples period h (.publish (.sent s.publish.pubData ret)) := by
  intro htopic
  cases hi.phase with
  | idle hidle hstage => exact absurd hidle hpc
  | authorising attempts hmain hbusy hid hd hc =>
    obtain ⟨_, _, _, _, _, -, hmessage⟩ := hd
    rw [hmessage.topic] at htopic
    exact absurd htopic (by decide +kernel)
  | sampling slept pulse frame hmain hbusy hauth hd => exact hd

/-- A call that returns, before `main` goes on. -/
theorem Samples.idle (hi : Samples period h s) (hpc : s.publish.pc ≠ .idle)
    (hes : ∀ e ∈ es, wlabOf e = [] ∧ sensorOf e = [])
    (honce : EachEvent (SendsSamples period) (h ++ es))
    (hsent : ∀ d ret, .publish (.sent d ret) ∈ es → d = s.publish.pubData) {p : PublishState}
    (hp : p.pc = .idle) (hbinary : p.publishAckSem.limit = 1 ∧ p.publishAckSem.count ≤ 1) :
    Samples period (h ++ es) { s with publish := p } := by
  refine hi.calls hes honce (.idle hp fun hfour => ?_) hbinary
  cases hi.phase with
  | idle hidle hstage => exact absurd hidle hpc
  | authorising attempts hmain hbusy hid hd hc =>
    have hthree : 4 ≤ stage s.main.pc := hfour
    simp [hmain, stage] at hthree
  | sampling slept pulse frame hmain hbusy hauth hd =>
    apply hauth.append
    intro d ret he
    rw [hsent d ret he]
    exact hd.noAuthorisation

/-- The call that authorises goes on. -/
theorem CallSoFar.goes {p q : PublishState} (hc : CallSoFar h p) (hdata : q.pubData = p.pubData)
    (hes : es.flatMap callOf =
      if p.pc ≠ .waitAck ∧ q.pc = .waitAck then [.sent p.pubData 0] else [])
    (hpc : p.pc = .waitAck → q.pc = .waitAck)
    (hack : q.pc ≠ .drain → 0 < q.publishAckSem.count →
      p.pc ≠ .drain ∧ 0 < p.publishAckSem.count ∨ PubackIn es) :
    CallSoFar (h ++ es) q := by
  obtain ⟨k, l, hh, hl, hin⟩ := hc
  refine ⟨k, l ++ es, ?_, ?_, ?_⟩
  · rw [hdata, hh, List.append_assoc, List.cons_append]
  · rw [List.flatMap_append, hl, hes, hdata]
    by_cases hp : p.pc = .waitAck
    · simp [hp, hpc hp]
    · simp [hp]
  · intro hq hpos
    obtain ⟨hp, hpos'⟩ | ⟨id, hid⟩ := hack hq hpos
    · obtain ⟨id, hid⟩ := hin hp hpos'
      exact ⟨id, List.mem_append_left _ hid⟩
    · exact ⟨id, List.mem_append_right _ hid⟩

/-- A step of a call in progress, and what its return tells. -/
theorem Samples.publish (hi : Samples period h s) {a : PublishAct} {ds : List PublishEvent}
    {p : PublishState} (ha : NoCall a) (hs : publisher.step s.publish a = some (ds, p)) :
    Samples period (h ++ ds.map .publish) { s with publish := p } ∧
      (returnCode ds = some 0 → ∀ attempts, s.main.pc = .authWait attempts →
        Authorised (h ++ ds.map .publish) s.deviceId) := by
  cases publisher_step_cases hs with
  | refused topic formatted hpc => exact absurd rfl (ha topic formatted)
  | placed topic formatted d hpc hd => exact absurd rfl (ha topic formatted)
  | drain hpc =>
    have hempty : s.publish.publishAckSem.tryTake = ⟨0, 1⟩ :=
      Sem.tryTake_binary hi.binary.1 hi.binary.2
    refine ⟨hi.calls (by simp) (by simpa using hi.once) ?_ (by simp [hempty]),
      by simp [returnCode]⟩
    rw [List.map_nil, List.append_nil]
    cases hi.phase with
    | idle hidle hstage => simp [hidle] at hpc
    | authorising attempts hmain hbusy hid hd hc =>
      refine .authorising attempts hmain (by simp) hid hd ?_
      obtain ⟨k, l, hh, hl, -⟩ := hc
      rw [hpc] at hl
      exact ⟨k, l, hh, hl, by simp [hempty]⟩
    | sampling slept pulse frame hmain hbusy hauth hd =>
      exact .sampling slept pulse frame hmain (by simp) hauth hd
  | sendFailed ret hpc hret =>
    have hbusy : s.publish.pc ≠ .idle := by simp [hpc]
    have honce : EachEvent (SendsSamples period)
        (h ++ [SystemEvent.publish (.sent s.publish.pubData ret), .publish (.returned ret)]) := by
      rw [List.append_cons, eachEvent_concat, eachEvent_concat]
      exact ⟨⟨hi.once, hi.sends hbusy ret⟩, trivial⟩
    refine ⟨hi.idle hbusy (by simp [wlabOf, sensorOf]) honce (by simp) rfl hi.binary, ?_⟩
    intro hzero
    exact absurd (by simpa [returnCode] using hzero) hret
  | send hpc =>
    have hbusy : s.publish.pc ≠ .idle := by simp [hpc]
    have honce : EachEvent (SendsSamples period)
        (h ++ [SystemEvent.publish (.sent s.publish.pubData 0)]) :=
      eachEvent_concat.mpr ⟨hi.once, hi.sends hbusy 0⟩
    refine ⟨hi.calls (by simp [wlabOf, sensorOf]) honce ?_ hi.binary, by simp [returnCode]⟩
    cases hi.phase with
    | idle hidle hstage => exact absurd hidle hbusy
    | authorising attempts hmain hbusy hid hd hc =>
      refine .authorising attempts hmain (by simp) hid hd ?_
      apply hc.goes
      · rfl
      · simp [callOf, hpc]
      · exact fun _ => rfl
      · exact fun _ hpos => .inl ⟨by simp [hpc], hpos⟩
    | sampling slept pulse frame hmain hbusy hauth hd =>
      have hnone : NoAuthorisation [SystemEvent.publish (.sent s.publish.pubData 0)] := by
        intro d ret he
        simp only [List.mem_singleton, SystemEvent.publish.injEq, PublishEvent.sent.injEq] at he
        rw [he.1]
        exact hd.noAuthorisation
      exact .sampling slept pulse frame hmain (by simp) (hauth.append hnone) (hd.append rfl hnone)
  | ackTaken sem hpc htake =>
    have hbusy : s.publish.pc ≠ .idle := by simp [hpc]
    unfold Sem.take at htake
    split_ifs at htake with hzero
    cases htake
    have honce : EachEvent (SendsSamples period) (h ++ [SystemEvent.publish (.returned 0)]) :=
      eachEvent_concat.mpr ⟨hi.once, trivial⟩
    refine ⟨hi.idle hbusy (by simp [wlabOf, sensorOf]) honce (by simp) rfl
      ⟨hi.binary.1, (Nat.sub_le _ _).trans hi.binary.2⟩, fun _ attempts hmain => ?_⟩
    cases hi.phase with
    | idle hidle hstage => exact absurd hidle hbusy
    | authorising attempts hmain hbusy hid hd hc =>
      obtain ⟨k, l, hh, hl, hack⟩ := hc
      rw [if_pos hpc] at hl
      refine ⟨hid, k, s.publish.pubData, l, [], by simp [hh], hd, hl, ?_, by simp⟩
      exact hack (by simp [hpc]) (Nat.pos_of_ne_zero hzero)
    | sampling slept pulse frame hmain' hbusy hauth hd => simp [hmain'] at hmain
  | ackTimeout hpc htake =>
    have hbusy : s.publish.pc ≠ .idle := by simp [hpc]
    have honce : EachEvent (SendsSamples period)
        (h ++ [SystemEvent.publish (.returned (-EAGAIN))]) :=
      eachEvent_concat.mpr ⟨hi.once, trivial⟩
    exact ⟨hi.idle hbusy (by simp [wlabOf, sensorOf]) honce (by simp) rfl hi.binary,
      by simp [returnCode, EAGAIN]⟩
  | puback id result hmem =>
    have honce : EachEvent (SendsSamples period)
        (h ++ [SystemEvent.publish (.pubackHandled id result)]) :=
      eachEvent_concat.mpr ⟨hi.once, trivial⟩
    have hnone : NoAuthorisation [SystemEvent.publish (.pubackHandled id result)] := by
      simp [NoAuthorisation]
    have hbinary : (handlePuback s.publish.publishAckSem result).limit = 1 ∧
        (handlePuback s.publish.publishAckSem result).count ≤ 1 := by
      unfold handlePuback
      split_ifs
      · exact hi.binary
      · exact ⟨hi.binary.1, (min_le_right _ _).trans hi.binary.1.le⟩
    refine ⟨hi.calls (by simp [wlabOf, sensorOf]) honce ?_ hbinary, by simp [returnCode]⟩
    cases hi.phase with
    | idle hidle hstage => exact .idle hidle fun hfour => (hstage hfour).append hnone
    | authorising attempts hmain hbusy hid hd hc =>
      refine .authorising attempts hmain hbusy hid hd ?_
      apply hc.goes
      · rfl
      · simp [callOf]
      · exact fun hw => hw
      · intro hpc hpos
        by_cases hres : result = 0
        · right
          exact ⟨id, by simp [hres]⟩
        · left
          simp only [handlePuback, ne_eq, hres, not_false_eq_true, if_pos] at hpos
          exact ⟨hpc, hpos⟩
    | sampling slept pulse frame hmain hbusy hauth hd =>
      exact .sampling slept pulse frame hmain hbusy (hauth.append hnone) (hd.append rfl hnone)
  | other a p hpc hdata hsem hno =>
    refine ⟨?_, by simp [returnCode]⟩
    rw [List.map_nil, List.append_nil]
    exact hi.others rfl ⟨hpc, hdata, hsem⟩ rfl rfl

/-- `main` goes on after the call that authorises. -/
theorem Samples.authorised (hi : Samples period h s) (hidle : s.publish.pc = .idle)
    {attempts : ℕ} (hpc : s.main.pc = .authWait attempts) {rc : ℤ} {ms : ℕ} {m : MainState}
    (hm : MainCase period s.main (.publish rc ms) [] m)
    (hzero : rc = 0 → Authorised h s.deviceId) : Samples period h { s with main := m } := by
  constructor
  case once => exact hi.once
  case windows =>
    intro w hw
    exact hi.windows w ((main_wlab hm (by simp)).symm.trans hw)
  case sample => exact hi.sample
  case binary => exact hi.binary
  case phase =>
    refine .idle hidle fun hfour => ?_
    by_cases hrc : rc = 0
    · exact hzero hrc
    · have hthree := stage_four hm (by simp [hrc]) hfour
      simp [hpc, stage] at hthree

/-- `main` goes on after the call that sends the sample. -/
theorem Samples.sampled (hi : Samples period h s) (hidle : s.publish.pc = .idle) {ms : ℕ}
    {m : MainState} (hm : MainCase period s.main (.ack ms) [] m) :
    Samples period h { s with main := m, sample := none } := by
  constructor
  case once => exact hi.once
  case windows =>
    intro w hw
    exact hi.windows w ((main_wlab hm (by simp)).symm.trans hw)
  case sample => simp
  case binary => exact hi.binary
  case phase =>
    refine .idle hidle fun hfour => ?_
    cases hi.phase with
    | idle hpc hstage => exact hstage (stage_four hm (by simp) hfour)
    | authorising attempts hmain hbusy hid hd hsent => exact absurd hidle hbusy
    | sampling slept pulse frame hmain hbusy hauth hd => exact hauth

/-- A call that returns is idle again. -/
theorem returned_idle {p q : PublishState} {a : PublishAct} {ds : List PublishEvent} {rc : ℤ}
    (hs : publisher.step p a = some (ds, q)) (hrc : returnCode ds = some rc) : q.pc = .idle := by
  cases publisher_step_cases hs with
  | refused topic formatted hpc => exact hpc
  | sendFailed ret hpc hret => rfl
  | ackTaken sem hpc htake => rfl
  | ackTimeout hpc htake => rfl
  | _ => simp [returnCode] at hrc

theorem Samples.callStep (hi : Samples cfg.period h s) {a : PublishAct} (ha : NoCall a)
    (hc : CallCase cfg s a es u) : Samples cfg.period (h ++ es) u := by
  cases hc with
  | goes ds p hp hnone => exact (hi.publish ha hp).1
  | authorized ds p attempts rc m hp hrc hpc hm =>
    obtain ⟨hi', hzero⟩ := hi.publish ha hp
    apply hi'.authorised (returned_idle hp hrc) hpc hm
    rintro rfl
    exact hzero hrc attempts hpc
  | sampled ds p rc m hp hrc hsample hm =>
    exact (hi.publish ha hp).1.sampled (returned_idle hp hrc) hm

/-- What a call that is not refused prepares. -/
theorem messageOf_prepared (d : PubData) (topic : String) (text : List UInt8) :
    MessageOf topic text (preparePublish d (textBytes topic) (.text text)) :=
  ⟨rfl, rfl, rfl⟩

/-- A call that places nothing is refused. -/
theorem call_returns {p q : PublishState} {topic : List UInt8} {formatted : Formatted}
    {ds : List PublishEvent} {rc : ℤ}
    (hs : publisher.step p (.call topic formatted) = some (ds, q))
    (hrc : returnCode ds = some rc) : ds = [.returned (-ENETUNREACH)] ∧ q = p ∧ rc ≠ 0 := by
  cases publisher_step_cases hs with
  | refused topic formatted hpc =>
    obtain rfl : -ENETUNREACH = rc := by simpa [returnCode] using hrc
    exact ⟨rfl, rfl, by decide⟩
  | placed topic formatted d hpc hd => simp [returnCode] at hrc
  | other a q hpc hdata hsem hno => simp [returnCode] at hrc

/-- A call begins: it is refused, or it places its message. -/
theorem Samples.newCall (hi : Samples cfg.period h s) (hidle : s.publish.pc = .idle)
    {topic : List UInt8} {formatted : Formatted}
    (hphase : ∀ p : PublishState, p.pc = .drain →
      p.pubData = preparePublish s.publish.pubData topic formatted →
      CallPhase cfg.period (h ++ [.publish (.placed p.pubData.messageId)]) { s with publish := p })
    (hc : CallCase cfg s (.call topic formatted) es u) : Samples cfg.period (h ++ es) u := by
  have hrefused : Samples cfg.period (h ++ [SystemEvent.publish (.returned (-ENETUNREACH))]) s := by
    have honce : EachEvent (SendsSamples cfg.period)
        (h ++ [SystemEvent.publish (.returned (-ENETUNREACH))]) :=
      eachEvent_concat.mpr ⟨hi.once, trivial⟩
    refine hi.calls (by simp [wlabOf, sensorOf]) honce ?_ hi.binary
    cases hi.phase with
    | idle hpc hstage =>
      exact .idle hpc fun hfour => (hstage hfour).append (by simp [NoAuthorisation])
    | authorising attempts hmain hbusy hid hd hc => exact absurd hidle hbusy
    | sampling slept pulse frame hmain hbusy hauth hd => exact absurd hidle hbusy
  cases hc with
  | goes ds p hp hnone =>
    cases publisher_step_cases hp with
    | refused => simp [returnCode] at hnone
    | placed topic formatted d hpc hd =>
      have hplaced := hphase { s.publish with pc := .drain, pubData := d } rfl hd
      have honce : EachEvent (SendsSamples cfg.period)
          (h ++ [SystemEvent.publish (.placed d.messageId)]) :=
        eachEvent_concat.mpr ⟨hi.once, trivial⟩
      exact hi.calls (by simp [wlabOf, sensorOf]) honce hplaced hi.binary
    | other a p hpc hdata hsem hno =>
      rw [List.map_nil, List.append_nil]
      exact hi.others rfl ⟨hpc, hdata, hsem⟩ rfl rfl
  | authorized ds p attempts rc m hp hrc hpc hm =>
    obtain ⟨rfl, rfl, hne⟩ := call_returns hp hrc
    exact hrefused.authorised hidle hpc hm fun hzero => absurd hzero hne
  | sampled ds p rc m hp hrc hsample hm =>
    obtain ⟨rfl, rfl, hne⟩ := call_returns hp hrc
    exact hrefused.sampled hidle hm

theorem wlabStrDeviceIdGet_isDeviceId (fs : NvsFs) (mac : Fin 6 → UInt8) (c : GetCall) :
    IsDeviceId (wlabStrDeviceIdGet fs mac c).1 := by
  simp only [wlabStrDeviceIdGet]
  apply deviceIdText_isDeviceId

/-- The text of `wlab_authorize` names the device id that it has found. -/
theorem authText_of_wlabAuthorize {lib : FloatText} {mac : Fin 6 → UInt8} {fs : NvsFs}
    {name deviceId position : GetCall} {text : List UInt8}
    (h : (wlabAuthorize lib mac fs name deviceId position).1 = some text) :
    ∃ timezone latitude longitude nameText, authText timezone latitude longitude nameText
      (wlabStrDeviceIdGet (fetch .wlabName fs name).2 mac deviceId).1 = some text := by
  unfold wlabAuthorize at h
  exact ⟨_, _, _, _, h⟩

/-- The call that asks for the authorisation of a device id. -/
theorem Samples.authorize (hi : Samples cfg.period h s) {attempts : ℕ}
    (hpc : s.main.pc = .authWait attempts) (hidle : s.publish.pc = .idle) {fs : NvsFs}
    {name deviceId position : GetCall} {text : List UInt8} {uid : List Char}
    (htext : (wlabAuthorize cfg.lib cfg.mac fs name deviceId position).1 = some text)
    (huid : uid = (wlabStrDeviceIdGet (fetch .wlabName fs name).2 cfg.mac deviceId).1)
    (hc : CallCase cfg { s with deviceId := uid }
      (.call (textBytes CONFIG_WLAB_AUTH_TOPIC) (.text text)) es u) :
    Samples cfg.period (h ++ es) u := by
  have hid : IsDeviceId uid := by
    rw [huid]
    exact wlabStrDeviceIdGet_isDeviceId _ _ _
  have hi' : Samples cfg.period h { s with deviceId := uid } := by
    constructor
    case once => exact hi.once
    case windows => exact hi.windows
    case sample => exact hi.sample
    case binary => exact hi.binary
    case phase => exact .idle hidle (by simp [hpc, stage])
  apply hi'.newCall hidle _ hc
  intro p hdrain hdata
  refine .authorising attempts hpc (by simp [hdrain]) hid ?_ ⟨h, [], rfl, ?_, ?_⟩
  · obtain ⟨timezone, latitude, longitude, nameText, hauth⟩ := authText_of_wlabAuthorize htext
    rw [← huid] at hauth
    rw [hdata]
    exact ⟨timezone, latitude, longitude, nameText, text, hauth, messageOf_prepared _ _ _⟩
  · simp [hdrain]
  · exact fun hnot => absurd hdrain hnot

/-- The call that sends a sample. -/
theorem Samples.sample_call (hi : Samples cfg.period h s) {slept pulse frame : ℕ}
    (hpc : s.main.pc = .ack slept pulse frame) (hidle : s.publish.pc = .idle)
    {p : SampleArgs × ℤ} {text : List UInt8} (hp : s.sample = some p)
    (htext : sampleText (asciiBytes s.deviceId ++ [0]) p.1 = some text)
    (hc : CallCase cfg s (.call (textBytes CONFIG_WLAB_PUB_TOPIC) (.text text)) es u) :
    Samples cfg.period (h ++ es) u := by
  have hauth : Authorised h s.deviceId := by
    cases hi.phase with
    | idle hpc' hstage => exact hstage (by simp [hpc, stage])
    | authorising attempts hmain hbusy hid hd hc => exact absurd hidle hbusy
    | sampling slept pulse frame hmain hbusy hauth hd => exact hauth
  obtain ⟨pre, hsampled⟩ := hi.sample p hp
  apply hi.newCall hidle _ hc
  intro q hdrain hdata
  have hnone : NoAuthorisation [SystemEvent.publish (.placed q.pubData.messageId)] := by
    simp [NoAuthorisation]
  refine .sampling slept pulse frame hpc (by simp [hdrain]) (hauth.append hnone) ?_
  rw [hdata]
  exact ⟨_, pre, p.1, text, hauth.append (by simp [NoAuthorisation]), hsampled.append rfl, htext,
    messageOf_prepared _ _ _⟩

end Calls

section Process
variable {cfg : Config} {h : List SystemEvent} {s : SystemState}

/-- What is left for the publish is the sample of the windows before the call. -/
theorem sampled_process {period : ℕ} {w : WlabState} {c : Call} {ds : List WlabEvent}
    {y : Except Fault WlabState} (hc : ProcessCase period w c ds y) {p : SampleArgs × ℤ}
    (hp : sampleOf ds = some p) : p = (sampleArgs w.temp w.rh, c.publishRc) ∧
      (∀ serie, (w.buffer serie).cnt ≠ 0) ∧ ∃ r, ds = [.sensorRead c.secs (some r),
        .publish c.secs p.1 c.publishRc, .bufferInit .temperature, .bufferInit .humidity] := by
  cases hc with
  | published r hg hs hd ht hh =>
    obtain rfl : (sampleArgs w.temp w.rh, c.publishRc) = p := by simpa [sampleOf] using hp
    refine ⟨rfl, ?_, r, rfl⟩
    intro serie
    cases serie with
    | temperature => exact ht
    | humidity => exact hh
  | zeroGrid r es hg hs hd hG he =>
    rcases he with rfl | rfl <;> simp [sampleOf, commitEvent] at hp
  | _ => simp [sampleOf, commitEvent] at hp

/-- A call that the rate gate stops. -/
theorem process_skipped {period : ℕ} {s m : MainState} {wl : WlabState} {reading : Option Reading}
    {rc : ℤ} {ds : List WlabEvent} (hwl : s.wlab = .ok wl)
    (hgate : ¬ Reads wl ⟨timestampGet s.clock s.uptime, none, rc⟩)
    (hm : MainCase period s (.process reading rc) ds m) : ds = [] ∧ m.wlab = s.wlab := by
  cases hm with
  | process slept w c hpc hw hsecs =>
    obtain rfl : wl = w := by simpa [hwl] using hw
    have hgate' : c.secs - wl.lastSecs < measurePeriod := by
      rw [hsecs]
      exact not_le.mp hgate
    rw [wlabProcess, if_pos hgate']
    exact ⟨rfl, hwl.symm⟩

/-- `main` after a call of `wlab_process` that has read the sensor, and the call that it
leads to. -/
theorem Samples.process (hi : Samples cfg.period h s) {wl : WlabState}
    (hwl : s.main.wlab = .ok wl) {r : ReadResult} {reading : Option Reading}
    (hr : reading = readingOf r) {rc : ℤ} {ds : List WlabEvent} {m : MainState}
    (hreads : Reads wl ⟨timestampGet s.main.clock s.main.uptime, none, rc⟩)
    (hm : MainCase cfg.period s.main (.process reading rc) ds m) (d : Dht) :
    Samples cfg.period (h ++ .sensor r :: ds.map .wlab)
      { s with main := m, sensor := d, sample := sampleOf ds } := by
  obtain ⟨hinv, ht⟩ := hi.windows wl hwl
  have hhist : (h ++ SystemEvent.sensor r :: ds.map .wlab).flatMap wlabOf =
      h.flatMap wlabOf ++ ds := by simp [wlabOf, List.flatMap_map]
  have hphase : s.publish.pc = .idle ∧ Authorised h s.deviceId := by
    obtain ⟨slept, hpc⟩ := process_pc hm
    cases hi.phase with
    | idle hidle hstage => exact ⟨hidle, hstage (by simp [hpc, stage])⟩
    | authorising attempts hmain hbusy hid hd hc => simp [hpc] at hmain
    | sampling slept pulse frame hmain hbusy hauth hd => simp [hpc] at hmain
  cases hm with
  | process slept w c hpc hw hsecs =>
    obtain rfl : wl = w := by simpa [hwl] using hw
    have hc := wlabProcess_cases cfg.period wl c
    have hgate : Reads wl c := by
      unfold Reads
      rw [hsecs]
      exact hreads
    constructor
    case once =>
      apply (eachEvent_append _).mpr hi.once
      simp [SendsSamples]
    case windows =>
      intro t (hok : (wlabProcess cfg.period wl c).2 = .ok t)
      rw [hok] at hc
      rw [hhist]
      exact ⟨hinv.step (hc.window _), ht.process hinv hr hgate hc⟩
    case sample =>
      intro p hp
      obtain ⟨rfl, hcnt, x, hds⟩ := sampled_process hc hp
      refine ⟨h, ?_⟩
      constructor
      case last =>
        refine ⟨r, c.secs, some x, c.publishRc, [.wlab (.bufferInit .temperature),
          .wlab (.bufferInit .humidity)], ?_, rfl⟩
        rw [hds]
        simp only [List.map_cons, List.map_nil]
      case args =>
        simp only [measuredWindow]
        rw [← ht, ← ht, ← hinv.buffer, ← hinv.buffer]
        rfl
      case nonempty =>
        intro serie hnil
        apply hcnt serie
        unfold measuredWindow at hnil
        rw [hinv.buffer, ht, hnil]
        rfl
    case phase =>
      refine .idle hphase.1 fun _ => hphase.2.append ?_
      simp [NoAuthorisation]
    case binary => exact hi.binary

end Process

section Steps
variable {cfg : Config} {h es : List SystemEvent} {s u : SystemState}

theorem Samples.step (hi : Samples cfg.period h s) {a : SystemAct}
    (hc : SystemCase cfg s a es u) : Samples cfg.period (h ++ es) u := by
  have hnil : Samples cfg.period (h ++ []) s := by rwa [List.append_nil]
  cases hc with
  | tick ms hlimit => exact hnil.others rfl ⟨rfl, rfl, rfl⟩ rfl rfl
  | wifiInit ret m ds w hpc hm hw =>
    have hmain := hi.mainStep hm (main_wlab hm (by simp)) (by simp) (by simp)
    exact (hmain.wifi ds).others rfl ⟨rfl, rfl, rfl⟩ rfl rfl
  | wifiWait act a given secCnt m ds w hgiven hpc hw hm =>
    have hmain := hi.mainStep hm (main_wlab hm (by simp)) (by simp) (by simp)
    exact (hmain.wifi ds).others rfl ⟨rfl, rfl, rfl⟩ rfl rfl
  | mqttInit m w hpc hw hm =>
    have hi' := hnil.mainStep hm (main_wlab hm (by simp)) (by simp) (by simp)
    exact hi'.others rfl ⟨rfl, rfl, rfl⟩ rfl rfl
  | mqttTaken secCnt sem m hpc htake hm =>
    have hi' := hnil.mainStep hm (main_wlab hm (by simp)) (by simp) (by simp)
    exact hi'.others rfl ⟨rfl, rfl, rfl⟩ rfl rfl
  | mqttTimeout secCnt m hpc hm =>
    exact hnil.mainStep hm (main_wlab hm (by simp)) (by simp) (by simp)
  | proceed m hpc hpc' hm =>
    have hc := main_step_cases hm
    exact hnil.mainStep hc (main_wlab hc (by simp)) (by simp) (by simp)
  | sync answer m hm =>
    apply (hi.mainStep hm (main_wlab hm (by simp)) (by simp) (by simp)).quiet
    split_ifs <;> simp [Unrelated, wlabOf, sensorOf, callOf]
  | authorize fs name deviceId position attempts text uid es u hpc htext huid hidle hc =>
    exact hi.authorize hpc hidle htext huid hc
  | wait act a m ha hm =>
    rcases ha with rfl | rfl | rfl
    · exact hnil.mainStep hm (main_wlab hm (by simp)) (by simp) (by simp)
    · exact hnil.mainStep hm (main_wlab hm (by simp)) (by simp) (by simp)
    · exact hnil.mainStep hm (main_wlab hm (by simp)) (by simp) (by simp)
  | skip usNow w publishRc wl ds m hwl hreads hm =>
    obtain ⟨rfl, hsame⟩ := process_skipped hwl hreads hm
    exact hnil.mainStep hm hsame (by simp) (by simp)
  | read usNow w publishRc wl r reading ds m d hwl hreads hr hreading hm =>
    exact hi.process hwl hreading hreads hm d
  | sample p slept pulse frame text es u hpc hp htext hidle hc =>
    exact hi.sample_call hpc hidle hp htext hc
  | publish a es u ha hc =>
    apply hi.callStep _ hc
    rintro topic formatted rfl
    cases ha
  | keepalive m hm =>
    apply (hi.mainStep hm (main_wlab hm (by simp)) (by simp) (by simp)).quiet
    split_ifs <;> simp [Unrelated, wlabOf, sensorOf, callOf]
  | address dhcp w hmem hw =>
    have hi' : Samples cfg.period (h ++ [.address]) s :=
      hi.quiet (by simp [Unrelated, wlabOf, sensorOf, callOf])
    exact hi'.others rfl ⟨rfl, rfl, rfl⟩ rfl rfl
  | lost status ds w hdisco hw =>
    exact (hi.wifi ds).others rfl ⟨rfl, rfl, rfl⟩ rfl rfl
  | handler a ds w ha hno hdisco hw =>
    exact (hi.wifi ds).others rfl ⟨rfl, rfl, rfl⟩ rfl rfl
  | worker a ds t ha hs =>
    exact (hi.worker ds).others rfl ⟨rfl, rfl, rfl⟩ rfl rfl
  | puback id result ds p hinput hp =>
    have hi' : Samples cfg.period (h ++ [.worker (.event .puback result)])
        (s.withWorker (mqttEvtHandler s.worker .puback result)) :=
      (hi.worker [.event .puback result]).others rfl ⟨rfl, rfl, rfl⟩ rfl rfl
    rw [List.append_cons]
    exact (hi'.publish (by simp [NoCall]) hp).1
  | broker a ds p ha hp =>
    refine (hi.publish ?_ hp).1
    rintro topic formatted rfl
    cases ha
  | stray usNow => exact hnil.others rfl ⟨rfl, rfl, rfl⟩ rfl rfl

end Steps

/-- A turn in which nothing is due. -/
def idleTurn : List SystemAct :=
  [.proceed, .tick 200, .sleep, .process 0 (frameWaveform frostFrame.toNat) 0, .proceed, .keepalive]

end WlabStation.System
