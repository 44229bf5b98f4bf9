import WlabStation.Mqtt.Publish

/-! The length that `mqtt_worker_publish_qos1` sends against the text that
`vsnprintf` has put into the buffer. -/
namespace WlabStation.Mqtt

/-- The whole text and its terminator fit the buffer. -/
def FitsBuffer : Formatted → Prop
  | .text bytes => bytes.length ≤ MQTT_WORKER_MAX_PUBLISH_LEN - 1
  | .error _ => False

instance fitsBuffer.decidable : ∀ formatted, Decidable (FitsBuffer formatted)
  | .text bytes => inferInstanceAs (Decidable (bytes.length ≤ MQTT_WORKER_MAX_PUBLISH_LEN - 1))
  | .error _ => inferInstanceAs (Decidable False)

/-- The events of one call: what is sent is the whole text, and without one that
fits nothing is sent and an error returned. -/
structure SendsWhole (formatted : Formatted) (h : List PublishEvent) : Prop where
  whole : ∀ d ret, .sent d ret ∈ h → d.payloadLen ≤ MQTT_WORKER_MAX_PUBLISH_LEN - 1 ∧
    formatted = .text d.payload ∧ d.payloadLen = d.payload.length
  refused : ¬ FitsBuffer formatted → ∀ e ∈ h, (∀ d ret, e ≠ .sent d ret) ∧ e ≠ .returned 0

/-- Steps of the other parties, and of the call in progress. -/
def NoCall (a : PublishAct) : Prop := ∀ topic formatted, a ≠ .call topic formatted

/-- Until the next call `PubData` stays, and all that is sent is `PubData`. -/
theorem sent_pubData {s t : PublishState} {as : List PublishAct} {h : List PublishEvent}
    (hr : publisher.Runs s as h t) (has : ∀ a ∈ as, NoCall a) :
    t.pubData = s.pubData ∧ ∀ d ret, .sent d ret ∈ h → d = s.pubData := by
  apply Machine.Runs.invariant_of_eachStep (C := fun _ a => NoCall a)
    (I := fun h t => t.pubData = s.pubData ∧ ∀ d ret, .sent d ret ∈ h → d = s.pubData)
    _ _ (Machine.eachStep_of_mem s has) hr
  · exact ⟨rfl, by simp⟩
  · rintro h t a es u ⟨hdata, hsent⟩ ha hs
    have hstep : u.pubData = t.pubData ∧ ∀ d ret, .sent d ret ∈ es → d = t.pubData := by
      cases publisher_step_cases hs with
      | refused topic formatted hpc => exact absurd rfl (ha topic formatted)
      | placed topic formatted d hpc hd => exact absurd rfl (ha topic formatted)
      | sendFailed ret hpc hret => simp
      | send hpc => simp
      | other a u hpc hd hsem hne => exact ⟨hd, by simp⟩
      | _ => simp
    constructor
    · exact hstep.1.trans hdata
    · intro d ret hd
      rcases List.mem_append.mp hd with hd | hd
      · exact hsent d ret hd
      · exact (hstep.2 d ret hd).trans hdata

/-- After a call has returned nothing is sent or returned until the next call. -/
theorem idle_quiet {s t : PublishState} {as : List PublishAct} {h : List PublishEvent}
    (hr : publisher.Runs s as h t) (has : ∀ a ∈ as, NoCall a) (hs : s.pc = .idle) :
    t.pc = .idle ∧ ∀ e ∈ h, (∀ d ret, e ≠ .sent d ret) ∧ e ≠ .returned 0 := by
  apply Machine.Runs.invariant_of_eachStep (C := fun _ a => NoCall a)
    (I := fun h t => t.pc = .idle ∧ ∀ e ∈ h, (∀ d ret, e ≠ .sent d ret) ∧ e ≠ .returned 0)
    _ _ (Machine.eachStep_of_mem s has) hr
  · exact ⟨hs, by simp⟩
  · rintro h t a es u ⟨hpc, hquiet⟩ ha hs
    have hstep : u.pc = t.pc ∧ ∀ e ∈ es, (∀ d ret, e ≠ .sent d ret) ∧ e ≠ .returned 0 := by
      cases publisher_step_cases hs with
      | refused topic formatted => exact absurd rfl (ha topic formatted)
      | placed topic formatted => exact absurd rfl (ha topic formatted)
      | puback id result hid => simp
      | other a u hsame => exact ⟨hsame, by simp⟩
      | drain hp => simp [hpc] at hp
      | sendFailed ret hp => simp [hpc] at hp
      | send hp => simp [hpc] at hp
      | ackTaken sem hp => simp [hpc] at hp
      | ackTimeout hp => simp [hpc] at hp
    constructor
    · exact hstep.1.trans hpc
    · intro e he
      rcases List.mem_append.mp he with he | he
      · exact hquiet e he
      · exact hstep.2 e he

theorem u32_of_le {n : ℕ} (h : n ≤ 511) : u32 n = n := by
  unfold u32
  omega

theorem preparePublish_fits {bytes : List UInt8} (h : FitsBuffer (.text bytes)) (d : PubData)
    (topic : List UInt8) :
    (preparePublish d topic (.text bytes)).payload = bytes ∧
      (preparePublish d topic (.text bytes)).payloadLen = bytes.length :=
  ⟨List.take_of_length_le h, u32_of_le h⟩

section
variable {s : PublishState} (hs : s.pc = .idle) (topic : List UInt8) (formatted : Formatted)
include hs

theorem call_refused (hoff : s.connected = false ∨ s.disconnectReqExternal = true) :
    publisher.step s (.call topic formatted) = some ([.returned (-ENETUNREACH)], s) := by
  have hcond : ¬ s.connected ∨ s.disconnectReqExternal := by simpa using hoff
  unfold publisher
  simp only [hs]
  rw [if_pos hcond]

theorem call_placed (hon : ¬ (s.connected = false ∨ s.disconnectReqExternal = true)) :
    publisher.step s (.call topic formatted) =
      some ([.placed (preparePublish s.pubData topic formatted).messageId],
        { s with pc := .drain, pubData := preparePublish s.pubData topic formatted }) := by
  have hcond : ¬ (¬ s.connected ∨ s.disconnectReqExternal) := by simpa using hon
  unfold publisher
  simp only [hs]
  rw [if_neg hcond]

/-- A call that is refused at once. -/
theorem sendsWhole_refused (hoff : s.connected = false ∨ s.disconnectReqExternal = true)
    {as : List PublishAct} {h : List PublishEvent} {t : PublishState}
    (has : ∀ a ∈ as, NoCall a) (hr : publisher.Runs s (.call topic formatted :: as) h t) :
    SendsWhole formatted h := by
  obtain ⟨es, u, k, hstep, hrest, rfl⟩ := Machine.runs_cons.mp hr
  rw [call_refused hs topic formatted hoff] at hstep
  cases hstep
  have hunreach : -ENETUNREACH ≠ 0 := by decide
  have hquiet : ∀ e ∈ [.returned (-ENETUNREACH)] ++ k,
      (∀ d ret, e ≠ PublishEvent.sent d ret) ∧ e ≠ .returned 0 := by
    intro e he
    rcases List.mem_append.mp he with he | he
    · rw [List.mem_singleton.mp he]
      simpa using hunreach
    · exact (idle_quiet hrest has hs).2 e he
  constructor
  case whole =>
    intro d ret hd
    exact absurd rfl ((hquiet _ hd).1 d ret)
  case refused =>
    intro _ e he
    exact hquiet e he

/-- A call with a text that fits. -/
theorem sendsWhole_fits (hon : ¬ (s.connected = false ∨ s.disconnectReqExternal = true))
    (hfits : FitsBuffer formatted) {as : List PublishAct} {h : List PublishEvent} {t : PublishState}
    (has : ∀ a ∈ as, NoCall a) (hr : publisher.Runs s (.call topic formatted :: as) h t) :
    SendsWhole formatted h := by
  obtain ⟨es, u, k, hstep, hrest, rfl⟩ := Machine.runs_cons.mp hr
  rw [call_placed hs topic formatted hon] at hstep
  cases hstep
  constructor
  case whole =>
    intro d ret hd
    rcases List.mem_append.mp hd with hd | hd
    · simp at hd
    · have hdata := (sent_pubData hrest has).2 d ret hd
      cases formatted with
      | error rc => exact absurd hfits id
      | text bytes =>
        obtain ⟨hpayload, hlen⟩ := preparePublish_fits hfits s.pubData topic
        rw [hdata, hpayload, hlen]
        exact ⟨hfits, rfl, rfl⟩
  case refused =>
    intro hnot
    exact absurd hfits hnot

/-- A call that places its message goes on to send it. -/
theorem exists_sent (hon : ¬ (s.connected = false ∨ s.disconnectReqExternal = true)) :
    ∃ h t d, publisher.Runs s [.call topic formatted, .drain, .send 0] h t ∧ .sent d 0 ∈ h := by
  let d := preparePublish s.pubData topic formatted
  let placed := { s with pc := .drain, pubData := d }
  let drained := { placed with pc := .send, publishAckSem := s.publishAckSem.tryTake }
  have hrest : publisher.Runs placed [.drain, .send 0] [.sent d 0]
      { drained with pc := .waitAck, toBroker := d.messageId :: s.toBroker } := rfl
  refine ⟨_, _, d, Machine.runs_cons.mpr ⟨_, _, _, call_placed hs topic formatted hon, hrest,
    rfl⟩, ?_⟩
  simp

end

/-- A call sends the whole text or nothing exactly if it is refused for the
connection or its text fits. -/
theorem publish_whole_iff {s : PublishState} (hs : s.pc = .idle) (topic : List UInt8)
    (formatted : Formatted) :
    (∀ as h t, (∀ a ∈ as, NoCall a) → publisher.Runs s (.call topic formatted :: as) h t →
      SendsWhole formatted h) ↔
      (s.connected = false ∨ s.disconnectReqExternal = true) ∨ FitsBuffer formatted := by
  constructor
  · intro hall
    by_contra hnot
    rw [not_or] at hnot
    obtain ⟨hon, hlong⟩ := hnot
    obtain ⟨h, t, d, hr, hsent⟩ := exists_sent hs topic formatted hon
    have hacts : ∀ a ∈ [PublishAct.drain, .send 0], NoCall a := by simp [NoCall]
    exact ((hall _ h t hacts hr).refused hlong _ hsent).1 d 0 rfl
  · rintro (hoff | hfits) as h t has hr
    · exact sendsWhole_refused hs topic formatted hoff has hr
    · by_cases hoff : s.connected = false ∨ s.disconnectReqExternal = true
      · exact sendsWhole_refused hs topic formatted hoff has hr
      · exact sendsWhole_fits hs topic formatted hoff hfits has hr

theorem short_text_sent_whole :
    ∃ h t, publisher.Runs { publishInit with connected := true }
        [.call [119] (.text [49]), .drain, .send 0, .ackTimeout] h t ∧
      SendsWhole (.text [49]) h := by
  have hrun : (publisher.run { publishInit with connected := true }
      [.call [119] (.text [49]), .drain, .send 0, .ackTimeout]).isSome := by decide
  have hr := Machine.runs_get hrun
  have hacts : ∀ a ∈ [PublishAct.drain, .send 0, .ackTimeout], NoCall a := by simp [NoCall]
  exact ⟨_, _, hr, (publish_whole_iff rfl [119] (.text [49])).mpr (.inr (by decide)) _ _ _ hacts hr⟩

/-- A text of 512 bytes. -/
def longText : Formatted := .text (List.replicate 512 65)

/-- It is sent with a length of 512, of which the buffer holds 511 bytes. -/
theorem long_text_sent_beyond_buffer :
    let d := preparePublish publishInit.pubData [119] longText
    (∃ t, publisher.Runs publishInit [.setConnected true, .call [119] longText, .drain, .send 0]
      [.placed d.messageId, .sent d 0] t) ∧
    d.payloadLen = 512 ∧ d.payload.length = 511 ∧
    ¬ SendsWhole longText [.placed d.messageId, .sent d 0] := by
  intro d
  have hlen : d.payloadLen = u32 (List.replicate 512 (65 : UInt8)).length := rfl
  have hpayload : d.payload = (List.replicate 512 65).take 511 := rfl
  rw [List.length_replicate] at hlen
  refine ⟨⟨_, rfl⟩, hlen, ?_, ?_⟩
  · rw [hpayload, List.length_take, List.length_replicate]
    rfl
  · intro hwhole
    have hle := (hwhole.whole d 0 (by simp)).1
    rw [hlen] at hle
    exact absurd hle (by decide)

end WlabStation.Mqtt
