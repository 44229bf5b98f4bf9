import WlabStation.Machine.Run
import WlabStation.Machine.Fixed
import WlabStation.Machine.Kernel

/-! Publishing: `mqtt_worker_publish_qos1`, the `MQTT_EVT_PUBACK` branch of
`mqtt_evt_handler` and a broker behind channels that delay, reorder and lose. -/
namespace WlabStation.Mqtt

def ENETUNREACH : ℤ := 114
def EAGAIN : ℤ := 11
def MQTT_WORKER_MAX_PUBLISH_LEN : ℕ := 512

/-- What `vsnprintf` makes of the format and its arguments: a text, of which the
buffer takes a part when it is too long, or a negative error. -/
inductive Formatted where
  | text (bytes : List UInt8)
  | error (rc : ℤ)
  deriving DecidableEq, Repr

/-- `PubData`, with the string that `PublishBuffer` holds as its payload data. -/
structure PubData where
  payload : List UInt8
  payloadLen : ℕ
  topic : List UInt8
  qos : ℕ
  dupFlag : ℕ
  retainFlag : ℕ
  messageId : UInt16
  deriving DecidableEq, Repr

/-- The assignments before the send. The length is the one `vsnprintf` returns. -/
def preparePublish (d : PubData) (topic : List UInt8) (formatted : Formatted) : PubData :=
  { d with
    payload := match formatted with
      | .text bytes => bytes.take (MQTT_WORKER_MAX_PUBLISH_LEN - 1)
      | .error _ => d.payload
    payloadLen := match formatted with
      | .text bytes => u32 bytes.length
      | .error rc => u32 rc
    topic := topic
    qos := 1
    messageId := d.messageId + 1 }

/-- Where a call of `mqtt_worker_publish_qos1` stands. -/
inductive PublishPc where
  | idle
  | drain
  | send
  | waitAck
  deriving DecidableEq, Repr

structure PublishState where
  pc : PublishPc
  pubData : PubData
  publishAckSem : Sem
  connected : Bool
  disconnectReqExternal : Bool
  toBroker : List UInt16
  received : List UInt16
  toClient : List UInt16
  deriving DecidableEq, Repr

/-- Steps of the publisher, of the threads that set the two flags, of the
broker and the network, and of the handler of a PUBACK. -/
inductive PublishAct where
  | call (topic : List UInt8) (formatted : Formatted)
  | drain
  | send (ret : ℤ)
  | ackTaken
  | ackTimeout
  | setConnected (connected : Bool)
  | setDisconnectReq (req : Bool)
  | brokerReceive (id : UInt16)
  | lose (id : UInt16)
  | brokerAck (id : UInt16)
  | loseAck (id : UInt16)
  | puback (id : UInt16) (result : ℤ)
  deriving DecidableEq, Repr

inductive PublishEvent where
  | placed (id : UInt16)
  | sent (data : PubData) (ret : ℤ)
  | pubackHandled (id : UInt16) (result : ℤ)
  | returned (ret : ℤ)
  deriving DecidableEq, Repr

/-- The handler gives the semaphore for every PUBACK without error. -/
def handlePuback (sem : Sem) (result : ℤ) : Sem := if result ≠ 0 then sem else sem.give

/-- The parties. A wait that times out found the semaphore empty to its end. -/
def publisher : Machine PublishState PublishAct PublishEvent where
  step s a :=
    match a, s.pc with
    | .call topic formatted, .idle =>
        if ¬ s.connected ∨ s.disconnectReqExternal then some ([.returned (-ENETUNREACH)], s)
        else
          let d := preparePublish s.pubData topic formatted
          some ([.placed d.messageId], { s with pc := .drain, pubData := d })
    | .drain, .drain => some ([], { s with pc := .send, publishAckSem := s.publishAckSem.tryTake })
    | .send ret, .send =>
        if ret ≠ 0 then some ([.sent s.pubData ret, .returned ret], { s with pc := .idle })
        else some ([.sent s.pubData ret],
          { s with pc := .waitAck, toBroker := s.pubData.messageId :: s.toBroker })
    | .ackTaken, .waitAck => s.publishAckSem.take.map fun sem =>
        ([.returned 0], { s with pc := .idle, publishAckSem := sem })
    | .ackTimeout, .waitAck =>
        if s.publishAckSem.take = none then some ([.returned (-EAGAIN)], { s with pc := .idle })
        else none
    | .setConnected connected, _ => some ([], { s with connected })
    | .setDisconnectReq req, _ => some ([], { s with disconnectReqExternal := req })
    | .brokerReceive id, _ =>
        if id ∈ s.toBroker then
          some ([], { s with toBroker := s.toBroker.erase id, received := id :: s.received })
        else none
    | .lose id, _ => some ([], { s with toBroker := s.toBroker.erase id })
    | .brokerAck id, _ =>
        if id ∈ s.received then some ([], { s with toClient := id :: s.toClient }) else none
    | .loseAck id, _ => some ([], { s with toClient := s.toClient.erase id })
    | .puback id result, _ =>
        if id ∈ s.toClient then
          some ([.pubackHandled id result], { s with
            toClient := s.toClient.erase id
            publishAckSem := handlePuback s.publishAckSem result })
        else none
    | _, _ => none

/-- The statics as `mqtt_worker_init` leaves them. -/
def publishInit : PublishState where
  pc := .idle
  pubData := ⟨[], 0, [], 0, 0, 1, 1⟩
  publishAckSem := ⟨0, 1⟩
  connected := false
  disconnectReqExternal := false
  toBroker := []
  received := []
  toClient := []

/-- The id that the call in progress has placed, and the ids of the PUBACKs
without error that were handled since. -/
def openCallStep (o : Option (UInt16 × List UInt16)) :
    PublishEvent → Option (UInt16 × List UInt16)
  | .placed id => some (id, [])
  | .sent _ _ => o
  | .pubackHandled id result => if result ≠ 0 then o else o.map fun c => (c.1, id :: c.2)
  | .returned _ => none

def openCall (h : List PublishEvent) : Option (UInt16 × List UInt16) :=
  h.foldl openCallStep none

/-- A call returns 0 only after a PUBACK for the id it placed was handled. -/
def AckedReturn (x : List PublishEvent × PublishState) (a : PublishAct) : Prop :=
  ∀ es t, publisher.step x.2 a = some (es, t) → .returned 0 ∈ es →
    ∃ c ∈ openCall x.1, c.1 ∈ c.2

/-- A PUBACK without error that is handled after the drain of a call is for the
id of this call, or one for this id was handled before. -/
def MatchingAck (x : List PublishEvent × PublishState) (a : PublishAct) : Prop :=
  match a with
  | .puback id result => result = 0 → x.2.pc = .send ∨ x.2.pc = .waitAck →
      ∀ c ∈ openCall x.1, id = c.1 ∨ c.1 ∈ c.2
  | _ => True

instance (x : List PublishEvent × PublishState) (a : PublishAct) :
    Decidable (MatchingAck x a) := by
  unfold MatchingAck
  split <;> infer_instance

theorem openCall_append (h k : List PublishEvent) :
    openCall (h ++ k) = k.foldl openCallStep (openCall h) := List.foldl_append

/-- What the steps do to the call in progress and to the semaphore. -/
inductive PublishCase (s : PublishState) : PublishAct → List PublishEvent → PublishState → Prop
  | refused (topic : List UInt8) (formatted : Formatted) : s.pc = .idle →
      PublishCase s (.call topic formatted) [.returned (-ENETUNREACH)] s
  | placed (topic : List UInt8) (formatted : Formatted) (d : PubData) : s.pc = .idle →
      d = preparePublish s.pubData topic formatted →
      PublishCase s (.call topic formatted) [.placed d.messageId]
        { s with pc := .drain, pubData := d }
  | drain : s.pc = .drain → PublishCase s .drain []
      { s with pc := .send, publishAckSem := s.publishAckSem.tryTake }
  | sendFailed (ret : ℤ) : s.pc = .send → ret ≠ 0 →
      PublishCase s (.send ret) [.sent s.pubData ret, .returned ret] { s with pc := .idle }
  | send : s.pc = .send → PublishCase s (.send 0) [.sent s.pubData 0]
      { s with pc := .waitAck, toBroker := s.pubData.messageId :: s.toBroker }
  | ackTaken (sem : Sem) : s.pc = .waitAck → s.publishAckSem.take = some sem →
      PublishCase s .ackTaken [.returned 0] { s with pc := .idle, publishAckSem := sem }
  | ackTimeout : s.pc = .waitAck → s.publishAckSem.take = none →
      PublishCase s .ackTimeout [.returned (-EAGAIN)] { s with pc := .idle }
  | puback (id : UInt16) (result : ℤ) : id ∈ s.toClient →
      PublishCase s (.puback id result) [.pubackHandled id result] { s with
        toClient := s.toClient.erase id
        publishAckSem := handlePuback s.publishAckSem result }
  | other (a : PublishAct) (t : PublishState) : t.pc = s.pc → t.pubData = s.pubData →
      t.publishAckSem = s.publishAckSem → (∀ id result, a ≠ .puback id result) →
      PublishCase s a [] t

theorem publisher_step_cases {s t : PublishState} {a : PublishAct} {es : List PublishEvent}
    (h : publisher.step s a = some (es, t)) : PublishCase s a es t := by
  cases a with
  | call topic formatted =>
    unfold publisher at h
    cases hp : s.pc <;> simp only [hp, reduceCtorEq] at h
    split_ifs at h
    · cases h
      exact .refused topic formatted hp
    · cases h
      exact .placed topic formatted _ hp rfl
  | drain =>
    unfold publisher at h
    cases hp : s.pc <;> simp only [hp, reduceCtorEq] at h
    cases h
    exact .drain hp
  | send ret =>
    unfold publisher at h
    cases hp : s.pc <;> simp only [hp, reduceCtorEq] at h
    split_ifs at h with hret
    · cases h
      exact .sendFailed ret hp hret
    · cases h
      obtain rfl := not_not.mp hret
      exact .send hp
  | ackTaken =>
    unfold publisher at h
    cases hp : s.pc <;> simp only [hp, reduceCtorEq, Option.map_eq_some_iff] at h
    obtain ⟨sem, hsem, h⟩ := h
    cases h
    exact .ackTaken sem hp hsem
  | ackTimeout =>
    unfold publisher at h
    cases hp : s.pc <;> simp only [hp, reduceCtorEq] at h
    split_ifs at h with hsem
    cases h
    exact .ackTimeout hp hsem
  | puback id result =>
    dsimp only [publisher] at h
    split_ifs at h with hid
    cases h
    exact .puback id result hid
  | setConnected connected =>
    cases h
    exact .other _ _ rfl rfl rfl (by simp)
  | setDisconnectReq req =>
    cases h
    exact .other _ _ rfl rfl rfl (by simp)
  | brokerReceive id =>
    dsimp only [publisher] at h
    split_ifs at h
    cases h
    exact .other _ _ rfl rfl rfl (by simp)
  | lose id =>
    cases h
    exact .other _ _ rfl rfl rfl (by simp)
  | brokerAck id =>
    dsimp only [publisher] at h
    split_ifs at h
    cases h
    exact .other _ _ rfl rfl rfl (by simp)
  | loseAck id =>
    cases h
    exact .other _ _ rfl rfl rfl (by simp)

end WlabStation.Mqtt
