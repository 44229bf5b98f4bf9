import WlabStation.Machine.Run
import WlabStation.Machine.Kernel
import WlabStation.Machine.Memory

/-! Received messages: the `MQTT_EVT_PUBLISH` branch of `mqtt_evt_handler` and
`subscribe_proc` as two threads over one slab of blocks and one queue. -/
namespace WlabStation.Mqtt

def MQTT_WORKER_MAX_TOPIC_LEN : ℕ := 128
def MQTT_WORKER_MAX_PAYLOAD_LEN : ℕ := 256

/-- Offsets of the fields of `subs_data_t`. -/
def topicAt : ℕ := 0
def topicLenAt : ℕ := 128
def payloadAt : ℕ := 130
def payloadLenAt : ℕ := 386

/-- The header of a received PUBLISH. MQTT bounds the length of its payload. -/
structure PublishParam where
  topic : List UInt8
  payloadLen : ℕ
  le : payloadLen ≤ 268435455
  deriving DecidableEq

/-- Where the handler stands. `len` bytes are still to be read. -/
inductive HandlerPc where
  | idle
  | alloc (pub : PublishParam)
  | check (pub : PublishParam) (block : Option ℕ)
  | drain (len : ℕ)
  | receive (pub : PublishParam) (block len readIdx : ℕ)
  | enqueue (block : ℕ)
  deriving DecidableEq

/-- The data shared by the two threads, and where each of them stands. -/
structure SubsState where
  slab : Slab ℕ
  queue : Msgq ℕ
  mem : ℕ → Memory
  connected : Bool
  handler : HandlerPc
  held : Option ℕ

/-- A blocking payload read fails or delivers bytes, at most those asked for. -/
inductive SubsAct where
  | publish (pub : PublishParam)
  | setConnected (connected : Bool)
  | alloc
  | allocTimeout
  | check
  | read (bytes : List UInt8)
  | readError
  | put
  | putTimeout
  | get
  | consume
  deriving DecidableEq

/-- The arguments of `SubsCb`: the two arrays of the block and the two lengths. -/
inductive SubsEvent where
  | callback (topic : List UInt8) (topicLen : ℕ) (payload : List UInt8) (payloadLen : ℕ)
  deriving DecidableEq, Repr

/-- `len >= 32 ? 32 : len`. -/
def chunk (len : ℕ) : ℕ := if 32 ≤ len then 32 else len

theorem chunk_le (len : ℕ) : chunk len ≤ len := by
  unfold chunk
  split_ifs <;> omega

/-- The buffer of the drain loop holds 32 bytes. -/
theorem chunk_le_tmp (len : ℕ) : chunk len ≤ 32 := by
  unfold chunk
  split_ifs <;> omega

theorem chunk_pos {len : ℕ} (h : 0 < len) : 0 < chunk len := by
  unfold chunk
  split_ifs <;> omega

/-- None of the three checks after the allocation fails. -/
def Admissible (connected : Bool) (pub : PublishParam) : Prop :=
  ¬ MQTT_WORKER_MAX_PAYLOAD_LEN < pub.payloadLen + 1 ∧
    ¬ MQTT_WORKER_MAX_TOPIC_LEN < pub.topic.length ∧ connected = true

instance (connected : Bool) (pub : PublishParam) : Decidable (Admissible connected pub) := by
  unfold Admissible
  infer_instance

/-- What follows the read loop in both cases: the terminator of the payload and
the two lengths, `uint16_t` each. -/
def sealBlock (pub : PublishParam) (m : Memory) : Memory :=
  let m := m.store (payloadAt + pub.payloadLen) [0]
  let m := m.store payloadLenAt (leBytes 2 pub.payloadLen)
  m.store topicLenAt (leBytes 2 pub.topic.length)

/-- `memcpy` of the topic and its terminator, both by the stored `topic_len`. -/
def storeTopic (pub : PublishParam) (m : Memory) : Memory :=
  let m := m.store topicAt (pub.topic.take (leNat (m.load topicLenAt 2)))
  m.store (topicAt + leNat (m.load topicLenAt 2)) [0]

/-- The read loop is left with `bytes_read` negative: the message is dropped. -/
def receiveFailed (s : SubsState) (pub : PublishParam) (block : ℕ) : SubsState :=
  { s with mem := Function.update s.mem block (sealBlock pub (s.mem block)), handler := .idle }

/-- The read loop is left with `bytes_read` not negative. -/
def receiveDone (s : SubsState) (pub : PublishParam) (block : ℕ) : SubsState :=
  { s with mem := Function.update s.mem block (storeTopic pub (sealBlock pub (s.mem block)))
           handler := .enqueue block }

/-- One pass of the loop that reads the payload into the block. -/
def receiveChunk (s : SubsState) (pub : PublishParam) (block len readIdx : ℕ)
    (bytes : List UInt8) : SubsState :=
  let s := { s with
    mem := Function.update s.mem block ((s.mem block).store (payloadAt + readIdx) bytes) }
  if len - bytes.length = 0 then receiveDone s pub block
  else { s with handler := .receive pub block (len - bytes.length) (readIdx + bytes.length) }

/-- The loop that drains a rejected message, entered with `len` bytes to read. -/
def drainFrom (s : SubsState) (len : ℕ) : SubsState :=
  { s with handler := if len = 0 then .idle else .drain len }

/-- The checks, and the entry of one of the two read loops. An empty payload
leaves the second one at once, with `bytes_read` still `INT32_MIN`. -/
def checkMessage (s : SubsState) (pub : PublishParam) : Option ℕ → SubsState
  | none => drainFrom s pub.payloadLen
  | some block =>
      if Admissible s.connected pub then
        if pub.payloadLen = 0 then receiveFailed s pub block
        else { s with handler := .receive pub block pub.payloadLen 0 }
      else drainFrom { s with slab := s.slab.release block } pub.payloadLen

/-- The arguments that `subscribe_proc` passes on. -/
def callbackArgs (m : Memory) : SubsEvent :=
  .callback (m.load topicAt MQTT_WORKER_MAX_TOPIC_LEN) (leNat (m.load topicLenAt 2))
    (m.load payloadAt MQTT_WORKER_MAX_PAYLOAD_LEN) (leNat (m.load payloadLenAt 2))

/-- The two threads. `SubsCb` is called when it is not `NULL`. -/
def subs (subsCb : Bool) : Machine SubsState SubsAct SubsEvent where
  step s a :=
    match a, s.handler with
    | .publish pub, .idle => some ([], { s with handler := .alloc pub })
    | .setConnected connected, _ => some ([], { s with connected := connected })
    | .alloc, .alloc pub => s.slab.alloc.map fun r =>
        ([], { s with slab := r.2, handler := .check pub (some r.1) })
    | .allocTimeout, .alloc pub =>
        if s.slab.free = [] then some ([], { s with handler := .check pub none }) else none
    | .check, .check pub block => some ([], checkMessage s pub block)
    | .read bytes, .drain len =>
        if bytes.length ≤ chunk len then some ([], drainFrom s (len - bytes.length)) else none
    | .readError, .drain _ => some ([], { s with handler := .idle })
    | .read bytes, .receive pub block len readIdx =>
        if bytes.length ≤ chunk len then some ([], receiveChunk s pub block len readIdx bytes)
        else none
    | .readError, .receive pub block _ _ => some ([], receiveFailed s pub block)
    | .put, .enqueue block => (s.queue.put block).map fun queue =>
        ([], { s with queue, handler := .idle })
    | .putTimeout, .enqueue block =>
        if s.queue.put block = none then some ([], { s with handler := .idle }) else none
    | .get, _ =>
        if s.held = none then s.queue.get.map fun r =>
          ([], { s with queue := r.2, held := some r.1 })
        else none
    | .consume, _ => s.held.map fun block =>
        (if subsCb then [callbackArgs (s.mem block)] else [],
          { s with slab := s.slab.release block, held := none })
    | _, _ => none

/-- The four blocks of `SubsQueueSlab`. -/
def subsBlocks : List ℕ := [0, 1, 2, 3]

def subsInit : SubsState where
  slab := ⟨subsBlocks, 0⟩
  queue := ⟨[], 4⟩
  mem := fun _ _ => 0
  connected := false
  handler := .idle
  held := none

/-- All that one step of the two threads can do. -/
inductive SubsCase (subsCb : Bool) (s : SubsState) :
    SubsAct → List SubsEvent → SubsState → Prop where
  | publish (pub : PublishParam) : s.handler = .idle →
      SubsCase subsCb s (.publish pub) [] { s with handler := .alloc pub }
  | setConnected (connected : Bool) :
      SubsCase subsCb s (.setConnected connected) [] { s with connected := connected }
  | alloc (pub : PublishParam) (block : ℕ) (slab : Slab ℕ) : s.handler = .alloc pub →
      s.slab.alloc = some (block, slab) →
      SubsCase subsCb s .alloc [] { s with slab, handler := .check pub (some block) }
  | allocTimeout (pub : PublishParam) : s.handler = .alloc pub → s.slab.free = [] →
      SubsCase subsCb s .allocTimeout [] { s with handler := .check pub none }
  | check (pub : PublishParam) (block : Option ℕ) : s.handler = .check pub block →
      SubsCase subsCb s .check [] (checkMessage s pub block)
  | drained (bytes : List UInt8) (len : ℕ) : s.handler = .drain len →
      bytes.length ≤ chunk len →
      SubsCase subsCb s (.read bytes) [] (drainFrom s (len - bytes.length))
  | drainFailed (len : ℕ) : s.handler = .drain len →
      SubsCase subsCb s .readError [] { s with handler := .idle }
  | received (bytes : List UInt8) (pub : PublishParam) (block len readIdx : ℕ) :
      s.handler = .receive pub block len readIdx → bytes.length ≤ chunk len →
      SubsCase subsCb s (.read bytes) [] (receiveChunk s pub block len readIdx bytes)
  | receiveFailed (pub : PublishParam) (block len readIdx : ℕ) :
      s.handler = .receive pub block len readIdx →
      SubsCase subsCb s .readError [] (receiveFailed s pub block)
  | put (block : ℕ) (queue : Msgq ℕ) : s.handler = .enqueue block →
      s.queue.put block = some queue → SubsCase subsCb s .put [] { s with queue, handler := .idle }
  | putTimeout (block : ℕ) : s.handler = .enqueue block → s.queue.put block = none →
      SubsCase subsCb s .putTimeout [] { s with handler := .idle }
  | get (block : ℕ) (queue : Msgq ℕ) : s.held = none → s.queue.get = some (block, queue) →
      SubsCase subsCb s .get [] { s with queue, held := some block }
  | consume (block : ℕ) : s.held = some block →
      SubsCase subsCb s .consume (if subsCb then [callbackArgs (s.mem block)] else [])
        { s with slab := s.slab.release block, held := none }

theorem subs_step_cases {subsCb : Bool} {s t : SubsState} {a : SubsAct} {es : List SubsEvent}
    (h : (subs subsCb).step s a = some (es, t)) : SubsCase subsCb s a es t := by
  cases a with
  | publish pub =>
    cases hh : s.handler <;> simp only [subs, hh, reduceCtorEq, Option.some.injEq,
      Prod.mk.injEq] at h
    obtain ⟨rfl, rfl⟩ := h
    exact .publish pub hh
  | setConnected connected =>
    simp only [subs, Option.some.injEq, Prod.mk.injEq] at h
    obtain ⟨rfl, rfl⟩ := h
    exact .setConnected connected
  | alloc =>
    cases hh : s.handler <;> simp only [subs, hh, reduceCtorEq, Option.map_eq_some_iff,
      Prod.mk.injEq, Prod.exists] at h
    obtain ⟨block, slab, ha, rfl, rfl⟩ := h
    exact .alloc _ block slab hh ha
  | allocTimeout =>
    cases hh : s.handler <;> simp only [subs, hh, reduceCtorEq, Option.ite_none_right_eq_some,
      Option.some.injEq, Prod.mk.injEq] at h
    obtain ⟨hfree, rfl, rfl⟩ := h
    exact .allocTimeout _ hh hfree
  | check =>
    cases hh : s.handler <;> simp only [subs, hh, reduceCtorEq, Option.some.injEq,
      Prod.mk.injEq] at h
    obtain ⟨rfl, rfl⟩ := h
    exact .check _ _ hh
  | read bytes =>
    cases hh : s.handler with
    | drain len =>
      simp only [subs, hh, Option.ite_none_right_eq_some, Option.some.injEq, Prod.mk.injEq] at h
      obtain ⟨hlen, rfl, rfl⟩ := h
      exact .drained bytes len hh hlen
    | receive pub block len readIdx =>
      simp only [subs, hh, Option.ite_none_right_eq_some, Option.some.injEq, Prod.mk.injEq] at h
      obtain ⟨hlen, rfl, rfl⟩ := h
      exact .received bytes pub block len readIdx hh hlen
    | _ => simp [subs, hh] at h
  | readError =>
    cases hh : s.handler with
    | drain len =>
      simp only [subs, hh, Option.some.injEq, Prod.mk.injEq] at h
      obtain ⟨rfl, rfl⟩ := h
      exact .drainFailed len hh
    | receive pub block len readIdx =>
      simp only [subs, hh, Option.some.injEq, Prod.mk.injEq] at h
      obtain ⟨rfl, rfl⟩ := h
      exact .receiveFailed pub block len readIdx hh
    | _ => simp [subs, hh] at h
  | put =>
    cases hh : s.handler <;> simp only [subs, hh, reduceCtorEq, Option.map_eq_some_iff,
      Prod.mk.injEq] at h
    obtain ⟨queue, hput, rfl, rfl⟩ := h
    exact .put _ queue hh hput
  | putTimeout =>
    cases hh : s.handler <;> simp only [subs, hh, reduceCtorEq, Option.ite_none_right_eq_some,
      Option.some.injEq, Prod.mk.injEq] at h
    obtain ⟨hput, rfl, rfl⟩ := h
    exact .putTimeout _ hh hput
  | get =>
    simp only [subs, Option.ite_none_right_eq_some, Option.map_eq_some_iff, Prod.mk.injEq,
      Prod.exists] at h
    obtain ⟨hheld, block, queue, hget, rfl, rfl⟩ := h
    exact .get block queue hheld hget
  | consume =>
    simp only [subs, Option.map_eq_some_iff, Prod.mk.injEq] at h
    obtain ⟨block, hheld, rfl, rfl⟩ := h
    exact .consume block hheld

end WlabStation.Mqtt
