import WlabStation.Mqtt.Ownership
import Mathlib.Data.List.ModifyLast
import Mathlib.Data.List.Forall2

/-! What `SubsCb` is given: the messages in the order of their arrival, each
once, and intact unless the terminator of the topic falls on `topic_len`. -/
namespace WlabStation.Mqtt

/-- A message as the broker sends it. -/
structure Message where
  topic : List UInt8
  payload : List UInt8
  deriving DecidableEq, Repr

def Message.extend (bytes : List UInt8) (m : Message) : Message :=
  { m with payload := m.payload ++ bytes }

/-- Each read brings the next bytes of the message that arrived last. -/
def arrive (ms : List Message) : SubsAct → List Message
  | .publish pub => ms ++ [⟨pub.topic, []⟩]
  | .read bytes => ms.modifyLast (Message.extend bytes)
  | _ => ms

/-- The messages that arrived. -/
def messages (acts : List SubsAct) : List Message := acts.foldl arrive []

theorem messages_concat (acts : List SubsAct) (a : SubsAct) :
    messages (acts ++ [a]) = arrive (messages acts) a := by
  simp [messages]

/-- The callback got this message: its two lengths, and its bytes with a
terminator behind them in each of the two arrays. -/
def Intact (m : Message) : SubsEvent → Prop
  | .callback topic topicLen payload payloadLen =>
      (topicLen = m.topic.length ∧ topic.take topicLen = m.topic ∧ topic[topicLen]? = some 0) ∧
        payloadLen = m.payload.length ∧ payload.take payloadLen = m.payload ∧
          payload[payloadLen]? = some 0

instance (m : Message) : DecidablePred (Intact m) := by
  rintro ⟨topic, topicLen, payload, payloadLen⟩
  unfold Intact
  infer_instance

/-- The callback got the bytes of this message, and the length of its payload. -/
def Carries (m : Message) : SubsEvent → Prop
  | .callback topic _ payload payloadLen =>
      topic.take m.topic.length = m.topic ∧ payloadLen = m.payload.length ∧
        payload.take payloadLen = m.payload ∧ payload[payloadLen]? = some 0

/-- The handler admits the sizes, and the payload is not empty. -/
structure Fits (pub : PublishParam) : Prop where
  topic : pub.topic.length ≤ MQTT_WORKER_MAX_TOPIC_LEN
  payload : pub.payloadLen + 1 ≤ MQTT_WORKER_MAX_PAYLOAD_LEN
  pos : 0 < pub.payloadLen

instance (pub : PublishParam) : Decidable (Fits pub) :=
  decidable_of_iff (pub.topic.length ≤ MQTT_WORKER_MAX_TOPIC_LEN ∧
    pub.payloadLen + 1 ≤ MQTT_WORKER_MAX_PAYLOAD_LEN ∧ 0 < pub.payloadLen)
    ⟨fun h => ⟨h.1, h.2.1, h.2.2⟩, fun h => ⟨h.topic, h.payload, h.pos⟩⟩

/-- Fitting messages arrive while connected, a block is available and no read fails. -/
def Undisturbed (s : SubsState) : SubsAct → Prop
  | .publish pub => Fits pub
  | .check => s.connected = true
  | .allocTimeout | .readError => False
  | _ => True

instance (s : SubsState) : DecidablePred (Undisturbed s) := by
  intro a
  unfold Undisturbed
  split <;> infer_instance

theorem Fits.admissible {pub : PublishParam} (hf : Fits pub) : Admissible true pub :=
  ⟨Nat.not_lt.mpr hf.payload, Nat.not_lt.mpr hf.topic, rfl⟩

/-- The two lengths fit in their fields. -/
theorem Fits.lengths {pub : PublishParam} (hf : Fits pub) :
    pub.topic.length % 65536 = pub.topic.length ∧ pub.payloadLen % 65536 = pub.payloadLen := by
  have ht := hf.topic
  have hp := hf.payload
  unfold MQTT_WORKER_MAX_TOPIC_LEN at ht
  unfold MQTT_WORKER_MAX_PAYLOAD_LEN at hp
  omega

theorem sealBlock_topicLen {pub : PublishParam} (hf : Fits pub) (mem : Memory) :
    leNat ((sealBlock pub mem).load topicLenAt 2) = pub.topic.length := by
  unfold sealBlock
  rw [Memory.load_store _ _ _ (by simp), List.take_of_length_le (by simp), leNat_leBytes]
  exact hf.lengths.1

theorem storeTopic_sealBlock {pub : PublishParam} (hf : Fits pub) (mem : Memory) :
    storeTopic pub (sealBlock pub mem) =
      ((sealBlock pub mem).store topicAt pub.topic).store (topicAt + pub.topic.length) [0] := by
  have hlen : leNat (((sealBlock pub mem).store topicAt pub.topic).load topicLenAt 2) =
      pub.topic.length := by
    rw [Memory.load_store_outside, sealBlock_topicLen hf]
    have ht := hf.topic
    unfold MQTT_WORKER_MAX_TOPIC_LEN at ht
    simp only [topicAt, topicLenAt]
    omega
  unfold storeTopic
  rw [sealBlock_topicLen hf, List.take_length]
  simp only [hlen]

/-- The stores of the topic do not reach the payload. -/
theorem storeTopic_above {pub : PublishParam} (hf : Fits pub) (mem : Memory) {a : ℕ}
    (ha : payloadAt ≤ a) : storeTopic pub (sealBlock pub mem) a = sealBlock pub mem a := by
  have ht := hf.topic
  unfold MQTT_WORKER_MAX_TOPIC_LEN at ht
  simp only [payloadAt] at ha
  rw [storeTopic_sealBlock hf, Memory.store_outside, Memory.store_outside]
  · simp only [topicAt]
    omega
  · simp only [topicAt, List.length_singleton]
    omega

theorem storeTopic_load {pub : PublishParam} (hf : Fits pub) (mem : Memory) {a : ℕ}
    (ha : payloadAt ≤ a) (n : ℕ) :
    (storeTopic pub (sealBlock pub mem)).load a n = (sealBlock pub mem).load a n := by
  apply List.map_congr_left
  intro i _
  exact storeTopic_above hf mem (by omega)

/-- The payload of a finished block. -/
theorem finished_payload {pub : PublishParam} (hf : Fits pub) (mem : Memory) :
    let m := storeTopic pub (sealBlock pub mem)
    leNat (m.load payloadLenAt 2) = pub.payloadLen ∧
      (m.load payloadAt MQTT_WORKER_MAX_PAYLOAD_LEN).take pub.payloadLen =
        mem.load payloadAt pub.payloadLen ∧
      (m.load payloadAt MQTT_WORKER_MAX_PAYLOAD_LEN)[pub.payloadLen]? = some 0 := by
  have hroom : pub.payloadLen < MQTT_WORKER_MAX_PAYLOAD_LEN := hf.payload
  have hp := hf.payload
  unfold MQTT_WORKER_MAX_PAYLOAD_LEN at hp
  constructor
  · rw [storeTopic_load hf _ (by decide)]
    unfold sealBlock
    rw [Memory.load_store_outside _ (by simp [payloadLenAt, topicLenAt]),
      Memory.load_store _ _ _ (by simp), List.take_of_length_le (by simp), leNat_leBytes]
    exact hf.lengths.2
  constructor
  · rw [Memory.load_take _ _ hroom.le, storeTopic_load hf _ (by decide)]
    unfold sealBlock
    rw [Memory.load_store_outside, Memory.load_store_outside, Memory.load_store_outside]
    all_goals
      simp only [payloadAt, payloadLenAt, topicLenAt, leBytes_length, List.length_singleton]
      omega
  · rw [Memory.getElem?_load _ _ hroom, storeTopic_above hf _ (by omega)]
    unfold sealBlock
    rw [Memory.store_outside, Memory.store_outside]
    · exact congrArg some (Memory.store_inside _ _ [0] (i := 0) (by decide))
    all_goals
      simp only [payloadAt, payloadLenAt, topicLenAt, leBytes_length]
      omega

/-- The bytes of the topic in a finished block. -/
theorem finished_topic_bytes {pub : PublishParam} (hf : Fits pub) (mem : Memory) :
    ((storeTopic pub (sealBlock pub mem)).load topicAt MQTT_WORKER_MAX_TOPIC_LEN).take
      pub.topic.length = pub.topic := by
  rw [storeTopic_sealBlock hf, Memory.load_take _ _ hf.topic,
    Memory.load_store_outside _ (by omega), Memory.load_store _ _ _ le_rfl, List.take_length]

/-- The length of the topic, when its terminator stays inside the array. -/
theorem finished_topic {pub : PublishParam} (hf : Fits pub)
    (hshort : pub.topic.length < MQTT_WORKER_MAX_TOPIC_LEN) (mem : Memory) :
    let m := storeTopic pub (sealBlock pub mem)
    leNat (m.load topicLenAt 2) = pub.topic.length ∧
      (m.load topicAt MQTT_WORKER_MAX_TOPIC_LEN)[pub.topic.length]? = some 0 := by
  have hlt := hshort
  unfold MQTT_WORKER_MAX_TOPIC_LEN at hlt
  dsimp only
  rw [storeTopic_sealBlock hf]
  constructor
  · rw [Memory.load_store_outside, Memory.load_store_outside, sealBlock_topicLen hf]
    all_goals
      simp only [topicAt, topicLenAt, List.length_singleton]
      omega
  · rw [Memory.getElem?_load _ _ hshort]
    exact congrArg some (Memory.store_inside _ _ [0] (i := 0) (by decide))

/-- The terminator of a topic of full length clears the low byte of its length. -/
theorem finished_topic_full {pub : PublishParam} (hf : Fits pub)
    (hfull : pub.topic.length = MQTT_WORKER_MAX_TOPIC_LEN) (mem : Memory) :
    leNat ((storeTopic pub (sealBlock pub mem)).load topicLenAt 2) % 256 = 0 := by
  have hat : topicAt + pub.topic.length = topicLenAt := by rw [hfull]; rfl
  rw [storeTopic_sealBlock hf, hat]
  have hbyte : ∀ m : Memory, leNat (m.load topicLenAt 2) % 256 = (m topicLenAt).toNat := by
    intro m
    simp [Memory.load, List.range_succ, leNat]
  rw [hbyte]
  exact congrArg UInt8.toNat (Memory.store_inside _ _ [0] (i := 0) (by decide))

/-- What is delivered of a message: its bytes, and all of it if the topic left room. -/
def Delivered (m : Message) (e : SubsEvent) : Prop :=
  Carries m e ∧ (Intact m e ↔ m.topic.length < MQTT_WORKER_MAX_TOPIC_LEN)

/-- The block is filled in for this message. -/
def Finished (m : Message) (mem : Memory) : Prop := Delivered m (callbackArgs mem)

theorem finished_of_payload {pub : PublishParam} (hf : Fits pub) {mem : Memory}
    {payload : List UInt8} (hload : mem.load payloadAt pub.payloadLen = payload) :
    Finished ⟨pub.topic, payload⟩ (storeTopic pub (sealBlock pub mem)) := by
  have hlen : pub.payloadLen = payload.length := by rw [← hload, Memory.load_length]
  have htake := finished_topic_bytes hf mem
  obtain ⟨hp, hptake, hpnul⟩ := finished_payload hf mem
  rw [hload] at hptake
  have hcarries : Carries ⟨pub.topic, payload⟩
      (callbackArgs (storeTopic pub (sealBlock pub mem))) := by
    refine ⟨htake, ?_⟩
    rw [hp]
    exact ⟨hlen, hptake, hpnul⟩
  refine ⟨hcarries, ?_, ?_⟩
  · rintro ⟨⟨htopic, -⟩, -⟩
    by_contra hlong
    have hfull : pub.topic.length = MQTT_WORKER_MAX_TOPIC_LEN :=
      le_antisymm hf.topic (Nat.not_lt.mp hlong)
    have hzero := finished_topic_full hf hfull mem
    rw [htopic, hfull] at hzero
    exact absurd hzero (by decide)
  · intro hshort
    obtain ⟨ht, hnul⟩ := finished_topic hf hshort mem
    refine ⟨?_, hcarries.2⟩
    rw [ht]
    exact ⟨rfl, htake, hnul⟩

/-- The message the handler is at work on. -/
inductive Receiving (mem : ℕ → Memory) : HandlerPc → List Message → Prop where
  | idle : Receiving mem .idle []
  | alloc (pub : PublishParam) : Fits pub → Receiving mem (.alloc pub) [⟨pub.topic, []⟩]
  | check (pub : PublishParam) (block : ℕ) : Fits pub →
      Receiving mem (.check pub (some block)) [⟨pub.topic, []⟩]
  | receive (pub : PublishParam) (block len readIdx : ℕ) : Fits pub →
      readIdx + len = pub.payloadLen →
      Receiving mem (.receive pub block len readIdx)
        [⟨pub.topic, (mem block).load payloadAt readIdx⟩]
  | enqueue (block : ℕ) (m : Message) : Finished m (mem block) →
      Receiving mem (.enqueue block) [m]

/-- The messages that were delivered, those that wait in finished blocks, and
the one that is being received. -/
structure Delivery (ms : List Message) (h : List SubsEvent) (s : SubsState)
    (delivered waiting current : List Message) : Prop where
  owned : Owned [] s
  split : ms = delivered ++ (waiting ++ current)
  callbacks : List.Forall₂ Delivered delivered h
  queued : List.Forall₂ (fun m block => Finished m (s.mem block)) waiting
    (s.held.toList ++ s.queue.items)
  receiving : Receiving s.mem s.handler current

theorem delivery_init : Delivery [] [] subsInit [] [] [] := by
  constructor
  case owned => exact owned_init
  case split => rfl
  case callbacks => exact .nil
  case queued => exact .nil
  case receiving => exact .idle

/-- The block of the handler is not among those that wait. -/
theorem Owned.not_waiting {s : SubsState} {block : ℕ} (hi : Owned [] s)
    (hh : s.handler.blocks = [block]) : block ∉ s.held.toList ++ s.queue.items := by
  have hnodup : (s.slab.free ++ ([] ++ s.owners)).Nodup :=
    hi.accounts.perm.nodup_iff.mpr (by decide)
  have howners := (List.nodup_append.mp hnodup).2.1
  rw [List.nil_append, SubsState.owners, hh, List.singleton_append, List.nodup_cons] at howners
  intro hmem
  apply howners.1
  rw [List.mem_append] at hmem ⊢
  exact hmem.symm

theorem finished_update {mem : ℕ → Memory} {block : ℕ} {m : Memory} {waiting : List Message}
    {blocks : List ℕ} (hnot : block ∉ blocks)
    (hq : List.Forall₂ (fun m block => Finished m (mem block)) waiting blocks) :
    List.Forall₂ (fun m' b => Finished m' (Function.update mem block m b)) waiting blocks := by
  induction hq with
  | nil => exact .nil
  | cons hfin _ ih =>
    rw [List.mem_cons, not_or] at hnot
    apply List.Forall₂.cons _ (ih hnot.2)
    rwa [Function.update_of_ne (Ne.symm hnot.1)]

section Steps
variable {ms delivered waiting current : List Message} {h : List SubsEvent} {s : SubsState}

theorem Delivery.check (hi : Delivery ms h s delivered waiting current) {pub : PublishParam}
    {block : Option ℕ} (hh : s.handler = .check pub block) (hconnected : s.connected = true) :
    Delivery ms h (checkMessage s pub block) delivered waiting current := by
  have hr := hi.receiving
  rw [hh] at hr
  cases hr with
  | check _ block hf =>
    have hpos : pub.payloadLen ≠ 0 := hf.pos.ne'
    have hnext : checkMessage s pub (some block) =
        { s with handler := .receive pub block pub.payloadLen 0 } := by
      simp [checkMessage, hconnected, hf.admissible, hpos]
    have hkeeps : KeepsBlock s .check := by
      simp only [KeepsBlock, hh]
      exact fun _ => hf.pos
    constructor
    case owned => exact (hi.owned.check hh).1 hkeeps
    case split => exact hi.split
    case callbacks => exact hi.callbacks
    case queued =>
      rw [hnext]
      exact hi.queued
    case receiving =>
      rw [hnext]
      exact .receive pub block pub.payloadLen 0 hf (Nat.zero_add _)

/-- One chunk of the payload arrives. -/
theorem Delivery.received (hi : Delivery ms h s delivered waiting current) {pub : PublishParam}
    {block len readIdx : ℕ} {bytes : List UInt8}
    (hh : s.handler = .receive pub block len readIdx) (hlen : bytes.length ≤ chunk len) :
    ∃ current', Delivery (arrive ms (.read bytes)) h (receiveChunk s pub block len readIdx bytes)
      delivered waiting current' := by
  have howned : Owned [] (receiveChunk s pub block len readIdx bytes) :=
    (hi.owned.step (SubsCase.received bytes pub block len readIdx hh hlen :
      SubsCase true s (.read bytes) _ _)).1 (by simp [KeepsBlock])
  have hnot : block ∉ s.held.toList ++ s.queue.items := by
    apply hi.owned.not_waiting
    rw [hh, HandlerPc.blocks]
  have hle : bytes.length ≤ len := hlen.trans (chunk_le len)
  have hr := hi.receiving
  rw [hh] at hr
  cases hr with
  | receive _ _ _ _ hf htotal =>
    have hload : ((s.mem block).store (payloadAt + readIdx) bytes).load payloadAt
        (readIdx + bytes.length) = (s.mem block).load payloadAt readIdx ++ bytes := by
      rw [Memory.load_append, Memory.load_store_outside _ (Or.inl le_rfl),
        Memory.load_store _ _ _ le_rfl, List.take_length]
    have hsplit : arrive ms (.read bytes) = delivered ++ (waiting ++
        [⟨pub.topic, (s.mem block).load payloadAt readIdx ++ bytes⟩]) := by
      rw [arrive, hi.split, ← List.append_assoc, List.modifyLast_concat, List.append_assoc]
      rfl
    use [⟨pub.topic, (s.mem block).load payloadAt readIdx ++ bytes⟩]
    constructor
    case owned => exact howned
    case split => exact hsplit
    case callbacks => exact hi.callbacks
    case queued =>
      unfold receiveChunk
      split_ifs
      · exact finished_update hnot (finished_update hnot hi.queued)
      · exact finished_update hnot hi.queued
    case receiving =>
      unfold receiveChunk
      split_ifs with hlast
      · apply Receiving.enqueue
        have htotal' : readIdx + bytes.length = pub.payloadLen := by omega
        rw [htotal'] at hload
        simp only [receiveDone, Function.update_self]
        exact finished_of_payload hf hload
      · rw [← hload]
        let mem := Function.update s.mem block
          ((s.mem block).store (payloadAt + readIdx) bytes)
        have hr : Receiving mem (.receive pub block (len - bytes.length) (readIdx + bytes.length))
            [⟨pub.topic, (mem block).load payloadAt (readIdx + bytes.length)⟩] :=
          .receive pub block _ _ hf (by omega)
        simp only [mem, Function.update_self] at hr
        exact hr

/-- A step that calls nothing back and finishes no message. -/
theorem Delivery.silent (hi : Delivery ms h s delivered waiting current) {t : SubsState}
    {ms' current' : List Message} (howned : Owned [] t)
    (hsplit : ms' = delivered ++ (waiting ++ current'))
    (hqueued : List.Forall₂ (fun m block => Finished m (t.mem block)) waiting
      (t.held.toList ++ t.queue.items))
    (hreceiving : Receiving t.mem t.handler current') :
    Delivery ms' (h ++ []) t delivered waiting current' := by
  constructor
  case owned => exact howned
  case split => exact hsplit
  case callbacks =>
    rw [List.append_nil]
    exact hi.callbacks
  case queued => exact hqueued
  case receiving => exact hreceiving

theorem Delivery.step (hi : Delivery ms h s delivered waiting current) {a : SubsAct}
    {es : List SubsEvent} {t : SubsState} (hC : Undisturbed s a) (hc : SubsCase true s a es t) :
    ∃ delivered' waiting' current',
      Delivery (arrive ms a) (h ++ es) t delivered' waiting' current' := by
  have hstep := hi.owned.step hc
  cases hc with
  | publish pub hh =>
    have hr := hi.receiving
    rw [hh] at hr
    cases hr
    use delivered, waiting, [⟨pub.topic, []⟩]
    apply hi.silent
    case howned => exact hstep.1 (by simp [KeepsBlock])
    case hsplit => simp [arrive, hi.split]
    case hqueued => exact hi.queued
    case hreceiving => exact .alloc pub hC
  | setConnected connected =>
    use delivered, waiting, current
    exact hi.silent (hstep.1 (by simp [KeepsBlock])) hi.split hi.queued hi.receiving
  | alloc pub block slab hh ha =>
    have hr := hi.receiving
    rw [hh] at hr
    cases hr with
    | alloc _ hf =>
      use delivered, waiting, [⟨pub.topic, []⟩]
      exact hi.silent (hstep.1 (by simp [KeepsBlock])) hi.split hi.queued (.check pub block hf)
  | allocTimeout pub hh hfree => exact absurd hC id
  | check pub block hh =>
    use delivered, waiting, current
    rw [List.append_nil]
    exact hi.check hh hC
  | drained bytes len hh hlen =>
    have hr := hi.receiving
    rw [hh] at hr
    cases hr
  | drainFailed len hh => exact absurd hC id
  | received bytes pub block len readIdx hh hlen =>
    use delivered, waiting
    rw [List.append_nil]
    exact hi.received hh hlen
  | receiveFailed pub block len readIdx hh => exact absurd hC id
  | put block queue hh hput =>
    obtain ⟨-, rfl⟩ := Msgq.put_eq_some.mp hput
    have hr := hi.receiving
    rw [hh] at hr
    cases hr with
    | enqueue _ m hfin =>
      use delivered, waiting ++ [m], []
      constructor
      case owned => exact hstep.1 (by simp [KeepsBlock])
      case split => simp [arrive, hi.split]
      case callbacks => simpa using hi.callbacks
      case queued =>
        rw [← List.append_assoc]
        exact List.rel_append hi.queued (.cons hfin .nil)
      case receiving => exact .idle
  | putTimeout block hh hput => exact absurd hput (hi.owned.put_ne_none hh)
  | get block queue hheld hget =>
    obtain ⟨hitems, -⟩ := Msgq.get_eq_some.mp hget
    have hq := hi.queued
    rw [hheld, hitems] at hq
    use delivered, waiting, current
    exact hi.silent (hstep.1 (by simp [KeepsBlock])) hi.split hq hi.receiving
  | consume block hheld =>
    have hq := hi.queued
    rw [hheld, Option.toList_some, List.singleton_append, List.forall₂_cons_right_iff] at hq
    obtain ⟨m, rest, hfin, hrest, rfl⟩ := hq
    use delivered ++ [m], rest, current
    constructor
    case owned => exact hstep.1 (by simp [KeepsBlock])
    case split => simp [arrive, hi.split]
    case callbacks => exact List.rel_append hi.callbacks (.cons hfin .nil)
    case queued => exact hrest
    case receiving => exact hi.receiving

end Steps

theorem delivery_run {acts : List SubsAct} {h : List SubsEvent} {s : SubsState}
    (hr : (subs true).Runs subsInit acts h s)
    (hC : (subs true).EachStep Undisturbed subsInit acts) :
    ∃ delivered waiting current, Delivery (messages acts) h s delivered waiting current := by
  apply hr.induction (I := fun acts h s => (subs true).EachStep Undisturbed subsInit acts →
    ∃ delivered waiting current, Delivery (messages acts) h s delivered waiting current)
  · intro _
    exact ⟨[], [], [], delivery_init⟩
  · intro acts h s a es t hk hi hs hC
    obtain ⟨hCs, hCa⟩ := (Machine.eachStep_concat hk).mp hC
    obtain ⟨delivered, waiting, current, hd⟩ := hi hCs
    rw [messages_concat]
    exact hd.step hCa (subs_step_cases hs)
  · exact hC

/-- The number of messages that arrived and were not delivered yet. -/
def SubsState.pending (s : SubsState) : ℕ :=
  (s.held.toList ++ s.queue.items).length + if s.handler = .idle then 0 else 1

theorem Receiving.length_eq {mem : ℕ → Memory} {handler : HandlerPc} {current : List Message}
    (hr : Receiving mem handler current) : current.length = if handler = .idle then 0 else 1 := by
  cases hr <;> simp

/-- Between two messages `subscribe_proc` alone delivers all that wait. -/
theorem exists_drain (subsCb : Bool) {s : SubsState} (hidle : s.handler = .idle) :
    ∃ acts, (∀ a ∈ acts, a = .get ∨ a = .consume) ∧
      ∃ h t, (subs subsCb).Runs s acts h t ∧ t.pending = 0 := by
  have hempty : ∃ acts, (∀ a ∈ acts, a = .get ∨ a = .consume) ∧ ∃ h t,
      (subs subsCb).Runs s acts h t ∧ t.held = none ∧ t.queue = s.queue ∧ t.handler = .idle := by
    cases hheld : s.held with
    | none => exact ⟨[], by simp, [], s, Machine.runs_nil.mpr ⟨rfl, rfl⟩, hheld, rfl, hidle⟩
    | some block =>
      let es := if subsCb then [callbackArgs (s.mem block)] else []
      let t := { s with slab := s.slab.release block, held := none }
      have hs : (subs subsCb).step s .consume = some (es, t) := by simp [subs, hheld, es, t]
      exact ⟨[.consume], by simp, es, t, Machine.runs_cons.mpr ⟨es, t, [], hs,
        Machine.runs_nil.mpr ⟨rfl, rfl⟩, by simp⟩, rfl, rfl, hidle⟩
  obtain ⟨acts, hacts, h, t, hr, hheld, hqueue, hidle'⟩ := hempty
  cases hitems : s.queue.items with
  | nil =>
    use acts, hacts, h, t, hr
    simp [SubsState.pending, hheld, hqueue, hitems, hidle']
  | cons block blocks =>
    let u : SubsState := { t with queue := { t.queue with items := blocks }, held := some block }
    have hs : (subs subsCb).step t .get = some ([], u) := by
      simp [subs, hheld, Msgq.get, hqueue, hitems, u]
    obtain ⟨acts', hacts', h', v, hr', hpending⟩ := exists_drain subsCb (s := u) hidle'
    use acts ++ .get :: acts'
    constructor
    · intro a ha
      rw [List.mem_append, List.mem_cons] at ha
      rcases ha with ha | rfl | ha
      · exact hacts a ha
      · exact Or.inl rfl
      · exact hacts' a ha
    · exact ⟨h ++ ([] ++ h'), v, Machine.runs_append.mpr ⟨t, h, [] ++ h', hr,
        Machine.runs_cons.mpr ⟨[], u, h', hs, hr', rfl⟩, rfl⟩, hpending⟩
termination_by s.queue.items.length
decreasing_by simp [hitems]

theorem forall₂_intact_iff {ms : List Message} {h : List SubsEvent}
    (hms : List.Forall₂ Delivered ms h) :
    List.Forall₂ Intact ms h ↔ ∀ m ∈ ms, m.topic.length < MQTT_WORKER_MAX_TOPIC_LEN := by
  induction hms with
  | nil => simp
  | cons hm _ ih => simp [hm.2, ih]

/-- Every message that arrived is delivered or pending, `subscribe_proc` can
deliver the pending ones, the callbacks get the bytes of the first messages, and
get them intact if and only if none of these has a topic that fills its array. -/
theorem messages_delivered_iff {acts : List SubsAct} {h : List SubsEvent} {s : SubsState}
    (hr : (subs true).Runs subsInit acts h s)
    (hC : (subs true).EachStep Undisturbed subsInit acts) :
    h.length + s.pending = (messages acts).length ∧
      (s.handler = .idle → ∃ rest, (∀ a ∈ rest, a = .get ∨ a = .consume) ∧
        ∃ h' t, (subs true).Runs s rest h' t ∧ t.pending = 0) ∧
      List.Forall₂ Carries ((messages acts).take h.length) h ∧
      (List.Forall₂ Intact ((messages acts).take h.length) h ↔
        ∀ m ∈ (messages acts).take h.length, m.topic.length < MQTT_WORKER_MAX_TOPIC_LEN) := by
  obtain ⟨delivered, waiting, current, hd⟩ := delivery_run hr hC
  have hlen := hd.callbacks.length_eq
  have hwaiting := hd.queued.length_eq
  have hcurrent := hd.receiving.length_eq
  constructor
  · have hsplit := congrArg List.length hd.split
    rw [List.length_append, List.length_append] at hsplit
    unfold SubsState.pending
    omega
  constructor
  · exact exists_drain true
  rw [hd.split, List.take_left' hlen]
  constructor
  · exact hd.callbacks.imp fun _ _ hm => hm.1
  · exact forall₂_intact_iff hd.callbacks

/-- The steps by which a message of one read arrives and is delivered. -/
def oneMessage (topic payload : List UInt8) (le : payload.length ≤ 268435455) : List SubsAct :=
  [.publish ⟨topic, payload.length, le⟩, .alloc, .check, .read payload, .put, .get, .consume]

def twoMessages : List SubsAct :=
  .setConnected true :: (oneMessage [116, 49] [65, 66] (by decide) ++
    oneMessage [116, 50] [67] (by decide))

theorem short_topics_delivered : ∃ h s, (subs true).Runs subsInit twoMessages h s ∧
    h.length = 2 ∧ List.Forall₂ Intact ((messages twoMessages).take h.length) h :=
  ⟨_, _, Machine.runs_get (by decide +kernel), by decide +kernel,
    (messages_delivered_iff (Machine.runs_get (by decide +kernel)) (by decide +kernel)).2.2.2.mpr
      (by decide +kernel)⟩

/-- A topic of 128 bytes. -/
theorem full_topic_delivered_empty :
    ¬ ∀ acts h s, (subs true).Runs subsInit acts h s →
      (subs true).EachStep Undisturbed subsInit acts →
      List.Forall₂ Intact ((messages acts).take h.length) h := by
  intro hall
  have h := hall (.setConnected true :: oneMessage (List.replicate 128 116) [65] (by decide)) _ _
    (Machine.runs_get (by decide +kernel)) (by decide +kernel)
  exact absurd h (by decide +kernel)

end WlabStation.Mqtt
