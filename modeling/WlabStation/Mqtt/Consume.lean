import WlabStation.Mqtt.Subscribe

/-! How much of the stream the handler takes for a received message: the read
loops of both paths end, and leave the stream behind the payload. -/
namespace WlabStation.Mqtt

/-- The payload length of the message received last, the bytes taken from the
stream since, the calls that read them, and whether one of these failed. -/
structure Ledger where
  want : ℕ
  taken : ℕ
  reads : ℕ
  failed : Bool
  deriving DecidableEq, Repr

def Ledger.step (l : Ledger) : SubsAct → Ledger
  | .publish pub => ⟨pub.payloadLen, 0, 0, false⟩
  | .read bytes => { l with taken := l.taken + bytes.length, reads := l.reads + 1 }
  | .readError => { l with reads := l.reads + 1, failed := true }
  | _ => l

def ledger (acts : List SubsAct) : Ledger := acts.foldl Ledger.step ⟨0, 0, 0, false⟩

theorem ledger_concat (acts : List SubsAct) (a : SubsAct) :
    ledger (acts ++ [a]) = (ledger acts).step a := by
  simp [ledger]

/-- A read delivers at least one byte. -/
def Delivering : SubsAct → Prop
  | .read bytes => bytes ≠ []
  | _ => True

/-- The bytes that the next call of `mqtt_read_publish_payload_blocking` asks for. -/
def HandlerPc.asked : HandlerPc → Option ℕ
  | .drain len => some (chunk len)
  | .receive _ _ len _ => some (chunk len)
  | _ => none

/-- Nothing was read of the message. -/
structure Untouched (l : Ledger) (pub : PublishParam) : Prop where
  want : l.want = pub.payloadLen
  taken : l.taken = 0
  reads : l.reads = 0
  failed : l.failed = false

/-- In a read loop `len` bytes are left of the payload. -/
structure InLoop (l : Ledger) (len : ℕ) : Prop where
  pos : 0 < len
  total : l.taken + len = l.want
  reads : l.reads ≤ l.taken
  failed : l.failed = false

/-- Both loops are left. -/
structure Done (l : Ledger) : Prop where
  reads : l.reads ≤ l.want
  exact : l.failed = false → l.taken = l.want

/-- What the ledger shows where the handler stands. -/
inductive Consuming (l : Ledger) : HandlerPc → Prop where
  | idle : Done l → Consuming l .idle
  | alloc (pub : PublishParam) : Untouched l pub → Consuming l (.alloc pub)
  | check (pub : PublishParam) (block : Option ℕ) : Untouched l pub →
      Consuming l (.check pub block)
  | drain (len : ℕ) : InLoop l len → Consuming l (.drain len)
  | receive (pub : PublishParam) (block len readIdx : ℕ) : InLoop l len →
      l.want = pub.payloadLen → pub.payloadLen ≤ 255 → l.taken = readIdx →
      Consuming l (.receive pub block len readIdx)
  | enqueue (block : ℕ) : Done l → Consuming l (.enqueue block)

theorem Untouched.inLoop {l : Ledger} {pub : PublishParam} (h : Untouched l pub)
    (hpos : pub.payloadLen ≠ 0) : InLoop l pub.payloadLen where
  pos := Nat.pos_of_ne_zero hpos
  total := by rw [h.taken, h.want, Nat.zero_add]
  reads := by rw [h.taken, h.reads]
  failed := h.failed

theorem Untouched.done {l : Ledger} {pub : PublishParam} (h : Untouched l pub)
    (hzero : pub.payloadLen = 0) : Done l where
  reads := by rw [h.reads]; exact Nat.zero_le _
  exact _ := by rw [h.taken, h.want, hzero]

/-- A read that delivers less than what is left. -/
theorem InLoop.read {l : Ledger} {len : ℕ} {bytes : List UInt8} (h : InLoop l len)
    (hne : bytes ≠ []) (hleft : len - bytes.length ≠ 0) :
    InLoop (l.step (.read bytes)) (len - bytes.length) := by
  have hbytes := List.length_pos_iff.mpr hne
  have htotal := h.total
  have hreads := h.reads
  constructor
  case pos => exact Nat.pos_of_ne_zero hleft
  case total =>
    simp only [Ledger.step]
    omega
  case reads =>
    simp only [Ledger.step]
    omega
  case failed => exact h.failed

/-- The read that delivers the rest. -/
theorem InLoop.last {l : Ledger} {len : ℕ} {bytes : List UInt8} (h : InLoop l len)
    (hlen : bytes.length ≤ chunk len) (hleft : len - bytes.length = 0) :
    Done (l.step (.read bytes)) := by
  have hle := chunk_le len
  have hpos := h.pos
  have htotal := h.total
  have hreads := h.reads
  constructor
  case reads =>
    simp only [Ledger.step]
    omega
  case exact =>
    intro _
    simp only [Ledger.step]
    omega

/-- The failed read is one of at most as many as there are bytes. -/
theorem InLoop.error {l : Ledger} {len : ℕ} (h : InLoop l len) : Done (l.step .readError) := by
  have hpos := h.pos
  have htotal := h.total
  have hreads := h.reads
  constructor
  case reads =>
    simp only [Ledger.step]
    omega
  case exact =>
    intro hfailed
    cases hfailed

theorem consuming_drainFrom {l : Ledger} {pub : PublishParam} (s : SubsState)
    (h : Untouched l pub) : Consuming l (drainFrom s pub.payloadLen).handler := by
  simp only [drainFrom]
  split_ifs with hzero
  · exact .idle (h.done hzero)
  · exact .drain _ (h.inLoop hzero)

theorem consuming_checkMessage {l : Ledger} {pub : PublishParam} (s : SubsState)
    (block : Option ℕ) (h : Untouched l pub) :
    Consuming l (checkMessage s pub block).handler := by
  cases block with
  | none => exact consuming_drainFrom s h
  | some block =>
    simp only [checkMessage]
    split_ifs with hadm hzero
    · exact .idle (h.done hzero)
    · have hlen : pub.payloadLen ≤ 255 := by
        have hshort := hadm.1
        rw [MQTT_WORKER_MAX_PAYLOAD_LEN] at hshort
        omega
      exact .receive pub block _ 0 (h.inLoop hzero) h.want hlen h.taken
    · exact consuming_drainFrom _ h

theorem Consuming.step {subsCb : Bool} {l : Ledger} {s t : SubsState} {a : SubsAct}
    {es : List SubsEvent} (hi : Consuming l s.handler) (ha : Delivering a)
    (hc : SubsCase subsCb s a es t) : Consuming (l.step a) t.handler := by
  cases hc with
  | publish pub hh => exact .alloc pub ⟨rfl, rfl, rfl, rfl⟩
  | setConnected connected => exact hi
  | alloc pub block slab hh halloc =>
    rw [hh] at hi
    cases hi with
    | alloc _ hun => exact .check pub _ hun
  | allocTimeout pub hh hfree =>
    rw [hh] at hi
    cases hi with
    | alloc _ hun => exact .check pub _ hun
  | check pub block hh =>
    rw [hh] at hi
    cases hi with
    | check _ _ hun => exact consuming_checkMessage s block hun
  | drained bytes len hh hlen =>
    rw [hh] at hi
    cases hi with
    | drain _ hloop =>
      simp only [drainFrom]
      split_ifs with hleft
      · exact .idle (hloop.last hlen hleft)
      · exact .drain _ (hloop.read ha hleft)
  | drainFailed len hh =>
    rw [hh] at hi
    cases hi with
    | drain _ hloop => exact .idle hloop.error
  | received bytes pub block len readIdx hh hlen =>
    rw [hh] at hi
    cases hi with
    | receive _ _ _ _ hloop hwant hshort htaken =>
      simp only [receiveChunk]
      split_ifs with hleft
      · exact .enqueue block (hloop.last hlen hleft)
      · refine .receive pub block _ _ (hloop.read ha hleft) hwant hshort ?_
        simp only [Ledger.step, htaken]
  | receiveFailed pub block len readIdx hh =>
    rw [hh] at hi
    cases hi with
    | receive _ _ _ _ hloop hwant hshort htaken => exact .idle hloop.error
  | put block queue hh hput =>
    rw [hh] at hi
    cases hi with
    | enqueue _ hdone => exact .idle hdone
  | putTimeout block hh hput =>
    rw [hh] at hi
    cases hi with
    | enqueue _ hdone => exact .idle hdone
  | get block queue hheld hget => exact hi
  | consume block hheld => exact hi

theorem consuming_run {subsCb : Bool} {acts : List SubsAct} {h : List SubsEvent} {s : SubsState}
    (hreads : ∀ a ∈ acts, Delivering a) (hr : (subs subsCb).Runs subsInit acts h s) :
    Consuming (ledger acts) s.handler := by
  refine Machine.Runs.induction (I := fun as _ t => (∀ a ∈ as, Delivering a) →
    Consuming (ledger as) t.handler) ?_ ?_ hr hreads
  · exact fun _ => .idle ⟨le_rfl, fun _ => rfl⟩
  · intro as h t a es u _ hi hs hall
    rw [ledger_concat]
    have hbefore := hi fun b hb => hall b (List.mem_append_left _ hb)
    exact hbefore.step (hall a (by simp)) (subs_step_cases hs)

/-- The loops of the last message are behind the handler. -/
def HandlerPc.settled : HandlerPc → Prop
  | .idle | .enqueue _ => True
  | _ => False

/-- Of the memory at most `n` bytes of one block change, those from `addr` on; the last
read of the payload is followed by the terminators and the lengths. -/
def ReadsInto (s t : SubsState) (pub : PublishParam) (block addr n : ℕ) : Prop :=
  (∀ other, other ≠ block → t.mem other = s.mem other) ∧
    ∃ m : Memory, (∀ a, a < addr ∨ addr + n ≤ a → m a = s.mem block a) ∧
      (t.mem block = m ∨
        t.handler = .enqueue block ∧ t.mem block = storeTopic pub (sealBlock pub m))

/-- The handler makes no more reads than the payload has bytes; while it reads, every
result is possible; outside the loops the stream is at the end of the payload,
unless a read failed; and what is read into a block stays inside the payload. -/
structure ConsumesExactly (subsCb : Bool) (l : Ledger) (s : SubsState) : Prop where
  terminates : l.reads ≤ l.want
  reads : ∀ n, s.handler.asked = some n → 0 < n ∧ n ≤ 32 ∧
    (∀ bytes, bytes ≠ [] → bytes.length ≤ n → ((subs subsCb).step s (.read bytes)).isSome) ∧
    ((subs subsCb).step s .readError).isSome
  exact : s.handler.settled → l.failed = false → l.taken = l.want
  inside : ∀ pub block len readIdx, s.handler = .receive pub block len readIdx →
    pub.payloadLen = l.want ∧ pub.payloadLen ≤ 255 ∧ readIdx = l.taken ∧
      readIdx + chunk len ≤ pub.payloadLen
  frame : ∀ bytes es t, (subs subsCb).step s (.read bytes) = some (es, t) →
    t.mem = s.mem ∨ ∃ pub block len readIdx, s.handler = .receive pub block len readIdx ∧
      ReadsInto s t pub block (payloadAt + readIdx) (chunk len)

theorem Consuming.terminates {l : Ledger} {pc : HandlerPc} (h : Consuming l pc) :
    l.reads ≤ l.want := by
  cases h with
  | idle hdone => exact hdone.reads
  | alloc pub hun => rw [hun.reads]; exact Nat.zero_le _
  | check pub block hun => rw [hun.reads]; exact Nat.zero_le _
  | drain len hloop =>
    have htotal := hloop.total
    exact hloop.reads.trans (by omega)
  | receive pub block len readIdx hloop =>
    have htotal := hloop.total
    exact hloop.reads.trans (by omega)
  | enqueue block hdone => exact hdone.reads

/-- Every result of a read that was asked for is a step. -/
theorem read_isSome (subsCb : Bool) {s : SubsState} {n : ℕ} (hn : s.handler.asked = some n) :
    (∀ bytes, bytes.length ≤ n → ((subs subsCb).step s (.read bytes)).isSome) ∧
      ((subs subsCb).step s .readError).isSome := by
  cases hh : s.handler with
  | drain len =>
    rw [hh] at hn
    obtain rfl := Option.some.inj hn
    exact ⟨fun bytes hbytes => by simp [subs, hh, hbytes], by simp [subs, hh]⟩
  | receive pub block len readIdx =>
    rw [hh] at hn
    obtain rfl := Option.some.inj hn
    exact ⟨fun bytes hbytes => by simp [subs, hh, hbytes], by simp [subs, hh]⟩
  | _ =>
    rw [hh] at hn
    cases hn

theorem Consuming.asked {l : Ledger} {pc : HandlerPc} (h : Consuming l pc) {n : ℕ}
    (hn : pc.asked = some n) : 0 < n ∧ n ≤ 32 := by
  cases h with
  | drain len hloop =>
    obtain rfl := Option.some.inj hn
    exact ⟨chunk_pos hloop.pos, chunk_le_tmp len⟩
  | receive pub block len readIdx hloop =>
    obtain rfl := Option.some.inj hn
    exact ⟨chunk_pos hloop.pos, chunk_le_tmp len⟩
  | _ => cases hn

theorem Consuming.exact {l : Ledger} {pc : HandlerPc} (h : Consuming l pc)
    (hsettled : pc.settled) : l.failed = false → l.taken = l.want := by
  cases h with
  | idle hdone => exact hdone.exact
  | enqueue block hdone => exact hdone.exact
  | _ => cases hsettled

theorem Consuming.inside {l : Ledger} {pub : PublishParam} {block len readIdx : ℕ}
    (h : Consuming l (.receive pub block len readIdx)) : pub.payloadLen = l.want ∧
      pub.payloadLen ≤ 255 ∧ readIdx = l.taken ∧ readIdx + chunk len ≤ pub.payloadLen := by
  cases h with
  | receive _ _ _ _ hloop hwant hshort htaken =>
    have hle := chunk_le len
    have htotal := hloop.total
    exact ⟨hwant.symm, hshort, htaken.symm, by omega⟩

theorem readsInto_receiveChunk {s : SubsState} {pub : PublishParam} {block len readIdx : ℕ}
    {bytes : List UInt8} (hlen : bytes.length ≤ chunk len) :
    ReadsInto s (receiveChunk s pub block len readIdx bytes) pub block (payloadAt + readIdx)
      (chunk len) := by
  have hstored : ∀ a, a < payloadAt + readIdx ∨ payloadAt + readIdx + chunk len ≤ a →
      (s.mem block).store (payloadAt + readIdx) bytes a = s.mem block a := by
    intro a ha
    exact Memory.store_outside _ (by omega)
  unfold receiveChunk
  dsimp only
  split_ifs with hleft
  · constructor
    · intro other hother
      simp [receiveDone, hother]
    · exact ⟨_, hstored, .inr ⟨rfl, by simp [receiveDone]⟩⟩
  · constructor
    · intro other hother
      simp [hother]
    · exact ⟨_, hstored, .inl (Function.update_self _ _ _)⟩

/-- Only the loop that reads the payload writes to a block. -/
theorem read_frame {subsCb : Bool} {s t : SubsState} {bytes : List UInt8} {es : List SubsEvent}
    (hs : (subs subsCb).step s (.read bytes) = some (es, t)) :
    t.mem = s.mem ∨ ∃ pub block len readIdx, s.handler = .receive pub block len readIdx ∧
      ReadsInto s t pub block (payloadAt + readIdx) (chunk len) := by
  cases subs_step_cases hs with
  | drained bytes len hh hlen => exact .inl rfl
  | received bytes pub block len readIdx hh hlen =>
    exact .inr ⟨pub, block, len, readIdx, hh, readsInto_receiveChunk hlen⟩

/-- After every run in which the reads deliver at least one byte each or fail. -/
theorem publish_consumed_exactly {subsCb : Bool} {acts : List SubsAct} {h : List SubsEvent}
    {s : SubsState} (hreads : ∀ a ∈ acts, Delivering a)
    (hr : (subs subsCb).Runs subsInit acts h s) : ConsumesExactly subsCb (ledger acts) s := by
  have hi := consuming_run hreads hr
  constructor
  case terminates => exact hi.terminates
  case reads =>
    intro n hn
    obtain ⟨hpos, hle⟩ := hi.asked hn
    obtain ⟨hread, herror⟩ := read_isSome subsCb hn
    exact ⟨hpos, hle, fun bytes _ hbytes => hread bytes hbytes, herror⟩
  case exact => exact hi.exact
  case inside =>
    intro pub block len readIdx hh
    rw [hh] at hi
    exact hi.inside
  case frame => exact fun bytes es t hs => read_frame hs

/-- Two messages: one of three bytes arrives in two reads, one of 300 bytes is being drained. -/
def shortAndLong : List SubsAct := [.setConnected true, .publish ⟨[116], 3, by decide⟩, .alloc,
  .check, .read [1, 2], .read [3], .put, .publish ⟨[116], 300, by decide⟩, .alloc, .check,
  .read [4]]

theorem short_and_long_consumed : ∃ h s, (subs true).Runs subsInit shortAndLong h s ∧
    s.handler = .drain 299 ∧ ConsumesExactly true ⟨300, 1, 1, false⟩ s := by
  have hreads : ∀ a ∈ shortAndLong, Delivering a := by simp [shortAndLong, Delivering]
  exact ⟨_, _, Machine.runs_get (by decide +kernel), by decide +kernel,
    publish_consumed_exactly hreads (Machine.runs_get (by decide +kernel))⟩

end WlabStation.Mqtt
