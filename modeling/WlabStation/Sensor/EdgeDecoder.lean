import WlabStation.Machine.Run
import WlabStation.Machine.Kernel
import Mathlib.Algebra.Order.Ring.Nat
import Mathlib.Data.List.TakeWhile
import Mathlib.Data.Nat.Bitwise

/-! The falling edges of the sensor's data line: `gpio_callback` of `dht2x.c` as
a machine whose actions are the times between two edges. -/
namespace WlabStation.Sensor

/-- `dht_pin` of the overlay, on the port `gpio0`. -/
def DHT_PIN : UInt32 := 4

def BIT (n : UInt32) : UInt32 := 1 <<< n

/-- The statics of `dht2x.c`, its semaphore, and the interrupt of the pin `DHT_PIN`. -/
structure Dht where
  pulseStartUs : UInt32
  pulseCnt : UInt32
  readData : UInt64
  lastElapsed : UInt32
  dhtReadDone : Sem
  irqEnabled : Bool
  deriving DecidableEq, Repr

/-- As after power-on: nothing has been configured yet. -/
def dhtBoot : Dht := ⟨0, 0, 0, 0, ⟨0, 1⟩, false⟩

inductive DhtEvent where
  | irqDisabled (pin : UInt32)
  | readDoneGiven
  deriving DecidableEq, Repr

/-- `gpio_pin_interrupt_configure(dev, pin, GPIO_INT_DISABLE)`, which takes the number of a pin. -/
def Dht.interruptDisable (s : Dht) (pin : UInt32) : List DhtEvent × Dht :=
  ([.irqDisabled pin], { s with irqEnabled := s.irqEnabled && pin != DHT_PIN })

/-- The interrupt of `pin` is disabled and the reader released. -/
def Dht.finish (s : Dht) (pin : UInt32) : List DhtEvent × Dht :=
  let r := s.interruptDisable pin
  (r.1 ++ [.readDoneGiven], { r.2 with dhtReadDone := r.2.dhtReadDone.give })

/-- The third branch of the callback. Its last case is not reachable. -/
def Dht.dataEdge (s : Dht) (pin : UInt32) : List DhtEvent × Dht :=
  let r : List DhtEvent × Dht :=
    if s.lastElapsed ≤ 110 then ([], { s with readData := s.readData <<< 1 })
    else if 110 < s.lastElapsed then ([], { s with readData := (s.readData <<< 1) ||| 1 })
    else s.finish pin
  (r.1, { r.2 with pulseCnt := r.2.pulseCnt + 1 })

/-- `gpio_callback` at `usNow`. -/
def gpioCallback (s : Dht) (pin usNow : UInt32) : List DhtEvent × Dht :=
  let s := { s with lastElapsed := usNow - s.pulseStartUs }
  let r : List DhtEvent × Dht :=
    if s.pulseCnt = 0 then
      if 100 < s.lastElapsed then ([], { s with pulseCnt := s.pulseCnt + 2 }) else ([], s)
    else if s.pulseCnt = 1 then ([], { s with pulseCnt := s.pulseCnt + 1 })
    else s.dataEdge pin
  let q : List DhtEvent × Dht := if r.2.pulseCnt = 42 then r.2.finish pin else ([], r.2)
  (r.1 ++ q.1, { q.2 with pulseStartUs := usNow })

/-- `dht2x_read` from the drain of the semaphore to the start of the measurement at `usNow`. -/
def dht2xStart (s : Dht) (usNow : UInt32) : Dht :=
  { s with
    dhtReadDone := s.dhtReadDone.tryTake
    pulseCnt := 0
    readData := 0
    pulseStartUs := usNow
    irqEnabled := true }

/-- Edges on the pin. The action is the time since the previous edge, or since the
start; an edge is lost while the interrupt is disabled. The driver hands the
callback the mask of `gpio_init_callback` as its third argument. -/
def edges : Machine Dht UInt32 DhtEvent where
  step s elapsed :=
    if s.irqEnabled then some (gpioCallback s (BIT DHT_PIN) (s.pulseStartUs + elapsed)) else none

/-- The first edge that is late enough opens the frame. -/
def headerSeen (es : List UInt32) : Bool := es.any fun e => 100 < e

/-- The edges after the header. -/
def bitEdges (es : List UInt32) : List UInt32 := (es.dropWhile fun e => e ≤ 100).tail

/-- The bits of the frame received so far. -/
def bits (es : List UInt32) : List Bool := (bitEdges es).map fun e => 110 < e

/-- The number that bits stand for, the first one being the most significant. -/
def ofBits (bs : List Bool) : ℕ := bs.foldl (fun n b => 2 * n + b.toNat) 0

theorem ofBits_concat (bs : List Bool) (b : Bool) :
    ofBits (bs ++ [b]) = 2 * ofBits bs + b.toNat := by
  simp [ofBits]

theorem ofBits_lt (bs : List Bool) : ofBits bs < 2 ^ bs.length := by
  induction bs using List.reverseRecOn with
  | nil => simp [ofBits]
  | append_singleton bs b ih =>
    have hb := Bool.toNat_lt b
    rw [ofBits_concat, List.length_append, List.length_singleton, pow_succ]
    omega

theorem bitEdges_concat (es : List UInt32) (e : UInt32) :
    bitEdges (es ++ [e]) = if headerSeen es then bitEdges es ++ [e] else [] := by
  induction es with
  | nil => by_cases h : e ≤ 100 <;> simp [bitEdges, headerSeen, h]
  | cons a es ih =>
    by_cases h : a ≤ 100
    · have ha : ¬ 100 < a := by simpa using h
      simpa [bitEdges, headerSeen, h, ha] using ih
    · have ha : 100 < a := by simpa using h
      simp [bitEdges, headerSeen, h, ha]

theorem bitEdges_eq_nil {es : List UInt32} (h : headerSeen es = false) : bitEdges es = [] := by
  have hall : es.dropWhile (fun e => decide (e ≤ 100)) = [] := by
    simpa [headerSeen, List.dropWhile_eq_nil_iff] using h
  rw [bitEdges, hall]
  rfl

theorem add_sub_elapsed (start e : UInt32) : start + e - start = e := by
  rw [UInt32.add_comm, UInt32.add_sub_cancel]

/-- A mask with one bit is not the number of that bit: what is disabled is another pin. -/
theorem Dht.finish_irqEnabled (s : Dht) :
    (s.finish (BIT DHT_PIN)).2.irqEnabled = s.irqEnabled := Bool.and_true _

theorem Dht.dataEdge_irqEnabled (s : Dht) :
    (s.dataEdge (BIT DHT_PIN)).2.irqEnabled = s.irqEnabled := by
  unfold dataEdge
  split_ifs
  · rfl
  · rfl
  · exact s.finish_irqEnabled

/-- No edge disables the interrupt of the pin it came from. -/
theorem gpioCallback_irqEnabled (s : Dht) (usNow : UInt32) :
    (gpioCallback s (BIT DHT_PIN) usNow).2.irqEnabled = s.irqEnabled := by
  unfold gpioCallback
  dsimp only
  split_ifs <;> simp only [Dht.finish_irqEnabled, Dht.dataEdge_irqEnabled]

/-- An edge before the header. -/
theorem gpioCallback_idle {s : Dht} (hcnt : s.pulseCnt = 0) (e : UInt32) :
    let r := gpioCallback s (BIT DHT_PIN) (s.pulseStartUs + e)
    r.1 = [] ∧ r.2.pulseCnt = (if 100 < e then 2 else 0) ∧ r.2.readData = s.readData ∧
      r.2.dhtReadDone = s.dhtReadDone := by
  simp only [gpioCallback, add_sub_elapsed]
  by_cases he : 100 < e <;> simp [hcnt, he]

/-- An edge after the header and `k` more, before the counter wraps. -/
theorem gpioCallback_bit {s : Dht} {k : ℕ} (hk : k + 3 < 2 ^ 32) (hcnt : s.pulseCnt.toNat = k + 2)
    (e : UInt32) :
    let r := gpioCallback s (BIT DHT_PIN) (s.pulseStartUs + e)
    r.1 = (if k = 39 then [.irqDisabled (BIT DHT_PIN), .readDoneGiven] else []) ∧
      r.2.pulseCnt.toNat = k + 3 ∧
      r.2.readData = (if 110 < e then (s.readData <<< 1) ||| 1 else s.readData <<< 1) ∧
      r.2.dhtReadDone = if k = 39 then s.dhtReadDone.give else s.dhtReadDone := by
  have h0 : s.pulseCnt ≠ 0 := by
    intro h
    simp [h] at hcnt
  have h1 : s.pulseCnt ≠ 1 := by
    intro h
    simp [h] at hcnt
  have hnext : (s.pulseCnt + 1).toNat = k + 3 := by
    rw [UInt32.toNat_add, hcnt]
    simp
    omega
  have hlast : s.pulseCnt + 1 = 42 ↔ k = 39 := by
    rw [← UInt32.toNat_inj, hnext]
    simp
  simp only [gpioCallback, Dht.dataEdge, add_sub_elapsed]
  by_cases he : e ≤ 110
  · have hne : ¬ 110 < e := by simpa using he
    by_cases h39 : k = 39 <;>
      simp [Dht.finish, Dht.interruptDisable, h0, h1, he, hne, hlast, h39, hnext]
  · have hlt : 110 < e := by simpa using he
    by_cases h39 : k = 39 <;>
      simp [Dht.finish, Dht.interruptDisable, h0, h1, he, hlt, hlast, h39, hnext]

/-- Shifting a bit in; the register drops its highest one. -/
theorem toNat_shiftIn (d : UInt64) (b : Bool) :
    (if b then (d <<< 1) ||| 1 else d <<< 1).toNat = (2 * d.toNat + b.toNat) % 2 ^ 64 := by
  have hshift : (d <<< 1).toNat = 2 * d.toNat % 2 ^ 64 := by
    rw [UInt64.toNat_shiftLeft]
    simp only [UInt64.toNat_one, Nat.shiftLeft_eq, Nat.one_mod, pow_one]
    omega
  have heven : 2 * d.toNat % 2 ^ 64 = 2 ^ 1 * (d.toNat % 2 ^ 63) := by omega
  cases b with
  | false => simpa using hshift
  | true =>
    have hor := Nat.two_pow_add_eq_or_of_lt (b := 1) (i := 1) Nat.one_lt_two (d.toNat % 2 ^ 63)
    rw [if_pos rfl, UInt64.toNat_or, hshift, UInt64.toNat_one, Bool.toNat_true, heven, ← hor]
    omega

/-- What the edges `es` are to leave of a capture that began in `s`: the bits so
far, and with the fortieth one the pin's own interrupt disabled and the reader
released, so that no further edge is delivered. -/
structure Decoded (s : Dht) (es : List UInt32) (h : List DhtEvent) (t : Dht) : Prop where
  room : (bits es).length ≤ 40
  readData : t.readData.toNat = ofBits (bits es)
  pulseCnt : t.pulseCnt.toNat = if headerSeen es then (bits es).length + 2 else 0
  irqEnabled : t.irqEnabled = decide ((bits es).length < 40)
  events : h = if (bits es).length = 40 then [.irqDisabled DHT_PIN, .readDoneGiven] else []
  readDone : t.dhtReadDone =
    if (bits es).length = 40 then s.dhtReadDone.tryTake.give else s.dhtReadDone.tryTake

/-- What they leave: another pin's interrupt is disabled and bits go on shifting in. -/
structure Collected (s : Dht) (es : List UInt32) (h : List DhtEvent) (t : Dht) : Prop where
  readData : t.readData.toNat = ofBits (bits es) % 2 ^ 64
  pulseCnt : t.pulseCnt.toNat = if headerSeen es then (bits es).length + 2 else 0
  irqEnabled : t.irqEnabled = true
  events : h =
    if 40 ≤ (bits es).length then [.irqDisabled (BIT DHT_PIN), .readDoneGiven] else []
  readDone : t.dhtReadDone =
    if 40 ≤ (bits es).length then s.dhtReadDone.tryTake.give else s.dhtReadDone.tryTake

theorem headerSeen_concat (es : List UInt32) (e : UInt32) :
    headerSeen (es ++ [e]) = (headerSeen es || decide (100 < e)) := by
  simp [headerSeen]

theorem bits_concat (es : List UInt32) (e : UInt32) :
    bits (es ++ [e]) = if headerSeen es then bits es ++ [decide (110 < e)] else [] := by
  unfold bits
  rw [bitEdges_concat]
  split_ifs <;> simp

theorem collected_start (s : Dht) (usNow : UInt32) : Collected s [] [] (dht2xStart s usNow) := by
  constructor <;> simp [dht2xStart, bits, bitEdges, headerSeen, ofBits]

theorem Collected.idle {s t : Dht} {es : List UInt32} {h : List DhtEvent}
    (hd : Collected s es h t) (hseen : headerSeen es = false) (e : UInt32) :
    let r := gpioCallback t (BIT DHT_PIN) (t.pulseStartUs + e)
    Collected s (es ++ [e]) (h ++ r.1) r.2 := by
  have hbits : bits es = [] := by
    rw [bits, bitEdges_eq_nil hseen, List.map_nil]
  have hnext : bits (es ++ [e]) = [] := by
    rw [bits_concat, hseen, if_neg Bool.false_ne_true]
  have hcnt : t.pulseCnt = 0 := by
    have h0 := hd.pulseCnt
    rw [hseen, if_neg Bool.false_ne_true] at h0
    exact UInt32.toNat_inj.mp h0
  obtain ⟨hev, hcnt', hdata, hdone⟩ := gpioCallback_idle hcnt e
  constructor
  case readData => rw [hdata, hd.readData, hbits, hnext]
  case pulseCnt =>
    rw [hcnt', headerSeen_concat, hseen, hnext]
    by_cases he : 100 < e <;> simp [he]
  case irqEnabled => rw [gpioCallback_irqEnabled, hd.irqEnabled]
  case events => rw [hev, hd.events, hbits, hnext, List.append_nil]
  case readDone => rw [hdone, hd.readDone, hbits, hnext]

theorem Collected.bit {s t : Dht} {es : List UInt32} {h : List DhtEvent}
    (hd : Collected s es h t) (hseen : headerSeen es = true)
    (hroom : (bits es).length + 3 < 2 ^ 32) (e : UInt32) :
    let r := gpioCallback t (BIT DHT_PIN) (t.pulseStartUs + e)
    Collected s (es ++ [e]) (h ++ r.1) r.2 := by
  have hnext : bits (es ++ [e]) = bits es ++ [decide (110 < e)] := by
    rw [bits_concat, if_pos hseen]
  have hlen : (bits (es ++ [e])).length = (bits es).length + 1 := by
    rw [hnext, List.length_append, List.length_singleton]
  have hcnt : t.pulseCnt.toNat = (bits es).length + 2 := by
    rw [hd.pulseCnt, if_pos hseen]
  obtain ⟨hev, hcnt', hdata, hdone⟩ := gpioCallback_bit hroom hcnt e
  constructor
  case readData =>
    have hshift := toNat_shiftIn t.readData (decide (110 < e))
    simp only [decide_eq_true_eq] at hshift
    rw [hdata, hshift, hd.readData, hnext, ofBits_concat, Nat.add_mod, Nat.mul_mod_mod,
      ← Nat.add_mod]
  case pulseCnt => rw [hcnt', headerSeen_concat, hseen, Bool.true_or, if_pos rfl, hlen]
  case irqEnabled => rw [gpioCallback_irqEnabled, hd.irqEnabled]
  case events =>
    rw [hev, hd.events, hlen]
    split_ifs <;> first | rfl | omega
  case readDone =>
    rw [hdone, hd.readDone, hlen]
    split_ifs <;> first | rfl | omega

theorem length_bits_le (es : List UInt32) (e : UInt32) :
    (bits es).length ≤ (bits (es ++ [e])).length := by
  rw [bits_concat]
  cases hseen : headerSeen es with
  | false => rw [bits, bitEdges_eq_nil hseen, List.map_nil]; exact Nat.zero_le _
  | true => simp

/-- An edge is an idle one or brings a bit. -/
theorem Collected.step {s t u : Dht} {es : List UInt32} {h k : List DhtEvent} {e : UInt32}
    (hd : Collected s es h t) (hs : edges.step t e = some (k, u))
    (hroom : (bits (es ++ [e])).length + 2 < 2 ^ 32) : Collected s (es ++ [e]) (h ++ k) u := by
  simp only [edges, hd.irqEnabled, if_pos, Option.some.injEq] at hs
  cases hseen : headerSeen es with
  | false =>
    have hi := hd.idle hseen e
    rwa [hs] at hi
  | true =>
    rw [bits_concat, if_pos hseen, List.length_append, List.length_singleton] at hroom
    have hb := hd.bit hseen hroom e
    rwa [hs] at hb

theorem collected_run {s t : Dht} {usNow : UInt32} {es : List UInt32} {h : List DhtEvent}
    (hr : edges.Runs (dht2xStart s usNow) es h t) (hroom : (bits es).length + 2 < 2 ^ 32) :
    Collected s es h t := by
  have hall : (bits es).length + 2 < 2 ^ 32 → Collected s es h t := by
    apply hr.induction (I := fun es h t => (bits es).length + 2 < 2 ^ 32 → Collected s es h t)
    · exact fun _ => collected_start s usNow
    · intro es h t e k u _ hd hs hroom
      have hle := length_bits_le es e
      exact (hd (by omega)).step hs hroom
  exact hall hroom

theorem irqEnabled_run {s t : Dht} {usNow : UInt32} {es : List UInt32} {h : List DhtEvent}
    (hr : edges.Runs (dht2xStart s usNow) es h t) : t.irqEnabled = true := by
  apply hr.invariant (I := fun _ t => t.irqEnabled = true) rfl
  intro h t e k u hirq hs
  simp only [edges, hirq, if_pos, Option.some.injEq] at hs
  have hu := gpioCallback_irqEnabled t (t.pulseStartUs + e)
  rw [hs, hirq] at hu
  exact hu

/-- No edge is refused. -/
theorem exists_run (s : Dht) (usNow : UInt32) (es : List UInt32) :
    ∃ h t, edges.Runs (dht2xStart s usNow) es h t := by
  induction es using List.reverseRecOn with
  | nil => exact ⟨[], dht2xStart s usNow, Machine.runs_nil.mpr ⟨rfl, rfl⟩⟩
  | append_singleton es e ih =>
    obtain ⟨h, t, hr⟩ := ih
    let r := gpioCallback t (BIT DHT_PIN) (t.pulseStartUs + e)
    have hs : edges.step t e = some (r.1, r.2) := if_pos (irqEnabled_run hr)
    exact ⟨h ++ r.1, r.2, Machine.runs_concat.mpr ⟨t, h, r.1, hr, hs, rfl⟩⟩

/-- Before the fortieth bit nothing tells the two apart. -/
theorem Collected.decoded_iff {s t : Dht} {es : List UInt32} {h : List DhtEvent}
    (hd : Collected s es h t) : Decoded s es h t ↔ (bits es).length < 40 := by
  constructor
  · intro hspec
    have hirq := hspec.irqEnabled
    rw [hd.irqEnabled] at hirq
    exact of_decide_eq_true hirq.symm
  · intro hlt
    have hne : (bits es).length ≠ 40 := hlt.ne
    have hnot : ¬ 40 ≤ (bits es).length := not_le.mpr hlt
    constructor
    case room => exact hlt.le
    case readData =>
      have hbound : ofBits (bits es) < 2 ^ 64 :=
        (ofBits_lt _).trans_le (Nat.pow_le_pow_right Nat.zero_lt_two (by omega))
      rw [hd.readData, Nat.mod_eq_of_lt hbound]
    case pulseCnt => exact hd.pulseCnt
    case irqEnabled => rw [hd.irqEnabled, decide_eq_true hlt]
    case events => rw [hd.events, if_neg hnot, if_neg hne]
    case readDone => rw [hd.readDone, if_neg hnot, if_neg hne]

/-- The bits of a frame, the most significant first. -/
def frameBits (n frame : ℕ) : List Bool := (List.range n).map fun i => frame.testBit (n - 1 - i)

theorem ofBits_frameBits (n frame : ℕ) : ofBits (frameBits n frame) = frame % 2 ^ n := by
  induction n generalizing frame with
  | zero => simp [frameBits, ofBits, Nat.mod_one]
  | succ n ih =>
    have hsplit : frameBits (n + 1) frame = frameBits n (frame / 2) ++ [frame.testBit 0] := by
      unfold frameBits
      rw [List.range_succ, List.map_append, List.map_singleton]
      congr 1
      · apply List.map_congr_left
        intro i hi
        rw [List.mem_range] at hi
        rw [← Nat.testBit_succ]
        congr 1
        omega
      · simp
    rw [hsplit, ofBits_concat, ih, Nat.testBit_zero, pow_succ', Nat.mod_mul]
    by_cases h : frame % 2 = 1
    · simp [h]
      omega
    · have h0 : frame % 2 = 0 := by omega
      simp [h0]

/-- Early edges, the header, then the bits. -/
theorem bitEdges_waveform {early data : List UInt32} {header : UInt32}
    (hearly : ∀ e ∈ early, e ≤ 100) (hheader : 100 < header) :
    bitEdges (early ++ header :: data) = data := by
  have hnot : ¬ header ≤ 100 := by simpa using hheader
  unfold bitEdges
  rw [List.dropWhile_append_of_pos (by simpa using hearly)]
  simp [hnot]

/-- The edges of a sensor that answers with a frame, the first one early. -/
def frameEdges (frame : ℕ) : List UInt32 :=
  30 :: 160 :: (frameBits 40 frame).map fun b => if b then 120 else 78

theorem bits_frameEdges (frame : ℕ) : bits (frameEdges frame) = frameBits 40 frame := by
  have hedge : ∀ b : Bool, decide (110 < if b then (120 : UInt32) else 78) = b := by decide
  have hdata : bitEdges (frameEdges frame) =
      (frameBits 40 frame).map fun b => if b then (120 : UInt32) else 78 := rfl
  rw [bits, hdata, List.map_map]
  exact List.map_id'' hedge _

/-- At each moment of the edges `es` the capture is as it is to be. -/
def DecodesAll (s : Dht) (usNow : UInt32) (es : List UInt32) : Prop :=
  ∀ ds h t, ds <+: es → edges.Runs (dht2xStart s usNow) ds h t → Decoded s ds h t

theorem bits_prefix_length_le {ds es : List UInt32} (hp : ds <+: es) :
    (bits ds).length ≤ (bits es).length := by
  obtain ⟨fs, rfl⟩ := hp
  induction fs using List.reverseRecOn with
  | nil => rw [List.append_nil]
  | append_singleton fs e ih =>
    rw [← List.append_assoc]
    exact ih.trans (length_bits_le _ e)

theorem decodesAll_iff (s : Dht) (usNow : UInt32) (es : List UInt32) :
    DecodesAll s usNow es ↔ (bits es).length < 40 := by
  constructor
  · intro hall
    obtain ⟨h, t, hr⟩ := exists_run s usNow es
    have hd := hall es h t (List.prefix_refl es) hr
    have hirq := hd.irqEnabled
    rw [irqEnabled_run hr] at hirq
    exact of_decide_eq_true hirq.symm
  · intro hlt ds h t hp hr
    have hshort := (bits_prefix_length_le hp).trans_lt hlt
    exact (collected_run hr (by omega)).decoded_iff.mpr hshort

/-- A capture is as it is to be at each moment exactly if fewer than forty bits
have come. Up to the wrap of the counter it has the bits so far and releases the
reader with the fortieth one alone, and the forty of a frame are that frame,
however many early edges were caught; but no edge is ever refused. -/
theorem edges_decode_iff (s : Dht) (usNow : UInt32) :
    (∀ es, DecodesAll s usNow es ↔ (bits es).length < 40) ∧
    (∀ es, ∃ h t, edges.Runs (dht2xStart s usNow) es h t) ∧
    (∀ es h t, edges.Runs (dht2xStart s usNow) es h t → (bits es).length + 2 < 2 ^ 32 →
      Collected s es h t) ∧
    ∀ (frame : ℕ) (early data : List UInt32) (header : UInt32), frame < 2 ^ 40 →
      (∀ e ∈ early, e ≤ 100) → 100 < header →
      data.map (fun e => decide (110 < e)) = frameBits 40 frame →
      ∃ t, edges.Runs (dht2xStart s usNow) (early ++ header :: data)
        [.irqDisabled (BIT DHT_PIN), .readDoneGiven] t ∧ t.readData.toNat = frame := by
  constructor
  · exact decodesAll_iff s usNow
  constructor
  · exact exists_run s usNow
  constructor
  · intro es h t hr hroom
    exact collected_run hr hroom
  · intro frame early data header hframe hearly hheader hdata
    have hbits : bits (early ++ header :: data) = frameBits 40 frame := by
      rw [bits, bitEdges_waveform hearly hheader, hdata]
    have hlen : (bits (early ++ header :: data)).length = 40 := by
      simp [hbits, frameBits]
    obtain ⟨h, t, hr⟩ := exists_run s usNow (early ++ header :: data)
    have hd := collected_run hr (by omega)
    have hev := hd.events
    rw [if_pos hlen.ge] at hev
    rw [hev] at hr
    use t, hr
    rw [hd.readData, hbits, ofBits_frameBits, Nat.mod_eq_of_lt hframe]
    exact Nat.mod_eq_of_lt (hframe.trans (by decide))

/-- The edge that follows the frame is delivered and shifts it out of place. -/
theorem edge_after_frame_shifts : ∃ t u,
    edges.Runs (dht2xStart dhtBoot 0) (frameEdges 0x028C806573)
      [.irqDisabled 16, .readDoneGiven] t ∧
    t.readData = 0x028C806573 ∧ t.irqEnabled = true ∧
    edges.Runs (dht2xStart dhtBoot 0) (frameEdges 0x028C806573 ++ [78])
      [.irqDisabled 16, .readDoneGiven] u ∧
    u.readData = 0x051900CAE6 ∧ u.pulseCnt = 43 ∧
    ¬ DecodesAll dhtBoot 0 (frameEdges 0x028C806573 ++ [78]) := by
  refine ⟨_, _, Machine.runs_get (by decide), by decide, by decide, Machine.runs_get (by decide),
    by decide, by decide, ?_⟩
  rw [decodesAll_iff]
  decide

end WlabStation.Sensor
