import WlabStation.Sensor.EdgeDecoder
import WlabStation.Sensor.Frame

/-! `dht2x_read`: the start pulse, the edges that reach `gpio_callback` and the
wait for the decoder. A call is a function of the intervals that were measured. -/
namespace WlabStation.Sensor

/-- A falling edge of the line. -/
def edge (s : Dht) (usNow : UInt32) : Dht :=
  if s.irqEnabled then (gpioCallback s (BIT DHT_PIN) usNow).2 else s

/-- The falling edges of one call, in microseconds since the start pulse. Those
of `held` come before the release of the line is recorded, those of `early`
before the interrupt is configured, those of `late` after that. -/
structure Waveform where
  released : UInt32
  held : List UInt32
  early : List UInt32
  late : List UInt32
  deriving DecidableEq, Repr

/-- `dht2x_read` up to the wait; the start pulse at `now` is a falling edge too. -/
def dht2xRequest (s : Dht) (now : UInt32) (w : Waveform) : Dht :=
  let s := { s with dhtReadDone := s.dhtReadDone.tryTake, pulseCnt := 0, readData := 0 }
  let s := (now :: w.held.map (now + ·)).foldl edge s
  let s := { s with pulseStartUs := now + w.released }
  let s := (w.early.map (now + ·)).foldl edge s
  { s with irqEnabled := true }

/-- `k_sem_take(&DhtReadDone, K_MSEC(50))` while edges come in, and the word that
the reader finds in `ReadData`, unless the wait times out. The reader goes on
before the next edge; those that follow are delivered all the same. -/
def awaitDone (s : Dht) : List UInt32 → Option UInt64 × Dht
  | [] =>
      match s.dhtReadDone.take with
      | some sem => (some s.readData, { s with dhtReadDone := sem })
      | none => (none, s)
  | u :: us =>
      match s.dhtReadDone.take with
      | some sem => (some s.readData, (u :: us).foldl edge { s with dhtReadDone := sem })
      | none => awaitDone (edge s u) us

/-- `dht2x_read` at `now`. -/
def dht2xRead (s : Dht) (now : UInt32) (w : Waveform) (temp rh : Int16) : ReadResult × Dht :=
  let r := awaitDone (dht2xRequest s now w) (w.late.map (now + ·))
  (dht2xResult r.1 temp rh, r.2)

/-- What a read captures in `ReadData`. -/
def captured (s : Dht) (now : UInt32) (w : Waveform) : Option UInt64 :=
  (awaitDone (dht2xRequest s now w) (w.late.map (now + ·))).1

theorem dht2xRead_fst (s : Dht) (now : UInt32) (w : Waveform) (temp rh : Int16) :
    (dht2xRead s now w temp rh).1 = dht2xResult (captured s now w) temp rh := rfl

/-- The times between edges, the first one since `start`. -/
def intervals (start : UInt32) : List UInt32 → List UInt32
  | [] => []
  | u :: us => (u - start) :: intervals u us

theorem intervals_shift (now start : UInt32) (us : List UInt32) :
    intervals (now + start) (us.map (now + ·)) = intervals start us := by
  induction us generalizing start with
  | nil => rfl
  | cons u us ih =>
    have hu : now + u - (now + start) = u - start := by grind
    rw [List.map_cons, intervals, intervals, ih, hu]

/-- The word that the first forty bits make. -/
def firstFrame (bs : List Bool) : Option ℕ :=
  if 40 ≤ bs.length then some (ofBits (bs.take 40)) else none

theorem bits_append_isPrefix (es fs : List UInt32) : bits es <+: bits (es ++ fs) := by
  induction fs using List.reverseRecOn with
  | nil => simp
  | append_singleton fs e ih =>
    apply ih.trans
    rw [← List.append_assoc, bits_concat]
    cases hseen : headerSeen (es ++ fs) with
    | false => rw [bits, bitEdges_eq_nil hseen, List.map_nil]; exact List.nil_prefix
    | true => exact List.prefix_append _ _

/-- More edges do not change a complete frame. -/
theorem firstFrame_append {es : List UInt32} (h : (bits es).length = 40) (fs : List UInt32) :
    firstFrame (bits (es ++ fs)) = some (ofBits (bits es)) := by
  obtain ⟨bs, hbs⟩ := bits_append_isPrefix es fs
  have hlen : 40 ≤ (bits es ++ bs).length := by
    rw [List.length_append]
    omega
  rw [firstFrame, ← hbs, if_pos hlen, List.take_append_of_le_length h.ge,
    List.take_of_length_le h.le]

/-- With fewer than forty bits the wait goes on. -/
theorem Collected.pending {s t : Dht} {es : List UInt32} {h : List DhtEvent}
    (hd : Collected s es h t) (drained : s.dhtReadDone.tryTake = ⟨0, 1⟩)
    (room : (bits es).length < 40) : t.dhtReadDone.take = none := by
  rw [hd.readDone, if_neg (not_le.mpr room), drained]
  rfl

theorem Collected.edge {s t : Dht} {es : List UInt32} {h : List DhtEvent}
    (hd : Collected s es h t) (room : (bits es).length < 40) (u : UInt32) :
    ∃ k, Collected s (es ++ [u - t.pulseStartUs]) k (edge t u) := by
  have hu : t.pulseStartUs + (u - t.pulseStartUs) = u := by
    rw [UInt32.add_comm, UInt32.sub_add_cancel]
  let r := gpioCallback t (BIT DHT_PIN) u
  have hstep : edges.step t (u - t.pulseStartUs) = some (r.1, r.2) := by
    simp only [edges, hd.irqEnabled, if_pos, hu, r]
  have hedge : Sensor.edge t u = r.2 := by
    rw [Sensor.edge, if_pos hd.irqEnabled]
  have hlen : (bits (es ++ [u - t.pulseStartUs])).length ≤ (bits es).length + 1 := by
    rw [bits_concat]
    split_ifs <;> simp
  rw [hedge]
  exact ⟨h ++ r.1, hd.step hstep (by omega)⟩

theorem edge_pulseStartUs {t : Dht} (hirq : t.irqEnabled = true) (u : UInt32) :
    (edge t u).pulseStartUs = u := by
  rw [edge, if_pos hirq]
  rfl

/-- The wait ends with the first complete frame, if there is one. -/
theorem awaitDone_collected {s t : Dht} {es : List UInt32} {h : List DhtEvent}
    (hd : Collected s es h t) (drained : s.dhtReadDone.tryTake = ⟨0, 1⟩)
    (room : (bits es).length < 40) (us : List UInt32) :
    (awaitDone t us).1.map UInt64.toNat =
      firstFrame (bits (es ++ intervals t.pulseStartUs us)) := by
  induction us generalizing es h t with
  | nil =>
    have htake := hd.pending drained room
    simp only [awaitDone, htake, intervals, List.append_nil, firstFrame, if_neg (not_le.mpr room)]
    rfl
  | cons u us ih =>
    have htake := hd.pending drained room
    obtain ⟨k, hnext⟩ := hd.edge room u
    have hlast := edge_pulseStartUs hd.irqEnabled u
    simp only [awaitDone, htake]
    rw [intervals, List.append_cons]
    by_cases hroom : (bits (es ++ [u - t.pulseStartUs])).length < 40
    · rw [ih hnext hroom, hlast]
    · have hlen : (bits (es ++ [u - t.pulseStartUs])).length = 40 := by
        have hle : (bits (es ++ [u - t.pulseStartUs])).length ≤ (bits es).length + 1 := by
          rw [bits_concat]
          split_ifs <;> simp
        omega
      have hdone : (Sensor.edge t u).dhtReadDone.take = some ⟨0, 1⟩ := by
        rw [hnext.readDone, if_pos hlen.ge, drained]
        rfl
      have hbound : ofBits (bits (es ++ [u - t.pulseStartUs])) < 2 ^ 64 :=
        (ofBits_lt _).trans_le (Nat.pow_le_pow_right Nat.zero_lt_two (by omega))
      have hword : (awaitDone (Sensor.edge t u) us).1 = some (Sensor.edge t u).readData := by
        cases us <;> simp only [awaitDone, hdone]
      rw [hword, firstFrame_append hlen, Option.map_some, hnext.readData,
        Nat.mod_eq_of_lt hbound]

theorem foldl_edge_off {s : Dht} (hoff : s.irqEnabled = false) (us : List UInt32) :
    us.foldl edge s = s := by
  induction us with
  | nil => rfl
  | cons u us ih => rw [List.foldl_cons, edge, hoff, if_neg Bool.false_ne_true, ih]

/-- With the interrupt disabled a read starts as after boot. -/
theorem dht2xRequest_off {s : Dht} (hoff : s.irqEnabled = false) (now : UInt32) (w : Waveform) :
    dht2xRequest s now w = dht2xStart s (now + w.released) := by
  let drained := { s with dhtReadDone := s.dhtReadDone.tryTake, pulseCnt := 0, readData := 0 }
  let recorded := { drained with pulseStartUs := now + w.released }
  have hheld : (now :: w.held.map (now + ·)).foldl edge drained = drained :=
    foldl_edge_off (s := drained) hoff _
  have hearly : (w.early.map (now + ·)).foldl edge recorded = recorded :=
    foldl_edge_off (s := recorded) hoff _
  have hrequest : dht2xRequest s now w =
      { (w.early.map (now + ·)).foldl edge
        { (now :: w.held.map (now + ·)).foldl edge drained with
          pulseStartUs := now + w.released } with irqEnabled := true } := rfl
  rw [hrequest, hheld, hearly]
  rfl

/-- The first call captures the first frame among the edges after the interrupt
is configured. -/
theorem captured_off {s : Dht} (hs : s.dhtReadDone.tryTake = ⟨0, 1⟩)
    (hoff : s.irqEnabled = false) (now : UInt32) (w : Waveform) :
    (captured s now w).map UInt64.toNat = firstFrame (bits (intervals w.released w.late)) := by
  have hstart := collected_start s (now + w.released)
  have hawait := awaitDone_collected hstart hs (by decide) (w.late.map (now + ·))
  have hlast : (dht2xStart s (now + w.released)).pulseStartUs = now + w.released := rfl
  rw [captured, dht2xRequest_off hoff, hawait, hlast, intervals_shift, List.nil_append]

/-- Edge times with the given intervals. -/
def offsets (start : UInt32) : List UInt32 → List UInt32
  | [] => []
  | e :: es => (start + e) :: offsets (start + e) es

/-- A sensor that answers with a frame, all of its edges being caught. -/
def frameWaveform (frame : ℕ) : Waveform where
  released := 18000
  held := []
  early := []
  late := offsets 18000 (frameEdges frame)

theorem intervals_offsets (start : UInt32) (es : List UInt32) :
    intervals start (offsets start es) = es := by
  induction es generalizing start with
  | nil => rfl
  | cons e es ih => rw [offsets, intervals, ih, add_sub_elapsed]

/-- Every frame can be captured by the first call. -/
theorem captured_frameWaveform {s : Dht} (hs : s.dhtReadDone.tryTake = ⟨0, 1⟩)
    (hoff : s.irqEnabled = false) (now : UInt32) {d : UInt64} (hd : d.toNat < 2 ^ 40) :
    captured s now (frameWaveform d.toNat) = some d := by
  have hlen : (frameBits 40 d.toNat).length = 40 := by
    rw [frameBits, List.length_map, List.length_range]
  have hcap := captured_off hs hoff now (frameWaveform d.toNat)
  have hmeasured : intervals (frameWaveform d.toNat).released (frameWaveform d.toNat).late =
      frameEdges d.toNat := intervals_offsets 18000 _
  rw [hmeasured, bits_frameEdges, firstFrame, if_pos hlen.ge,
    List.take_of_length_le hlen.le, ofBits_frameBits, Nat.mod_eq_of_lt hd] at hcap
  obtain ⟨e, he, heq⟩ := Option.map_eq_some_iff.mp hcap
  rw [he, UInt64.toNat_inj.mp heq]

/-- A captured frame is accepted exactly if its checksum is right and not zero;
its fields are then the results, and a refused read writes nothing. -/
theorem frame_accepted_iff (s : Dht) (now : UInt32) (w : Waveform) (temp rh : Int16) :
    let r := (dht2xRead s now w temp rh).1
    (r.ret ≠ 0 → r.temp = temp ∧ r.rh = rh) ∧
    ∀ frame, captured s now w = some frame → humidityField frame.toNat < 2 ^ 15 →
      (r.ret = 0 ↔ dataSum frame.toNat = frameByte frame.toNat 0 ∧ frameByte frame.toNat 0 ≠ 0) ∧
      (r.ret = 0 → r.rh.toInt = humidityField frame.toNat ∧
        r.temp.toInt = signMagnitude (temperatureField frame.toNat)) := by
  intro r
  constructor
  · exact dht2xResult_unchanged
  intro frame hcap hrh
  have hr : r = dht2xResult (some frame) temp rh := by
    rw [← hcap]
    exact dht2xRead_fst s now w temp rh
  rw [hr, ret_eq_zero_iff]
  constructor
  · rw [checksumRejected_iff, not_or, not_not]
  · intro hsum
    obtain ⟨htemp, hhum⟩ := dht2xResult_values temp rh hsum
    constructor
    · rw [Int16.toInt, BitVec.toInt_eq_toNat_cond, hhum]
      omega
    · exact htemp

/-- A reading of 65.2 per cent and 10.1 degrees of frost. -/
def frostFrame : UInt64 := 0x028C806573

theorem frost_frame_accepted :
    let r := (dht2xRead dhtBoot 0 (frameWaveform frostFrame.toNat) 0 0).1
    r.ret = 0 ∧ r.rh.toInt = 652 ∧ r.temp.toInt = -101 := by
  have hcap : captured dhtBoot 0 (frameWaveform frostFrame.toNat) = some frostFrame :=
    captured_frameWaveform (by decide) rfl 0 (by decide)
  obtain ⟨-, hframe⟩ := frame_accepted_iff dhtBoot 0 (frameWaveform frostFrame.toNat) 0 0
  obtain ⟨hret, hvalues⟩ := hframe frostFrame hcap (by decide)
  have h0 := hret.mpr (by decide)
  exact ⟨h0, hvalues h0⟩

/-- A reading of 25.5 per cent and 0.1 degrees. -/
def zeroSumFrame : UInt64 := 0x00FF000100

theorem zero_checksum_refused :
    captured dhtBoot 0 (frameWaveform zeroSumFrame.toNat) = some zeroSumFrame ∧
    humidityField zeroSumFrame.toNat < 2 ^ 15 ∧
    (∃ i, 1 ≤ i ∧ i ≤ 4 ∧ frameByte zeroSumFrame.toNat i ≠ 0) ∧
    dataSum zeroSumFrame.toNat = frameByte zeroSumFrame.toNat 0 ∧
    (dht2xRead dhtBoot 0 (frameWaveform zeroSumFrame.toNat) 0 0).1.ret ≠ 0 := by
  have hcap : captured dhtBoot 0 (frameWaveform zeroSumFrame.toNat) = some zeroSumFrame :=
    captured_frameWaveform (by decide) rfl 0 (by decide)
  refine ⟨hcap, by decide, ⟨3, by decide⟩, by decide, ?_⟩
  rw [dht2xRead_fst, hcap]
  decide

/-- A frame that was damaged within one byte is refused. -/
theorem one_byte_corruption_refused (s : Dht) (now : UInt32) (w : Waveform) (temp rh : Int16)
    {frame d : UInt64} (hframe : dataSum frame.toNat = frameByte frame.toNat 0)
    (hcap : captured s now w = some d) {i : ℕ} (hi : i < 5)
    (hsame : ∀ j, j < 8 → j ≠ i → frameByte d.toNat j = frameByte frame.toNat j)
    (hne : d ≠ frame) :
    let r := (dht2xRead s now w temp rh).1
    r.ret ≠ 0 ∧ r.temp = temp ∧ r.rh = rh := by
  have hrej := checksumRejected_of_corrupted hframe hi hsame hne
  rw [dht2xRead_fst, hcap]
  have hret : (dht2xResult (some d) temp rh).ret ≠ 0 := by
    rw [ne_eq, ret_eq_zero_iff, not_not]
    exact hrej
  exact ⟨hret, dht2xResult_unchanged hret⟩

theorem flipped_bit_refused :
    let r := (dht2xRead dhtBoot 0 (frameWaveform 0x028C816573) 7 8).1
    r.ret ≠ 0 ∧ r.temp = 7 ∧ r.rh = 8 := by
  have hvalid : dataSum frostFrame.toNat = frameByte frostFrame.toNat 0 := by decide
  have hcap : captured dhtBoot 0 (frameWaveform 0x028C816573) = some 0x028C816573 :=
    captured_frameWaveform (by decide) rfl 0 (d := 0x028C816573) (by decide)
  exact one_byte_corruption_refused dhtBoot 0 (frameWaveform 0x028C816573) 7 8 hvalid hcap
    (i := 2) (by decide) (by decide) (by decide)

end WlabStation.Sensor
