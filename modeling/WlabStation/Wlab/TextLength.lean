import WlabStation.Mqtt.Publish
import WlabStation.Wlab.Authorize

/-! The strings of a sample in their buffers: the exact length of what
`wlab_itostrf` writes, and a bound on the whole text. -/
namespace WlabStation.Wlab

/-- The size of the arrays that `wlab_itostrf` writes to. -/
def ITOSTRF_LEN : ℕ := 8

/-- The values of a series that are printed by `wlab_itostrf`. -/
def SerieArgs.values (a : SerieArgs) : List ℤ := [a.avg, a.act, a.min, a.max]

theorem intChars_length (neg : Bool) (n : ℕ) :
    (Json.intChars neg n).length = neg.toNat + (Nat.toDigits 10 n).length := by
  cases neg <;> simp [Json.intChars, Nat.add_comm]

theorem tenthsText_length (v : ℤ) : (tenthsText v).length =
    (decide (v < 0)).toNat + (Nat.toDigits 10 (v.natAbs / 10)).length + 2 := by
  rw [tenthsText, List.length_append, intChars_length]
  rfl

/-- A sign takes the place of a digit. -/
theorem tenthsText_fits_iff (v : ℤ) :
    (tenthsText v).length < ITOSTRF_LEN ↔ -99999 ≤ v ∧ v ≤ 999999 := by
  have hdigits : ∀ k, 0 < k → ((Nat.toDigits 10 (v.natAbs / 10)).length ≤ k ↔
      v.natAbs / 10 < 10 ^ k) := fun k hk => Nat.length_toDigits_le_iff (by decide) hk
  have hfour := hdigits 4 (by decide)
  have hfive := hdigits 5 (by decide)
  rw [tenthsText_length, ITOSTRF_LEN]
  by_cases h : v < 0
  · rw [decide_eq_true h, Bool.toNat_true]
    omega
  · rw [decide_eq_false h, Bool.toNat_false]
    omega

theorem tenthsText_head (v : ℤ) : (tenthsText v).head? = some '-' ↔ v < 0 := by
  unfold tenthsText Json.intChars
  by_cases h : v < 0
  · simp [h]
  · obtain ⟨c, cs, hcs⟩ := List.exists_cons_of_ne_nil (Json.toDigits_ne_nil (v.natAbs / 10))
    have hdigit := Json.toDigits_isDigit (n := v.natAbs / 10) c (hcs ▸ List.mem_cons_self)
    have hc : c ≠ '-' := by
      rintro rfl
      exact absurd hdigit (by decide)
    simp [h, hcs, hc]

theorem tenthsText_denotes (v : ℤ) :
    Json.Denotes (asciiBytes (tenthsText v)) (.num (v / 10)) := by
  rw [asciiBytes_eq_utf8 (tenthsText_ascii v)]
  exact (reads_tenthsText v).denotes

/-- The two values that a text of tenths denotes are one. -/
theorem tenthsText_injective {v w : ℤ} (h : asciiBytes (tenthsText v) = asciiBytes (tenthsText w)) :
    v = w := by
  have hv := tenthsText_denotes v
  rw [h] at hv
  have hval := Json.Value.num.inj (hv.unique (tenthsText_denotes w))
  rw [div_left_inj' (by norm_num)] at hval
  exact_mod_cast hval

theorem asciiBytes_head {cs : List Char} (h : Ascii cs) :
    (asciiBytes cs).head? = some 45 ↔ cs.head? = some '-' := by
  cases cs with
  | nil => simp [asciiBytes]
  | cons c cs =>
    have hc := h c List.mem_cons_self
    simp only [asciiBytes, List.map_cons, List.head?_cons, Option.some.injEq]
    constructor
    · intro hbyte
      have hnat := congrArg UInt8.toNat hbyte
      rw [UInt8.toNat_ofNat', Nat.mod_eq_of_lt (by omega)] at hnat
      exact Char.toNat_inj.mp hnat
    · rintro rfl
      rfl

/-- The formatter is exact for every `int32_t` but the least. -/
theorem wlabItostrf_exact {v : ℤ} (hlo : INT32_MIN < v) (hhi : v ≤ INT32_MAX) :
    ∃ dst text, wlabItostrf v = some dst ∧ cString dst = some text ∧
      Json.Denotes text (.num (v / 10)) ∧ (text.head? = some 45 ↔ v < 0) ∧
      (dst.length ≤ ITOSTRF_LEN ↔ -99999 ≤ v ∧ v ≤ 999999) ∧
      ∀ w, INT32_MIN < w → w ≤ INT32_MAX → wlabItostrf w = wlabItostrf v → w = v := by
  have heq : ∀ w, INT32_MIN < w → w ≤ INT32_MAX →
      wlabItostrf w = some (asciiBytes (tenthsText w) ++ [0]) := fun w hw hw' =>
    wlabItostrf_eq hw (Int.lt_add_one_of_le hw')
  refine ⟨_, _, heq v hlo hhi, cString_ascii (tenthsText_ascii v), tenthsText_denotes v, ?_, ?_,
    ?_⟩
  · rw [asciiBytes_head (tenthsText_ascii v), tenthsText_head]
  · rw [← tenthsText_fits_iff, asciiBytes, List.length_append, List.length_map]
    exact Nat.succ_le_iff
  · intro w hw hw' h
    rw [heq w hw hw', heq v hlo hhi] at h
    exact tenthsText_injective (List.append_cancel_right (Option.some.inj h))

/-- The greatest temperature in tenths that fits below zero, and its text. -/
theorem wlabItostrf_minus_99999 : ∃ dst text, wlabItostrf (-99999) = some dst ∧
    cString dst = some text ∧ Json.Denotes text (.num ((-99999 : ℤ) / 10)) ∧
    (text.head? = some 45 ↔ (-99999 : ℤ) < 0) ∧
    (dst.length ≤ ITOSTRF_LEN ↔ (-99999 : ℤ) ≤ -99999 ∧ (-99999 : ℤ) ≤ 999999) ∧
    ∀ w, INT32_MIN < w → w ≤ INT32_MAX → wlabItostrf w = wlabItostrf (-99999) → w = -99999 :=
  wlabItostrf_exact (by decide) (by decide)

theorem intText_length_le {z : ℤ} (hlo : -2147483648 ≤ z) (hhi : z < 2147483648) :
    (intText z).length ≤ 11 := by
  have hdigits : (Nat.toDigits 10 z.natAbs).length ≤ 10 :=
    (Nat.length_toDigits_le_iff (by decide) (by decide)).mpr (by omega)
  have hsign := (decide (z < 0)).toNat_le
  rw [intText_eq, intChars_length]
  omega

theorem natText_length_le {n : ℕ} (h : n < 4294967296) : (intText n).length ≤ 10 := by
  rw [intText_nonneg]
  exact (Nat.length_toDigits_le_iff (by decide) (by decide)).mpr (by omega)

/-- A value of a window leaves room for the terminator. -/
theorem tenthsText_int16 {v : ℤ} (h : InInt16 v) : (tenthsText v).length < ITOSTRF_LEN := by
  unfold InInt16 at h
  exact (tenthsText_fits_iff v).mpr (by omega)

theorem SerieArgs.InRange.values {a : SerieArgs} (h : a.InRange) : ∀ v ∈ a.values, InInt16 v := by
  simp only [SerieArgs.values, List.forall_mem_cons, List.not_mem_nil, false_implies,
    implies_true, and_true]
  exact ⟨h.avg, h.act, h.min, h.max⟩

theorem serieText_length {a : SerieArgs} (h : a.InRange) : (serieText a).length ≤ 120 := by
  have havg := tenthsText_int16 h.avg
  have hact := tenthsText_int16 h.act
  have hmin := tenthsText_int16 h.min
  have hmax := tenthsText_int16 h.max
  have hminTs := natText_length_le h.minTs
  have hmaxTs := natText_length_le h.maxTs
  rw [ITOSTRF_LEN] at havg hact hmin hmax
  simp only [serieText, Json.memberText, String.reduceToList, List.length_append,
    List.length_cons, List.length_nil]
  omega

theorem payloadText_length {uid ts : List Char} (huid : uid.length ≤ 12) (hts : ts.length ≤ 11)
    {a : SampleArgs} (ht : a.temp.InRange) (hr : a.rh.InRange) :
    (payloadText uid ts a).length < Mqtt.MQTT_WORKER_MAX_PUBLISH_LEN := by
  have htemp := serieText_length ht
  have hrh := serieText_length hr
  rw [Mqtt.MQTT_WORKER_MAX_PUBLISH_LEN]
  simp only [payloadText, seriesText, Json.memberText, Json.stringText, String.reduceToList,
    List.length_append, List.length_cons, List.length_nil]
  omega

/-- Whatever was committed to the two windows, the strings of the sample fit their
buffers, and the sample the one of the worker. -/
theorem sample_fits {period : ℕ} {xs ys : List Sample} {temp rh : WlabBuffer}
    (ht : Filled period (threshold .temperature) xs temp)
    (hr : Filled period (threshold .humidity) ys rh) (mac : Fin 6 → UInt8) (deviceId : ℕ) :
    ∃ a, wlabDhtPublishSample temp rh = .ok a ∧
      (∀ v ∈ a.temp.values ++ a.rh.values,
        ∃ dst, wlabItostrf v = some dst ∧ dst.length ≤ ITOSTRF_LEN) ∧
      ∃ text, sampleText (asciiBytes (deviceIdText mac deviceId) ++ [0]) a = some text ∧
        text.length < Mqtt.MQTT_WORKER_MAX_PUBLISH_LEN := by
  obtain ⟨htcnt, hts, htrange⟩ := ht.inRange
  obtain ⟨hrcnt, -, hrrange⟩ := hr.inRange
  have huid := deviceIdText_isDeviceId mac deviceId
  refine ⟨sampleArgs temp rh, wlabDhtPublishSample_eq htcnt hrcnt, ?_, _,
    sampleText_eq huid.ascii htrange hrrange, ?_⟩
  · intro v hv
    have hint : InInt16 v := (List.mem_append.mp hv).elim (htrange.values v) (hrrange.values v)
    refine ⟨_, wlabItostrf_int16 hint, ?_⟩
    rw [asciiBytes, List.length_append, List.length_map]
    exact tenthsText_int16 hint
  · rw [asciiBytes, List.length_map]
    apply payloadText_length huid.length.le _ htrange hrrange
    exact intText_length_le (Int.le_bmod (by decide)) (Int.bmod_lt (by decide))

/-- The coldest and driest reading, alone in its windows. -/
theorem coldest_sample_fits : ∃ a,
    wlabDhtPublishSample (wlabBufferInit.push 10 (-32767) (Sample.ts ⟨1700000000, -32767⟩))
      (wlabBufferInit.push 10 (-32768) (Sample.ts ⟨1700000000, -32768⟩)) = .ok a ∧
    (∀ v ∈ a.temp.values ++ a.rh.values,
      ∃ dst, wlabItostrf v = some dst ∧ dst.length ≤ ITOSTRF_LEN) ∧
    ∃ text, sampleText (asciiBytes (deviceIdText (fun _ => 171) 0) ++ [0]) a = some text ∧
      text.length < Mqtt.MQTT_WORKER_MAX_PUBLISH_LEN :=
  sample_fits (filled_single _ ⟨1700000000, -32767⟩ (by unfold InInt16; decide))
    (filled_single _ ⟨1700000000, -32768⟩ (by unfold InInt16; decide)) _ _

end WlabStation.Wlab
