import WlabStation.Json.Compact
import WlabStation.Json.Utf8
import WlabStation.Machine.Printf
import WlabStation.Wlab.Process

/-! The text of a sample: what `wlab_dht_publish_sample` prints of two windows
and what a receiver reads in it. -/
namespace WlabStation.Wlab

/-- `wlab_itostrf`: the bytes written to `dst`, with the terminator. The
negation of a negative value wraps for `INT32_MIN`. -/
def wlabItostrf (v : ℤ) : Option (List UInt8) :=
  let text :=
    if 0 > v then
      let n := i32 (-v)
      sprintf "-%d.%d".toList [.word (n.tdiv 10), .word |n.tmod 10|]
    else sprintf "%d.%d".toList [.word (v.tdiv 10), .word |v.tmod 10|]
  text.map (· ++ [0])

def DHTJsonDataTemplate : List Char :=
  "\x7b\"UID\":\"%s\",\"TS\":%d,\"SERIE\":\x7b\"Temperature\":".toList ++
  "\x7b\"f_avg\":%s,\"f_act\":%s,\"f_min\":%s,\"f_max\":%s,".toList ++
  "\"i_min_ts\":%u,\"i_max_ts\":%u\x7d,".toList ++
  "\"Humidity\":\x7b\"f_avg\":%s,\"f_act\":%s,\"f_min\":%s,".toList ++
  "\"f_max\":%s,\"i_min_ts\":%u,\"i_max_ts\":%u\x7d\x7d\x7d".toList

/-- The text `mqtt_worker_publish_qos1` makes of the template and its arguments. -/
def sampleText (deviceId : List UInt8) (a : SampleArgs) : Option (List UInt8) := do
  let tavg ← wlabItostrf a.temp.avg
  let tact ← wlabItostrf a.temp.act
  let tmin ← wlabItostrf a.temp.min
  let tmax ← wlabItostrf a.temp.max
  let rhavg ← wlabItostrf a.rh.avg
  let rhact ← wlabItostrf a.rh.act
  let rhmin ← wlabItostrf a.rh.min
  let rhmax ← wlabItostrf a.rh.max
  sprintf DHTJsonDataTemplate [.chars deviceId, .word a.ts,
    .chars tavg, .chars tact, .chars tmin, .chars tmax, .word a.temp.minTs, .word a.temp.maxTs,
    .chars rhavg, .chars rhact, .chars rhmin, .chars rhmax, .word a.rh.minTs, .word a.rh.maxTs]

/-- The decimal text of a number of tenths. -/
def tenthsText (v : ℤ) : List Char :=
  Json.intChars (decide (v < 0)) (v.natAbs / 10) ++ ['.', (v.natAbs % 10).digitChar]

theorem sampleFormat_pieces : parseFormat DHTJsonDataTemplate = some
    [.lit "\x7b\"UID\":\"".toList, .str, .lit "\",\"TS\":".toList, .int,
      .lit (",\"SERIE\":\x7b\"Temperature\":".toList ++ "\x7b\"f_avg\":".toList), .str,
      .lit ",\"f_act\":".toList, .str, .lit ",\"f_min\":".toList, .str,
      .lit ",\"f_max\":".toList, .str, .lit ",\"i_min_ts\":".toList, .unsigned,
      .lit ",\"i_max_ts\":".toList, .unsigned,
      .lit ("\x7d".toList ++ (",\"Humidity\":".toList ++ "\x7b\"f_avg\":".toList)), .str,
      .lit ",\"f_act\":".toList, .str, .lit ",\"f_min\":".toList, .str,
      .lit ",\"f_max\":".toList, .str, .lit ",\"i_min_ts\":".toList, .unsigned,
      .lit ",\"i_max_ts\":".toList, .unsigned,
      .lit ("\x7d".toList ++ "\x7d\x7d".toList)] := by
  decide +kernel

theorem itostrf_pieces : parseFormat "-%d.%d".toList =
    some [.lit ['-'], .int, .lit ['.'], .int] ∧
    parseFormat "%d.%d".toList = some [.int, .lit ['.'], .int] := by
  decide

/-- Quotient and remainder of a number below 2^31, as both formats print them. -/
theorem tenths_words {n : ℕ} (hn : n < 2147483648) :
    asciiBytes (intText (i32 ((n : ℤ).tdiv 10))) = asciiBytes (Nat.toDigits 10 (n / 10)) ∧
    asciiBytes (intText (i32 |(n : ℤ).tmod 10|)) = asciiBytes [(n % 10).digitChar] := by
  have hdiv : (n : ℤ).tdiv 10 = (n / 10 : ℕ) := by
    rw [Int.tdiv_eq_ediv_of_nonneg (Int.natCast_nonneg n)]
    rfl
  have hmod : |(n : ℤ).tmod 10| = (n % 10 : ℕ) := by
    rw [Int.tmod_eq_emod_of_nonneg (Int.natCast_nonneg n), abs_of_nonneg (by omega)]
    rfl
  rw [hdiv, hmod, i32_of_range (by omega) (by omega), i32_of_range (by omega) (by omega),
    intText_nonneg, intText_nonneg, Nat.toDigits_of_lt_base (Nat.mod_lt n (by decide))]
  exact ⟨rfl, rfl⟩

theorem wlabItostrf_eq {v : ℤ} (hlo : -2147483648 < v) (hhi : v < 2147483648) :
    wlabItostrf v = some (asciiBytes (tenthsText v) ++ [0]) := by
  obtain ⟨hneg, hnonneg⟩ := itostrf_pieces
  obtain ⟨hdiv, hmod⟩ := tenths_words (n := v.natAbs) (by omega)
  by_cases h : v < 0
  · have habs : i32 (-v) = (v.natAbs : ℤ) := by
      rw [i32_of_range (by omega) (by omega)]
      omega
    rw [wlabItostrf, if_pos h, habs, sprintf, hneg, Option.bind_eq_bind, Option.bind_some]
    simp only [render_lit, render_int, render_nil, Option.map_some, hdiv, hmod]
    simp [tenthsText, Json.intChars, h, asciiBytes]
  · obtain ⟨n, rfl⟩ := Int.eq_ofNat_of_zero_le (Int.not_lt.mp h)
    rw [Int.natAbs_natCast] at hdiv hmod
    rw [wlabItostrf, if_neg h, sprintf, hnonneg, Option.bind_eq_bind, Option.bind_some]
    simp only [render_lit, render_int, render_nil, Option.map_some, hdiv, hmod]
    simp [tenthsText, Json.intChars, asciiBytes]

theorem intText_eq (z : ℤ) : intText z = Json.intChars (decide (z < 0)) z.natAbs := by
  simp [intText, Json.intChars]

theorem tenthsText_ascii (v : ℤ) : Ascii (tenthsText v) := by
  rw [tenthsText, Json.intChars, ascii_append, ascii_append]
  exact ⟨⟨sign_ascii, toDigits_ascii _⟩, point_ascii _ (Nat.mod_lt _ (by decide))⟩

theorem sign_mul_natAbs (v : ℤ) : Json.sign (decide (v < 0)) * (v.natAbs : ℚ) = v := by
  rw [Nat.cast_natAbs, Int.cast_abs]
  by_cases h : v < 0
  · have hv : (v : ℚ) < 0 := by exact_mod_cast h
    rw [decide_eq_true h, abs_of_neg hv, Json.sign, if_pos rfl, neg_one_mul, neg_neg]
  · have hv : (0 : ℚ) ≤ v := by exact_mod_cast Int.not_lt.mp h
    rw [decide_eq_false h, abs_of_nonneg hv, Json.sign, if_neg (by decide), one_mul]

theorem reads_intText (z : ℤ) : Json.Reads (intText z) (.num z) := by
  have h := Json.Reads.int (decide (z < 0)) z.natAbs
  rw [sign_mul_natAbs] at h
  rw [intText_eq]
  exact h

theorem reads_tenthsText (v : ℤ) : Json.Reads (tenthsText v) (.num (v / 10)) := by
  have h := Json.Reads.tenths (decide (v < 0)) (v.natAbs / 10) (Nat.mod_lt v.natAbs (by decide))
  rw [Nat.div_add_mod, ← mul_div_assoc, sign_mul_natAbs] at h
  exact h

/-- One series as the template prints it. -/
def serieText (a : SerieArgs) : List Char :=
  '\x7b' :: Json.memberText "f_avg".toList (tenthsText a.avg ++ ',' ::
    Json.memberText "f_act".toList (tenthsText a.act ++ ',' ::
    Json.memberText "f_min".toList (tenthsText a.min ++ ',' ::
    Json.memberText "f_max".toList (tenthsText a.max ++ ',' ::
    Json.memberText "i_min_ts".toList (intText a.minTs ++ ',' ::
    Json.memberText "i_max_ts".toList (intText a.maxTs ++ ['\x7d']))))))

theorem serieText_append (a : SerieArgs) (r : List Char) : serieText a ++ r =
    "\x7b\"f_avg\":".toList ++ (tenthsText a.avg ++ (",\"f_act\":".toList ++
      (tenthsText a.act ++ (",\"f_min\":".toList ++ (tenthsText a.min ++
      (",\"f_max\":".toList ++ (tenthsText a.max ++ (",\"i_min_ts\":".toList ++
      (intText a.minTs ++ (",\"i_max_ts\":".toList ++ (intText a.maxTs ++
      ("\x7d".toList ++ r)))))))))))) := by
  simp only [serieText, Json.memberText, String.reduceToList, List.append_assoc, List.cons_append,
    List.nil_append]

/-- One series as it should be read. -/
def serieValue (a : SerieArgs) : Json.Value :=
  .obj [("f_avg".toList, .num (a.avg / 10)), ("f_act".toList, .num (a.act / 10)),
    ("f_min".toList, .num (a.min / 10)), ("f_max".toList, .num (a.max / 10)),
    ("i_min_ts".toList, .num a.minTs), ("i_max_ts".toList, .num a.maxTs)]

theorem reads_natText (n : ℕ) : Json.Reads (intText n) (.num n) := by
  have h := reads_intText n
  rw [Int.cast_natCast] at h
  exact h

theorem reads_serie (a : SerieArgs) : Json.Reads (serieText a) (serieValue a) := by
  apply Json.Reads.object
  intro r
  simp only [Json.memberText_append, List.append_assoc, List.cons_append, List.nil_append]
  apply Json.MembersAt.cons (by decide) (reads_tenthsText a.avg)
  apply Json.MembersAt.cons (by decide) (reads_tenthsText a.act)
  apply Json.MembersAt.cons (by decide) (reads_tenthsText a.min)
  apply Json.MembersAt.cons (by decide) (reads_tenthsText a.max)
  apply Json.MembersAt.cons (by decide) (reads_natText a.minTs)
  exact Json.membersAt_last (by decide) (reads_natText a.maxTs)

def seriesText (a : SampleArgs) : List Char :=
  '\x7b' :: Json.memberText "Temperature".toList (serieText a.temp ++ ',' ::
    Json.memberText "Humidity".toList (serieText a.rh ++ ['\x7d']))

def seriesValue (a : SampleArgs) : Json.Value :=
  .obj [("Temperature".toList, serieValue a.temp), ("Humidity".toList, serieValue a.rh)]

theorem reads_series (a : SampleArgs) : Json.Reads (seriesText a) (seriesValue a) := by
  apply Json.Reads.object
  intro r
  simp only [Json.memberText_append, List.append_assoc, List.cons_append, List.nil_append]
  apply Json.MembersAt.cons (by decide) (reads_serie a.temp)
  exact Json.membersAt_last (by decide) (reads_serie a.rh)

/-- The whole sample as the template prints it, with `ts` for its time. -/
def payloadText (uid ts : List Char) (a : SampleArgs) : List Char :=
  '\x7b' :: Json.memberText "UID".toList (Json.stringText uid ++ ',' ::
    Json.memberText "TS".toList (ts ++ ',' ::
    Json.memberText "SERIE".toList (seriesText a ++ ['\x7d'])))

def payloadValue (uid : List Char) (ts : ℚ) (a : SampleArgs) : Json.Value :=
  .obj [("UID".toList, .str uid), ("TS".toList, .num ts), ("SERIE".toList, seriesValue a)]

theorem reads_payload {uid ts : List Char} {q : ℚ} (huid : ∀ c ∈ uid, Json.Plain c)
    (hts : Json.Reads ts (.num q)) (a : SampleArgs) :
    Json.Reads (payloadText uid ts a) (payloadValue uid q a) := by
  apply Json.Reads.object
  intro r
  simp only [Json.memberText_append, List.append_assoc, List.cons_append, List.nil_append]
  apply Json.MembersAt.cons (by decide) (Json.Reads.string huid)
  apply Json.MembersAt.cons (by decide) hts
  exact Json.membersAt_last (by decide) (reads_series a)

/-- The bounds within which all values are printed exactly. -/
structure SerieArgs.InRange (a : SerieArgs) : Prop where
  avg : InInt16 a.avg
  act : InInt16 a.act
  min : InInt16 a.min
  max : InInt16 a.max
  minTs : a.minTs < 4294967296
  maxTs : a.maxTs < 4294967296

theorem wlabItostrf_int16 {v : ℤ} (h : InInt16 v) :
    wlabItostrf v = some (asciiBytes (tenthsText v) ++ [0]) := by
  unfold InInt16 at h
  exact wlabItostrf_eq (by omega) (by omega)

theorem cString_ascii {cs : List Char} (h : Ascii cs) :
    cString (asciiBytes cs ++ [0]) = some (asciiBytes cs) :=
  cString_terminated h.zero_notMem []

/-- What is printed is UTF-8. -/
theorem asciiBytes_eq_utf8 {cs : List Char} (h : Ascii cs) : asciiBytes cs = Json.utf8Bytes cs :=
  (Json.utf8Bytes_ascii fun c hc => (h c hc).2).symm

theorem u32_natCast {n : ℕ} (h : n < 4294967296) : ((u32 n : ℕ) : ℤ) = n :=
  u32_of_range (by omega) (by omega)

/-- The text is the template filled in, the time printed as an `int32_t`. -/
theorem sampleText_eq {uid : List Char} (huid : Ascii uid) {a : SampleArgs}
    (ht : a.temp.InRange) (hr : a.rh.InRange) : sampleText (asciiBytes uid ++ [0]) a =
      some (asciiBytes (payloadText uid (intText (i32 a.ts)) a)) := by
  simp only [sampleText, wlabItostrf_int16 ht.avg, wlabItostrf_int16 ht.act,
    wlabItostrf_int16 ht.min, wlabItostrf_int16 ht.max, wlabItostrf_int16 hr.avg,
    wlabItostrf_int16 hr.act, wlabItostrf_int16 hr.min, wlabItostrf_int16 hr.max,
    Option.bind_eq_bind, Option.bind_some, sprintf, sampleFormat_pieces]
  simp only [render_lit, render_int, render_unsigned, render_str, render_nil, Option.map_some,
    cString_ascii huid, cString_ascii (tenthsText_ascii _), Option.bind_some,
    u32_natCast ht.minTs, u32_natCast ht.maxTs, u32_natCast hr.minTs, u32_natCast hr.maxTs,
    ← asciiBytes_append, List.append_nil, List.append_assoc, ← serieText_append]
  refine congrArg (fun cs => some (asciiBytes cs)) ?_
  simp only [payloadText, seriesText, Json.memberText, Json.stringText, String.reduceToList,
    List.append_assoc, List.cons_append, List.nil_append]

theorem member_ascii {k t s : List Char} (hk : Ascii k) (ht : Ascii t) (hs : Ascii s) :
    Ascii (Json.memberText k (t ++ ',' :: s)) := by
  simp only [Json.memberText, ascii_cons, ascii_append]
  exact ⟨⟨by decide, hk⟩, by decide, by decide, ht, by decide, hs⟩

theorem lastMember_ascii {k t : List Char} (hk : Ascii k) (ht : Ascii t) :
    Ascii (Json.memberText k (t ++ ['\x7d'])) := by
  simp only [Json.memberText, ascii_cons, ascii_append]
  exact ⟨⟨by decide, hk⟩, by decide, by decide, ht, by decide⟩

theorem serieText_ascii (a : SerieArgs) : Ascii (serieText a) := by
  refine (ascii_cons _ _).mpr ⟨by decide, ?_⟩
  apply member_ascii (by decide) (tenthsText_ascii a.avg)
  apply member_ascii (by decide) (tenthsText_ascii a.act)
  apply member_ascii (by decide) (tenthsText_ascii a.min)
  apply member_ascii (by decide) (tenthsText_ascii a.max)
  apply member_ascii (by decide) (intText_ascii a.minTs)
  exact lastMember_ascii (by decide) (intText_ascii a.maxTs)

theorem payloadText_ascii {uid : List Char} (huid : Ascii uid) (z : ℤ) (a : SampleArgs) :
    Ascii (payloadText uid (intText z) a) := by
  have hstring : Ascii (Json.stringText uid) := by
    simp only [Json.stringText, ascii_append, ascii_cons]
    exact ⟨⟨by decide, huid⟩, by decide⟩
  have hseries : Ascii (seriesText a) := by
    refine (ascii_cons _ _).mpr ⟨by decide, ?_⟩
    apply member_ascii (by decide) (serieText_ascii a.temp)
    exact lastMember_ascii (by decide) (serieText_ascii a.rh)
  refine (ascii_cons _ _).mpr ⟨by decide, ?_⟩
  apply member_ascii (by decide) hstring
  apply member_ascii (by decide) (intText_ascii z)
  exact lastMember_ascii (by decide) hseries

/-- A device id as the firmware forms it. -/
structure IsDeviceId (uid : List Char) : Prop where
  length : uid.length = 12
  hex : ∀ c ∈ uid, Json.hexDigit c ≠ none

theorem hexDigit_range {c : Char} (h : Json.hexDigit c ≠ none) :
    Json.Plain c ∧ 0 < c.toNat ∧ c.toNat < 128 := by
  have hrange : 48 ≤ c.toNat ∧ c.toNat ≤ 57 ∨ 65 ≤ c.toNat ∧ c.toNat ≤ 70 ∨
      97 ≤ c.toNat ∧ c.toNat ≤ 102 := by
    by_contra hno
    obtain ⟨h1, h23⟩ := not_or.mp hno
    obtain ⟨h2, h3⟩ := not_or.mp h23
    rw [Json.hexDigit, if_neg h1, if_neg h2, if_neg h3] at h
    exact h rfl
  have hne : ∀ d : Char, d.toNat = 34 ∨ d.toNat = 92 → c ≠ d := by
    rintro d hd rfl
    omega
  exact ⟨⟨hne _ (by decide), hne _ (by decide), by omega⟩, by omega, by omega⟩

theorem IsDeviceId.plain {uid : List Char} (h : IsDeviceId uid) : ∀ c ∈ uid, Json.Plain c := by
  intro c hc
  exact (hexDigit_range (h.hex c hc)).1

theorem IsDeviceId.ascii {uid : List Char} (h : IsDeviceId uid) : Ascii uid := by
  intro c hc
  exact (hexDigit_range (h.hex c hc)).2

/-- The buffer that a sequence of commits leaves. -/
def commits (period threshold : ℕ) (b : WlabBuffer) (xs : List Sample) : Except Fault WlabBuffer :=
  xs.foldlM (fun b x => (wlabBufferCommit period b x.val x.ts threshold).map Prod.snd) b

/-- A window after `xs` was committed to it. -/
structure Filled (period threshold : ℕ) (xs : List Sample) (b : WlabBuffer) : Prop where
  commits : commits period threshold wlabBufferInit xs = .ok b
  nonempty : xs ≠ []
  int16 : ∀ x ∈ xs, InInt16 x.val
  count : xs.length ≤ 65535

/-- Committing extends the accepted readings by some of the readings. -/
theorem commits_summary {period threshold : ℕ} {w xs : List Sample} {b : WlabBuffer}
    (hw : ∀ x ∈ w, InInt16 x.val) (hxs : ∀ x ∈ xs, InInt16 x.val)
    (h : commits period threshold (summary period w) xs = .ok b) :
    ∃ l, List.Sublist l xs ∧ b = summary period (w ++ l) ∧ (w = [] → xs ≠ [] → l ≠ []) := by
  induction xs generalizing w with
  | nil =>
    obtain rfl : summary period w = b := Except.ok.inj h
    exact ⟨[], List.nil_sublist _, by rw [List.append_nil], fun _ h => h⟩
  | cons x xs ih =>
    have hx := hxs x List.mem_cons_self
    have htail := fun y hy => hxs y (List.mem_cons_of_mem x hy)
    rw [commits, List.foldlM_cons, wlabBufferCommit_eq] at h
    split_ifs at h with hfault hrej
    · cases h
    · obtain ⟨l, hl, hb, -⟩ := ih hw htail h
      refine ⟨l, hl.cons x, hb, ?_⟩
      rintro rfl
      have hcnt : ¬ 4 < wlabBufferInit.cnt := by decide
      exact absurd hrej.1 hcnt
    · have hsnoc : ∀ y ∈ w ++ [x], InInt16 y.val := by
        intro y hy
        rcases List.mem_append.mp hy with hy | hy
        · exact hw y hy
        · rw [List.mem_singleton.mp hy]
          exact hx
      have hnext : commits period threshold (summary period (w ++ [x])) xs = .ok b := by
        rw [← summary_push period hw hx]
        exact h
      obtain ⟨l, hl, hb, -⟩ := ih hsnoc htail hnext
      exact ⟨x :: l, hl.cons_cons x, by rw [hb, List.append_assoc]; rfl,
        fun _ _ => List.cons_ne_nil x l⟩

theorem Filled.eq_summary {period threshold : ℕ} {xs : List Sample} {b : WlabBuffer}
    (h : Filled period threshold xs b) : ∃ w, w ≠ [] ∧ (∀ x ∈ w, InInt16 x.val) ∧
      w.length ≤ 65535 ∧ b = summary period w := by
  obtain ⟨l, hl, hb, hne⟩ := commits_summary (w := []) (by simp) h.int16 h.commits
  exact ⟨l, hne rfl h.nonempty, fun x hx => h.int16 x (hl.subset hx),
    hl.length_le.trans h.count, hb⟩

/-- The values of a window are 16 bits wide, its times 32 bits. -/
theorem Filled.inRange {period threshold : ℕ} {xs : List Sample} {b : WlabBuffer}
    (h : Filled period threshold xs b) : b.cnt ≠ 0 ∧ b.sampleTs < 4294967296 ∧
      SerieArgs.InRange ⟨b.buff.tdiv b.cnt, b.sampleTsVal, b.min, b.max, b.minTs, b.maxTs⟩ := by
  obtain ⟨w, hne, hw, hlen, rfl⟩ := h.eq_summary
  obtain ⟨a, m, x, ha, hm, hx⟩ := exists_extrema hne
  have hpos := List.length_pos_iff.mpr hne
  have hsum := sum_int16 hw
  have hts : ∀ y : Sample, y.ts < 4294967296 := by
    intro y
    unfold Sample.ts u32
    omega
  have hfloor : ∀ n y, floorTo n (Sample.ts y) < 4294967296 := fun n y =>
    Nat.lt_of_le_of_lt (floorTo_le n _) (hts y)
  have hcnt : i32 w.length = w.length := i32_of_range (by omega) (by omega)
  have hbuff : i32 (w.map Sample.val).sum = (w.map Sample.val).sum :=
    i32_of_range (by omega) (by omega)
  refine ⟨?_, ?_, ?_⟩
  · simp only [summary, hcnt]
    omega
  · simp only [summary, ha, Option.elim_some]
    exact hfloor _ a
  constructor
  case avg =>
    simp only [summary, hcnt, hbuff]
    exact tdiv_between (by omega) hsum.1 hsum.2
  case act =>
    simp only [summary, ha, Option.elim_some]
    exact hw a (List.mem_of_head? ha)
  case min =>
    simp only [summary, hm, Option.elim_some]
    exact hw m (List.argmin_mem hm)
  case max =>
    simp only [summary, hx, Option.elim_some]
    exact hw x (List.argmax_mem hx)
  case minTs =>
    simp only [summary, hm, Option.elim_some]
    exact hfloor 60 m
  case maxTs =>
    simp only [summary, hx, Option.elim_some]
    exact hfloor 60 x

/-- The text of the sample of two windows. -/
def publishedText (deviceId : List UInt8) (temp rh : WlabBuffer) :
    Except Fault (Option (List UInt8)) :=
  (wlabDhtPublishSample temp rh).map (sampleText deviceId)

/-- A receiver reads in the sample what the windows hold, the time as a number. -/
def SampleDecodes (uid : List Char) (temp rh : WlabBuffer) : Prop :=
  ∃ text, publishedText (asciiBytes uid ++ [0]) temp rh = .ok (some text) ∧
    Json.Denotes text (payloadValue uid temp.sampleTs (sampleArgs temp rh))

theorem wlabDhtPublishSample_eq {temp rh : WlabBuffer} (ht : temp.cnt ≠ 0) (hr : rh.cnt ≠ 0) :
    wlabDhtPublishSample temp rh = .ok (sampleArgs temp rh) := by
  simp only [wlabDhtPublishSample, serieArgs, div32, if_neg ht, if_neg hr]
  rfl

/-- What a receiver reads of any two windows: the time comes out as an `int32_t`. -/
theorem published_denotes {uid : List Char} (huid : IsDeviceId uid) {period : ℕ}
    {xs ys : List Sample} {temp rh : WlabBuffer}
    (ht : Filled period (threshold .temperature) xs temp)
    (hr : Filled period (threshold .humidity) ys rh) :
    ∃ text, publishedText (asciiBytes uid ++ [0]) temp rh = .ok (some text) ∧
      Json.Denotes text (payloadValue uid (i32 temp.sampleTs) (sampleArgs temp rh)) := by
  obtain ⟨htcnt, -, htrange⟩ := ht.inRange
  obtain ⟨hrcnt, -, hrrange⟩ := hr.inRange
  refine ⟨asciiBytes (payloadText uid (intText (i32 temp.sampleTs)) (sampleArgs temp rh)), ?_, ?_⟩
  · rw [publishedText, wlabDhtPublishSample_eq htcnt hrcnt]
    exact congrArg Except.ok (sampleText_eq huid.ascii htrange hrrange)
  · have hreads := reads_payload huid.plain (reads_intText (i32 temp.sampleTs)) (sampleArgs temp rh)
    rw [asciiBytes_eq_utf8 (payloadText_ascii huid.ascii _ _)]
    exact hreads.denotes

theorem SampleDecodes.sampleTs_lt {uid : List Char} (huid : IsDeviceId uid) {period : ℕ}
    {xs ys : List Sample} {temp rh : WlabBuffer}
    (ht : Filled period (threshold .temperature) xs temp)
    (hr : Filled period (threshold .humidity) ys rh) (h : SampleDecodes uid temp rh) :
    temp.sampleTs < 2147483648 := by
  obtain ⟨text, htext, hden⟩ := h
  obtain ⟨text', htext', hden'⟩ := published_denotes huid ht hr
  rw [htext] at htext'
  obtain rfl := Option.some.inj (Except.ok.inj htext')
  have hval := hden.unique hden'
  simp only [payloadValue, Json.Value.obj.injEq, List.cons.injEq, Prod.mk.injEq,
    Json.Value.num.injEq, true_and, and_true] at hval
  have hi : (temp.sampleTs : ℤ) = i32 temp.sampleTs := by exact_mod_cast hval
  have hlt : i32 temp.sampleTs < 2147483648 := Int.bmod_lt (by decide)
  omega

theorem sample_decodes_iff {uid : List Char} (huid : IsDeviceId uid) {period : ℕ}
    {xs ys : List Sample} {temp rh : WlabBuffer}
    (ht : Filled period (threshold .temperature) xs temp)
    (hr : Filled period (threshold .humidity) ys rh) :
    SampleDecodes uid temp rh ↔ temp.sampleTs < 2147483648 := by
  constructor
  · exact SampleDecodes.sampleTs_lt huid ht hr
  · intro hlt
    obtain ⟨text, htext, hden⟩ := published_denotes huid ht hr
    have hi : i32 temp.sampleTs = temp.sampleTs := i32_of_range (by omega) (by omega)
    rw [hi, Int.cast_natCast] at hden
    exact ⟨text, htext, hden⟩

/-- A window of one reading on the ten-minute grid. -/
theorem filled_single (threshold : ℕ) (x : Sample) (hx : InInt16 x.val) :
    Filled 10 threshold [x] (wlabBufferInit.push 10 x.val x.ts) where
  commits := by
    have hgrid : ¬ u32 (60 * (10 : ℕ)) = 0 := by decide
    have hcnt : ¬ wlabBufferInit.rejects x.val threshold := fun h => absurd h.1 (by decide)
    rw [commits, List.foldlM_cons, wlabBufferCommit_eq, if_neg (fun h => hgrid h.1), if_neg hcnt]
    rfl
  nonempty := List.cons_ne_nil _ _
  int16 := by simpa using hx
  count := by simp

theorem deviceId_example : IsDeviceId "0123456789AB".toList := ⟨by decide, by decide⟩

/-- One reading of 21.5 degrees and 48.0 percent in November 2023. -/
theorem sample_of_2023_decodes : SampleDecodes "0123456789AB".toList
    (wlabBufferInit.push 10 215 (Sample.ts ⟨1700000000, 215⟩))
    (wlabBufferInit.push 10 480 (Sample.ts ⟨1700000000, 480⟩)) :=
  (sample_decodes_iff deviceId_example
    (filled_single _ ⟨1700000000, 215⟩ (by unfold InInt16; decide))
    (filled_single _ ⟨1700000000, 480⟩ (by unfold InInt16; decide))).mpr (by decide)

/-- The same readings in September 2039. -/
theorem sample_of_2039_time_negative :
    let temp := wlabBufferInit.push 10 215 (Sample.ts ⟨2200000000, 215⟩)
    let rh := wlabBufferInit.push 10 480 (Sample.ts ⟨2200000000, 480⟩)
    Filled 10 (threshold .temperature) [⟨2200000000, 215⟩] temp ∧
      Filled 10 (threshold .humidity) [⟨2200000000, 480⟩] rh ∧
      ¬ SampleDecodes "0123456789AB".toList temp rh := by
  have ht := filled_single (threshold .temperature) ⟨2200000000, 215⟩ (by unfold InInt16; decide)
  have hr := filled_single (threshold .humidity) ⟨2200000000, 480⟩ (by unfold InInt16; decide)
  refine ⟨ht, hr, fun h => ?_⟩
  exact absurd (h.sampleTs_lt deviceId_example ht hr) (by decide)

end WlabStation.Wlab
