import WlabStation.Settings.Commands
import WlabStation.Wlab.Payload

/-! The authorisation of a station: its name and time zone on their way from the
shell through the store into the text of `wlab_authorize`. -/
namespace WlabStation.Wlab

open Settings

def upperHex : ℕ → ℕ → List Char
  | 0, _ => []
  | w + 1, v => upperHex w (v / 16) ++ [(v % 16).digitChar.toUpper]

/-- `MacHexStr`, which `net_mac_string` copies. -/
def macHexStr (mac : Fin 6 → UInt8) : List Char :=
  (List.ofFn mac).flatMap fun b => upperHex 2 b.toNat

def deviceIdText (mac : Fin 6 → UInt8) (deviceId : ℕ) : List Char :=
  if deviceId = 0 then macHexStr mac else upperHex 12 (deviceId % 281474976710656)

/-- What a getter finds: the memory around its object, the object's address, and
the errors of the flash. -/
structure GetCall where
  m : Memory
  addr : ℕ
  readFault : Option NvsFault
  writeFault : Option NvsFault

/-- The object after the call, and the flash. -/
def fetch (k : Setting) (fs : NvsFs) (c : GetCall) : List UInt8 × NvsFs :=
  let r := k.get fs c.m c.addr c.readFault c.writeFault
  (r.1.load c.addr k.size, r.2)

/-- `wlab_str_device_id_get`: the string in `DeviceId`. -/
def wlabStrDeviceIdGet (fs : NvsFs) (mac : Fin 6 → UInt8) (c : GetCall) : List Char × NvsFs :=
  let r := fetch .wlabDeviceId fs c
  (deviceIdText mac (leNat r.1), r.2)

def AuthTemplate : List Char :=
  "\x7b\"timezone\":\"%s\",\"longitude\":%.1f,\"latitude\":%.1f,\"serie\":".toList ++
  "\x7b\"Temperature\":%d,\"Humidity\":%d\x7d,".toList ++
  "\"name\":\"%s\",\"description\":\"%s\", \"uid\":\"%s\"\x7d".toList

def WLAB_TEMP_SERIE : ℤ := 1
def WLAB_HUMIDITY_SERIE : ℤ := 2

def CONFIG_WLAB_DHT_DESC : String := "DHT2X"

/-- The text `mqtt_worker_publish_qos1` makes of the template and its arguments. -/
def authText (timezone : List UInt8) (latitude longitude : Tenths) (name : List UInt8)
    (deviceId : List Char) : Option (List UInt8) :=
  sprintf AuthTemplate [.chars timezone, .double (asciiBytes latitude.text),
    .double (asciiBytes longitude.text), .word WLAB_TEMP_SERIE, .word WLAB_HUMIDITY_SERIE,
    .chars name, .chars (textBytes CONFIG_WLAB_DHT_DESC ++ [0]),
    .chars (asciiBytes deviceId ++ [0])]

/-- `wlab_authorize` up to the call of `mqtt_worker_publish_qos1`; its locals are
objects of their own. -/
def wlabAuthorize (lib : FloatText) (mac : Fin 6 → UInt8) (fs : NvsFs)
    (name deviceId position : GetCall) : Option (List UInt8) × NvsFs :=
  let n := fetch .wlabName fs name
  let d := wlabStrDeviceIdGet n.2 mac deviceId
  let p := fetch .wlabGpsPosition d.2 position
  (authText (gpsTimezone p.1) (lib.tenths (gpsLatitude p.1)) (lib.tenths (gpsLongitude p.1)) n.1
    d.1, p.2)

theorem upperHex_hex (w v : ℕ) : ∀ c ∈ upperHex w v, Json.hexDigit c ≠ none := by
  have hdigit : ∀ d < 16, Json.hexDigit (Nat.digitChar d).toUpper ≠ none := by decide
  induction w generalizing v with
  | zero => simp [upperHex]
  | succ w ih =>
    intro c hc
    rcases List.mem_append.mp hc with hc | hc
    · exact ih _ c hc
    · rw [List.mem_singleton.mp hc]
      exact hdigit _ (Nat.mod_lt _ (by decide))

@[simp] theorem upperHex_length (w v : ℕ) : (upperHex w v).length = w := by
  induction w generalizing v with
  | zero => rfl
  | succ w ih => simp [upperHex, ih]

/-- Every device id is twelve hexadecimal digits. -/
theorem deviceIdText_isDeviceId (mac : Fin 6 → UInt8) (deviceId : ℕ) :
    IsDeviceId (deviceIdText mac deviceId) := by
  unfold deviceIdText
  split_ifs
  · constructor
    case length => simp [macHexStr, List.ofFn_succ]
    case hex =>
      intro c hc
      obtain ⟨b, -, hb⟩ := List.mem_flatMap.mp hc
      exact upperHex_hex _ _ c hb
  · exact ⟨upperHex_length _ _, upperHex_hex _ _⟩

theorem authFormat_pieces : parseFormat AuthTemplate = some
    [.lit ('\x7b' :: "\"timezone\":\"".toList), .str,
      .lit ('\x22' :: ",\"longitude\":".toList), .fixed,
      .lit ",\"latitude\":".toList, .fixed,
      .lit ",\"serie\":\x7b\"Temperature\":".toList, .int, .lit ",\"Humidity\":".toList, .int,
      .lit "\x7d,\"name\":\"".toList, .str,
      .lit ('\x22' :: ",\"description\":\"".toList), .str,
      .lit "\", \"uid\":\"".toList, .str, .lit "\"\x7d".toList] := by
  decide +kernel

/-- The authorisation as the template prints it. -/
def authChars (timezone : List Char) (latitude longitude : Tenths) (name uid : List Char) :
    List Char :=
  '\x7b' :: Json.memberText "timezone".toList (Json.stringText timezone ++ ',' ::
    Json.memberText "longitude".toList (latitude.text ++ ',' ::
    Json.memberText "latitude".toList (longitude.text ++ ',' ::
    Json.memberText "serie".toList ("\x7b\"Temperature\":1,\"Humidity\":2\x7d".toList ++ ',' ::
    Json.memberText "name".toList (Json.stringText name ++ ',' ::
    Json.memberText "description".toList (Json.stringText "DHT2X".toList ++ ',' :: ' ' ::
    Json.memberText "uid".toList (Json.stringText uid ++ ['\x7d'])))))))

/-- What the template prints before, between and after the two strings. -/
def authHead : List Char := '\x7b' :: "\"timezone\":\"".toList

def authMiddle (latitude longitude : Tenths) : List Char :=
  '\x22' :: ",\"longitude\":".toList ++ (latitude.text ++ (",\"latitude\":".toList ++
    (longitude.text ++ (",\"serie\":\x7b\"Temperature\":".toList ++ (['1'] ++
    (",\"Humidity\":".toList ++ (['2'] ++ "\x7d,\"name\":\"".toList)))))))

def authTail (uid : List Char) : List Char :=
  '\x22' :: ",\"description\":\"".toList ++ ("DHT2X".toList ++ ("\", \"uid\":\"".toList ++
    (uid ++ "\"\x7d".toList)))

theorem authChars_eq (timezone : List Char) (latitude longitude : Tenths) (name uid : List Char) :
    authChars timezone latitude longitude name uid =
      authHead ++ (timezone ++ (authMiddle latitude longitude ++ (name ++ authTail uid))) := by
  simp only [authChars, authHead, authMiddle, authTail, Json.memberText, Json.stringText,
    String.reduceToList, List.append_assoc, List.cons_append, List.nil_append]

/-- The text is the template filled in with the two strings, if both end. -/
theorem authText_eq (timezone name : List UInt8) (latitude longitude : Tenths) {uid : List Char}
    (huid : Ascii uid) : authText timezone latitude longitude name uid =
      (cString timezone).bind fun s => (cString name).map fun t =>
        asciiBytes authHead ++ (s ++ (asciiBytes (authMiddle latitude longitude) ++
          (t ++ asciiBytes (authTail uid)))) := by
  have hdesc : cString (textBytes CONFIG_WLAB_DHT_DESC ++ [0]) = some (asciiBytes "DHT2X".toList) :=
    cString_ascii (by decide)
  have htemp : intText (i32 WLAB_TEMP_SERIE) = ['1'] := by decide
  have hhum : intText (i32 WLAB_HUMIDITY_SERIE) = ['2'] := by decide
  rw [authText, sprintf, authFormat_pieces, Option.bind_eq_bind, Option.bind_some]
  simp only [render_lit, render_int, render_fixed, render_str, render_nil, Option.map_some,
    cString_ascii huid, hdesc, htemp, hhum, Option.bind_some]
  cases cString timezone with
  | none => rfl
  | some s =>
    cases cString name with
    | none => rfl
    | some t =>
      simp only [Option.bind_some, Option.map_some, authHead, authMiddle, authTail,
        asciiBytes_append, List.append_assoc, List.append_nil]

theorem authText_utf8 (timezone name : List Char) (latitude longitude : Tenths) {uid : List Char}
    (huid : Ascii uid) :
    asciiBytes authHead ++ (Json.utf8Bytes timezone ++
      (asciiBytes (authMiddle latitude longitude) ++
        (Json.utf8Bytes name ++ asciiBytes (authTail uid)))) =
      Json.utf8Bytes (authChars timezone latitude longitude name uid) := by
  have hhead : Ascii authHead := by decide
  have hmiddle : Ascii (authMiddle latitude longitude) := by
    simp only [authMiddle, ascii_append, latitude.text_ascii, longitude.text_ascii,
      true_and]
    decide
  have htail : Ascii (authTail uid) := by
    simp only [authTail, ascii_append, huid, true_and]
    decide
  rw [authChars_eq, asciiBytes_eq_utf8 hhead, asciiBytes_eq_utf8 hmiddle,
    asciiBytes_eq_utf8 htail]
  simp only [Json.utf8Bytes_append]

/-- The number that a decimal text denotes. -/
def tenthsValue (d : Tenths) : ℚ := Json.sign d.neg * ((10 * d.int + d.tenth : ℕ) / 10)

theorem reads_tenths (d : Tenths) : Json.Reads d.text (.num (tenthsValue d)) :=
  Json.Reads.tenths d.neg d.int d.tenth.isLt

theorem reads_authSerie : Json.Reads "\x7b\"Temperature\":1,\"Humidity\":2\x7d".toList
    (.obj [("Temperature".toList, .num 1), ("Humidity".toList, .num 2)]) := by
  have htext : "\x7b\"Temperature\":1,\"Humidity\":2\x7d".toList =
      '\x7b' :: Json.memberText "Temperature".toList (intText 1 ++ ',' ::
        Json.memberText "Humidity".toList (intText 2 ++ ['\x7d'])) := by decide
  rw [htext]
  apply Json.Reads.object
  intro r
  simp only [Json.memberText_append, List.append_assoc, List.cons_append, List.nil_append]
  apply Json.MembersAt.cons (by decide) (reads_natText 1)
  exact Json.membersAt_last (by decide) (reads_natText 2)

/-- The members of an authorisation whose strings are plain. -/
def authMembers (timezone : List Char) (latitude longitude : Tenths) (name uid : List Char) :
    List (List Char × Json.Value) :=
  [("timezone".toList, .str timezone), ("longitude".toList, .num (tenthsValue latitude)),
    ("latitude".toList, .num (tenthsValue longitude)),
    ("serie".toList, .obj [("Temperature".toList, .num 1), ("Humidity".toList, .num 2)]),
    ("name".toList, .str name), ("description".toList, .str "DHT2X".toList),
    ("uid".toList, .str uid)]

theorem reads_authChars {timezone name uid : List Char} (hzone : ∀ c ∈ timezone, Json.Plain c)
    (hname : ∀ c ∈ name, Json.Plain c) (huid : ∀ c ∈ uid, Json.Plain c)
    (latitude longitude : Tenths) :
    Json.Reads (authChars timezone latitude longitude name uid)
      (.obj (authMembers timezone latitude longitude name uid)) := by
  apply Json.Reads.object
  intro r
  simp only [Json.memberText_append, List.append_assoc, List.cons_append, List.nil_append]
  apply Json.MembersAt.cons (by decide) (Json.Reads.string hzone)
  apply Json.MembersAt.cons (by decide) (reads_tenths latitude)
  apply Json.MembersAt.cons (by decide) (reads_tenths longitude)
  apply Json.MembersAt.cons (by decide) reads_authSerie
  apply Json.MembersAt.cons (by decide) (Json.Reads.string hname)
  have hdesc : ∀ c ∈ "DHT2X".toList, Json.Plain c := by decide
  apply Json.MembersAt.cons (by decide) (Json.Reads.string hdesc)
  refine Json.membersAt_blank.mpr ?_
  exact Json.membersAt_last (by decide) (Json.Reads.string huid)

theorem authMembers_strings (timezone : List Char) (latitude longitude : Tenths)
    (name uid : List Char) :
    Json.OnlyString (authMembers timezone latitude longitude name uid) "timezone".toList
      timezone ∧
    Json.OnlyString (authMembers timezone latitude longitude name uid) "name".toList name :=
  ⟨rfl, rfl⟩

/-- A text in which `s` and `t` are read as the two strings was printed from
them, and they are plain. -/
theorem authChars_read {timezone name uid s t : List Char} {latitude longitude : Tenths}
    {ms : List (List Char × Json.Value)}
    (h : Json.Denotes (Json.utf8Bytes (authChars timezone latitude longitude name uid)) (.obj ms))
    (hs : Json.OnlyString ms "timezone".toList s) (ht : Json.OnlyString ms "name".toList t)
    (hzone : timezone = s ∨ ∀ c ∈ timezone, Json.Plain c)
    (hname : name = t ∨ ∀ c ∈ name, Json.Plain c) :
    (timezone = s ∧ ∀ c ∈ timezone, Json.Plain c) ∧ name = t ∧ ∀ c ∈ name, Json.Plain c := by
  obtain ⟨cs, r, hcs, hval, -⟩ := h
  obtain rfl := Json.utf8Bytes_injective hcs
  have hquote : ∀ u s', Json.skipWs (Json.memberText "timezone".toList u) ≠ '\x7d' :: s' := by
    intro u s' hws
    exact absurd (List.cons.inj hws).1 (by decide)
  obtain ⟨ms', hms, heq⟩ := (Json.valueAt_object (hquote _)).mp hval
  obtain rfl := Json.Value.obj.inj heq
  obtain ⟨rfl, hplain, ms₁, hms₁, rfl⟩ := Json.membersAt_stringText (by decide) hms hs hzone
  have hlongitude : ∀ c ∈ "longitude".toList, Json.Plain c := by decide
  have hlatitude : ∀ c ∈ "latitude".toList, Json.Plain c := by decide
  have hserie : ∀ c ∈ "serie".toList, Json.Plain c := by decide
  obtain ⟨ms₂, hms₂, rfl⟩ := (Json.membersAt_cons hlongitude (reads_tenths latitude)).mp hms₁
  obtain ⟨ms₃, hms₃, rfl⟩ := (Json.membersAt_cons hlatitude (reads_tenths longitude)).mp hms₂
  obtain ⟨ms₄, hms₄, rfl⟩ := (Json.membersAt_cons hserie reads_authSerie).mp hms₃
  rw [Json.onlyString_cons_of_ne (by decide), Json.onlyString_cons_of_ne (by decide),
    Json.onlyString_cons_of_ne (by decide), Json.onlyString_cons_of_ne (by decide)] at ht
  obtain ⟨rfl, hplain', -⟩ := Json.membersAt_stringText (by decide) hms₄ ht hname
  exact ⟨⟨rfl, hplain⟩, rfl, hplain'⟩

/-- What a getter finds where a copy of `held` is stored: the copy, or the default. -/
def found (held : List UInt8) (default : String) (readFault : Option NvsFault) : List UInt8 :=
  if readFault = none then held else textBytes default

/-- An argument that is printed as it was given: it leaves room for the terminator
and has no character that is special in JSON, its copy is still stored, and it
is read without an error unless the default is the same. -/
structure PrintsBack (arg : List UInt8) (default : String) (readFault : Option NvsFault)
    (stored : Option (List UInt8)) : Prop where
  fits : arg.length < CONFIG_BUFF_MAX_STRING_LEN
  plain : ∃ cs, Json.utf8Bytes cs = arg ∧ ∀ c ∈ cs, Json.Plain c
  kept : if readFault = none then stored = some (strncpy arg CONFIG_BUFF_MAX_STRING_LEN)
    else arg = textBytes default

/-- A default that prints back itself, and is told apart from longer arguments. -/
structure PlainDefault (default : String) : Prop where
  ascii : Ascii default.toList
  plain : ∀ c ∈ default.toList, Json.Plain c
  length : default.toList.length < CONFIG_BUFF_MAX_STRING_LEN - 1

theorem PlainDefault.utf8 {default : String} (h : PlainDefault default) :
    Json.utf8Bytes default.toList = textBytes default :=
  (asciiBytes_eq_utf8 h.ascii).symm

theorem PlainDefault.bytes_length {default : String} (h : PlainDefault default) :
    (textBytes default).length < CONFIG_BUFF_MAX_STRING_LEN - 1 := by
  rw [textBytes, asciiBytes, List.length_map]
  exact h.length

theorem PlainDefault.fits {default : String} (h : PlainDefault default) :
    (textBytes default).length < CONFIG_BUFF_MAX_STRING_LEN :=
  h.bytes_length.trans_le (Nat.sub_le _ _)

theorem PlainDefault.cString_eq {default : String} (h : PlainDefault default) :
    cString (strncpy (textBytes default) CONFIG_BUFF_MAX_STRING_LEN) =
      some (textBytes default) := by
  have hzero : 0 ∉ textBytes default := h.ascii.zero_notMem
  rw [cString_strncpy hzero, if_pos h.fits]

/-- An argument shorter than the field is not cut. -/
theorem take_of_fits {arg : List UInt8} (h : arg.length < CONFIG_BUFF_MAX_STRING_LEN) :
    arg.take (CONFIG_BUFF_MAX_STRING_LEN - 1) = arg :=
  List.take_of_length_le (Nat.le_pred_of_lt h)

/-- An argument that reads as the default is the default. -/
theorem PlainDefault.eq_of_take {default : String} (h : PlainDefault default) {arg : List UInt8}
    (htake : Json.utf8Bytes default.toList = arg.take (CONFIG_BUFF_MAX_STRING_LEN - 1)) :
    textBytes default = arg := by
  rw [h.utf8] at htake
  have hlen := congrArg List.length htake
  have hshort := h.bytes_length
  rw [List.length_take] at hlen
  rw [htake, List.take_of_length_le (by omega)]

/-- The copy is found, not a default. -/
theorem PrintsBack.found_eq {arg held : List UInt8} {default : String}
    {readFault : Option NvsFault} (hzero : 0 ∉ arg) (hdef : PlainDefault default)
    (hheld : held = arg ∨ held = textBytes default)
    (h : PrintsBack arg default readFault (some (strncpy held CONFIG_BUFF_MAX_STRING_LEN))) :
    found held default readFault = arg := by
  have hkept := h.kept
  unfold found
  split_ifs at hkept ⊢
  · rcases hheld with rfl | rfl
    · rfl
    · have hstring := congrArg cString (Option.some.inj hkept)
      rw [hdef.cString_eq, cString_strncpy hzero, if_pos h.fits] at hstring
      exact Option.some.inj hstring
  · exact hkept.symm

/-- The text `s` that should be read is what is printed, or what is printed is
plain; if it is both, the argument prints back. -/
theorem cString_found {arg held v : List UInt8} {default : String}
    {readFault : Option NvsFault} (hzero : 0 ∉ arg) (hdef : PlainDefault default)
    (hheld : held = arg ∨ held = textBytes default)
    (hv : cString (strncpy (found held default readFault) CONFIG_BUFF_MAX_STRING_LEN) = some v)
    {s : List Char} (hs : Json.utf8Bytes s = arg.take (CONFIG_BUFF_MAX_STRING_LEN - 1)) :
    ∃ cs, Json.utf8Bytes cs = v ∧ (cs = s ∨ ∀ c ∈ cs, Json.Plain c) ∧
      (cs = s → (∀ c ∈ cs, Json.Plain c) →
        PrintsBack arg default readFault (some (strncpy held CONFIG_BUFF_MAX_STRING_LEN))) := by
  have hkept : found held default readFault = arg → if readFault = none then
      some (strncpy held CONFIG_BUFF_MAX_STRING_LEN) = some (strncpy arg CONFIG_BUFF_MAX_STRING_LEN)
      else arg = textBytes default := by
    rintro rfl
    unfold found
    split_ifs
    · rfl
    · rfl
  have hfound : found held default readFault = arg ∨
      found held default readFault = textBytes default := by
    unfold found
    split_ifs
    · exact hheld
    · exact .inr rfl
  rcases hfound with harg | hrestored
  · rw [harg, cString_strncpy hzero] at hv
    split_ifs at hv with hfits
    obtain rfl := Option.some.inj hv
    rw [take_of_fits hfits] at hs
    exact ⟨s, hs, .inl rfl, fun _ hplain => ⟨hfits, ⟨s, hs, hplain⟩, hkept harg⟩⟩
  · rw [hrestored, hdef.cString_eq] at hv
    obtain rfl := Option.some.inj hv
    refine ⟨default.toList, hdef.utf8, .inr hdef.plain, ?_⟩
    rintro rfl -
    obtain rfl := hdef.eq_of_take hs
    exact ⟨hdef.fits, ⟨_, hdef.utf8, hdef.plain⟩, hkept hrestored⟩

theorem defaults_plain : PlainDefault "WLAB_STATION" ∧ PlainDefault "Europe/Warsaw" :=
  ⟨⟨by decide, by decide, by decide⟩, by decide, by decide, by decide⟩

/-- A getter's call leaves the items of other settings alone. -/
theorem fetch_others (k : Setting) (fs : NvsFs) (c : GetCall) {id : ℕ} (hid : id ≠ k.id) :
    (fetch k fs c).2 id = fs id := by
  show (k.get fs c.m c.addr c.readFault c.writeFault).2 id = fs id
  exact (k.get_item fs c.m c.addr c.readFault c.writeFault id).resolve_right fun h => hid h.1

theorem fetch_item (k : Setting) {fs : NvsFs} {item : List UInt8} (hitem : fs k.id = some item)
    (hlen : item.length = k.len) (hsize : k.len = k.size) (c : GetCall) :
    (fetch k fs c).1 = if c.readFault = none then item else k.restore := by
  rw [← k.get_load hitem hlen c.m c.addr c.readFault c.writeFault, hsize]
  rfl

theorem fetch_name {fs : NvsFs} {held : List UInt8}
    (hitem : fs NVS_ID_WLAB_NAME = some (strncpy held CONFIG_BUFF_MAX_STRING_LEN)) (c : GetCall) :
    (fetch .wlabName fs c).1 =
      strncpy (found held "WLAB_STATION" c.readFault) CONFIG_BUFF_MAX_STRING_LEN := by
  rw [fetch_item .wlabName hitem (strncpy_length _ _) rfl, found,
    apply_ite (strncpy · CONFIG_BUFF_MAX_STRING_LEN)]
  rfl

theorem fetch_timezone {fs : NvsFs} {held item : List UInt8}
    (hitem : fs NVS_ID_WLAB_GPS_POSITION = some item) (hheld : IsPosition held item)
    (c : GetCall) : gpsTimezone (fetch .wlabGpsPosition fs c).1 =
      strncpy (found held "Europe/Warsaw" c.readFault) CONFIG_BUFF_MAX_STRING_LEN := by
  rw [fetch_item .wlabGpsPosition hitem hheld.length rfl, found,
    apply_ite (strncpy · CONFIG_BUFF_MAX_STRING_LEN), apply_ite gpsTimezone, hheld.timezone]
  exact congrArg (ite _ _) (gpsTimezone_append _ _ _)

/-- A receiver reads well-formed JSON whose two strings are the arguments, cut
to leave room for a terminator. -/
def AuthorisationDecodes (text : Option (List UInt8)) (name timezone : List UInt8) : Prop :=
  ∃ bytes ms s t, text = some bytes ∧ Json.Denotes bytes (.obj ms) ∧
    Json.OnlyString ms "timezone".toList s ∧
    Json.utf8Bytes s = timezone.take (CONFIG_BUFF_MAX_STRING_LEN - 1) ∧
    Json.OnlyString ms "name".toList t ∧
    Json.utf8Bytes t = name.take (CONFIG_BUFF_MAX_STRING_LEN - 1)

/-- The text of an authorisation, by the strings whose copies are stored. -/
theorem wlabAuthorize_text (lib : FloatText) (mac : Fin 6 → UInt8) {fs : NvsFs}
    {heldName heldZone item : List UInt8}
    (hname : fs NVS_ID_WLAB_NAME = some (strncpy heldName CONFIG_BUFF_MAX_STRING_LEN))
    (hitem : fs NVS_ID_WLAB_GPS_POSITION = some item) (hposition : IsPosition heldZone item)
    (n d p : GetCall) : ∃ latitude longitude deviceId,
      (wlabAuthorize lib mac fs n d p).1 = authText
        (strncpy (found heldZone "Europe/Warsaw" p.readFault) CONFIG_BUFF_MAX_STRING_LEN)
        latitude longitude
        (strncpy (found heldName "WLAB_STATION" n.readFault) CONFIG_BUFF_MAX_STRING_LEN)
        (deviceIdText mac deviceId) := by
  have hgps : (wlabStrDeviceIdGet (fetch .wlabName fs n).2 mac d).2 NVS_ID_WLAB_GPS_POSITION =
      some item := by
    rw [← hitem, wlabStrDeviceIdGet, fetch_others _ _ d (by decide),
      fetch_others _ _ n (by decide)]
  rw [← fetch_name hname n, ← fetch_timezone hgps hposition p]
  simp only [wlabAuthorize, wlabStrDeviceIdGet]
  exact ⟨_, _, _, rfl⟩

theorem authText_decodes_iff {name timezone heldName heldZone : List UInt8} (hname : 0 ∉ name)
    (hzone : 0 ∉ timezone) (hheldName : heldName = name ∨ heldName = textBytes "WLAB_STATION")
    (hheldZone : heldZone = timezone ∨ heldZone = textBytes "Europe/Warsaw")
    (nameFault zoneFault : Option NvsFault) (latitude longitude : Tenths) {uid : List Char}
    (huid : IsDeviceId uid) :
    AuthorisationDecodes (authText
        (strncpy (found heldZone "Europe/Warsaw" zoneFault) CONFIG_BUFF_MAX_STRING_LEN)
        latitude longitude
        (strncpy (found heldName "WLAB_STATION" nameFault) CONFIG_BUFF_MAX_STRING_LEN) uid)
        name timezone ↔
      PrintsBack name "WLAB_STATION" nameFault
        (some (strncpy heldName CONFIG_BUFF_MAX_STRING_LEN)) ∧
      PrintsBack timezone "Europe/Warsaw" zoneFault
        (some (strncpy heldZone CONFIG_BUFF_MAX_STRING_LEN)) := by
  have hascii := huid.ascii
  obtain ⟨hstation, hwarsaw⟩ := defaults_plain
  rw [authText_eq _ _ _ _ hascii]
  constructor
  · rintro ⟨bytes, ms, s, t, htext, hden, hs, hsbytes, ht, htbytes⟩
    obtain ⟨v, hv, htext⟩ := Option.bind_eq_some_iff.mp htext
    obtain ⟨w, hw, rfl⟩ := Option.map_eq_some_iff.mp htext
    obtain ⟨cs, rfl, hcs, hback⟩ := cString_found hzone hwarsaw hheldZone hv hsbytes
    obtain ⟨ds, rfl, hds, hback'⟩ := cString_found hname hstation hheldName hw htbytes
    rw [authText_utf8 _ _ _ _ hascii] at hden
    obtain ⟨⟨heq, hcsplain⟩, heq', hdsplain⟩ := authChars_read hden hs ht hcs hds
    exact ⟨hback' heq' hdsplain, hback heq hcsplain⟩
  · rintro ⟨hn, hz⟩
    have hnfound := hn.found_eq hname hstation hheldName
    have hzfound := hz.found_eq hzone hwarsaw hheldZone
    obtain ⟨ds, rfl, hds⟩ := hn.plain
    obtain ⟨cs, rfl, hcs⟩ := hz.plain
    obtain ⟨hs, ht⟩ := authMembers_strings cs latitude longitude ds uid
    refine ⟨_, _, cs, ds, ?_, (reads_authChars hcs hds huid.plain latitude longitude).denotes, hs,
      (take_of_fits hz.fits).symm, ht, (take_of_fits hn.fits).symm⟩
    rw [hnfound, hzfound, cString_strncpy hzone, cString_strncpy hname, if_pos hz.fits,
      if_pos hn.fits, Option.bind_some, Option.map_some, authText_utf8 _ _ _ _ hascii]

/-- After any uses of the store, with the last name and time zone that were accepted. -/
theorem authorisation_decodes_iff (lib : FloatText) (mac : Fin 6 → UInt8) {fs fs' : NvsFs}
    {uses : List StationUse} {h : List StationEvent}
    (hr : (stationSettings lib).Runs fs uses h fs') {name timezone : List UInt8}
    (hlast : lastName h = some name) (hlastZone : lastTimezone h = some timezone)
    (hname : 0 ∉ name) (hzone : 0 ∉ timezone) (n d p : GetCall) :
    AuthorisationDecodes (wlabAuthorize lib mac fs' n d p).1 name timezone ↔
      PrintsBack name "WLAB_STATION" n.readFault (fs' NVS_ID_WLAB_NAME) ∧
        PrintsBack timezone "Europe/Warsaw" p.readFault
          ((fs' NVS_ID_WLAB_GPS_POSITION).map gpsTimezone) := by
  obtain ⟨heldName, heldZone, item, hheldName, hheldZone, hnameItem, hitem, hposition⟩ :=
    (stationSettings_holds hr).held hlast hlastZone
  obtain ⟨latitude, longitude, deviceId, htext⟩ :=
    wlabAuthorize_text lib mac hnameItem hitem hposition n d p
  rw [htext, hnameItem, hitem, Option.map_some, hposition.timezone]
  exact authText_decodes_iff hname hzone hheldName hheldZone _ _ _ _
    (deviceIdText_isDeviceId mac deviceId)

/-- A library for the coordinates 0 and 0. -/
def zeroCoordinates : FloatText where
  strtof _ := 0
  tenths _ := ⟨false, 0, 0⟩
  hundredths _ := textBytes "0.00"

def noFaults (addr : ℕ) : GetCall := ⟨fun _ => 0, addr, none, none⟩

/-- The two commands at the coordinates 0 and 0. -/
def placeStation (name timezone : List UInt8) : List StationUse :=
  [.wlabname [textBytes "wlabname", name] (fun _ => 0) 16 none,
    .wlabgpsp [textBytes "wlabgpsp", timezone, textBytes "0", textBytes "0"] (fun _ => 0) 16 none]

/-- The flash after the first command, empty before, and after both. -/
def namedFs (name : List UInt8) : NvsFs :=
  (cmdWlabName (fun _ => none) [textBytes "wlabname", name] (fun _ => 0) 16 none).fs

def placedFs (name timezone : List UInt8) : NvsFs :=
  (cmdWlabGpsPosition zeroCoordinates (namedFs name) [textBytes "wlabgpsp", timezone,
    textBytes "0", textBytes "0"] (fun _ => 0) 16 none).fs

theorem namedFs_eq (name : List UInt8) :
    (cmdWlabName (fun _ => none) [textBytes "wlabname", name] (fun _ => 0) 16 none).ok ∧
      namedFs name = Function.update (fun _ => none) NVS_ID_WLAB_NAME
        (some (strncpy name CONFIG_BUFF_MAX_STRING_LEN)) := by
  rcases cmdWlabName_cases (fun _ => none) [textBytes "wlabname", name] (fun _ => 0) 16 none with
    hok | ⟨hno, -⟩
  · exact hok
  · exact absurd (shellSet_ok .wlabName rfl _ _ _) hno

theorem placedFs_eq (name timezone : List UInt8) :
    (cmdWlabGpsPosition zeroCoordinates (namedFs name) [textBytes "wlabgpsp", timezone,
      textBytes "0", textBytes "0"] (fun _ => 0) 16 none).ok ∧ ∃ item, IsPosition timezone item ∧
      placedFs name timezone =
        Function.update (namedFs name) NVS_ID_WLAB_GPS_POSITION (some item) := by
  have hnew : namedFs name NVS_ID_WLAB_GPS_POSITION = none := by
    rw [(namedFs_eq name).2, Function.update_of_ne (by decide)]
  rcases cmdWlabGpsPosition_cases zeroCoordinates (namedFs name) [textBytes "wlabgpsp", timezone,
    textBytes "0", textBytes "0"] (fun _ => 0) 16 none with
    ⟨hok, latitude, longitude, hfs⟩ | ⟨hno, -⟩
  · exact ⟨hok, _, ⟨latitude, longitude, rfl⟩, hfs⟩
  · exact absurd (shellSet_ok .wlabGpsPosition hnew _ _ _) hno

/-- Both commands are accepted. -/
theorem placeStation_runs (name timezone : List UInt8) :
    (stationSettings zeroCoordinates).Runs (fun _ => none) (placeStation name timezone)
      [.named name, .placed timezone] (placedFs name timezone) := by
  apply Machine.runs_cons.mpr
  refine ⟨[.named name], namedFs name, [.placed timezone], ?_, ?_, rfl⟩
  · exact congrArg (fun es => some (es, namedFs name)) (if_pos (namedFs_eq name).1)
  · apply Machine.runs_cons.mpr
    refine ⟨[.placed timezone], placedFs name timezone, [], ?_,
      Machine.runs_nil.mpr ⟨rfl, rfl⟩, rfl⟩
    exact congrArg (fun es => some (es, placedFs name timezone))
      (if_pos (placedFs_eq name timezone).1)

theorem placedFs_items (name timezone : List UInt8) :
    placedFs name timezone NVS_ID_WLAB_NAME = some (strncpy name CONFIG_BUFF_MAX_STRING_LEN) ∧
      (placedFs name timezone NVS_ID_WLAB_GPS_POSITION).map gpsTimezone =
        some (strncpy timezone CONFIG_BUFF_MAX_STRING_LEN) := by
  obtain ⟨-, item, hitem, hfs⟩ := placedFs_eq name timezone
  constructor
  · rw [hfs, Function.update_of_ne (by decide), (namedFs_eq name).2, Function.update_self]
  · rw [hfs, Function.update_self, Option.map_some, hitem.timezone]

theorem kitchen_authorisation_decodes :
    AuthorisationDecodes (wlabAuthorize zeroCoordinates (fun _ => 171)
      (placedFs (textBytes "Kitchen") (textBytes "Europe/Oslo")) (noFaults 16) (noFaults 80)
      (noFaults 96)).1 (textBytes "Kitchen") (textBytes "Europe/Oslo") := by
  obtain ⟨hname, hzone⟩ := placedFs_items (textBytes "Kitchen") (textBytes "Europe/Oslo")
  refine (authorisation_decodes_iff zeroCoordinates _ (placeStation_runs _ _) rfl rfl (by decide)
    (by decide) _ _ _).mpr ⟨?_, ?_⟩
  · exact ⟨by decide, ⟨"Kitchen".toList, by decide, by decide⟩, hname⟩
  · exact ⟨by decide, ⟨"Europe/Oslo".toList, by decide, by decide⟩, hzone⟩

/-- A quotation mark is accepted as a name, and what is authorised with is no JSON
with this name. -/
theorem quotation_mark_breaks_authorisation :
    (stationSettings zeroCoordinates).Runs (fun _ => none)
      (placeStation (textBytes "\"") (textBytes "Europe/Oslo"))
      [.named (textBytes "\""), .placed (textBytes "Europe/Oslo")]
      (placedFs (textBytes "\"") (textBytes "Europe/Oslo")) ∧
    ¬ AuthorisationDecodes (wlabAuthorize zeroCoordinates (fun _ => 171)
      (placedFs (textBytes "\"") (textBytes "Europe/Oslo")) (noFaults 16) (noFaults 80)
      (noFaults 96)).1 (textBytes "\"") (textBytes "Europe/Oslo") := by
  have hruns := placeStation_runs (textBytes "\"") (textBytes "Europe/Oslo")
  refine ⟨hruns, fun hdecodes => ?_⟩
  obtain ⟨heldName, heldZone, item, hheldName, hheldZone, hnameItem, hitem, hposition⟩ :=
    (stationSettings_holds hruns).held rfl rfl
  obtain ⟨latitude, longitude, deviceId, htext⟩ := wlabAuthorize_text zeroCoordinates
    (fun _ => 171) hnameItem hitem hposition (noFaults 16) (noFaults 80) (noFaults 96)
  rw [htext, authText_decodes_iff (by decide) (by decide) hheldName hheldZone _ _ _ _
    (deviceIdText_isDeviceId _ deviceId)] at hdecodes
  obtain ⟨⟨-, ⟨cs, hcs, hplain⟩, -⟩, -⟩ := hdecodes
  have hmark : cs = ['\x22'] := Json.utf8Bytes_injective (hcs.trans (by decide))
  exact (hplain '\x22' (hmark ▸ List.mem_singleton_self _)).1 rfl

end WlabStation.Wlab
