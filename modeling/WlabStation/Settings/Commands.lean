import WlabStation.Json.Compact
import WlabStation.Machine.Printf
import WlabStation.Settings.RoundTrip

/-! The shell commands that set the name and the position of a station, and what
the store holds after they were accepted. -/
namespace WlabStation.Settings

/-- The lines a shell command prints, undefined where a `%s` finds no terminator,
and the flash it leaves. It always returns 0. -/
structure ShellResult where
  output : List (Option (List UInt8))
  fs : NvsFs

/-- A command called with another number of arguments. -/
def badUsage (fs : NvsFs) : ShellResult := ⟨[sprintf "\tBad command usage!".toList []], fs⟩

/-- The end of every setting command: the setter is called for the object at
`addr`, and `lines` are printed when it succeeds. -/
def shellSet (k : Setting) (fs : NvsFs) (m : Memory) (addr : ℕ) (fault : Option NvsFault)
    (lines : List (Option (List UInt8))) : ShellResult :=
  let r := k.set fs m addr fault
  if r.1 = 0 then ⟨lines ++ [sprintf "\tOK!\n".toList []], r.2⟩
  else ⟨[sprintf "\tFailed!\n".toList []], r.2⟩

/-- `cmd_wlab_name`, with its local `wlab_name` at `addr`. -/
def cmdWlabName (fs : NvsFs) (argv : List (List UInt8)) (m : Memory) (addr : ℕ)
    (fault : Option NvsFault) : ShellResult :=
  match argv with
  | [_, arg] =>
      let m := m.store addr (List.replicate CONFIG_BUFF_MAX_STRING_LEN 0)
      let m := m.store addr (strncpy arg CONFIG_BUFF_MAX_STRING_LEN)
      shellSet .wlabName fs m addr fault
        [sprintf "wlab_name: <%s>\n".toList [.chars (m.load addr CONFIG_BUFF_MAX_STRING_LEN)]]
  | _ => badUsage fs

/-- A decimal number with one digit behind the point. -/
structure Tenths where
  neg : Bool
  int : ℕ
  tenth : Fin 10

def Tenths.text (d : Tenths) : List Char :=
  Json.intChars d.neg d.int ++ ['.', d.tenth.val.digitChar]

theorem Tenths.text_ascii (d : Tenths) : Ascii d.text := by
  rw [Tenths.text, Json.intChars, ascii_append, ascii_append]
  exact ⟨⟨sign_ascii, toDigits_ascii _⟩, point_ascii _ d.tenth.isLt⟩

/-- Single-precision numbers in the C library: read from text, and printed by
`%.1f` and `%.2f`. -/
structure FloatText where
  strtof : List UInt8 → ℕ
  tenths : ℕ → Tenths
  hundredths : ℕ → List UInt8

/-- The members of `struct gps_position` in its bytes. -/
def gpsLatitude (pos : List UInt8) : ℕ := leNat (pos.take 4)

def gpsLongitude (pos : List UInt8) : ℕ := leNat ((pos.drop 4).take 4)

def gpsTimezone (pos : List UInt8) : List UInt8 := pos.drop 8

/-- `cmd_wlab_gps_position`, with its local `gpspos` at `addr`. -/
def cmdWlabGpsPosition (lib : FloatText) (fs : NvsFs) (argv : List (List UInt8)) (m : Memory)
    (addr : ℕ) (fault : Option NvsFault) : ShellResult :=
  match argv with
  | [_, timezone, latitude, longitude] =>
      let m := m.store addr (List.replicate wlabGpsPosLen 0)
      let m := m.store (addr + 8) (strncpy timezone CONFIG_BUFF_MAX_STRING_LEN)
      let m := m.storeU32 addr (lib.strtof latitude)
      let m := m.storeU32 (addr + 4) (lib.strtof longitude)
      let gpspos := m.load addr wlabGpsPosLen
      shellSet .wlabGpsPosition fs m addr fault
        [sprintf "latitude: %.2f\n".toList [.double (lib.hundredths (gpsLatitude gpspos))],
          sprintf "longitude: %.2f\n".toList [.double (lib.hundredths (gpsLongitude gpspos))],
          sprintf "timezone: <%s>\n".toList [.chars (gpsTimezone gpspos)]]
  | _ => badUsage fs

/-- The command reports success. -/
def ShellResult.ok (r : ShellResult) : Prop := some (textBytes "\tOK!\n") ∈ r.output

instance (r : ShellResult) : Decidable r.ok := by
  unfold ShellResult.ok
  infer_instance

/-- Uses of the store: both commands, and the accessors. Nothing but the two
commands sets the name or the position. -/
inductive StationUse where
  | wlabname (argv : List (List UInt8)) (m : Memory) (addr : ℕ) (fault : Option NvsFault)
  | wlabgpsp (argv : List (List UInt8)) (m : Memory) (addr : ℕ) (fault : Option NvsFault)
  | set (k : Setting) (hk : k ≠ .wlabName ∧ k ≠ .wlabGpsPosition) (m : Memory) (addr : ℕ)
      (fault : Option NvsFault)
  | get (k : Setting) (m : Memory) (addr : ℕ) (readFault writeFault : Option NvsFault)

/-- The arguments of the commands that were accepted. -/
inductive StationEvent where
  | named (name : List UInt8)
  | placed (timezone : List UInt8)

def stationSettings (lib : FloatText) : Machine NvsFs StationUse StationEvent where
  step fs
    | .wlabname argv m addr fault =>
        let r := cmdWlabName fs argv m addr fault
        some (if r.ok then [.named (argv.getD 1 [])] else [], r.fs)
    | .wlabgpsp argv m addr fault =>
        let r := cmdWlabGpsPosition lib fs argv m addr fault
        some (if r.ok then [.placed (argv.getD 1 [])] else [], r.fs)
    | .set k _ m addr fault => some ([], (k.set fs m addr fault).2)
    | .get k m addr readFault writeFault => some ([], (k.get fs m addr readFault writeFault).2)

def nameAfter (v : Option (List UInt8)) : StationEvent → Option (List UInt8)
  | .named name => some name
  | .placed _ => v

def timezoneAfter (v : Option (List UInt8)) : StationEvent → Option (List UInt8)
  | .named _ => v
  | .placed timezone => some timezone

/-- The last accepted arguments. -/
def lastName (h : List StationEvent) : Option (List UInt8) := h.foldl nameAfter none

def lastTimezone (h : List StationEvent) : Option (List UInt8) := h.foldl timezoneAfter none

theorem lastName_concat (h : List StationEvent) (e : StationEvent) :
    lastName (h ++ [e]) = nameAfter (lastName h) e := by
  simp [lastName]

theorem lastTimezone_concat (h : List StationEvent) (e : StationEvent) :
    lastTimezone (h ++ [e]) = timezoneAfter (lastTimezone h) e := by
  simp [lastTimezone]

/-- The item of a name, copied into 48 bytes. -/
def IsName (name item : List UInt8) : Prop := item = strncpy name CONFIG_BUFF_MAX_STRING_LEN

/-- The item of a position with this time zone, copied into 48 bytes. -/
def IsPosition (timezone item : List UInt8) : Prop :=
  ∃ latitude longitude, item = leBytes 4 latitude ++ leBytes 4 longitude ++
    strncpy timezone CONFIG_BUFF_MAX_STRING_LEN

/-- The time zone stands behind the two numbers. -/
theorem gpsTimezone_append (latitude longitude : ℕ) (timezone : List UInt8) :
    gpsTimezone (leBytes 4 latitude ++ leBytes 4 longitude ++ timezone) = timezone := by
  have hlen : (leBytes 4 latitude ++ leBytes 4 longitude).length = 8 := by
    rw [List.length_append, leBytes_length, leBytes_length]
  rw [gpsTimezone, ← hlen, List.drop_left]

theorem IsPosition.length {timezone item : List UInt8} (h : IsPosition timezone item) :
    item.length = wlabGpsPosLen := by
  obtain ⟨latitude, longitude, rfl⟩ := h
  simp only [List.length_append, leBytes_length, strncpy_length]
  rfl

theorem IsPosition.timezone {timezone item : List UInt8} (h : IsPosition timezone item) :
    gpsTimezone item = strncpy timezone CONFIG_BUFF_MAX_STRING_LEN := by
  obtain ⟨latitude, longitude, rfl⟩ := h
  exact gpsTimezone_append _ _ _

/-- The stored items hold the last accepted arguments, or a getter has restored them. -/
structure HoldsStation (h : List StationEvent) (fs : NvsFs) : Prop where
  name : ∀ name, lastName h = some name → ∃ item, fs NVS_ID_WLAB_NAME = some item ∧
    (IsName name item ∨ item = wlabNameDefault)
  position : ∀ timezone, lastTimezone h = some timezone → ∃ item,
    fs NVS_ID_WLAB_GPS_POSITION = some item ∧
      (IsPosition timezone item ∨ item = wlabGpsPositionDefault)

/-- A setting command reports success exactly when it replaced the item. -/
theorem shellSet_cases (k : Setting) (fs : NvsFs) (m : Memory) (addr : ℕ)
    (fault : Option NvsFault) (lines : List (Option (List UInt8))) :
    ((shellSet k fs m addr fault lines).ok ∧
      (shellSet k fs m addr fault lines).fs =
        Function.update fs k.id (some (m.load addr k.len))) ∨
    (¬ (shellSet k fs m addr fault lines).ok ∧ (shellSet k fs m addr fault lines).fs = fs) := by
  have hok : sprintf "\tOK!\n".toList [] = some (textBytes "\tOK!\n") := by decide
  have hfailed : some (textBytes "\tOK!\n") ∉ [sprintf "\tFailed!\n".toList []] := by decide
  have herr : ¬ - EIO = 0 := by decide
  rcases k.set_cases fs m addr fault with ⟨hset, -, -⟩ | ⟨hset, -⟩
  · left
    rw [shellSet, hset, if_pos rfl]
    exact ⟨List.mem_append_right _ (hok ▸ List.mem_singleton_self _), rfl⟩
  · right
    rw [shellSet, hset, if_neg herr]
    exact ⟨hfailed, rfl⟩

/-- Without a fault the first value of a setting is accepted. -/
theorem shellSet_ok (k : Setting) {fs : NvsFs} (hnew : fs k.id = none) (m : Memory) (addr : ℕ)
    (lines : List (Option (List UInt8))) : (shellSet k fs m addr none lines).ok := by
  have hok : sprintf "\tOK!\n".toList [] = some (textBytes "\tOK!\n") := by decide
  rcases k.set_cases fs m addr none with ⟨hset, -, -⟩ | ⟨-, hsame⟩
  · rw [shellSet, hset, if_pos rfl]
    exact List.mem_append_right _ (hok ▸ List.mem_singleton_self _)
  · rw [hsame rfl] at hnew
    cases hnew

theorem badUsage_not_ok (fs : NvsFs) : ¬ (badUsage fs).ok := by
  have h : some (textBytes "\tOK!\n") ∉ [sprintf "\tBad command usage!".toList []] := by decide
  exact h

/-- An accepted name is stored; otherwise the flash stays as it is. -/
theorem cmdWlabName_cases (fs : NvsFs) (argv : List (List UInt8)) (m : Memory) (addr : ℕ)
    (fault : Option NvsFault) :
    ((cmdWlabName fs argv m addr fault).ok ∧
      (cmdWlabName fs argv m addr fault).fs = Function.update fs NVS_ID_WLAB_NAME
        (some (strncpy (argv.getD 1 []) CONFIG_BUFF_MAX_STRING_LEN))) ∨
    (¬ (cmdWlabName fs argv m addr fault).ok ∧ (cmdWlabName fs argv m addr fault).fs = fs) := by
  match argv with
  | [] => exact .inr ⟨badUsage_not_ok fs, rfl⟩
  | [_] => exact .inr ⟨badUsage_not_ok fs, rfl⟩
  | _ :: _ :: _ :: _ => exact .inr ⟨badUsage_not_ok fs, rfl⟩
  | [_, arg] =>
    have hload := ((m.store addr (List.replicate CONFIG_BUFF_MAX_STRING_LEN 0))).load_store_all addr
      (strncpy_length arg CONFIG_BUFF_MAX_STRING_LEN)
    rw [List.getD_cons_succ, List.getD_cons_zero, ← hload]
    exact shellSet_cases .wlabName fs _ addr fault _

/-- The three members of a filled in `struct gps_position`. -/
theorem load_gps_position (m : Memory) (addr latitude longitude : ℕ) (timezone : List UInt8) :
    (((m.store (addr + 8) (strncpy timezone CONFIG_BUFF_MAX_STRING_LEN)).storeU32 addr
      latitude).storeU32 (addr + 4) longitude).load addr wlabGpsPosLen =
      leBytes 4 latitude ++ leBytes 4 longitude ++ strncpy timezone CONFIG_BUFF_MAX_STRING_LEN := by
  have hzone := m.load_store_all (addr + 8) (strncpy_length timezone CONFIG_BUFF_MAX_STRING_LEN)
  rw [wlabGpsPosLen, Memory.load_append, Memory.load_append, Memory.storeU32, Memory.storeU32,
    Memory.load_store_all _ (addr + 4) (leBytes_length 4 longitude),
    Memory.load_store_outside _ (by rw [leBytes_length]; omega),
    Memory.load_store_all _ addr (leBytes_length 4 latitude),
    Memory.load_store_outside _ (by rw [leBytes_length]; omega),
    Memory.load_store_outside _ (by rw [leBytes_length]; omega), hzone]

/-- An accepted position is stored with its time zone behind two numbers. -/
theorem cmdWlabGpsPosition_cases (lib : FloatText) (fs : NvsFs) (argv : List (List UInt8))
    (m : Memory) (addr : ℕ) (fault : Option NvsFault) :
    ((cmdWlabGpsPosition lib fs argv m addr fault).ok ∧ ∃ latitude longitude,
      (cmdWlabGpsPosition lib fs argv m addr fault).fs =
        Function.update fs NVS_ID_WLAB_GPS_POSITION (some (leBytes 4 latitude ++
          leBytes 4 longitude ++ strncpy (argv.getD 1 []) CONFIG_BUFF_MAX_STRING_LEN))) ∨
    (¬ (cmdWlabGpsPosition lib fs argv m addr fault).ok ∧
      (cmdWlabGpsPosition lib fs argv m addr fault).fs = fs) := by
  match argv with
  | [] => exact .inr ⟨badUsage_not_ok fs, rfl⟩
  | [_] => exact .inr ⟨badUsage_not_ok fs, rfl⟩
  | [_, _] => exact .inr ⟨badUsage_not_ok fs, rfl⟩
  | [_, _, _] => exact .inr ⟨badUsage_not_ok fs, rfl⟩
  | _ :: _ :: _ :: _ :: _ :: _ => exact .inr ⟨badUsage_not_ok fs, rfl⟩
  | [_, timezone, latitude, longitude] =>
    have hload := load_gps_position (m.store addr (List.replicate wlabGpsPosLen 0)) addr
      (lib.strtof latitude) (lib.strtof longitude) timezone
    rcases shellSet_cases .wlabGpsPosition fs _ addr fault _ with ⟨hok, hfs⟩ | hno
    · have hitem := congrArg (fun item => Function.update fs NVS_ID_WLAB_GPS_POSITION (some item))
        hload
      exact .inl ⟨hok, _, _, hfs.trans hitem⟩
    · exact .inr hno

/-- The strings whose copies the store holds. -/
theorem HoldsStation.held {h : List StationEvent} {fs : NvsFs} (hh : HoldsStation h fs)
    {name timezone : List UInt8} (hname : lastName h = some name)
    (hzone : lastTimezone h = some timezone) : ∃ heldName heldZone item,
      (heldName = name ∨ heldName = textBytes "WLAB_STATION") ∧
      (heldZone = timezone ∨ heldZone = textBytes "Europe/Warsaw") ∧
      fs NVS_ID_WLAB_NAME = some (strncpy heldName CONFIG_BUFF_MAX_STRING_LEN) ∧
      fs NVS_ID_WLAB_GPS_POSITION = some item ∧ IsPosition heldZone item := by
  obtain ⟨nameItem, hnameItem, hnameOf⟩ := hh.name name hname
  obtain ⟨item, hitem, hitemOf⟩ := hh.position timezone hzone
  obtain ⟨heldName, hheldName, rfl⟩ : ∃ held,
      (held = name ∨ held = textBytes "WLAB_STATION") ∧ IsName held nameItem := by
    rcases hnameOf with hn | hn
    · exact ⟨name, .inl rfl, hn⟩
    · exact ⟨_, .inr rfl, hn⟩
  obtain ⟨heldZone, hheldZone, hposition⟩ : ∃ held,
      (held = timezone ∨ held = textBytes "Europe/Warsaw") ∧ IsPosition held item := by
    rcases hitemOf with hz | hz
    · exact ⟨timezone, .inl rfl, hz⟩
    · exact ⟨_, .inr rfl, _, _, hz⟩
  exact ⟨heldName, heldZone, item, hheldName, hheldZone, hnameItem, hitem, hposition⟩

/-- What holds of both items keeps holding while they stay or are restored. -/
theorem HoldsStation.of_items {h : List StationEvent} {fs fs' : NvsFs} (hh : HoldsStation h fs)
    (hname : fs' NVS_ID_WLAB_NAME = fs NVS_ID_WLAB_NAME ∨
      fs' NVS_ID_WLAB_NAME = some wlabNameDefault)
    (hposition : fs' NVS_ID_WLAB_GPS_POSITION = fs NVS_ID_WLAB_GPS_POSITION ∨
      fs' NVS_ID_WLAB_GPS_POSITION = some wlabGpsPositionDefault) : HoldsStation h fs' := by
  constructor
  case name =>
    intro name hlast
    rcases hname with hsame | hrestored
    · rw [hsame]
      exact hh.name name hlast
    · exact ⟨_, hrestored, .inr rfl⟩
  case position =>
    intro timezone hlast
    rcases hposition with hsame | hrestored
    · rw [hsame]
      exact hh.position timezone hlast
    · exact ⟨_, hrestored, .inr rfl⟩

theorem HoldsStation.named {h : List StationEvent} {fs : NvsFs} (hh : HoldsStation h fs)
    (name : List UInt8) : HoldsStation (h ++ [.named name]) (Function.update fs NVS_ID_WLAB_NAME
      (some (strncpy name CONFIG_BUFF_MAX_STRING_LEN))) := by
  constructor
  case name =>
    intro last hlast
    rw [lastName_concat] at hlast
    obtain rfl := Option.some.inj hlast
    exact ⟨_, Function.update_self _ _ _, .inl rfl⟩
  case position =>
    intro timezone hlast
    rw [lastTimezone_concat] at hlast
    rw [Function.update_of_ne (by decide)]
    exact hh.position timezone hlast

theorem HoldsStation.placed {h : List StationEvent} {fs : NvsFs} (hh : HoldsStation h fs)
    {timezone item : List UInt8} (hitem : IsPosition timezone item) :
    HoldsStation (h ++ [.placed timezone])
      (Function.update fs NVS_ID_WLAB_GPS_POSITION (some item)) := by
  constructor
  case name =>
    intro name hlast
    rw [lastName_concat] at hlast
    rw [Function.update_of_ne (by decide)]
    exact hh.name name hlast
  case position =>
    intro last hlast
    rw [lastTimezone_concat] at hlast
    obtain rfl := Option.some.inj hlast
    exact ⟨item, Function.update_self _ _ _, .inl hitem⟩

theorem HoldsStation.step {lib : FloatText} {h es : List StationEvent} {fs fs' : NvsFs}
    {use : StationUse} (hh : HoldsStation h fs)
    (hs : (stationSettings lib).step fs use = some (es, fs')) : HoldsStation (h ++ es) fs' := by
  cases use with
  | wlabname argv m addr fault =>
    obtain ⟨rfl, rfl⟩ := Prod.mk.inj (Option.some.inj hs)
    rcases cmdWlabName_cases fs argv m addr fault with ⟨hok, hfs⟩ | ⟨hno, hfs⟩
    · rw [if_pos hok, hfs]
      exact hh.named _
    · rw [if_neg hno, hfs, List.append_nil]
      exact hh
  | wlabgpsp argv m addr fault =>
    obtain ⟨rfl, rfl⟩ := Prod.mk.inj (Option.some.inj hs)
    rcases cmdWlabGpsPosition_cases lib fs argv m addr fault with
      ⟨hok, latitude, longitude, hfs⟩ | ⟨hno, hfs⟩
    · rw [if_pos hok, hfs]
      exact hh.placed ⟨latitude, longitude, rfl⟩
    · rw [if_neg hno, hfs, List.append_nil]
      exact hh
  | set k hk m addr fault =>
    obtain ⟨rfl, rfl⟩ := Prod.mk.inj (Option.some.inj hs)
    rw [List.append_nil]
    exact hh.of_items (.inl (Setting.set_other hk.1 fs m addr fault))
      (.inl (Setting.set_other hk.2 fs m addr fault))
  | get k m addr readFault writeFault =>
    obtain ⟨rfl, rfl⟩ := Prod.mk.inj (Option.some.inj hs)
    rw [List.append_nil]
    exact hh.of_items (k.get_item_of .wlabName fs m addr readFault writeFault)
      (k.get_item_of .wlabGpsPosition fs m addr readFault writeFault)

/-- After every run, from any flash on. -/
theorem stationSettings_holds {lib : FloatText} {fs fs' : NvsFs} {uses : List StationUse}
    {h : List StationEvent} (hr : (stationSettings lib).Runs fs uses h fs') :
    HoldsStation h fs' := by
  apply Machine.Runs.invariant (I := HoldsStation) _ _ hr
  · constructor
    case name =>
      intro name hname
      cases hname
    case position =>
      intro timezone hzone
      cases hzone
  · exact fun h t use es u hh hs => hh.step hs

end WlabStation.Settings
