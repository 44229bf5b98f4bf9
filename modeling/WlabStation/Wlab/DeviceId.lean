import WlabStation.Settings.Startup
import WlabStation.Wlab.Authorize

/-! The custom id of a station: `cmd_wlab_id`, and what `wlab_str_device_id_get`
makes of the id that was stored last. -/
namespace WlabStation.Wlab

open Settings

/-- The value of a hexadecimal digit. -/
def hexVal (c : UInt8) : Option ℕ :=
  if 48 ≤ c ∧ c ≤ 57 then some (c.toNat - 48)
  else if 65 ≤ c ∧ c ≤ 70 then some (c.toNat - 55)
  else if 97 ≤ c ∧ c ≤ 102 then some (c.toNat - 87)
  else none

/-- The digits behind an optional `0x`. -/
def hexDigits : List UInt8 → List UInt8
  | 48 :: 120 :: s => s
  | 48 :: 88 :: s => s
  | s => s

/-- `strtoull(s, NULL, 16)`: leading blanks, a sign, `0x`, digits; out of range
saturates, a minus sign negates modulo 2^64. -/
def strtoull (s : List UInt8) : ℕ :=
  let p := strSign (s.dropWhile isSpace)
  let ds := (hexDigits p.2).takeWhile fun c => (hexVal c).isSome
  let v := ds.foldl (fun acc c => acc * 16 + (hexVal c).getD 0) 0
  if 18446744073709551616 ≤ v then 18446744073709551615
  else if p.1 then (18446744073709551616 - v) % 18446744073709551616 else v

/-- `%PRIX64`, without padding. -/
def prix64 (v : ℕ) : List Char := (Nat.toDigits 16 v).map Char.toUpper

/-- `cmd_wlab_id`, with its local `device_id` at `addr`. -/
def cmdWlabId (fs : NvsFs) (argv : List (List UInt8)) (m : Memory) (addr : ℕ)
    (fault : Option NvsFault) : ShellResult :=
  if 1 ≤ argv.length ∧ argv.length ≤ 2 then
    let m := m.store addr (leBytes 8 0)
    let m := if argv.length = 2 then m.store addr (leBytes 8 (strtoull (argv.getD 1 []))) else m
    let deviceId := leNat (m.load addr 8)
    shellSet .wlabDeviceId fs m addr fault
      [some (textBytes "device_id: " ++ asciiBytes (prix64 deviceId) ++ textBytes "\n")]
  else badUsage fs

/-- The id that the arguments stand for; without one it is 0. -/
def wlabIdOf (argv : List (List UInt8)) : ℕ :=
  if argv.length = 2 then strtoull (argv.getD 1 []) else 0

def deviceIdImage (argv : List (List UInt8)) : List UInt8 := leBytes 8 (wlabIdOf argv)

theorem strtoull_lt (s : List UInt8) : strtoull s < 18446744073709551616 := by
  unfold strtoull
  simp only
  split_ifs
  · omega
  · omega
  · omega

theorem wlabIdOf_lt (argv : List (List UInt8)) : wlabIdOf argv < 18446744073709551616 := by
  unfold wlabIdOf
  split_ifs
  · exact strtoull_lt _
  · decide

theorem leNat_deviceIdImage (argv : List (List UInt8)) :
    leNat (deviceIdImage argv) = wlabIdOf argv := by
  rw [deviceIdImage, leNat_leBytes]
  exact Nat.mod_eq_of_lt (wlabIdOf_lt argv)

/-- An accepted id is stored; otherwise the flash stays as it is. -/
theorem cmdWlabId_cases (fs : NvsFs) (argv : List (List UInt8)) (m : Memory) (addr : ℕ)
    (fault : Option NvsFault) :
    ((cmdWlabId fs argv m addr fault).ok ∧ (cmdWlabId fs argv m addr fault).fs =
      Function.update fs NVS_ID_WLAB_DEVICE_ID (some (deviceIdImage argv))) ∨
    (¬ (cmdWlabId fs argv m addr fault).ok ∧ (cmdWlabId fs argv m addr fault).fs = fs) := by
  by_cases hargc : 1 ≤ argv.length ∧ argv.length ≤ 2
  · simp only [cmdWlabId, if_pos hargc]
    by_cases htwo : argv.length = 2
    · have himage : deviceIdImage argv = ((m.store addr (leBytes 8 0)).store addr
          (leBytes 8 (strtoull (argv.getD 1 [])))).load addr 8 := by
        rw [deviceIdImage, wlabIdOf, if_pos htwo, Memory.load_store_all _ _ (leBytes_length _ _)]
      rw [if_pos htwo, himage]
      exact shellSet_cases .wlabDeviceId fs _ addr fault _
    · have himage : deviceIdImage argv = (m.store addr (leBytes 8 0)).load addr 8 := by
        rw [deviceIdImage, wlabIdOf, if_neg htwo, Memory.load_store_all _ _ (leBytes_length _ _)]
      rw [if_neg htwo, himage]
      exact shellSet_cases .wlabDeviceId fs _ addr fault _
  · simp only [cmdWlabId, if_neg hargc]
    exact .inr ⟨badUsage_not_ok fs, rfl⟩

/-- The command `wlabid`. -/
def wlabid : SettingCommand where
  setting := .wlabDeviceId
  cmd := cmdWlabId
  image := deviceIdImage
  image_length _ := leBytes_length _ _
  cases := cmdWlabId_cases

/-- The number that hexadecimal digits stand for. -/
def hexNat (cs : List Char) : ℕ := cs.foldl (fun acc c => acc * 16 + (Json.hexDigit c).getD 0) 0

theorem hexNat_concat (cs : List Char) (c : Char) :
    hexNat (cs ++ [c]) = hexNat cs * 16 + (Json.hexDigit c).getD 0 := by
  rw [hexNat, List.foldl_append]
  rfl

theorem hexNat_upperHex (w v : ℕ) : hexNat (upperHex w v) = v % 16 ^ w := by
  have hdigit : ∀ d < 16, (Json.hexDigit (Nat.digitChar d).toUpper).getD 0 = d := by decide
  induction w generalizing v with
  | zero =>
    rw [pow_zero, Nat.mod_one]
    rfl
  | succ w ih =>
    rw [upperHex, hexNat_concat, ih, hdigit _ (Nat.mod_lt _ (by decide)), pow_succ', Nat.mod_mul]
    omega

theorem upperHex_upper (w v : ℕ) : ∀ c ∈ upperHex w v, c ∈ "0123456789ABCDEF".toList := by
  have hdigit : ∀ d < 16, (Nat.digitChar d).toUpper ∈ "0123456789ABCDEF".toList := by decide
  induction w generalizing v with
  | zero => simp [upperHex]
  | succ w ih =>
    intro c hc
    rcases List.mem_append.mp hc with hc | hc
    · exact ih _ c hc
    · rw [List.mem_singleton.mp hc]
      exact hdigit _ (Nat.mod_lt _ (by decide))

/-- The text of a custom id: twelve digits for its low 48 bits. -/
structure ShowsId (uid : List Char) (id : ℕ) : Prop where
  length : uid.length = 12
  upper : ∀ c ∈ uid, c ∈ "0123456789ABCDEF".toList
  value : hexNat uid = id % 281474976710656

theorem deviceIdText_showsId (mac : Fin 6 → UInt8) {id : ℕ} (hid : id ≠ 0) :
    ShowsId (deviceIdText mac id) id := by
  rw [deviceIdText, if_neg hid]
  constructor
  case length => exact upperHex_length _ _
  case upper => exact upperHex_upper _ _
  case value =>
    rw [hexNat_upperHex]
    exact Nat.mod_mod _ _

/-- Two custom ids have one text exactly when their low 48 bits agree. -/
theorem deviceIdText_eq_iff (mac mac' : Fin 6 → UInt8) {id id' : ℕ} (hid : id ≠ 0)
    (hid' : id' ≠ 0) : deviceIdText mac id = deviceIdText mac' id' ↔
      id % 281474976710656 = id' % 281474976710656 := by
  constructor
  · intro h
    rw [← (deviceIdText_showsId mac hid).value, ← (deviceIdText_showsId mac' hid').value, h]
  · intro h
    rw [deviceIdText, deviceIdText, if_neg hid, if_neg hid', h]

/-- What a station shows after its last accepted `wlabid`. -/
theorem wlabStrDeviceIdGet_eq {fs : NvsFs} {h : List (List (List UInt8))} (hh : wlabid.Holds h fs)
    {argv : List (List UInt8)} (hlast : h.getLast? = some argv) (mac : Fin 6 → UInt8)
    (d : GetCall) : (wlabStrDeviceIdGet fs mac d).1 =
      if wlabid.Delivers fs argv d.readFault then deviceIdText mac (wlabIdOf argv)
      else macHexStr mac := by
  have hload := hh.get_load hlast rfl d.m d.addr d.readFault d.writeFault
  have hfetch : (fetch .wlabDeviceId fs d).1 = if wlabid.Delivers fs argv d.readFault then
      deviceIdImage argv else List.replicate wlabDeviceIdLen 0 := hload
  simp only [wlabStrDeviceIdGet, hfetch]
  split_ifs
  · rw [leNat_deviceIdImage]
  · rw [leNat_replicate_zero, deviceIdText, if_pos rfl]

/-- After any uses of its store a station shows the low 48 bits of its custom id, or
its MAC address when the id is not read; two stations show one id exactly
when these bits agree. -/
theorem custom_ids_low_bits {fs fs' gs gs' : NvsFs} {uses uses' : List (SettingUse .wlabDeviceId)}
    {h h' : List (List (List UInt8))} (hr : wlabid.store.Runs fs uses h fs')
    (hr' : wlabid.store.Runs gs uses' h' gs') {argv argv' : List (List UInt8)}
    (hlast : h.getLast? = some argv) (hlast' : h'.getLast? = some argv')
    (hid : wlabIdOf argv ≠ 0) (hid' : wlabIdOf argv' ≠ 0) (mac mac' : Fin 6 → UInt8)
    (d d' : GetCall) :
    (wlabid.Delivers fs' argv d.readFault →
      ShowsId (wlabStrDeviceIdGet fs' mac d).1 (wlabIdOf argv)) ∧
    (¬ wlabid.Delivers fs' argv d.readFault →
      (wlabStrDeviceIdGet fs' mac d).1 = macHexStr mac) ∧
    (wlabid.Delivers fs' argv d.readFault → wlabid.Delivers gs' argv' d'.readFault →
      ((wlabStrDeviceIdGet fs' mac d).1 = (wlabStrDeviceIdGet gs' mac' d').1 ↔
        wlabIdOf argv % 281474976710656 = wlabIdOf argv' % 281474976710656)) := by
  have hone := wlabStrDeviceIdGet_eq (SettingCommand.store_holds hr) hlast mac d
  have htwo := wlabStrDeviceIdGet_eq (SettingCommand.store_holds hr') hlast' mac' d'
  refine ⟨?_, ?_, ?_⟩
  · intro hd
    rw [hone, if_pos hd]
    exact deviceIdText_showsId mac hid
  · intro hd
    rw [hone, if_neg hd]
  · intro hd hd'
    rw [hone, if_pos hd, htwo, if_pos hd']
    exact deviceIdText_eq_iff mac mac' hid hid'

/-- The arguments of a command, the command on an empty store, and the flash it leaves. -/
def idArgv (id : String) : List (List UInt8) := [textBytes "wlabid", textBytes id]

def setId (id : String) : List (SettingUse .wlabDeviceId) :=
  [.command (idArgv id) (fun _ => 0) 16 none]

def idFs (id : String) : NvsFs :=
  Function.update (fun _ => none) NVS_ID_WLAB_DEVICE_ID (some (deviceIdImage (idArgv id)))

theorem setId_runs (id : String) :
    wlabid.store.Runs (fun _ => none) (setId id) [idArgv id] (idFs id) := by
  have hargc : 1 ≤ (idArgv id).length ∧ (idArgv id).length ≤ 2 := ⟨one_le_two, le_rfl⟩
  have hok : (cmdWlabId (fun _ => none) (idArgv id) (fun _ => 0) 16 none).ok := by
    simp only [cmdWlabId, if_pos hargc]
    exact shellSet_ok .wlabDeviceId rfl _ _ _
  exact wlabid.runs_command hok

theorem idArgv_last (id : String) : [idArgv id].getLast? = some (idArgv id) := rfl

theorem setId_delivers (id : String) : wlabid.Delivers (idFs id) (idArgv id) none :=
  ⟨Function.update_self _ _ _, rfl⟩

theorem setId_text (id : String) (mac : Fin 6 → UInt8) :
    (wlabStrDeviceIdGet (idFs id) mac (noFaults 16)).1 =
      deviceIdText mac (wlabIdOf (idArgv id)) := by
  rw [wlabStrDeviceIdGet_eq (SettingCommand.store_holds (setId_runs id)) (idArgv_last id)]
  exact if_pos (setId_delivers id)

theorem wlabIdOf_examples : wlabIdOf (idArgv "AB12") = 43794 ∧ wlabIdOf (idArgv "1") = 1 ∧
    wlabIdOf (idArgv "1000000000001") = 281474976710657 := by
  decide

/-- The ids AB12 and 1. -/
theorem two_short_ids :
    ShowsId (wlabStrDeviceIdGet (idFs "AB12") (fun _ => 171) (noFaults 16)).1 43794 ∧
    (wlabStrDeviceIdGet (idFs "AB12") (fun _ => 171) (noFaults 16)).1 ≠
      (wlabStrDeviceIdGet (idFs "1") (fun _ => 172) (noFaults 16)).1 := by
  obtain ⟨hab12, hone, -⟩ := wlabIdOf_examples
  have hboth := custom_ids_low_bits (setId_runs "AB12") (setId_runs "1") (idArgv_last _)
    (idArgv_last _) (by rw [hab12]; decide) (by rw [hone]; decide) (fun _ => 171) (fun _ => 172)
    (noFaults 16) (noFaults 16)
  rw [hab12, hone] at hboth
  obtain ⟨hshows, -, hiff⟩ := hboth
  refine ⟨hshows (setId_delivers _), fun h => ?_⟩
  exact absurd ((hiff (setId_delivers _) (setId_delivers _)).mp h) (by decide)

/-- Two stations with the ids 1000000000001 and 1 show one id, which is the second. -/
theorem long_id_collides :
    wlabid.store.Runs (fun _ => none) (setId "1000000000001") [idArgv "1000000000001"]
      (idFs "1000000000001") ∧
    wlabid.store.Runs (fun _ => none) (setId "1") [idArgv "1"] (idFs "1") ∧
    wlabIdOf (idArgv "1000000000001") = 281474976710657 ∧ wlabIdOf (idArgv "1") = 1 ∧
    hexNat (wlabStrDeviceIdGet (idFs "1000000000001") (fun _ => 171) (noFaults 16)).1 = 1 ∧
    (wlabStrDeviceIdGet (idFs "1000000000001") (fun _ => 171) (noFaults 16)).1 =
      (wlabStrDeviceIdGet (idFs "1") (fun _ => 172) (noFaults 16)).1 := by
  obtain ⟨-, hone, hlong⟩ := wlabIdOf_examples
  refine ⟨setId_runs _, setId_runs _, hlong, hone, ?_, ?_⟩
  · rw [setId_text, hlong]
    exact (deviceIdText_showsId _ (by decide)).value
  · rw [setId_text, setId_text, hlong, hone]
    exact (deviceIdText_eq_iff _ _ (by decide) (by decide)).mpr (by decide)

end WlabStation.Wlab
