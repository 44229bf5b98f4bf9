import WlabStation.Wlab.DeviceId

/-! The whole shell over the flash, with the starts in between. For every history
the six items are variables, which the commands assign and which a getter that
reads nothing sets to its default, and `pconfig` prints their values. -/
namespace WlabStation.Settings
open Wlab

/-- Where the flash fails in the two calls of a getter. -/
structure GetFault where
  read : Option NvsFault
  write : Option NvsFault

/-- What `cmd_pconfig` prints of its six objects. -/
def pconfigLines (lib : FloatText) (v : Setting → List UInt8) : List (Option (List UInt8)) :=
  [sprintf "wifi_ssid: <%s>\n".toList [.chars (v .wifiConfig)],
    sprintf "wifi_pass: <%s>\n".toList
      [.chars ((v .wifiConfig).drop CONFIG_BUFF_MAX_STRING_LEN)],
    sprintf "mqtt_broker: <%s>\n".toList [.chars (v .mqttConfig)],
    sprintf "mqtt_port: %u\n".toList [.word (mqttPort (v .mqttConfig))],
    sprintf "mqtt_ping_period: %u [secs]\n".toList [.word (mqttPingPeriod (v .mqttConfig))],
    sprintf "mqtt_max_ping_no_answer: %u [mins]\n".toList
      [.word (mqttMaxPingNoAnswer (v .mqttConfig))],
    sprintf "latitude: %.2f\n".toList [.double (lib.hundredths (gpsLatitude (v .wlabGpsPosition)))],
    sprintf "longitude: %.2f\n".toList
      [.double (lib.hundredths (gpsLongitude (v .wlabGpsPosition)))],
    sprintf "timezone: <%s>\n".toList [.chars (gpsTimezone (v .wlabGpsPosition))],
    some (textBytes "device_id: " ++ asciiBytes (prix64 (leNat (v .wlabDeviceId))) ++
      textBytes "\n"),
    sprintf "pub_period: %u [mins]\n".toList [.word (leNat (v .wlabPubPeriod))],
    sprintf "wlab_name: <%s>\n".toList [.chars (v .wlabName)]]

/-- `cmd_pconfig`, with its six locals at the addresses of `frame`. -/
def cmdPconfig (lib : FloatText) (fs : NvsFs) (m : Memory) (frame : Setting → ℕ)
    (f : Setting → GetFault) : ShellResult :=
  let m := m.store (frame .wifiConfig) (List.replicate wifiConfigLen 0)
  let m := m.store (frame .mqttConfig) (List.replicate mqttConfigLen 0)
  let m := m.store (frame .wlabGpsPosition) (List.replicate wlabGpsPosLen 0)
  let m := m.store (frame .wlabDeviceId) (leBytes 8 0)
  let m := m.storeU32 (frame .wlabPubPeriod) 0
  let r := nvsDataWifiConfigGet fs m (frame .wifiConfig) (f .wifiConfig).read (f .wifiConfig).write
  let r := nvsDataMqttConfigGet r.2 r.1 (frame .mqttConfig) (f .mqttConfig).read
    (f .mqttConfig).write
  let r := nvsDataWlabDeviceIdGet r.2 r.1 (frame .wlabDeviceId) (f .wlabDeviceId).read
    (f .wlabDeviceId).write
  let r := nvsDataWlabNameGet r.2 r.1 (frame .wlabName) (f .wlabName).read (f .wlabName).write
  let r := nvsDataWlabGpsPositionGet r.2 r.1 (frame .wlabGpsPosition) (f .wlabGpsPosition).read
    (f .wlabGpsPosition).write
  let r := nvsDataWlabPubPeriodGet r.2 r.1 (frame .wlabPubPeriod) (f .wlabPubPeriod).read
    (f .wlabPubPeriod).write
  ⟨pconfigLines lib fun k => r.1.load (frame k) k.size, r.2⟩

/-- The commands that set something. -/
inductive ShellCommand where
  | wificonf
  | mqttconf
  | wlabid
  | wlabname
  | wlabpubp
  | wlabgpsp
  deriving DecidableEq

namespace ShellCommand

def setting : ShellCommand → Setting
  | wificonf => .wifiConfig
  | mqttconf => .mqttConfig
  | wlabid => .wlabDeviceId
  | wlabname => .wlabName
  | wlabpubp => .wlabPubPeriod
  | wlabgpsp => .wlabGpsPosition

/-- The numbers of arguments that the command takes, its name included. -/
def argc : ShellCommand → List ℕ
  | wificonf => [2, 3]
  | mqttconf => [5]
  | wlabid => [1, 2]
  | wlabname => [2]
  | wlabpubp => [2]
  | wlabgpsp => [4]

/-- The object that the command makes of its arguments. -/
def value (lib : FloatText) (argv : List (List UInt8)) : ShellCommand → List UInt8
  | wificonf => wifiConfigImage argv
  | mqttconf => mqttConfigImage argv
  | wlabid => deviceIdImage argv
  | wlabname => strncpy (argv.getD 1 []) CONFIG_BUFF_MAX_STRING_LEN
  | wlabpubp => leBytes 4 (strtoul (argv.getD 1 []))
  | wlabgpsp => leBytes 4 (lib.strtof (argv.getD 2 [])) ++
      leBytes 4 (lib.strtof (argv.getD 3 [])) ++
        strncpy (argv.getD 1 []) CONFIG_BUFF_MAX_STRING_LEN

def run (lib : FloatText) (fs : NvsFs) (argv : List (List UInt8)) (m : Memory) (addr : ℕ)
    (fault : Option NvsFault) : ShellCommand → ShellResult
  | wificonf => cmdWifiConfig fs argv m addr fault
  | mqttconf => cmdMqttConfig fs argv m addr fault
  | wlabid => cmdWlabId fs argv m addr fault
  | wlabname => cmdWlabName fs argv m addr fault
  | wlabpubp => cmdWlabPublishPeriod fs argv m addr fault
  | wlabgpsp => cmdWlabGpsPosition lib fs argv m addr fault

/-- The flash after the command. -/
def apply (lib : FloatText) (fs : NvsFs) (argv : List (List UInt8)) (m : Memory) (addr : ℕ)
    (fault : Option NvsFault) (c : ShellCommand) : NvsFs := (c.run lib fs argv m addr fault).fs

/-- The command answers `OK!`. -/
def Ok (lib : FloatText) (fs : NvsFs) (argv : List (List UInt8)) (m : Memory) (addr : ℕ)
    (fault : Option NvsFault) (c : ShellCommand) : Prop := (c.run lib fs argv m addr fault).ok

end ShellCommand

/-- Uses of the flash: the shell, a getter of the running station, and a start. -/
inductive ShellUse where
  | command (c : ShellCommand) (argv : List (List UInt8)) (m : Memory) (addr : ℕ)
      (fault : Option NvsFault)
  | pconfig (m : Memory) (frame : Setting → ℕ) (f : Setting → GetFault)
  | get (k : Setting) (m : Memory) (addr : ℕ) (f : GetFault)
  | boot (f : GetFault)

def ShellUse.apply (lib : FloatText) (fs : NvsFs) : ShellUse → NvsFs
  | .command c argv m addr fault => c.apply lib fs argv m addr fault
  | .pconfig m frame f => (cmdPconfig lib fs m frame f).fs
  | .get k m addr f => (k.get fs m addr f.read f.write).2
  | .boot f => nvsDataInit fs f.read f.write

/-- The settings as variables, with the boot counter. -/
structure Variables where
  setting : Setting → Option (List UInt8)
  boots : Option ℕ

/-- What a getter restores, as the value of the object. -/
def Setting.unset (k : Setting) : List UInt8 := k.restore.take k.size

/-- A getter assigns only when it reads nothing. -/
def Variables.get (v : Variables) (k : Setting) (f : GetFault) : Variables :=
  if f.read = none ∧ v.setting k ≠ none then v
  else if f.write = none then { v with setting := Function.update v.setting k (some k.unset) }
  else v

/-- What a getter delivers. -/
def Variables.read (v : Variables) (k : Setting) (readFault : Option NvsFault) : List UInt8 :=
  if readFault = none then (v.setting k).getD k.unset else k.unset

/-- The order in which `cmd_pconfig` reads. -/
def pconfigOrder : List Setting :=
  [.wifiConfig, .mqttConfig, .wlabDeviceId, .wlabName, .wlabGpsPosition, .wlabPubPeriod]

/-- A command with the right number of arguments assigns, unless the flash fails. -/
def Variables.use (lib : FloatText) (v : Variables) : ShellUse → Variables
  | .command c argv _ _ fault =>
      if argv.length ∈ c.argc ∧ fault = none then
        { v with setting := Function.update v.setting c.setting (some (c.value lib argv)) }
      else v
  | .pconfig _ _ f => pconfigOrder.foldl (fun v k => v.get k (f k)) v
  | .get k _ _ f => v.get k f
  | .boot f =>
      if f.write = none then
        { v with boots := some (((if f.read = none then v.boots.getD 0 else 0) + 1) % 2 ^ 32) }
      else v

/-- The flash holds the values of the variables. -/
structure Represents (fs : NvsFs) (v : Variables) : Prop where
  length : ∀ k item, fs (Setting.id k) = some item → item.length = k.len
  setting : ∀ k, (fs (Setting.id k)).map (·.take k.size) = v.setting k
  bootLength : ∀ item, fs NVS_ID_BOOT_COUNT = some item → item.length = 4
  boots : (fs NVS_ID_BOOT_COUNT).map leNat = v.boots

theorem Setting.size_le_len (k : Setting) : k.size ≤ k.len := by
  cases k <;> decide

theorem Setting.id_ne_boot (k : Setting) : k.id ≠ NVS_ID_BOOT_COUNT := by
  cases k <;> decide

theorem nvsWrite_none (fs : NvsFs) (id : ℕ) (data : List UInt8) :
    (nvsWrite fs id data none).2 = Function.update fs id (some data) := by
  unfold nvsWrite
  split_ifs with hsame
  · rw [← hsame, Function.update_eq_self]
  · rfl

section Refinement
variable {lib : FloatText} {fs : NvsFs} {v : Variables}

/-- A write of one item assigns its variable. -/
theorem Represents.write (hi : Represents fs v) (k : Setting) {data : List UInt8}
    (hlen : data.length = k.len) (fault : Option NvsFault) :
    Represents (nvsWrite fs k.id data fault).2 (if fault = none then
      { v with setting := Function.update v.setting k (some (data.take k.size)) } else v) := by
  cases fault with
  | some e => exact hi
  | none =>
    rw [nvsWrite_none, if_pos rfl]
    have hboot := Function.update_of_ne k.id_ne_boot.symm (some data) fs
    constructor
    case length =>
      intro j item hitem
      by_cases hj : j = k
      · subst hj
        rw [Function.update_self] at hitem
        rwa [← Option.some.inj hitem]
      · rw [Function.update_of_ne fun hid => hj (Setting.id_injective hid)] at hitem
        exact hi.length j item hitem
    case setting =>
      intro j
      by_cases hj : j = k
      · subst hj
        dsimp only
        rw [Function.update_self, Function.update_self, Option.map_some]
      · dsimp only
        rw [Function.update_of_ne fun hid => hj (Setting.id_injective hid),
          Function.update_of_ne hj]
        exact hi.setting j
    case bootLength =>
      rw [hboot]
      exact hi.bootLength
    case boots =>
      rw [hboot]
      exact hi.boots

/-- A read finds an item exactly when the variable has a value. -/
theorem Represents.read_pos_iff (hi : Represents fs v) (k : Setting) (fault : Option NvsFault) :
    0 < (nvsRead fs k.id k.len fault).1 ↔ fault = none ∧ v.setting k ≠ none := by
  rw [nvsRead_pos_iff, ← hi.setting k]
  refine and_congr_right fun _ => ?_
  rw [ne_eq, Option.map_eq_none_iff, ← ne_eq, Option.ne_none_iff_exists']
  constructor
  · rintro ⟨item, hitem, -⟩
    exact ⟨item, hitem⟩
  · rintro ⟨item, hitem⟩
    refine ⟨item, hitem, List.ne_nil_of_length_pos ?_⟩
    rw [hi.length k item hitem]
    exact k.len_pos

theorem Represents.get (hi : Represents fs v) (k : Setting) (m : Memory) (addr : ℕ)
    (f : GetFault) : Represents (k.get fs m addr f.read f.write).2 (v.get k f) := by
  simp only [k.get_fs, Variables.get, hi.read_pos_iff]
  split_ifs with hread hwrite
  · exact hi
  · have hw := hi.write k k.restore_length f.write
    rwa [if_pos hwrite] at hw
  · have hw := hi.write k k.restore_length f.write
    rwa [if_neg hwrite] at hw

/-- The object that a getter fills in. -/
theorem Represents.get_load (hi : Represents fs v) (k : Setting) (m : Memory) (addr : ℕ)
    (f : GetFault) :
    (k.get fs m addr f.read f.write).1.load addr k.size = v.read k f.read := by
  rw [← Memory.load_take _ addr k.size_le_len, Variables.read, ← hi.setting k]
  cases hitem : fs k.id with
  | some item =>
    rw [k.get_load hitem (hi.length k item hitem), Option.map_some, Option.getD_some]
    split_ifs <;> rfl
  | none =>
    obtain ⟨m', hget⟩ := settingGet_restored k.restore_length m addr (.inr hitem) f.write
    rw [k.get_eq, hget, Memory.load_store_all _ _ k.restore_length, Option.map_none,
      Option.getD_none, ite_self]
    rfl

/-- A start counts. -/
theorem Represents.boot (hi : Represents fs v) (f : GetFault) :
    Represents (nvsDataInit fs f.read f.write) (v.use lib (.boot f)) := by
  have hset : ∀ k : Setting, nvsDataInit fs f.read f.write k.id = fs k.id :=
    nvsDataInit_setting fs f.read f.write
  have hcount : Memory.loadU32 (Memory.store (fun _ => 0) 0 (nvsRead fs NVS_ID_BOOT_COUNT 4
      f.read).2) 0 = if f.read = none then v.boots.getD 0 else 0 := by
    have hzero : Memory.loadU32 (Memory.store (fun _ => 0) 0 []) 0 = 0 := by decide
    rw [← hi.boots]
    cases hread : f.read with
    | some e => exact hzero
    | none =>
      cases hitem : fs NVS_ID_BOOT_COUNT with
      | none =>
        simp only [nvsRead, hitem]
        exact hzero
      | some item =>
        have hlen := hi.bootLength item hitem
        simp only [nvsRead, hitem]
        rw [Memory.loadU32, List.take_of_length_le hlen.le, Memory.load_store_all _ _ hlen]
        rfl
  cases hwrite : f.write with
  | some e =>
    simp only [Variables.use, hwrite, reduceCtorEq, if_false]
    exact hi
  | none =>
    have hitem : nvsDataInit fs f.read none NVS_ID_BOOT_COUNT = some (leBytes 4
        ((if f.read = none then v.boots.getD 0 else 0) + 1)) := by
      rw [nvsDataInit, nvsWrite_none, Function.update_self, hcount]
    rw [hwrite] at hset
    simp only [Variables.use, hwrite, if_true]
    constructor
    case length =>
      intro k item
      rw [hset k]
      exact hi.length k item
    case setting =>
      intro k
      rw [hset k]
      exact hi.setting k
    case bootLength =>
      intro item hitem'
      rw [hitem] at hitem'
      rw [← Option.some.inj hitem', leBytes_length]
    case boots =>
      rw [hitem, Option.map_some, leNat_leBytes]
      rfl

theorem shellSet_fs (k : Setting) (m : Memory) (addr : ℕ) (fault : Option NvsFault)
    (lines : List (Option (List UInt8))) :
    (shellSet k fs m addr fault lines).fs = (k.set fs m addr fault).2 := by
  simp only [shellSet]
  split_ifs <;> rfl

theorem shellSet_ok_iff (k : Setting) (m : Memory) (addr : ℕ) (fault : Option NvsFault)
    (lines : List (Option (List UInt8))) :
    (shellSet k fs m addr fault lines).ok ↔ (k.set fs m addr fault).1 = 0 := by
  have hok : sprintf "\tOK!\n".toList [] = some (textBytes "\tOK!\n") := by decide
  have hfailed : some (textBytes "\tOK!\n") ∉ [sprintf "\tFailed!\n".toList []] := by decide
  simp only [shellSet]
  split_ifs with hset
  · exact iff_of_true (List.mem_append_right _ (hok ▸ List.mem_singleton_self _)) hset
  · exact iff_of_false hfailed hset

/-- A command refuses a number of arguments, or calls its setter for an object
that holds their value. -/
inductive ShellCommand.Acts (lib : FloatText) (fs : NvsFs) (argv : List (List UInt8))
    (m : Memory) (addr : ℕ) (fault : Option NvsFault) (c : ShellCommand) : Prop where
  | refused : argv.length ∉ c.argc → c.apply lib fs argv m addr fault = fs →
      ¬ c.Ok lib fs argv m addr fault → c.Acts lib fs argv m addr fault
  | called (obj : Memory) : argv.length ∈ c.argc →
      obj.load addr c.setting.size = c.value lib argv →
      c.apply lib fs argv m addr fault = (c.setting.set fs obj addr fault).2 →
      (c.Ok lib fs argv m addr fault ↔ (c.setting.set fs obj addr fault).1 = 0) →
      c.Acts lib fs argv m addr fault

section Acts
variable {argv : List (List UInt8)} {m obj : Memory} {addr : ℕ} {fault : Option NvsFault}
  {c : ShellCommand} {lines : List (Option (List UInt8))}

theorem ShellCommand.Acts.of_shellSet (hargc : argv.length ∈ c.argc)
    (hr : c.run lib fs argv m addr fault = shellSet c.setting fs obj addr fault lines)
    (hobj : obj.load addr c.setting.size = c.value lib argv) :
    c.Acts lib fs argv m addr fault := by
  apply ShellCommand.Acts.called obj hargc hobj
  · rw [ShellCommand.apply, hr]
    exact shellSet_fs _ _ _ _ _
  · rw [ShellCommand.Ok, hr]
    exact shellSet_ok_iff _ _ _ _ _

theorem ShellCommand.Acts.of_badUsage (hargc : argv.length ∉ c.argc)
    (hr : c.run lib fs argv m addr fault = badUsage fs) : c.Acts lib fs argv m addr fault := by
  apply ShellCommand.Acts.refused hargc
  · rw [ShellCommand.apply, hr]
    rfl
  · rw [ShellCommand.Ok, hr]
    exact badUsage_not_ok fs

end Acts

variable (lib fs) (argv : List (List UInt8)) (m : Memory) (addr : ℕ) (fault : Option NvsFault)

theorem cmdWifiConfig_acts : ShellCommand.wificonf.Acts lib fs argv m addr fault := by
  have hargc : argv.length ∈ ShellCommand.wificonf.argc ↔ 2 ≤ argv.length ∧ argv.length ≤ 3 := by
    simp only [ShellCommand.argc, List.mem_cons, List.not_mem_nil, or_false]
    omega
  by_cases hlen : 2 ≤ argv.length ∧ argv.length ≤ 3
  · by_cases hpass : argv.length = 3
    · apply ShellCommand.Acts.of_shellSet (hargc.mpr hlen)
      · simp only [ShellCommand.run, cmdWifiConfig, if_pos hlen, if_pos hpass]
        rfl
      · exact load_wifi_config _ addr _ _
    · have hnone : argv.getD 2 [] = [] := by
        rw [List.getD_eq_getElem?_getD, List.getElem?_eq_none (by omega), Option.getD_none]
      apply ShellCommand.Acts.of_shellSet (hargc.mpr hlen)
      · simp only [ShellCommand.run, cmdWifiConfig, if_pos hlen, if_neg hpass]
        rfl
      · simp only [ShellCommand.value, wifiConfigImage, hnone]
        exact load_zeroed_tail m addr CONFIG_BUFF_MAX_STRING_LEN CONFIG_BUFF_MAX_STRING_LEN
          (strncpy_length (argv.getD 1 []) CONFIG_BUFF_MAX_STRING_LEN)
  · apply ShellCommand.Acts.of_badUsage (hargc.not.mpr hlen)
    simp only [ShellCommand.run, cmdWifiConfig, if_neg hlen]

theorem cmdMqttConfig_acts : ShellCommand.mqttconf.Acts lib fs argv m addr fault := by
  by_cases hargc : argv.length ∈ ShellCommand.mqttconf.argc
  · have hfive : argv.length = 5 := List.mem_singleton.mp hargc
    obtain ⟨cmd, args, rfl⟩ := List.exists_cons_of_length_eq_add_one hfive
    obtain ⟨broker, port, pingPeriod, maxPingNoAnswer, rfl⟩ :=
      List.length_eq_four.mp (Nat.succ.inj hfive)
    apply ShellCommand.Acts.of_shellSet hargc rfl
    exact load_mqtt_config _ addr (strtoul port) (strtoul pingPeriod) (strtoul maxPingNoAnswer)
      (strncpy_length broker CONFIG_BUFF_MAX_STRING_LEN)
  · apply ShellCommand.Acts.of_badUsage hargc
    simp only [ShellCommand.run, cmdMqttConfig]
    split
    · exact absurd (List.mem_singleton_self _) hargc
    · rfl

theorem cmdWlabId_acts : ShellCommand.wlabid.Acts lib fs argv m addr fault := by
  have hargc : argv.length ∈ ShellCommand.wlabid.argc ↔ 1 ≤ argv.length ∧ argv.length ≤ 2 := by
    simp only [ShellCommand.argc, List.mem_cons, List.not_mem_nil, or_false]
    omega
  by_cases hlen : 1 ≤ argv.length ∧ argv.length ≤ 2
  · by_cases htwo : argv.length = 2
    · apply ShellCommand.Acts.of_shellSet (hargc.mpr hlen)
      · simp only [ShellCommand.run, cmdWlabId, if_pos hlen, if_pos htwo]
        rfl
      · simp only [ShellCommand.value, deviceIdImage, wlabIdOf, if_pos htwo]
        exact Memory.load_store_all _ addr (leBytes_length _ _)
    · apply ShellCommand.Acts.of_shellSet (hargc.mpr hlen)
      · simp only [ShellCommand.run, cmdWlabId, if_pos hlen, if_neg htwo]
        rfl
      · simp only [ShellCommand.value, deviceIdImage, wlabIdOf, if_neg htwo]
        exact Memory.load_store_all _ addr (leBytes_length _ _)
  · apply ShellCommand.Acts.of_badUsage (hargc.not.mpr hlen)
    simp only [ShellCommand.run, cmdWlabId, if_neg hlen]

theorem cmdWlabName_acts : ShellCommand.wlabname.Acts lib fs argv m addr fault := by
  by_cases hargc : argv.length ∈ ShellCommand.wlabname.argc
  · obtain ⟨cmd, name, rfl⟩ : ∃ a b, argv = [a, b] :=
      List.length_eq_two.mp (List.mem_singleton.mp hargc)
    apply ShellCommand.Acts.of_shellSet hargc rfl
    exact Memory.load_store_all _ addr (strncpy_length _ _)
  · apply ShellCommand.Acts.of_badUsage hargc
    simp only [ShellCommand.run, cmdWlabName]
    split
    · exact absurd (List.mem_singleton_self _) hargc
    · rfl

theorem cmdWlabGpsPosition_acts : ShellCommand.wlabgpsp.Acts lib fs argv m addr fault := by
  by_cases hargc : argv.length ∈ ShellCommand.wlabgpsp.argc
  · obtain ⟨cmd, timezone, latitude, longitude, rfl⟩ : ∃ a b c d, argv = [a, b, c, d] :=
      List.length_eq_four.mp (List.mem_singleton.mp hargc)
    apply ShellCommand.Acts.of_shellSet hargc rfl
    exact load_gps_position _ addr _ _ timezone
  · apply ShellCommand.Acts.of_badUsage hargc
    simp only [ShellCommand.run, cmdWlabGpsPosition]
    split
    · exact absurd (List.mem_singleton_self _) hargc
    · rfl

/-- The setter of the period takes four bytes more than its object has. -/
theorem cmdWlabPublishPeriod_acts : ShellCommand.wlabpubp.Acts lib fs argv m addr fault := by
  by_cases hargc : argv.length ∈ ShellCommand.wlabpubp.argc
  · obtain ⟨cmd, period, rfl⟩ : ∃ a b, argv = [a, b] :=
      List.length_eq_two.mp (List.mem_singleton.mp hargc)
    apply ShellCommand.Acts.of_shellSet hargc rfl
    exact Memory.load_store_all m addr (leBytes_length 4 (strtoul period))
  · apply ShellCommand.Acts.of_badUsage hargc
    simp only [ShellCommand.run, cmdWlabPublishPeriod]
    split
    · exact absurd (List.mem_singleton_self _) hargc
    · rfl

theorem shell_command_acts (c : ShellCommand) : c.Acts lib fs argv m addr fault := by
  cases c with
  | wificonf => exact cmdWifiConfig_acts lib fs argv m addr fault
  | mqttconf => exact cmdMqttConfig_acts lib fs argv m addr fault
  | wlabid => exact cmdWlabId_acts lib fs argv m addr fault
  | wlabname => exact cmdWlabName_acts lib fs argv m addr fault
  | wlabpubp => exact cmdWlabPublishPeriod_acts lib fs argv m addr fault
  | wlabgpsp => exact cmdWlabGpsPosition_acts lib fs argv m addr fault

variable {lib fs argv m addr fault}

theorem Setting.set_ok_iff (k : Setting) :
    (k.set fs m addr fault).1 = 0 ↔ fault = none ∧ fs k.id ≠ some (m.load addr k.len) := by
  have hret : ¬ - EIO = 0 := by decide
  rcases k.set_cases fs m addr fault with ⟨hset, hok⟩ | ⟨hset, hsame⟩
  · rw [hset]
    exact iff_of_true rfl hok
  · rw [hset]
    exact iff_of_false hret fun h => h.2 (hsame h.1)

theorem Represents.command (hi : Represents fs v) (c : ShellCommand) :
    Represents (c.apply lib fs argv m addr fault) (v.use lib (.command c argv m addr fault)) := by
  cases shell_command_acts lib fs argv m addr fault c with
  | refused hargc hfs hno =>
    rw [hfs, Variables.use, if_neg fun h => hargc h.1]
    exact hi
  | called obj hargc hobj hfs hok =>
    have hset : (c.setting.set fs obj addr fault).2 =
        (nvsWrite fs c.setting.id (obj.load addr c.setting.len) fault).2 := by
      rw [c.setting.set_eq]
      rfl
    have hw := hi.write c.setting (obj.load_length addr c.setting.len) fault
    rw [Memory.load_take _ addr c.setting.size_le_len, hobj] at hw
    simpa only [hfs, hset, Variables.use, hargc, true_and] using hw

/-- A value that is new is accepted, and one that is set already is answered like a
failure of the flash. -/
theorem Represents.answer (hi : Represents fs v) (c : ShellCommand) :
    (c.Ok lib fs argv m addr fault → argv.length ∈ c.argc ∧ fault = none ∧
      (c ≠ .wlabpubp → v.setting c.setting ≠ some (c.value lib argv))) ∧
    (argv.length ∈ c.argc → fault = none → v.setting c.setting ≠ some (c.value lib argv) →
      c.Ok lib fs argv m addr fault) := by
  cases shell_command_acts lib fs argv m addr fault c with
  | refused hargc hfs hno => exact ⟨fun hok => absurd hok hno, fun h => absurd h hargc⟩
  | called obj hargc hobj hfs hok =>
    rw [hok, c.setting.set_ok_iff, ← hi.setting c.setting, ← hobj,
      ← Memory.load_take _ addr c.setting.size_le_len]
    constructor
    · rintro ⟨hfault, hnew⟩
      refine ⟨hargc, hfault, fun hc hsame => ?_⟩
      obtain ⟨item, hitem, htake⟩ := Option.map_eq_some_iff.mp hsame
      have hsize : c.setting.size = c.setting.len := by
        cases c <;> first | rfl | exact absurd rfl hc
      have hlen := hi.length c.setting item hitem
      rw [hsize, List.take_of_length_le hlen.le,
        List.take_of_length_le (obj.load_length addr c.setting.len).le] at htake
      exact hnew (htake ▸ hitem)
    · refine fun _ hfault hnew => ⟨hfault, fun hitem => hnew ?_⟩
      rw [hitem, Option.map_some]

/-- A getter writes the bytes of its transfer only. -/
theorem Setting.get_load_outside (k : Setting) {a n : ℕ} {f : GetFault}
    (ha : a + n ≤ addr ∨ addr + k.len ≤ a) :
    (k.get fs m addr f.read f.write).1.load a n = m.load a n := by
  apply List.map_congr_left
  intro i hi
  rw [List.mem_range] at hi
  exact k.get_outside fs m addr f.read f.write (by omega)

/-- Getters one after the other. -/
def getAll (frame : Setting → ℕ) (f : Setting → GetFault) (ks : List Setting)
    (r : Memory × NvsFs) : Memory × NvsFs :=
  ks.foldl (fun r k => k.get r.2 r.1 (frame k) (f k).read (f k).write) r

/-- No getter writes into the object of another one. -/
def Apart (frame : Setting → ℕ) : Prop :=
  ∀ j k : Setting, j ≠ k → frame j + j.size ≤ frame k ∨ frame k + k.len ≤ frame j

variable {frame : Setting → ℕ} {f : Setting → GetFault}

theorem getAll_represents (ks : List Setting) (r : Memory × NvsFs) (hi : Represents r.2 v) :
    Represents (getAll frame f ks r).2 (ks.foldl (fun v k => v.get k (f k)) v) := by
  apply List.foldl_rel (r := fun (r : Memory × NvsFs) v => Represents r.2 v) hi
  intro k _ r v hi
  exact hi.get k r.1 (frame k) (f k)

theorem getAll_other (hframe : Apart frame) {k : Setting} {ks : List Setting} (hk : k ∉ ks)
    (r : Memory × NvsFs) :
    (getAll frame f ks r).1.load (frame k) k.size = r.1.load (frame k) k.size := by
  induction ks generalizing r with
  | nil => rfl
  | cons j ks ih =>
    obtain ⟨hj, hks⟩ := List.ne_and_not_mem_of_not_mem_cons hk
    rw [getAll, List.foldl_cons, ← getAll, ih hks]
    exact j.get_load_outside (hframe k j hj)

theorem Variables.get_setting (v : Variables) {j k : Setting} (hjk : k ≠ j) (f : GetFault) :
    (v.get j f).setting k = v.setting k := by
  unfold Variables.get
  split_ifs
  · rfl
  · exact Function.update_of_ne hjk _ _
  · rfl

/-- Each object holds in the end what its own getter delivered. -/
theorem getAll_load (hframe : Apart frame) {ks : List Setting} (hks : ks.Nodup)
    (r : Memory × NvsFs) (hi : Represents r.2 v) {k : Setting} (hk : k ∈ ks) :
    (getAll frame f ks r).1.load (frame k) k.size = v.read k (f k).read := by
  induction ks generalizing r v with
  | nil => cases hk
  | cons j ks ih =>
    obtain ⟨hj, hnodup⟩ := List.nodup_cons.mp hks
    rw [getAll, List.foldl_cons, ← getAll]
    by_cases hkj : k = j
    · subst hkj
      rw [getAll_other hframe hj]
      exact hi.get_load k r.1 (frame k) (f k)
    · have hmem := (List.mem_cons.mp hk).resolve_left hkj
      rw [ih hnodup _ (hi.get j r.1 (frame j) (f j)) hmem, Variables.read, Variables.read,
        v.get_setting hkj]

/-- One use of the flash, and the same use of the variables. -/
theorem Represents.use (lib : FloatText) (hi : Represents fs v) (u : ShellUse) :
    Represents (u.apply lib fs) (v.use lib u) := by
  cases u with
  | command c argv m addr fault => exact hi.command c
  | pconfig m frame f => exact getAll_represents pconfigOrder (_, fs) hi
  | get k m addr f => exact hi.get k m addr f
  | boot f => exact hi.boot f

/-- A start counts itself and leaves the settings. -/
theorem Variables.boot_read (lib : FloatText) (v : Variables) (g : GetFault) (k : Setting)
    (fault : Option NvsFault) : (v.use lib (.boot g)).read k fault = v.read k fault := by
  simp only [Variables.use]
  split_ifs <;> rfl

/-- What a start finds in the two objects of `main`. -/
theorem Represents.mainNetConfig_eq (hi : Represents fs v) (m : Memory) (wificfg mqttcfg : ℕ)
    (f : StartFaults) : mainNetConfig fs m wificfg mqttcfg f =
      ⟨v.read .wifiConfig f.wifiRead, v.read .mqttConfig f.mqttRead⟩ := by
  let m' := (m.store wificfg (List.replicate wifiConfigLen 0)).store mqttcfg
    (List.replicate mqttConfigLen 0)
  let booted := nvsDataInit fs f.bootRead f.bootWrite
  have hboot : Represents booted (v.use zeroCoordinates (.boot ⟨f.bootRead, f.bootWrite⟩)) :=
    hi.boot ⟨f.bootRead, f.bootWrite⟩
  have hwifi := hboot.get_load .wifiConfig m' wificfg ⟨f.wifiRead, f.wifiWrite⟩
  have hmqtt := (hboot.get .wifiConfig m' wificfg ⟨f.wifiRead, f.wifiWrite⟩).get_load .mqttConfig
    (Setting.wifiConfig.get booted m' wificfg f.wifiRead f.wifiWrite).1 mqttcfg
    ⟨f.mqttRead, f.mqttWrite⟩
  rw [Variables.boot_read] at hwifi
  rw [Variables.read, Variables.get_setting _ (by decide), ← Variables.read,
    Variables.boot_read] at hmqtt
  rw [← hwifi, ← hmqtt]
  rfl

theorem Represents.deliveredPeriod_eq (hi : Represents fs v) (m : Memory) (addr : ℕ)
    (g : GetFault) : deliveredPeriod fs m addr g.read g.write =
      leNat (v.read .wlabPubPeriod g.read) := by
  rw [← hi.get_load .wlabPubPeriod m addr g]
  rfl

end Refinement

def erased : NvsFs := fun _ => none

/-- The flash and the variables after a history that begins on an erased flash. -/
def flashAfter (lib : FloatText) (uses : List ShellUse) : NvsFs :=
  uses.foldl (ShellUse.apply lib) erased

def variablesAfter (lib : FloatText) (uses : List ShellUse) : Variables :=
  uses.foldl (Variables.use lib) ⟨fun _ => none, none⟩

theorem flash_represents (lib : FloatText) (uses : List ShellUse) :
    Represents (flashAfter lib uses) (variablesAfter lib uses) := by
  apply List.foldl_rel (r := Represents)
  · constructor
    case length => exact fun k item hitem => nomatch hitem
    case setting => exact fun k => rfl
    case bootLength => exact fun item hitem => nomatch hitem
    case boots => rfl
  · intro u _ fs v hi
    exact hi.use lib u

/-- For every history of commands, getters and starts, however the flash failed,
`pconfig` prints the variables. -/
theorem pconfig_prints_settings (lib : FloatText) (uses : List ShellUse) (m : Memory)
    {frame : Setting → ℕ} (hframe : Apart frame) (f : Setting → GetFault) :
    (cmdPconfig lib (flashAfter lib uses) m frame f).output =
      pconfigLines lib fun k => (variablesAfter lib uses).read k (f k).read := by
  have hi := flash_represents lib uses
  have hnodup : pconfigOrder.Nodup := by decide
  have hall : ∀ k, k ∈ pconfigOrder := by
    intro k
    cases k <;> decide
  obtain ⟨m', hout⟩ : ∃ m', (cmdPconfig lib (flashAfter lib uses) m frame f).output =
      pconfigLines lib fun k =>
        (getAll frame f pconfigOrder (m', flashAfter lib uses)).1.load (frame k) k.size := ⟨_, rfl⟩
  rw [hout]
  refine congrArg (pconfigLines lib) (funext fun k => ?_)
  exact getAll_load hframe hnodup (m', flashAfter lib uses) hi (hall k)

/-- The locals of `cmd_pconfig` one behind the other, the period last. -/
def someFrame : Setting → ℕ
  | .wifiConfig => 0
  | .mqttConfig => 96
  | .wlabGpsPosition => 156
  | .wlabName => 212
  | .wlabDeviceId => 260
  | .wlabPubPeriod => 268

/-- A name is set twice, with a start in between. -/
def someHistory : List ShellUse :=
  [.boot ⟨none, none⟩,
    .command .wlabname [textBytes "wlabname", textBytes "Kitchen"] (fun _ => 170) 16 none,
    .command .wlabpubp [textBytes "wlabpubp", textBytes "10"] (fun _ => 170) 16 none,
    .boot ⟨none, none⟩, .pconfig (fun _ => 0) someFrame fun _ => ⟨none, none⟩,
    .command .wlabname [textBytes "wlabname", textBytes "Kitchen"] (fun _ => 0) 64 none]

theorem pconfig_prints_kitchen :
    ((cmdPconfig zeroCoordinates (flashAfter zeroCoordinates someHistory) (fun _ => 170) someFrame
      fun _ => ⟨none, none⟩).output.drop 10) =
      [some (textBytes "pub_period: 10 [mins]\n"), some (textBytes "wlab_name: <Kitchen>\n")] := by
  have hframe : Apart someFrame := by
    intro j k hjk
    cases j <;> cases k <;> first | exact absurd rfl hjk | decide
  rw [pconfig_prints_settings zeroCoordinates someHistory _ hframe]
  decide +kernel

/-- A command is answered with `OK!` when nothing is wrong and its value is not the
one that is set already. Only the setter of the period, which also takes the bytes
behind its object, may answer so for the same value. -/
theorem shell_answers (lib : FloatText) (uses : List ShellUse) (c : ShellCommand)
    (argv : List (List UInt8)) (m : Memory) (addr : ℕ) (fault : Option NvsFault) :
    (c.Ok lib (flashAfter lib uses) argv m addr fault → argv.length ∈ c.argc ∧ fault = none ∧
      (c ≠ .wlabpubp → (variablesAfter lib uses).setting c.setting ≠ some (c.value lib argv))) ∧
    (argv.length ∈ c.argc → fault = none →
      (variablesAfter lib uses).setting c.setting ≠ some (c.value lib argv) →
      c.Ok lib (flashAfter lib uses) argv m addr fault) :=
  (flash_represents lib uses).answer c

/-- A start whose counter is written. -/
def ShellUse.counts : ShellUse → Bool
  | .boot f => f.write.isNone
  | _ => false

/-- A start that reads its counter. -/
def ShellUse.ReadsCounter : ShellUse → Prop
  | .boot f => f.read = none
  | _ => True

theorem Variables.get_boots (v : Variables) (k : Setting) (f : GetFault) :
    (v.get k f).boots = v.boots := by
  unfold Variables.get
  split_ifs <;> rfl

theorem Variables.use_boots (lib : FloatText) (v : Variables) {u : ShellUse}
    (hread : u.ReadsCounter) : (v.use lib u).boots =
      if u.counts then some ((v.boots.getD 0 + 1) % 2 ^ 32) else v.boots := by
  cases u with
  | command c argv m addr fault =>
    simp only [Variables.use, ShellUse.counts, Bool.false_eq_true, if_false]
    split_ifs <;> rfl
  | pconfig m frame f =>
    have hall : ∀ ks : List Setting, (ks.foldl (fun v k => v.get k (f k)) v).boots = v.boots := by
      intro ks
      induction ks using List.reverseRecOn with
      | nil => rfl
      | append_singleton ks k ih => rw [List.foldl_concat, Variables.get_boots, ih]
    exact hall pconfigOrder
  | get k m addr f => exact v.get_boots k f
  | boot f =>
    have hf : f.read = none := hread
    cases hwrite : f.write <;> simp [Variables.use, ShellUse.counts, hf, hwrite]

/-- The counter stays the number of the starts that could write it. -/
theorem boots_counted (lib : FloatText) {uses : List ShellUse}
    (hread : ∀ u ∈ uses, u.ReadsCounter) :
    (flashAfter lib uses NVS_ID_BOOT_COUNT).map leNat =
      if uses.countP ShellUse.counts = 0 then none
      else some (uses.countP ShellUse.counts % 2 ^ 32) := by
  rw [(flash_represents lib uses).boots]
  induction uses using List.reverseRecOn with
  | nil => rfl
  | append_singleton uses u ih =>
    have hbefore := ih fun x hx => hread x (List.mem_append_left _ hx)
    have hu := hread u (List.mem_append_right _ (List.mem_singleton_self _))
    rw [variablesAfter, List.foldl_concat, Variables.use_boots lib _ hu, ← variablesAfter,
      hbefore, List.countP_append, List.countP_singleton]
    cases u.counts with
    | false => rfl
    | true =>
      simp only [if_true, Nat.succ_ne_zero, if_false]
      split_ifs with hzero
      · rw [hzero]
        rfl
      · rw [Option.getD_some, Nat.mod_add_mod]

theorem two_boots_counted : (flashAfter zeroCoordinates someHistory NVS_ID_BOOT_COUNT).map leNat =
    some 2 := by
  have hread : ∀ u ∈ someHistory, u.ReadsCounter := by
    simp [someHistory, ShellUse.ReadsCounter]
  rw [boots_counted zeroCoordinates hread]
  decide

end WlabStation.Settings
