import WlabStation.Settings.Commands
import WlabStation.Settings.PublishPeriod

/-! The shell commands that set the Wi-Fi credentials and the broker, and what
`main` reads of them after a restart. -/
namespace WlabStation.Settings

/-- `cmd_wifi_config`, with its local `wificfg` at `addr`. -/
def cmdWifiConfig (fs : NvsFs) (argv : List (List UInt8)) (m : Memory) (addr : ℕ)
    (fault : Option NvsFault) : ShellResult :=
  if 2 ≤ argv.length ∧ argv.length ≤ 3 then
    let m := m.store addr (List.replicate wifiConfigLen 0)
    let m := m.store addr (strncpy (argv.getD 1 []) CONFIG_BUFF_MAX_STRING_LEN)
    let m := if argv.length = 3 then
        m.store (addr + CONFIG_BUFF_MAX_STRING_LEN)
          (strncpy (argv.getD 2 []) CONFIG_BUFF_MAX_STRING_LEN)
      else m
    let wificfg := m.load addr wifiConfigLen
    shellSet .wifiConfig fs m addr fault
      [sprintf "wifi_ssid: <%s>\n".toList [.chars wificfg],
        sprintf "wifi_pass: <%s>\n".toList [.chars (wificfg.drop CONFIG_BUFF_MAX_STRING_LEN)]]
  else badUsage fs

/-- The members of `struct mqtt_config` in its bytes. -/
def mqttBroker (cfg : List UInt8) : List UInt8 := cfg.take CONFIG_BUFF_MAX_STRING_LEN

def mqttPort (cfg : List UInt8) : ℕ := leNat ((cfg.drop CONFIG_BUFF_MAX_STRING_LEN).take 4)

def mqttPingPeriod (cfg : List UInt8) : ℕ :=
  leNat ((cfg.drop (CONFIG_BUFF_MAX_STRING_LEN + 4)).take 4)

def mqttMaxPingNoAnswer (cfg : List UInt8) : ℕ :=
  leNat ((cfg.drop (CONFIG_BUFF_MAX_STRING_LEN + 8)).take 4)

/-- `cmd_mqtt_config`, with its local `mqttcfg` at `addr`. -/
def cmdMqttConfig (fs : NvsFs) (argv : List (List UInt8)) (m : Memory) (addr : ℕ)
    (fault : Option NvsFault) : ShellResult :=
  match argv with
  | [_, broker, port, pingPeriod, maxPingNoAnswer] =>
      let m := m.store addr (List.replicate mqttConfigLen 0)
      let m := m.store addr (strncpy broker CONFIG_BUFF_MAX_STRING_LEN)
      let m := m.storeU32 (addr + CONFIG_BUFF_MAX_STRING_LEN) (strtoul port)
      let m := m.storeU32 (addr + (CONFIG_BUFF_MAX_STRING_LEN + 4)) (strtoul pingPeriod)
      let m := m.storeU32 (addr + (CONFIG_BUFF_MAX_STRING_LEN + 4 + 4)) (strtoul maxPingNoAnswer)
      let mqttcfg := m.load addr mqttConfigLen
      shellSet .mqttConfig fs m addr fault
        [sprintf "\tmqtt_broker: <%s>\n".toList [.chars mqttcfg],
          sprintf "\tmqtt_port: %u\n".toList [.word (mqttPort mqttcfg)],
          sprintf "\tmqtt_ping_period: %u [secs]\n".toList [.word (mqttPingPeriod mqttcfg)],
          sprintf "\tmqtt_max_ping_no_answer: %u [mins]\n".toList
            [.word (mqttMaxPingNoAnswer mqttcfg)]]
  | _ => badUsage fs

/-- The `struct wifi_config` of arguments; a password that is missing is empty. -/
def wifiConfigImage (argv : List (List UInt8)) : List UInt8 :=
  strncpy (argv.getD 1 []) CONFIG_BUFF_MAX_STRING_LEN ++
    strncpy (argv.getD 2 []) CONFIG_BUFF_MAX_STRING_LEN

/-- The `struct mqtt_config` of arguments. -/
def mqttConfigImage (argv : List (List UInt8)) : List UInt8 :=
  strncpy (argv.getD 1 []) CONFIG_BUFF_MAX_STRING_LEN ++ leBytes 4 (strtoul (argv.getD 2 [])) ++
    leBytes 4 (strtoul (argv.getD 3 [])) ++ leBytes 4 (strtoul (argv.getD 4 []))

/-- A shell command that replaces the item of one setting by an image of its arguments. -/
structure SettingCommand where
  setting : Setting
  cmd : NvsFs → List (List UInt8) → Memory → ℕ → Option NvsFault → ShellResult
  image : List (List UInt8) → List UInt8
  image_length : ∀ argv, (image argv).length = setting.len
  cases : ∀ fs argv m addr fault,
    ((cmd fs argv m addr fault).ok ∧
      (cmd fs argv m addr fault).fs = Function.update fs setting.id (some (image argv))) ∨
    (¬ (cmd fs argv m addr fault).ok ∧ (cmd fs argv m addr fault).fs = fs)

theorem wifiConfigImage_length (argv : List (List UInt8)) :
    (wifiConfigImage argv).length = wifiConfigLen := by
  rw [wifiConfigImage, List.length_append, strncpy_length, strncpy_length]
  rfl

theorem mqttConfigImage_length (argv : List (List UInt8)) :
    (mqttConfigImage argv).length = mqttConfigLen := by
  simp only [mqttConfigImage, List.length_append, strncpy_length, leBytes_length]
  rfl

/-- The second member of a zeroed object, of which only the first was filled in. -/
theorem load_zeroed_tail (m : Memory) (addr k n : ℕ) {bytes : List UInt8}
    (hbytes : bytes.length = k) :
    ((m.store addr (List.replicate (k + n) 0)).store addr bytes).load addr (k + n) =
      bytes ++ List.replicate n 0 := by
  have hzero := m.load_store_all addr (List.length_replicate (n := k + n) (a := (0 : UInt8)))
  rw [Memory.load_append, List.replicate_add] at hzero
  have htail := List.append_inj_right hzero (by rw [Memory.load_length, List.length_replicate])
  rw [← List.replicate_add] at htail
  rw [Memory.load_append, Memory.load_store_all _ addr hbytes,
    Memory.load_store_outside _ (by rw [hbytes]; omega), htail]

/-- The members of a filled in `struct wifi_config`. -/
theorem load_wifi_config (m : Memory) (addr : ℕ) (ssid pass : List UInt8) :
    ((m.store addr (strncpy ssid CONFIG_BUFF_MAX_STRING_LEN)).store
      (addr + CONFIG_BUFF_MAX_STRING_LEN) (strncpy pass CONFIG_BUFF_MAX_STRING_LEN)).load addr
        wifiConfigLen =
      strncpy ssid CONFIG_BUFF_MAX_STRING_LEN ++ strncpy pass CONFIG_BUFF_MAX_STRING_LEN :=
  Memory.load_store_next (m.load_store_all addr (strncpy_length _ _)) (strncpy_length _ _)

/-- Accepted credentials are stored; otherwise the flash stays as it is. -/
theorem cmdWifiConfig_cases (fs : NvsFs) (argv : List (List UInt8)) (m : Memory) (addr : ℕ)
    (fault : Option NvsFault) :
    ((cmdWifiConfig fs argv m addr fault).ok ∧ (cmdWifiConfig fs argv m addr fault).fs =
      Function.update fs NVS_ID_WIFI_CONFIG (some (wifiConfigImage argv))) ∨
    (¬ (cmdWifiConfig fs argv m addr fault).ok ∧ (cmdWifiConfig fs argv m addr fault).fs = fs) := by
  by_cases hargc : 2 ≤ argv.length ∧ argv.length ≤ 3
  · by_cases hpass : argv.length = 3
    · have hload := load_wifi_config (m.store addr (List.replicate wifiConfigLen 0)) addr
        (argv.getD 1 []) (argv.getD 2 [])
      simp only [cmdWifiConfig, if_pos hargc, if_pos hpass]
      rw [wifiConfigImage, ← hload]
      exact shellSet_cases .wifiConfig fs _ addr fault _
    · have hlen : argv.length ≤ 2 := by omega
      have hnone : argv.getD 2 [] = [] := by
        rw [List.getD_eq_getElem?_getD, List.getElem?_eq_none hlen, Option.getD_none]
      have hload := load_zeroed_tail m addr CONFIG_BUFF_MAX_STRING_LEN CONFIG_BUFF_MAX_STRING_LEN
        (strncpy_length (argv.getD 1 []) CONFIG_BUFF_MAX_STRING_LEN)
      simp only [cmdWifiConfig, if_pos hargc, if_neg hpass]
      rw [wifiConfigImage, hnone]
      have hempty : strncpy [] CONFIG_BUFF_MAX_STRING_LEN =
          List.replicate CONFIG_BUFF_MAX_STRING_LEN 0 := rfl
      rw [hempty, ← hload]
      exact shellSet_cases .wifiConfig fs _ addr fault _
  · simp only [cmdWifiConfig, if_neg hargc]
    exact .inr ⟨badUsage_not_ok fs, rfl⟩

/-- The members of a filled in `struct mqtt_config`. -/
theorem load_mqtt_config (m : Memory) (addr port pingPeriod maxPingNoAnswer : ℕ)
    {broker : List UInt8} (hbroker : broker.length = CONFIG_BUFF_MAX_STRING_LEN) :
    ((((m.store addr broker).storeU32 (addr + CONFIG_BUFF_MAX_STRING_LEN) port).storeU32
      (addr + (CONFIG_BUFF_MAX_STRING_LEN + 4)) pingPeriod).storeU32
        (addr + (CONFIG_BUFF_MAX_STRING_LEN + 4 + 4)) maxPingNoAnswer).load addr mqttConfigLen =
      broker ++ leBytes 4 port ++ leBytes 4 pingPeriod ++ leBytes 4 maxPingNoAnswer := by
  have hone := m.load_store_all addr hbroker
  have htwo := Memory.load_store_next hone (leBytes_length 4 port)
  have hthree := Memory.load_store_next htwo (leBytes_length 4 pingPeriod)
  exact Memory.load_store_next hthree (leBytes_length 4 maxPingNoAnswer)

/-- An accepted broker is stored; otherwise the flash stays as it is. -/
theorem cmdMqttConfig_cases (fs : NvsFs) (argv : List (List UInt8)) (m : Memory) (addr : ℕ)
    (fault : Option NvsFault) :
    ((cmdMqttConfig fs argv m addr fault).ok ∧ (cmdMqttConfig fs argv m addr fault).fs =
      Function.update fs NVS_ID_MQTT_CONFIG (some (mqttConfigImage argv))) ∨
    (¬ (cmdMqttConfig fs argv m addr fault).ok ∧ (cmdMqttConfig fs argv m addr fault).fs = fs) := by
  match argv with
  | [] => exact .inr ⟨badUsage_not_ok fs, rfl⟩
  | [_] => exact .inr ⟨badUsage_not_ok fs, rfl⟩
  | [_, _] => exact .inr ⟨badUsage_not_ok fs, rfl⟩
  | [_, _, _] => exact .inr ⟨badUsage_not_ok fs, rfl⟩
  | [_, _, _, _] => exact .inr ⟨badUsage_not_ok fs, rfl⟩
  | _ :: _ :: _ :: _ :: _ :: _ :: _ => exact .inr ⟨badUsage_not_ok fs, rfl⟩
  | [cmd, broker, port, pingPeriod, maxPingNoAnswer] =>
    have hload := load_mqtt_config (m.store addr (List.replicate mqttConfigLen 0)) addr
      (strtoul port) (strtoul pingPeriod) (strtoul maxPingNoAnswer)
      (strncpy_length broker CONFIG_BUFF_MAX_STRING_LEN)
    have himage : mqttConfigImage [cmd, broker, port, pingPeriod, maxPingNoAnswer] = _ := hload.symm
    rw [himage]
    exact shellSet_cases .mqttConfig fs _ addr fault _

/-- The command `wificonf`. -/
def wificonf : SettingCommand where
  setting := .wifiConfig
  cmd := cmdWifiConfig
  image := wifiConfigImage
  image_length := wifiConfigImage_length
  cases := cmdWifiConfig_cases

/-- The command `mqttconf`. -/
def mqttconf : SettingCommand where
  setting := .mqttConfig
  cmd := cmdMqttConfig
  image := mqttConfigImage
  image_length := mqttConfigImage_length
  cases := cmdMqttConfig_cases

end WlabStation.Settings
