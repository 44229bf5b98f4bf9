import WlabStation.Settings.NetCommands

/-! What a start of the station finds of the arguments that a setting command
accepted last: `nvs_data_init` and the two getters that `main` calls. -/
namespace WlabStation.Settings

def NVS_ID_BOOT_COUNT : ℕ := 1

/-- `nvs_data_init`: the boot counter, 0 at first, is incremented. -/
def nvsDataInit (fs : NvsFs) (readFault writeFault : Option NvsFault) : NvsFs :=
  let r := nvsRead fs NVS_ID_BOOT_COUNT 4 readFault
  let bootCounter := Memory.store (fun _ => 0) 0 r.2
  (nvsWrite fs NVS_ID_BOOT_COUNT (leBytes 4 (bootCounter.loadU32 0 + 1)) writeFault).2

/-- Uses of the store: a command for the setting `k`, the setters of the other
settings, all getters, and starts. -/
inductive SettingUse (k : Setting) where
  | command (argv : List (List UInt8)) (m : Memory) (addr : ℕ) (fault : Option NvsFault)
  | set (j : Setting) (hj : j ≠ k) (m : Memory) (addr : ℕ) (fault : Option NvsFault)
  | get (j : Setting) (m : Memory) (addr : ℕ) (readFault writeFault : Option NvsFault)
  | boot (readFault writeFault : Option NvsFault)

/-- Nothing but the command sets its setting. Accepted arguments are observed. -/
def SettingCommand.store (c : SettingCommand) :
    Machine NvsFs (SettingUse c.setting) (List (List UInt8)) where
  step fs
    | .command argv m addr fault =>
        let r := c.cmd fs argv m addr fault
        some (if r.ok then [argv] else [], r.fs)
    | .set j _ m addr fault => some ([], (j.set fs m addr fault).2)
    | .get j m addr readFault writeFault => some ([], (j.get fs m addr readFault writeFault).2)
    | .boot readFault writeFault => some ([], nvsDataInit fs readFault writeFault)

/-- The arguments accepted last are stored, or a getter has restored the default. -/
def SettingCommand.Holds (c : SettingCommand) (h : List (List (List UInt8))) (fs : NvsFs) :
    Prop :=
  ∀ argv, h.getLast? = some argv →
    fs c.setting.id = some (c.image argv) ∨ fs c.setting.id = some c.setting.restore

/-- Where the flash fails while `main` starts. -/
structure StartFaults where
  bootRead : Option NvsFault
  bootWrite : Option NvsFault
  wifiRead : Option NvsFault
  wifiWrite : Option NvsFault
  mqttRead : Option NvsFault
  mqttWrite : Option NvsFault

def StartFaults.none : StartFaults := ⟨.none, .none, .none, .none, .none, .none⟩

/-- The objects `wificfg` and `mqttcfg` of `main`, in their bytes. -/
structure NetConfig where
  wificfg : List UInt8
  mqttcfg : List UInt8

/-- `main` up to the second getter, with its two objects at these addresses. -/
def mainNetConfig (fs : NvsFs) (m : Memory) (wificfg mqttcfg : ℕ) (f : StartFaults) : NetConfig :=
  let m := m.store wificfg (List.replicate wifiConfigLen 0)
  let m := m.store mqttcfg (List.replicate mqttConfigLen 0)
  let fs := nvsDataInit fs f.bootRead f.bootWrite
  let w := nvsDataWifiConfigGet fs m wificfg f.wifiRead f.wifiWrite
  let q := nvsDataMqttConfigGet w.2 w.1 mqttcfg f.mqttRead f.mqttWrite
  ⟨w.1.load wificfg wifiConfigLen, q.1.load mqttcfg mqttConfigLen⟩

/-- No setting has the id of the boot counter. -/
theorem nvsDataInit_setting (fs : NvsFs) (readFault writeFault : Option NvsFault) (k : Setting) :
    nvsDataInit fs readFault writeFault k.id = fs k.id := by
  have hid : k.id ≠ NVS_ID_BOOT_COUNT := by
    cases k <;> decide
  exact nvsWrite_other fs hid _ writeFault

theorem SettingCommand.Holds.of_item {c : SettingCommand} {h : List (List (List UInt8))}
    {fs fs' : NvsFs} (hh : c.Holds h fs) (hitem : fs' c.setting.id = fs c.setting.id ∨
      fs' c.setting.id = some c.setting.restore) : c.Holds h fs' := by
  intro argv hlast
  rcases hitem with hsame | hrestored
  · rw [hsame]
    exact hh argv hlast
  · exact .inr hrestored

theorem SettingCommand.Holds.step {c : SettingCommand} {h es : List (List (List UInt8))}
    {fs fs' : NvsFs} {use : SettingUse c.setting} (hh : c.Holds h fs)
    (hs : c.store.step fs use = some (es, fs')) : c.Holds (h ++ es) fs' := by
  cases use with
  | command argv m addr fault =>
    obtain ⟨rfl, rfl⟩ := Prod.mk.inj (Option.some.inj hs)
    rcases c.cases fs argv m addr fault with ⟨hok, hfs⟩ | ⟨hno, hfs⟩
    · rw [if_pos hok, hfs]
      intro last hlast
      rw [List.getLast?_concat] at hlast
      obtain rfl := Option.some.inj hlast
      exact .inl (Function.update_self _ _ _)
    · rw [if_neg hno, hfs, List.append_nil]
      exact hh
  | set j hj m addr fault =>
    obtain ⟨rfl, rfl⟩ := Prod.mk.inj (Option.some.inj hs)
    rw [List.append_nil]
    exact hh.of_item (.inl (Setting.set_other hj fs m addr fault))
  | get j m addr readFault writeFault =>
    obtain ⟨rfl, rfl⟩ := Prod.mk.inj (Option.some.inj hs)
    rw [List.append_nil]
    exact hh.of_item (j.get_item_of c.setting fs m addr readFault writeFault)
  | boot readFault writeFault =>
    obtain ⟨rfl, rfl⟩ := Prod.mk.inj (Option.some.inj hs)
    rw [List.append_nil]
    exact hh.of_item (.inl (nvsDataInit_setting fs readFault writeFault c.setting))

/-- After every run, from any flash on. -/
theorem SettingCommand.store_holds {c : SettingCommand} {fs fs' : NvsFs}
    {uses : List (SettingUse c.setting)} {h : List (List (List UInt8))}
    (hr : c.store.Runs fs uses h fs') : c.Holds h fs' := by
  apply Machine.Runs.invariant (I := c.Holds) _ _ hr
  · intro argv hlast
    cases hlast
  · exact fun h t use es u hh hs => hh.step hs

/-- A run of one command that is accepted. -/
theorem SettingCommand.runs_command (c : SettingCommand) {fs : NvsFs} {argv : List (List UInt8)}
    {m : Memory} {addr : ℕ} {fault : Option NvsFault} (hok : (c.cmd fs argv m addr fault).ok) :
    c.store.Runs fs [.command argv m addr fault] [argv]
      (Function.update fs c.setting.id (some (c.image argv))) := by
  have hfs := (c.cases fs argv m addr fault).resolve_right fun hno => hno.1 hok
  apply Machine.runs_cons.mpr
  refine ⟨[argv], _, [], ?_, Machine.runs_nil.mpr ⟨rfl, rfl⟩, rfl⟩
  simp only [store, if_pos hok, hfs.2]

/-- The item of the arguments is read as it was stored, or not at all. -/
def SettingCommand.Delivers (c : SettingCommand) (fs : NvsFs) (argv : List (List UInt8))
    (readFault : Option NvsFault) : Prop :=
  fs c.setting.id = some (c.image argv) ∧ readFault = none

instance SettingCommand.Delivers.decidable (c : SettingCommand) (fs : NvsFs)
    (argv : List (List UInt8)) (readFault : Option NvsFault) :
    Decidable (c.Delivers fs argv readFault) := by
  unfold SettingCommand.Delivers
  have : DecidableEq (Option NvsFault) := by
    unfold NvsFault
    infer_instance
  infer_instance

/-- What the getter of the setting gives to its caller. -/
theorem SettingCommand.Holds.get_load {c : SettingCommand} {h : List (List (List UInt8))}
    {fs : NvsFs} (hh : c.Holds h fs) {argv : List (List UInt8)} (hlast : h.getLast? = some argv)
    {fs' : NvsFs} (hfs : fs' c.setting.id = fs c.setting.id) (m : Memory) (addr : ℕ)
    (readFault writeFault : Option NvsFault) :
    (c.setting.get fs' m addr readFault writeFault).1.load addr c.setting.len =
      if c.Delivers fs argv readFault then c.image argv else c.setting.restore := by
  by_cases hstored : fs c.setting.id = some (c.image argv)
  · rw [c.setting.get_load (hfs.trans hstored) (c.image_length argv)]
    simp only [Delivers, hstored, true_and]
  · have hrestored := (hh argv hlast).resolve_left hstored
    rw [c.setting.get_load (hfs.trans hrestored) c.setting.restore_length, ite_self, if_neg]
    exact fun hdelivers => hstored hdelivers.1

/-- The credentials that a start finds. -/
theorem mainNetConfig_wificfg {fs : NvsFs} {h : List (List (List UInt8))}
    (hh : wificonf.Holds h fs) {argv : List (List UInt8)} (hlast : h.getLast? = some argv)
    (m : Memory) (wificfg mqttcfg : ℕ) (f : StartFaults) :
    (mainNetConfig fs m wificfg mqttcfg f).wificfg =
      if wificonf.Delivers fs argv f.wifiRead then wifiConfigImage argv
      else List.replicate wifiConfigLen 0 :=
  hh.get_load hlast (nvsDataInit_setting fs _ _ .wifiConfig) _ _ _ _

/-- The broker that a start finds. -/
theorem mainNetConfig_mqttcfg {fs : NvsFs} {h : List (List (List UInt8))}
    (hh : mqttconf.Holds h fs) {argv : List (List UInt8)} (hlast : h.getLast? = some argv)
    (m : Memory) (wificfg mqttcfg : ℕ) (f : StartFaults) :
    (mainNetConfig fs m wificfg mqttcfg f).mqttcfg =
      if mqttconf.Delivers fs argv f.mqttRead then mqttConfigImage argv
      else List.replicate mqttConfigLen 0 := by
  apply hh.get_load hlast
  have hothers := Setting.wifiConfig.get_item (nvsDataInit fs f.bootRead f.bootWrite)
    ((m.store wificfg (List.replicate wifiConfigLen 0)).store mqttcfg
      (List.replicate mqttConfigLen 0)) wificfg f.wifiRead f.wifiWrite NVS_ID_MQTT_CONFIG
  have hsame := hothers.resolve_right fun hid => absurd hid.1 (by decide)
  exact hsame.trans (nvsDataInit_setting fs _ _ .mqttConfig)

end WlabStation.Settings
