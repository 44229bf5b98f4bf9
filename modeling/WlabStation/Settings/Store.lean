import WlabStation.Machine.CString
import WlabStation.Machine.Run
import WlabStation.Settings.Nvs

/-! The six settings of `nvs_data.c` as one store: what their accessors do to
the flash, to each other's items and to the caller's memory. -/
namespace WlabStation.Settings

def CONFIG_BUFF_MAX_STRING_LEN : ℕ := 48

def NVS_ID_WIFI_CONFIG : ℕ := 2
def NVS_ID_MQTT_CONFIG : ℕ := 3
def NVS_ID_WLAB_DEVICE_ID : ℕ := 4
def NVS_ID_WLAB_NAME : ℕ := 5
def NVS_ID_WLAB_GPS_POSITION : ℕ := 6

/-- `sizeof(struct wifi_config)`: the ssid and the password. -/
def wifiConfigLen : ℕ := CONFIG_BUFF_MAX_STRING_LEN + CONFIG_BUFF_MAX_STRING_LEN

/-- `sizeof(struct mqtt_config)`: the broker, port, ping period and keepalive limit. -/
def mqttConfigLen : ℕ := CONFIG_BUFF_MAX_STRING_LEN + 4 + 4 + 4

def wlabDeviceIdLen : ℕ := 8

/-- `sizeof(struct gps_position)`: latitude, longitude and the time zone. -/
def wlabGpsPosLen : ℕ := 4 + 4 + CONFIG_BUFF_MAX_STRING_LEN

def wlabNameDefault : List UInt8 := strncpy (textBytes "WLAB_STATION") CONFIG_BUFF_MAX_STRING_LEN

/-- The single-precision numbers 40.0 and 30.0, and the default time zone. -/
def wlabGpsPositionDefault : List UInt8 :=
  leBytes 4 0x42200000 ++ leBytes 4 0x41F00000 ++
    strncpy (textBytes "Europe/Warsaw") CONFIG_BUFF_MAX_STRING_LEN

def nvsDataWifiConfigGet : NvsFs → Memory → ℕ → Option NvsFault → Option NvsFault →
    Memory × NvsFs :=
  settingGet NVS_ID_WIFI_CONFIG wifiConfigLen (List.replicate wifiConfigLen 0)

def nvsDataWifiConfigSet : NvsFs → Memory → ℕ → Option NvsFault → ℤ × NvsFs :=
  settingSet NVS_ID_WIFI_CONFIG wifiConfigLen

def nvsDataMqttConfigGet : NvsFs → Memory → ℕ → Option NvsFault → Option NvsFault →
    Memory × NvsFs :=
  settingGet NVS_ID_MQTT_CONFIG mqttConfigLen (List.replicate mqttConfigLen 0)

def nvsDataMqttConfigSet : NvsFs → Memory → ℕ → Option NvsFault → ℤ × NvsFs :=
  settingSet NVS_ID_MQTT_CONFIG mqttConfigLen

def nvsDataWlabDeviceIdGet : NvsFs → Memory → ℕ → Option NvsFault → Option NvsFault →
    Memory × NvsFs :=
  settingGet NVS_ID_WLAB_DEVICE_ID wlabDeviceIdLen (List.replicate wlabDeviceIdLen 0)

def nvsDataWlabDeviceIdSet : NvsFs → Memory → ℕ → Option NvsFault → ℤ × NvsFs :=
  settingSet NVS_ID_WLAB_DEVICE_ID wlabDeviceIdLen

def nvsDataWlabNameGet : NvsFs → Memory → ℕ → Option NvsFault → Option NvsFault →
    Memory × NvsFs :=
  settingGet NVS_ID_WLAB_NAME CONFIG_BUFF_MAX_STRING_LEN wlabNameDefault

def nvsDataWlabNameSet : NvsFs → Memory → ℕ → Option NvsFault → ℤ × NvsFs :=
  settingSet NVS_ID_WLAB_NAME CONFIG_BUFF_MAX_STRING_LEN

def nvsDataWlabGpsPositionGet : NvsFs → Memory → ℕ → Option NvsFault → Option NvsFault →
    Memory × NvsFs :=
  settingGet NVS_ID_WLAB_GPS_POSITION wlabGpsPosLen wlabGpsPositionDefault

def nvsDataWlabGpsPositionSet : NvsFs → Memory → ℕ → Option NvsFault → ℤ × NvsFs :=
  settingSet NVS_ID_WLAB_GPS_POSITION wlabGpsPosLen

inductive Setting where
  | wifiConfig
  | mqttConfig
  | wlabDeviceId
  | wlabName
  | wlabGpsPosition
  | wlabPubPeriod
  deriving DecidableEq

namespace Setting

def id : Setting → ℕ
  | wifiConfig => NVS_ID_WIFI_CONFIG
  | mqttConfig => NVS_ID_MQTT_CONFIG
  | wlabDeviceId => NVS_ID_WLAB_DEVICE_ID
  | wlabName => NVS_ID_WLAB_NAME
  | wlabGpsPosition => NVS_ID_WLAB_GPS_POSITION
  | wlabPubPeriod => NVS_ID_WLAB_PUB_PERIOD

/-- The length that both accessors transfer. -/
def len : Setting → ℕ
  | wifiConfig => wifiConfigLen
  | mqttConfig => mqttConfigLen
  | wlabDeviceId => wlabDeviceIdLen
  | wlabName => CONFIG_BUFF_MAX_STRING_LEN
  | wlabGpsPosition => wlabGpsPosLen
  | wlabPubPeriod => wlabPubPeriodLen

/-- The size of the declared type of the object passed. -/
def size : Setting → ℕ
  | wifiConfig => wifiConfigLen
  | mqttConfig => mqttConfigLen
  | wlabDeviceId => 8
  | wlabName => CONFIG_BUFF_MAX_STRING_LEN
  | wlabGpsPosition => wlabGpsPosLen
  | wlabPubPeriod => 4

/-- What the getter restores. -/
def restore : Setting → List UInt8
  | wifiConfig => List.replicate wifiConfigLen 0
  | mqttConfig => List.replicate mqttConfigLen 0
  | wlabDeviceId => List.replicate wlabDeviceIdLen 0
  | wlabName => wlabNameDefault
  | wlabGpsPosition => wlabGpsPositionDefault
  | wlabPubPeriod => List.replicate wlabPubPeriodLen 0

def get : Setting → NvsFs → Memory → ℕ → Option NvsFault → Option NvsFault → Memory × NvsFs
  | wifiConfig => nvsDataWifiConfigGet
  | mqttConfig => nvsDataMqttConfigGet
  | wlabDeviceId => nvsDataWlabDeviceIdGet
  | wlabName => nvsDataWlabNameGet
  | wlabGpsPosition => nvsDataWlabGpsPositionGet
  | wlabPubPeriod => nvsDataWlabPubPeriodGet

def set : Setting → NvsFs → Memory → ℕ → Option NvsFault → ℤ × NvsFs
  | wifiConfig => nvsDataWifiConfigSet
  | mqttConfig => nvsDataMqttConfigSet
  | wlabDeviceId => nvsDataWlabDeviceIdSet
  | wlabName => nvsDataWlabNameSet
  | wlabGpsPosition => nvsDataWlabGpsPositionSet
  | wlabPubPeriod => nvsDataWlabPubPeriodSet

theorem get_eq (k : Setting) : k.get = settingGet k.id k.len k.restore := by
  cases k <;> rfl

theorem set_eq (k : Setting) : k.set = settingSet k.id k.len := by
  cases k <;> rfl

theorem id_injective {j k : Setting} (h : j.id = k.id) : j = k := by
  revert h
  cases j <;> cases k <;> decide

theorem len_pos (k : Setting) : 0 < k.len := by
  cases k <;> decide

@[simp] theorem restore_length (k : Setting) : k.restore.length = k.len := by
  cases k with
  | wifiConfig => exact List.length_replicate
  | mqttConfig => exact List.length_replicate
  | wlabDeviceId => exact List.length_replicate
  | wlabName => exact strncpy_length _ _
  | wlabGpsPosition =>
    simp only [restore, wlabGpsPositionDefault, List.length_append, leBytes_length, strncpy_length]
    rfl
  | wlabPubPeriod => exact List.length_replicate

/-- One accessor pair computes its length from another type than its argument's. -/
theorem len_eq_size_iff (k : Setting) : k.len = k.size ↔ k ≠ wlabPubPeriod := by
  cases k <;> decide

end Setting

theorem nvsWrite_other (fs : NvsFs) {id i : ℕ} (h : i ≠ id) (data : List UInt8)
    (fault : Option NvsFault) : (nvsWrite fs id data fault).2 i = fs i := by
  unfold nvsWrite
  split
  · rfl
  · split_ifs
    · rfl
    · exact Function.update_of_ne h _ _

/-- A setter succeeds exactly when it replaces the item by other bytes. -/
theorem settingSet_eq {id len : ℕ} (hpos : 0 < len) (fs : NvsFs) (m : Memory) (addr : ℕ)
    (fault : Option NvsFault) :
    (settingSet id len fs m addr fault =
      (0, Function.update fs id (some (m.load addr len))) ∧ fault = none ∧
      fs id ≠ some (m.load addr len)) ∨
    (settingSet id len fs m addr fault = (- EIO, fs) ∧
      (fault = none → fs id = some (m.load addr len))) := by
  cases fault with
  | some e =>
    right
    have he := e.property
    have hne : e.val ≠ (len : ℤ) := by omega
    constructor
    · exact Prod.ext (if_neg hne) rfl
    · intro h
      cases h
  | none =>
    by_cases hsame : fs id = some (m.load addr len)
    · right
      have hne : (0 : ℤ) ≠ len := by omega
      constructor
      · simp only [settingSet, nvsWrite, if_pos hsame, if_neg hne]
      · exact fun _ => hsame
    · left
      constructor
      · simp only [settingSet, nvsWrite, if_neg hsame, Memory.load_length, if_true]
      · exact ⟨rfl, hsame⟩

/-- The item that a getter leaves: its own is replaced when nothing was read. -/
theorem settingGet_fs {id len : ℕ} {restore : List UInt8} (hlen : restore.length = len)
    (fs : NvsFs) (m : Memory) (addr : ℕ) (readFault writeFault : Option NvsFault) :
    (settingGet id len restore fs m addr readFault writeFault).2 =
      if 0 < (nvsRead fs id len readFault).1 then fs
      else (nvsWrite fs id restore writeFault).2 := by
  simp only [settingGet]
  split_ifs
  · rfl
  · rw [Memory.load_store _ _ _ hlen.ge, List.take_of_length_le hlen.le]

/-- A read delivers something exactly when it meets no fault and finds an item. -/
theorem nvsRead_pos_iff {fs : NvsFs} {id len : ℕ} {fault : Option NvsFault} :
    0 < (nvsRead fs id len fault).1 ↔ fault = none ∧ ∃ item, fs id = some item ∧ item ≠ [] := by
  cases fault with
  | some e =>
    have he := e.property
    simp only [nvsRead, reduceCtorEq, false_and, iff_false]
    omega
  | none =>
    cases hitem : fs id with
    | none => simp [nvsRead, hitem, ENOENT]
    | some item => simp [nvsRead, hitem, List.length_pos_iff]

/-- A call of an accessor; the memory around the object it is given is arbitrary. -/
inductive StoreCall where
  | set (k : Setting) (m : Memory) (addr : ℕ) (fault : Option NvsFault)
  | get (k : Setting) (m : Memory) (addr : ℕ) (readFault writeFault : Option NvsFault)

def StoreCall.setting : StoreCall → Setting
  | .set k _ _ _ => k
  | .get k _ _ _ _ => k

/-- A setter is observed with the bytes it was given and its return value. -/
inductive StoreEvent where
  | set (k : Setting) (data : List UInt8) (ret : ℤ)
  | get (k : Setting)

def nvsData : Machine NvsFs StoreCall StoreEvent where
  step fs
    | .set k m addr fault =>
        let r := k.set fs m addr fault
        some ([.set k (m.load addr k.len) r.1], r.2)
    | .get k m addr readFault writeFault =>
        some ([.get k], (k.get fs m addr readFault writeFault).2)

/-- The settings as variables that only successful sets assign. -/
def valueAfter (v : Setting → Option (List UInt8)) : StoreEvent → Setting → Option (List UInt8)
  | .set k data ret => if ret = 0 then Function.update v k (some data) else v
  | .get _ => v

def lastSet (h : List StoreEvent) : Setting → Option (List UInt8) :=
  h.foldl valueAfter fun _ => none

theorem lastSet_concat (h : List StoreEvent) (e : StoreEvent) :
    lastSet (h ++ [e]) = valueAfter (lastSet h) e := by
  simp [lastSet]

/-- What a setter does to the flash, in terms of its return value. -/
theorem Setting.set_cases (k : Setting) (fs : NvsFs) (m : Memory) (addr : ℕ)
    (fault : Option NvsFault) :
    (k.set fs m addr fault = (0, Function.update fs k.id (some (m.load addr k.len))) ∧
      fault = none ∧ fs k.id ≠ some (m.load addr k.len)) ∨
    (k.set fs m addr fault = (- EIO, fs) ∧
      (fault = none → fs k.id = some (m.load addr k.len))) := by
  rw [k.set_eq]
  exact settingSet_eq k.len_pos fs m addr fault

/-- A successful set stores what it read. -/
theorem Setting.set_fs (k : Setting) {fs : NvsFs} {m : Memory} {addr : ℕ}
    {fault : Option NvsFault} (hset : (k.set fs m addr fault).1 = 0) :
    (k.set fs m addr fault).2 = Function.update fs k.id (some (m.load addr k.len)) := by
  rcases k.set_cases fs m addr fault with ⟨h, -, -⟩ | ⟨h, -⟩
  · rw [h]
  · have hret : ¬ - EIO = 0 := by decide
    rw [h] at hset
    exact absurd hset hret

theorem Setting.get_fs (k : Setting) (fs : NvsFs) (m : Memory) (addr : ℕ)
    (readFault writeFault : Option NvsFault) :
    (k.get fs m addr readFault writeFault).2 =
      if 0 < (nvsRead fs k.id k.len readFault).1 then fs
      else (nvsWrite fs k.id k.restore writeFault).2 := by
  rw [k.get_eq]
  exact settingGet_fs k.restore_length fs m addr readFault writeFault

/-- An item of the store after a getter's call. -/
theorem Setting.get_item (k : Setting) (fs : NvsFs) (m : Memory) (addr : ℕ)
    (readFault writeFault : Option NvsFault) (id : ℕ) :
    (k.get fs m addr readFault writeFault).2 id = fs id ∨
      (id = k.id ∧ (k.get fs m addr readFault writeFault).2 id = some k.restore) := by
  rw [k.get_fs]
  split_ifs
  · exact .inl rfl
  · by_cases hid : id = k.id
    · subst hid
      cases writeFault with
      | none => exact .inr ⟨rfl, nvsWrite_ok fs k.id k.restore⟩
      | some e => exact .inl rfl
    · exact .inl (nvsWrite_other fs hid _ _)

/-- A call leaves the items of the other settings alone. -/
theorem nvsData_others {fs fs' : NvsFs} {c : StoreCall} {es : List StoreEvent} {id : ℕ}
    (hs : nvsData.step fs c = some (es, fs')) (hid : id ≠ c.setting.id) : fs' id = fs id := by
  cases c with
  | set k m addr fault =>
    obtain ⟨-, rfl⟩ := Prod.mk.inj (Option.some.inj hs)
    rcases k.set_cases fs m addr fault with ⟨hset, -, -⟩ | ⟨hset, -⟩
    · rw [hset]
      exact Function.update_of_ne hid _ _
    · rw [hset]
  | get k m addr readFault writeFault =>
    obtain ⟨-, rfl⟩ := Prod.mk.inj (Option.some.inj hs)
    exact (k.get_item fs m addr readFault writeFault id).resolve_right fun h => hid h.1

/-- A setter leaves the items of the other settings alone. -/
theorem Setting.set_other {j k : Setting} (hj : j ≠ k) (fs : NvsFs) (m : Memory) (addr : ℕ)
    (fault : Option NvsFault) : (j.set fs m addr fault).2 k.id = fs k.id := by
  have hstep : nvsData.step fs (.set j m addr fault) = some (_, (j.set fs m addr fault).2) := rfl
  exact nvsData_others hstep fun hid => hj (Setting.id_injective hid).symm

/-- After any getter the item of a setting is as before, or its own default. -/
theorem Setting.get_item_of (j k : Setting) (fs : NvsFs) (m : Memory) (addr : ℕ)
    (readFault writeFault : Option NvsFault) :
    (j.get fs m addr readFault writeFault).2 k.id = fs k.id ∨
      (j.get fs m addr readFault writeFault).2 k.id = some k.restore := by
  refine (j.get_item fs m addr readFault writeFault k.id).imp_right ?_
  rintro ⟨hid, hrestored⟩
  obtain rfl := Setting.id_injective hid
  exact hrestored

/-- A getter leaves every stored item as it is. -/
def GetKeeps (fs : NvsFs) : StoreCall → Prop
  | .set _ _ _ _ => True
  | .get k m addr readFault writeFault => ∀ id item, fs id = some item →
      (k.get fs m addr readFault writeFault).2 id = some item

/-- A getter that finds its item, other than the default, reads it without an
error, or fails as well to write the default. -/
def ReadsStored (fs : NvsFs) : StoreCall → Prop
  | .set _ _ _ _ => True
  | .get k _ _ readFault writeFault => ∀ item, fs k.id = some item →
      item = k.restore ∨ (readFault = none ∧ item ≠ []) ∨ writeFault ≠ none

theorem getKeeps_iff (fs : NvsFs) (c : StoreCall) : GetKeeps fs c ↔ ReadsStored fs c := by
  cases c with
  | set k m addr fault => exact Iff.rfl
  | get k m addr readFault writeFault =>
    simp only [GetKeeps, ReadsStored, k.get_fs]
    split_ifs with hread
    · obtain ⟨hfault, item, hitem, hne⟩ := nvsRead_pos_iff.mp hread
      constructor
      · intro _ item' hitem'
        rw [hitem] at hitem'
        exact .inr (.inl ⟨hfault, Option.some.inj hitem' ▸ hne⟩)
      · exact fun _ id item h => h
    · rw [nvsRead_pos_iff] at hread
      cases writeFault with
      | some e => exact iff_of_true (fun id item h => h) (fun item _ => .inr (.inr (by simp)))
      | none =>
        constructor
        · intro hkeeps item hitem
          have hnew := hkeeps k.id item hitem
          rw [nvsWrite_ok] at hnew
          exact .inl (Option.some.inj hnew).symm
        · intro hstored id item hitem
          by_cases hid : id = k.id
          · subst hid
            rcases hstored item hitem with hdef | ⟨hfault, hne⟩ | hwrite
            · rw [nvsWrite_ok, hdef]
            · exact absurd ⟨hfault, item, hitem, hne⟩ hread
            · exact absurd rfl hwrite
          · rw [nvsWrite_other fs hid, hitem]

/-- What was set successfully last is stored. -/
def HoldsValues (h : List StoreEvent) (fs : NvsFs) : Prop :=
  ∀ k data, lastSet h k = some data → fs k.id = some data

theorem HoldsValues.step {h es : List StoreEvent} {fs fs' : NvsFs} {c : StoreCall}
    (hv : HoldsValues h fs) (hc : ReadsStored fs c) (hs : nvsData.step fs c = some (es, fs')) :
    HoldsValues (h ++ es) fs' := by
  cases c with
  | get k m addr readFault writeFault =>
    obtain ⟨rfl, rfl⟩ := Prod.mk.inj (Option.some.inj hs)
    intro j data hj
    rw [lastSet_concat] at hj
    exact (getKeeps_iff fs _).mpr hc j.id data (hv j data hj)
  | set k m addr fault =>
    obtain ⟨rfl, rfl⟩ := Prod.mk.inj (Option.some.inj hs)
    intro j data hj
    rw [lastSet_concat] at hj
    rcases k.set_cases fs m addr fault with ⟨hset, -, -⟩ | ⟨hset, -⟩
    · rw [hset, valueAfter, if_pos rfl] at hj
      rw [hset]
      show Function.update fs k.id (some (m.load addr k.len)) j.id = some data
      by_cases hjk : j = k
      · subst hjk
        rw [Function.update_self] at hj ⊢
        exact hj
      · rw [Function.update_of_ne hjk] at hj
        rw [Function.update_of_ne (fun hid => hjk (Setting.id_injective hid))]
        exact hv j data hj
    · have hret : ¬ - EIO = 0 := by decide
      rw [hset, valueAfter, if_neg hret] at hj
      rw [hset]
      exact hv j data hj

/-- Reading never destroys: the values set stay through every prefix of the
calls, and no getter modifies an item. -/
structure SettingsSurvive (fs : NvsFs) (calls : List StoreCall) : Prop where
  values : ∀ bs h t, bs <+: calls → nvsData.Runs fs bs h t → HoldsValues h t
  gets : nvsData.EachStep GetKeeps fs calls

theorem settings_survive_iff (fs : NvsFs) (calls : List StoreCall) :
    SettingsSurvive fs calls ↔ nvsData.EachStep ReadsStored fs calls := by
  have hsame : nvsData.EachStep GetKeeps fs calls ↔ nvsData.EachStep ReadsStored fs calls := by
    apply Machine.EachStep.iff
    apply Machine.EachStep.of_invariant (I := fun _ => True) trivial (fun _ _ _ _ _ _ _ => trivial)
      (fun t c _ _ => getKeeps_iff t c) (Machine.eachStep_true fs calls)
  constructor
  · intro h
    exact hsame.mp h.gets
  · intro hC
    constructor
    case gets => exact hsame.mpr hC
    case values =>
      rintro bs h t ⟨cs, rfl⟩ hr
      apply Machine.Runs.invariant_of_eachStep (C := ReadsStored) (I := HoldsValues) _ _
        hC.of_append hr
      · intro k data hnone
        cases hnone
      · exact fun h t c es u hv hc hs => hv.step hc hs

/-- A read error of a getter right after the Wi-Fi settings were stored. -/
theorem read_error_wipes_wifi_config : ¬ SettingsSurvive (fun _ => none)
    [.set .wifiConfig (fun _ => 65) 0 none, .get .wifiConfig (fun _ => 0) 0 (some ⟨-5, by decide⟩)
      none] := by
  intro h
  obtain ⟨-, hkeeps, -⟩ := h.gets
  have hitem := hkeeps NVS_ID_WIFI_CONFIG (List.replicate wifiConfigLen 65) (by decide)
  rw [Setting.get_fs, if_neg (by decide), Setting.id, nvsWrite_ok] at hitem
  exact absurd hitem (by decide)

end WlabStation.Settings
