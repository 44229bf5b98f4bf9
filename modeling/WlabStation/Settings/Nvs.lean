import WlabStation.Machine.Kernel
import WlabStation.Machine.Memory

/-! `nvs_data.c` over the flash store and the caller's memory. Every accessor
moves the bytes that its length argument says, not those of the object passed. -/
namespace WlabStation.Settings

/-- The items of the mounted file system. -/
abbrev NvsFs := ℕ → Option (List UInt8)

/-- A negative errno with which the flash fails. -/
def NvsFault := {e : ℤ // e < 0}

def ENOENT : ℤ := 2

/-- `nvs_read`: the return value and the bytes copied to the caller. -/
def nvsRead (fs : NvsFs) (id len : ℕ) (fault : Option NvsFault) : ℤ × List UInt8 :=
  match fault, fs id with
  | some e, _ => (e.val, [])
  | none, none => (-ENOENT, [])
  | none, some item => (item.length, item.take len)

/-- `nvs_write`: the length written, 0 when the item already has this content,
or an error that leaves the item as it was. -/
def nvsWrite (fs : NvsFs) (id : ℕ) (data : List UInt8) (fault : Option NvsFault) : ℤ × NvsFs :=
  match fault with
  | some e => (e.val, fs)
  | none => if fs id = some data then (0, fs) else (data.length, Function.update fs id (some data))

def NVS_ID_WLAB_PUB_PERIOD : ℕ := 7

/-- The common body of the getters: read into the object at `addr`; when nothing
was read, restore the default there and write it to the flash. -/
def settingGet (id len : ℕ) (restore : List UInt8) (fs : NvsFs) (m : Memory) (addr : ℕ)
    (readFault writeFault : Option NvsFault) : Memory × NvsFs :=
  let r := nvsRead fs id len readFault
  let m := m.store addr r.2
  if 0 < r.1 then (m, fs)
  else
    let m := m.store addr restore
    (m, (nvsWrite fs id (m.load addr len) writeFault).2)

/-- The common body of the setters. -/
def settingSet (id len : ℕ) (fs : NvsFs) (m : Memory) (addr : ℕ) (fault : Option NvsFault) :
    ℤ × NvsFs :=
  let w := nvsWrite fs id (m.load addr len) fault
  (if w.1 = len then 0 else - EIO, w.2)

/-- `sizeof(uint64_t)`, used for an object of type `uint32_t`. -/
def wlabPubPeriodLen : ℕ := 8

/-- `nvs_data_wlab_pub_period_get`. -/
def nvsDataWlabPubPeriodGet : NvsFs → Memory → ℕ → Option NvsFault → Option NvsFault →
    Memory × NvsFs :=
  settingGet NVS_ID_WLAB_PUB_PERIOD wlabPubPeriodLen (List.replicate wlabPubPeriodLen 0)

/-- `nvs_data_wlab_pub_period_set`. -/
def nvsDataWlabPubPeriodSet : NvsFs → Memory → ℕ → Option NvsFault → ℤ × NvsFs :=
  settingSet NVS_ID_WLAB_PUB_PERIOD wlabPubPeriodLen

theorem nvsWrite_ok (fs : NvsFs) (id : ℕ) (data : List UInt8) :
    (nvsWrite fs id data none).2 id = some data := by
  unfold nvsWrite
  split_ifs with h
  · exact h
  · simp

/-- A stored item that is read without a fault reaches the caller unchanged. -/
theorem settingGet_stored {id len : ℕ} {restore : List UInt8} {fs : NvsFs} {item : List UInt8}
    (hitem : fs id = some item) (hlen : item.length = len) (hpos : 0 < len) (m : Memory)
    (addr : ℕ) (writeFault : Option NvsFault) :
    settingGet id len restore fs m addr none writeFault = (m.store addr item, fs) := by
  have hread : nvsRead fs id len none = ((len : ℤ), item) := by
    simp [nvsRead, hitem, ← hlen]
  have hret : (0 : ℤ) < len := by exact_mod_cast hpos
  simp only [settingGet, hread, if_pos hret]

/-- Otherwise the default is delivered, and stored unless the write fails. -/
theorem settingGet_restored {id len : ℕ} {restore : List UInt8} {fs : NvsFs}
    (hlen : restore.length = len) (m : Memory) (addr : ℕ) {readFault : Option NvsFault}
    (hread : readFault ≠ none ∨ fs id = none) (writeFault : Option NvsFault) :
    ∃ m' : Memory, settingGet id len restore fs m addr readFault writeFault =
      (m'.store addr restore, (nvsWrite fs id restore writeFault).2) := by
  have hret : ¬ 0 < (nvsRead fs id len readFault).1 := by
    cases readFault with
    | some e =>
      have := e.property
      simp only [nvsRead]
      omega
    | none =>
      have hnone : fs id = none := hread.resolve_left (by simp)
      simp [nvsRead, hnone, ENOENT]
  refine ⟨m.store addr (nvsRead fs id len readFault).2, ?_⟩
  simp only [settingGet, if_neg hret]
  rw [Memory.load_store _ _ _ hlen.ge, List.take_of_length_le hlen.le]

end WlabStation.Settings
