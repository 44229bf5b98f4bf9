import WlabStation.Settings.Store

/-! What is set is got back, through objects in a memory where the bytes around
them belong to something else. -/
namespace WlabStation.Settings

/-- The item a getter reads, or its default, is all it writes, into its transfer length. -/
theorem settingGet_outside {id len : ℕ} {restore : List UInt8} (hlen : restore.length = len)
    (fs : NvsFs) (m : Memory) (addr : ℕ) (readFault writeFault : Option NvsFault) {a : ℕ}
    (ha : a < addr ∨ addr + len ≤ a) :
    (settingGet id len restore fs m addr readFault writeFault).1 a = m a := by
  have hread : (nvsRead fs id len readFault).2.length ≤ len := by
    unfold nvsRead
    split
    · exact Nat.zero_le _
    · exact Nat.zero_le _
    · exact List.length_take_le _ _
  simp only [settingGet]
  split_ifs
  · exact Memory.store_outside m (by omega)
  · show ((m.store addr (nvsRead fs id len readFault).2).store addr restore) a = m a
    rw [Memory.store_outside _ (by omega), Memory.store_outside m (by omega)]

theorem Setting.get_outside (k : Setting) (fs : NvsFs) (m : Memory) (addr : ℕ)
    (readFault writeFault : Option NvsFault) {a : ℕ} (ha : a < addr ∨ addr + k.len ≤ a) :
    (k.get fs m addr readFault writeFault).1 a = m a := by
  rw [k.get_eq]
  exact settingGet_outside k.restore_length fs m addr readFault writeFault ha

/-- An item of the full length is delivered, or the default after a read error. -/
theorem Setting.get_load (k : Setting) {fs : NvsFs} {item : List UInt8}
    (hitem : fs k.id = some item) (hlen : item.length = k.len) (m : Memory) (addr : ℕ)
    (readFault writeFault : Option NvsFault) :
    (k.get fs m addr readFault writeFault).1.load addr k.len =
      if readFault = none then item else k.restore := by
  rw [k.get_eq]
  split_ifs with hfault
  · rw [hfault, settingGet_stored hitem hlen k.len_pos m addr writeFault,
      Memory.load_store _ _ _ hlen.ge, List.take_of_length_le hlen.le]
  · obtain ⟨m', hget⟩ : ∃ m' : Memory,
        settingGet k.id k.len k.restore fs m addr readFault writeFault =
          (m'.store addr k.restore, (nvsWrite fs k.id k.restore writeFault).2) :=
      settingGet_restored k.restore_length m addr (.inl hfault) writeFault
    have hrest := k.restore_length
    rw [hget, Memory.load_store _ _ _ hrest.ge, List.take_of_length_le hrest.le]

theorem nvsData_keeps_item {k : Setting} {fs fs' : NvsFs} {calls : List StoreCall}
    {h : List StoreEvent} (hothers : ∀ c ∈ calls, c.setting ≠ k)
    (hr : nvsData.Runs fs calls h fs') : fs' k.id = fs k.id := by
  apply Machine.Runs.invariant_of_eachStep (I := fun _ t => t k.id = fs k.id) rfl _
    (Machine.eachStep_of_mem (C := fun c => c.setting ≠ k) fs hothers) hr
  intro h t c es u hi hc hs
  rw [nvsData_others hs (fun hid => hc (Setting.id_injective hid).symm), hi]

/-- A set in `fs` from the object at `addr`, and after other calls a get in
`fs'` into the object at `addr'`. A setter has no memory to write to. -/
structure RoundTrip (k : Setting) (fs fs' : NvsFs) (m m' : Memory) (addr addr' : ℕ)
    (fault readFault writeFault : Option NvsFault) : Prop where
  value : (k.get fs' m' addr' readFault writeFault).1.load addr' k.size = m.load addr k.size
  setReads : ∀ n : Memory, n.load addr k.size = m.load addr k.size →
    k.set fs n addr fault = k.set fs m addr fault
  setItems : ∀ id, id ≠ k.id → (k.set fs m addr fault).2 id = fs id
  getReads : ∀ n : Memory, n.load addr' k.size = m'.load addr' k.size →
    (k.get fs' n addr' readFault writeFault).1.load addr' k.size =
      (k.get fs' m' addr' readFault writeFault).1.load addr' k.size ∧
    (k.get fs' n addr' readFault writeFault).2 = (k.get fs' m' addr' readFault writeFault).2
  getWrites : ∀ a, a < addr' ∨ addr' + k.size ≤ a →
    (k.get fs' m' addr' readFault writeFault).1 a = m' a
  getItems : ∀ id, id ≠ k.id → (k.get fs' m' addr' readFault writeFault).2 id = fs' id

/-- The transfer of the publish period also takes the four bytes behind its object. -/
theorem wlabPubPeriod_set_reads_neighbour {fs : NvsFs} {m : Memory} {addr : ℕ}
    {fault : Option NvsFault} (hset : (Setting.wlabPubPeriod.set fs m addr fault).1 = 0) :
    ∃ n : Memory, n.load addr 4 = m.load addr 4 ∧
      Setting.wlabPubPeriod.set fs n addr fault ≠ Setting.wlabPubPeriod.set fs m addr fault := by
  refine ⟨m.store (addr + 4) [m (addr + 4) + 1], Memory.load_store_outside m (.inl le_rfl), ?_⟩
  intro hsame
  have hload : (m.store (addr + 4) [m (addr + 4) + 1]).load addr wlabPubPeriodLen =
      m.load addr wlabPubPeriodLen := by
    have hm := Setting.wlabPubPeriod.set_fs hset
    have hn := Setting.wlabPubPeriod.set_fs (hsame ▸ hset)
    rw [hsame, hm] at hn
    have hitem := congrFun hn NVS_ID_WLAB_PUB_PERIOD
    simp only [Setting.id, Function.update_self] at hitem
    exact (Option.some.inj hitem).symm
  have hbyte := congrArg (fun bytes : List UInt8 => bytes[4]?) hload
  have hinside := Memory.store_inside m (addr + 4) [m (addr + 4) + 1] (i := 0) Nat.one_pos
  simp only [Memory.getElem?_load _ addr (show 4 < wlabPubPeriodLen by decide)] at hbyte
  rw [Nat.add_zero] at hinside
  rw [hinside] at hbyte
  simp at hbyte

theorem round_trip_iff (k : Setting) {fs fs' : NvsFs} {m : Memory} {addr : ℕ}
    {fault : Option NvsFault} (hset : (k.set fs m addr fault).1 = 0) {calls : List StoreCall}
    {h : List StoreEvent} (hothers : ∀ c ∈ calls, c.setting ≠ k)
    (hr : nvsData.Runs (k.set fs m addr fault).2 calls h fs') (m' : Memory) (addr' : ℕ)
    (readFault writeFault : Option NvsFault) :
    RoundTrip k fs fs' m m' addr addr' fault readFault writeFault ↔
      k ≠ .wlabPubPeriod ∧ (readFault = none ∨ m.load addr k.size = k.restore) := by
  have hitem : fs' k.id = some (m.load addr k.len) := by
    rw [nvsData_keeps_item hothers hr, k.set_fs hset, Function.update_self]
  have hload := fun n : Memory =>
    k.get_load hitem (Memory.load_length m addr k.len) n addr' readFault writeFault
  constructor
  · intro hround
    have hk : k ≠ .wlabPubPeriod := by
      rintro rfl
      obtain ⟨n, hn, hdiff⟩ := wlabPubPeriod_set_reads_neighbour hset
      exact hdiff (hround.setReads n hn)
    have hlen := k.len_eq_size_iff.mpr hk
    refine ⟨hk, or_iff_not_imp_left.mpr fun hfault => ?_⟩
    rw [← hround.value, ← hlen, hload m', if_neg hfault]
  · rintro ⟨hk, hread⟩
    have hlen := k.len_eq_size_iff.mpr hk
    constructor
    case value =>
      rw [← hlen, hload m']
      split_ifs with hfault
      · rfl
      · rw [hlen, hread.resolve_left hfault]
    case setReads =>
      intro n hn
      rw [← hlen] at hn
      simp only [k.set_eq, settingSet, hn]
    case setItems =>
      intro id hid
      rw [k.set_fs hset, Function.update_of_ne hid]
    case getReads =>
      intro n _
      rw [← hlen, hload n, hload m', k.get_fs, k.get_fs]
      exact ⟨rfl, rfl⟩
    case getWrites =>
      intro a ha
      rw [← hlen] at ha
      exact k.get_outside fs' m' addr' readFault writeFault ha
    case getItems =>
      intro id hid
      exact (k.get_item fs' m' addr' readFault writeFault id).resolve_right fun h => hid h.1

/-- A station name with a publish period stored after it. -/
theorem name_round_trip :
    let fs := (Setting.wlabName.set (fun _ => none) (fun _ => 65) 16 none).2
    RoundTrip .wlabName (fun _ => none) (Setting.wlabPubPeriod.set fs (fun _ => 7) 0 none).2
      (fun _ => 65) (fun _ => 0) 16 64 none none none := by
  intro fs
  have hothers : ∀ c ∈ [StoreCall.set .wlabPubPeriod (fun _ => 7) 0 none],
      c.setting ≠ .wlabName := by
    intro c hc
    rw [List.mem_singleton.mp hc]
    decide
  refine (round_trip_iff .wlabName (by decide) hothers (Machine.runs_cons.mpr
    ⟨_, _, [], rfl, Machine.runs_nil.mpr ⟨rfl, rfl⟩, rfl⟩) _ _ _ _).mpr ⟨by decide, .inl rfl⟩

/-- The period 10 stored with zeros behind it, read next to bytes that are not zero. -/
theorem period_get_clobbers_neighbour :
    let m := Memory.storeU32 (fun _ => 0) 16 10
    let stored := Setting.wlabPubPeriod.set (fun _ => none) m 16 none
    stored.1 = 0 ∧
      ¬ RoundTrip .wlabPubPeriod (fun _ => none) stored.2 m (fun _ => 170) 16 64 none none
        none := by
  constructor
  · decide
  · intro h
    exact absurd (h.getWrites 68 (by decide)) (by decide)

end WlabStation.Settings
