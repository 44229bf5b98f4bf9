import WlabStation.Settings.Commands
import WlabStation.Wlab.Process

/-! The publish period on its way from the shell through the flash to the two
remainders of `wlab_process`. -/
namespace WlabStation.Settings

def isSpace (c : UInt8) : Bool := c = 32 || (9 ≤ c && c ≤ 13)

def isDigit (c : UInt8) : Bool := 48 ≤ c && c ≤ 57

/-- The sign of a number and what follows it. -/
def strSign : List UInt8 → Bool × List UInt8
  | 45 :: s => (true, s)
  | 43 :: s => (false, s)
  | s => (false, s)

/-- `strtoul(s, NULL, 10)` with a 32-bit `unsigned long`: leading blanks, a sign,
digits; out of range saturates, a minus sign negates modulo 2^32. -/
def strtoul (s : List UInt8) : ℕ :=
  let p := strSign (s.dropWhile isSpace)
  let v := (p.2.takeWhile isDigit).foldl (fun acc c => acc * 10 + (c.toNat - 48)) 0
  if 4294967296 ≤ v then 4294967295 else if p.1 then (4294967296 - v) % 4294967296 else v

theorem strtoul_lt (s : List UInt8) : strtoul s < 4294967296 := by
  unfold strtoul
  simp only
  split_ifs
  · omega
  · omega
  · omega

/-- `cmd_wlab_publish_period`, with its local `pub_period` at `addr`. -/
def cmdWlabPublishPeriod (fs : NvsFs) (argv : List (List UInt8)) (m : Memory) (addr : ℕ)
    (fault : Option NvsFault) : ShellResult :=
  match argv with
  | [_, arg] =>
      let pubPeriod := strtoul arg
      shellSet .wlabPubPeriod fs (m.storeU32 addr pubPeriod) addr fault
        [sprintf "pub_period: %u [secs]\n".toList [.word pubPeriod]]
  | _ => badUsage fs

/-- The uses of the period's item: the `wlabpubp` command, and a getter called
by `wlab_init` or `pconfig`. Addresses and surrounding memory are arbitrary. -/
inductive PeriodUse where
  | wlabpubp (argv : List (List UInt8)) (m : Memory) (addr : ℕ) (fault : Option NvsFault)
  | get (m : Memory) (addr : ℕ) (readFault writeFault : Option NvsFault)

def PeriodUse.apply (fs : NvsFs) : PeriodUse → NvsFs
  | .wlabpubp argv m addr fault => (cmdWlabPublishPeriod fs argv m addr fault).fs
  | .get m addr readFault writeFault =>
      (nvsDataWlabPubPeriodGet fs m addr readFault writeFault).2

/-- The value `wlab_init` finds in `PublishPeriodMins`. -/
def deliveredPeriod (fs : NvsFs) (m : Memory) (addr : ℕ) (readFault writeFault : Option NvsFault) :
    ℕ := (nvsDataWlabPubPeriodGet fs m addr readFault writeFault).1.loadU32 addr

/-- The period an item holds, in its first four bytes. -/
def itemPeriod (item : List UInt8) : ℕ := leNat (item.take 4)

/-- The item of the period holds eight bytes, the first four of which are `v`. -/
structure HoldsPeriod (fs : NvsFs) (v : Option ℕ) : Prop where
  length : ∀ item, fs NVS_ID_WLAB_PUB_PERIOD = some item → item.length = wlabPubPeriodLen
  value : (fs NVS_ID_WLAB_PUB_PERIOD).map itemPeriod = v

/-- The period as a variable: the last argument stored, or the default that a
getter stored when it could read none. -/
def periodAfter (v : Option ℕ) : PeriodUse → Option ℕ
  | .wlabpubp argv _ _ fault =>
      match argv, fault with
      | [_, arg], none => some (strtoul arg)
      | _, _ => v
  | .get _ _ readFault writeFault =>
      if readFault.isNone ∧ v.isSome then v else if writeFault.isNone then some 0 else v

def periodRead (v : Option ℕ) (readFault : Option NvsFault) : ℕ :=
  if readFault.isNone then v.getD 0 else 0

theorem holdsPeriod_none {fs : NvsFs} (h : fs NVS_ID_WLAB_PUB_PERIOD = none) :
    HoldsPeriod fs none where
  length item hitem := by rw [h] at hitem; cases hitem
  value := by rw [h]; rfl

theorem HoldsPeriod.item {fs : NvsFs} {v : Option ℕ} (h : HoldsPeriod fs v) {k : ℕ}
    (hv : v = some k) : ∃ item, fs NVS_ID_WLAB_PUB_PERIOD = some item ∧
      item.length = wlabPubPeriodLen ∧ itemPeriod item = k := by
  obtain ⟨item, hitem, hk⟩ := Option.map_eq_some_iff.mp (h.value.trans hv)
  exact ⟨item, hitem, h.length item hitem, hk⟩

/-- What a write of eight bytes does to the period. -/
theorem HoldsPeriod.write {fs : NvsFs} {v : Option ℕ} (h : HoldsPeriod fs v) {data : List UInt8}
    (hlen : data.length = wlabPubPeriodLen) (fault : Option NvsFault) :
    HoldsPeriod (nvsWrite fs NVS_ID_WLAB_PUB_PERIOD data fault).2
      (if fault.isNone then some (itemPeriod data) else v) := by
  cases fault with
  | some e => exact h
  | none =>
    have hw := nvsWrite_ok fs NVS_ID_WLAB_PUB_PERIOD data
    refine ⟨fun item hitem => ?_, ?_⟩
    · rw [hw] at hitem
      rw [← Option.some.inj hitem, hlen]
    · rw [hw]
      rfl

/-- The eight bytes that the setter takes start with the four of its argument. -/
theorem itemPeriod_load (m : Memory) (addr v : ℕ) :
    itemPeriod ((m.storeU32 addr v).load addr wlabPubPeriodLen) = v % 4294967296 := by
  have htake := (m.storeU32 addr v).load_take addr (show 4 ≤ wlabPubPeriodLen by decide)
  rw [itemPeriod, htake, ← Memory.loadU32, Memory.loadU32_storeU32]

/-- The two outcomes of the getter: the stored item, or the zeroed default. -/
theorem HoldsPeriod.get {fs : NvsFs} {v : Option ℕ} (h : HoldsPeriod fs v) (m : Memory)
    (addr : ℕ) (readFault writeFault : Option NvsFault) :
    (readFault.isNone ∧ v.isSome ∧ ∃ item, v = some (itemPeriod item) ∧
      item.length = wlabPubPeriodLen ∧
      nvsDataWlabPubPeriodGet fs m addr readFault writeFault = (m.store addr item, fs)) ∨
    (¬ (readFault.isNone ∧ v.isSome) ∧ ∃ m' : Memory,
      nvsDataWlabPubPeriodGet fs m addr readFault writeFault =
        (m'.store addr (List.replicate wlabPubPeriodLen 0), (nvsWrite fs NVS_ID_WLAB_PUB_PERIOD
          (List.replicate wlabPubPeriodLen 0) writeFault).2)) := by
  by_cases hread : readFault.isNone ∧ v.isSome
  · obtain ⟨hnone, hsome⟩ := hread
    obtain rfl := Option.isNone_iff_eq_none.mp hnone
    obtain ⟨k, rfl⟩ := Option.isSome_iff_exists.mp hsome
    obtain ⟨item, hitem, hlen, hk⟩ := h.item rfl
    exact .inl ⟨rfl, rfl, item, by rw [hk], hlen, settingGet_stored hitem hlen (by decide) m addr _⟩
  · have hno : readFault ≠ none ∨ fs NVS_ID_WLAB_PUB_PERIOD = none := by
      by_contra hcon
      obtain ⟨h1, h2⟩ := not_or.mp hcon
      refine hread ⟨by simpa using h1, ?_⟩
      rw [← h.value]
      simpa [Option.isSome_iff_ne_none] using h2
    exact .inr ⟨hread, settingGet_restored List.length_replicate m addr hno writeFault⟩

/-- Every use of the item acts on the period as on a variable. -/
theorem HoldsPeriod.apply {fs : NvsFs} {v : Option ℕ} (h : HoldsPeriod fs v) (use : PeriodUse) :
    HoldsPeriod (use.apply fs) (periodAfter v use) := by
  cases use with
  | wlabpubp argv m addr fault =>
    match argv with
    | [] => exact h
    | [_] => exact h
    | _ :: _ :: _ :: _ => exact h
    | [cmd, arg] =>
      have hw := h.write (Memory.load_length (m.storeU32 addr (strtoul arg)) addr _) fault
      rw [itemPeriod_load, Nat.mod_eq_of_lt (strtoul_lt arg)] at hw
      have hfs : (PeriodUse.wlabpubp [cmd, arg] m addr fault).apply fs =
          (nvsWrite fs NVS_ID_WLAB_PUB_PERIOD
            ((m.storeU32 addr (strtoul arg)).load addr wlabPubPeriodLen) fault).2 := by
        simp only [PeriodUse.apply, cmdWlabPublishPeriod, shellSet]
        split_ifs <;> rfl
      rw [hfs]
      cases fault with
      | some e => exact hw
      | none => exact hw
  | get m addr readFault writeFault =>
    simp only [PeriodUse.apply, periodAfter]
    rcases h.get m addr readFault writeFault with
      ⟨hnone, hsome, item, -, -, hget⟩ | ⟨hread, m', hget⟩
    · rw [hget, if_pos ⟨hnone, hsome⟩]
      exact h
    · rw [hget, if_neg hread]
      exact h.write List.length_replicate writeFault

theorem HoldsPeriod.delivered {fs : NvsFs} {v : Option ℕ} (h : HoldsPeriod fs v) (m : Memory)
    (addr : ℕ) (readFault writeFault : Option NvsFault) :
    deliveredPeriod fs m addr readFault writeFault = periodRead v readFault := by
  unfold deliveredPeriod periodRead
  rcases h.get m addr readFault writeFault with
    ⟨hnone, hsome, item, rfl, hlen, hget⟩ | ⟨hread, m', hget⟩
  · have h4 : 4 ≤ item.length := by rw [hlen]; decide
    rw [hget, if_pos hnone, Memory.loadU32, Memory.load_store m addr item h4]
    rfl
  · rw [hget, Memory.loadU32, Memory.load_store m' addr _ (by decide), List.take_replicate,
      leNat_replicate_zero]
    split_ifs with hnone
    · cases v with
      | none => rfl
      | some k => exact absurd ⟨hnone, rfl⟩ hread
    · rfl

theorem HoldsPeriod.uses {fs : NvsFs} {v : Option ℕ} (h : HoldsPeriod fs v)
    (uses : List PeriodUse) :
    HoldsPeriod (uses.foldl PeriodUse.apply fs) (uses.foldl periodAfter v) := by
  induction uses generalizing fs v with
  | nil => exact h
  | cons use uses ih => exact ih (h.apply use)

open Wlab

/-- The first reading of a station, in minute 1, when the period is such a multiple. -/
theorem rem_by_zero_at_minute_one {period : ℕ} (hP : 1073741824 ∣ period) :
    (wlab period).Runs (.ok wlabInit) [⟨60, some ⟨215, 480⟩, 0⟩]
      [.sensorRead 60 (some ⟨215, 480⟩)] (.error .remByZero) := by
  have hprocess : wlabProcess period wlabInit ⟨60, some ⟨215, 480⟩, 0⟩ =
      ([.sensorRead 60 (some ⟨215, 480⟩)], .error .remByZero) := by
    by_cases hz : period = 0
    · subst hz
      decide
    · have hnot : ¬ Due period { wlabInit with lastSecs := 60 } ⟨60, some ⟨215, 480⟩, 0⟩ := by
        have hone : 1 % period = 1 := Nat.mod_eq_of_lt (by omega)
        have hmin : tmMin 60 = 1 := rfl
        simp [Due, hmin, hone]
      have hdue := publishDue_eq hz { wlabInit with lastSecs := 60 } ⟨60, some ⟨215, 480⟩, 0⟩
      have hcommit : wlabBufferCommit period wlabInit.temp (215 : Int16).toInt
          (Sample.ts ⟨60, (215 : Int16).toInt⟩) (threshold .temperature) = .error .remByZero := by
        rw [wlabBufferCommit_eq, if_pos]
        exact ⟨(u32_grid_eq_zero_iff period).mpr hP, by decide, rfl⟩
      have hgate : ¬ (60 : ℤ) - wlabInit.lastSecs < measurePeriod := by decide
      simp only [decide_false, hnot] at hdue
      simp only [wlabProcess, if_neg hgate, hdue, commitBranch, hcommit]
  exact Machine.runs_cons.mpr ⟨_, _, [], congrArg some hprocess, Machine.runs_nil.mpr ⟨rfl, rfl⟩,
    by simp⟩

/-- Neither remainder is by zero in any run exactly when 2^30 does not divide the period. -/
theorem no_rem_by_zero_iff (period : ℕ) :
    (∀ calls h, ¬ (wlab period).Runs (.ok wlabInit) calls h (.error .remByZero)) ↔
      ¬ 1073741824 ∣ period := by
  constructor
  · intro hall hP
    exact hall _ _ (rem_by_zero_at_minute_one hP)
  · intro hP calls h hr
    refine Machine.Runs.invariant (I := fun _ x => x ≠ .error .remByZero) (by simp) ?_ hr rfl
    rintro h x c es y - hs rfl
    obtain ⟨s, rfl, hc⟩ := wlab_step_cases hs
    cases hc with
    | zeroPeriod r hg hsome hz => exact hP (hz ▸ Nat.dvd_zero _)
    | zeroGrid r es hg hsome hd hG he => exact hP ((u32_grid_eq_zero_iff period).mp hG)

/-- The period found at boot is usable exactly when the argument stored last,
or the default 0 where there is none or it cannot be read, is no such multiple. -/
theorem delivered_period_usable_iff {fs : NvsFs} (hfs : fs NVS_ID_WLAB_PUB_PERIOD = none)
    (uses : List PeriodUse) (m : Memory) (addr : ℕ) (readFault writeFault : Option NvsFault) :
    (∀ calls h, ¬ (wlab (deliveredPeriod (uses.foldl PeriodUse.apply fs) m addr readFault
      writeFault)).Runs (.ok wlabInit) calls h (.error .remByZero)) ↔
      ¬ 1073741824 ∣ periodRead (uses.foldl periodAfter none) readFault := by
  rw [((holdsPeriod_none hfs).uses uses).delivered, no_rem_by_zero_iff]

theorem ten_minutes_usable : ¬ ∃ calls h,
    (wlab (deliveredPeriod ([PeriodUse.wlabpubp [[119], [49, 48]] (fun _ => 170) 16 none].foldl
      PeriodUse.apply fun _ => none) (fun _ => 0) 64 none none)).Runs (.ok wlabInit) calls h
      (.error .remByZero) := by
  rintro ⟨calls, h, hr⟩
  exact (delivered_period_usable_iff rfl _ _ _ _ _).mpr (by decide) calls h hr

/-- A station on which no period was ever set. -/
theorem default_period_divides_by_zero :
    ¬ ∀ (fs : NvsFs) (uses : List PeriodUse) (m : Memory) (addr : ℕ)
      (readFault writeFault : Option NvsFault), fs NVS_ID_WLAB_PUB_PERIOD = none → ∀ calls h,
      ¬ (wlab (deliveredPeriod (uses.foldl PeriodUse.apply fs) m addr readFault writeFault)).Runs
        (.ok wlabInit) calls h (.error .remByZero) := by
  intro hall
  exact hall (fun _ => none) [] (fun _ => 0) 64 none none rfl _ _
    (rem_by_zero_at_minute_one (by decide))

end WlabStation.Settings
