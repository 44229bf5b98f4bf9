import WlabStation.Station.Watchdog
import WlabStation.Wlab.Periodic

/-! The period of the station. A turn of the loop in `main` is short enough for the
clock to be read several times in every minute, so no qualifying one is missed. The
calls that block keep to their timeouts, and the uptime stands still between them. -/
namespace WlabStation.Station
open Machine Wlab

/-- The clock of the station in ms. -/
def deviceMs (t : Timestamp) (now : ℤ) : ℤ := 1000 * t.sntpSyncSec + (now - t.uptimeSyncMs)

theorem timestampGet_eq {t : Timestamp} {now : ℤ} (h : t.uptimeSyncMs ≤ now) :
    timestampGet t now = deviceMs t now / 1000 := by
  rw [timestampGet_of_le h]
  unfold deviceMs
  omega

/-- A sync in the loop sets the clock forward by `f` s at most, and a read is
answered, at a time that fits 32 bits. -/
def Steady (f : ℕ) (s : MainState) (a : MainAct) : Prop :=
  match a, s.pc, s.wlab with
  | .sntp (some seconds) ms, .update _ _ _ _, _ =>
      seconds ≤ timestampGet s.clock (s.uptime + ms) + f
  | .process sensor publishRc, _, .ok w =>
      Reads w ⟨timestampGet s.clock s.uptime, sensor, publishRc⟩ →
        sensor ≠ none ∧ timestampGet s.clock s.uptime < 4294967296
  | _, _, _ => True

instance (f : ℕ) : ∀ (s : MainState) (a : MainAct), Decidable (Steady f s a)
  | ⟨pc, _, _, _, _⟩, .sntp (some _) _ => by
    unfold Steady
    rcases pc <;> infer_instance
  | ⟨_, _, _, _, .ok _⟩, .process _ _ => inferInstanceAs (Decidable (_ → _))
  | ⟨_, _, _, _, .error _⟩, .process _ _ => isTrue trivial
  | _, .sntp none _ | _, .proceed | _, .semWait _ _ | _, .publish _ _ | _, .sleep _ | _, .pulse _
  | _, .frame _ | _, .ack _ | _, .keepalive _ => isTrue trivial

/-- By how many ms the clock is at most past the second of the last read. -/
def late (f : ℕ) : MainPc → ℕ
  | .pulse _ _ => 999
  | .frame _ _ _ => 1017
  | .ack _ _ _ => 1067
  | .update _ _ _ _ => 5067
  | .process _ => 9267 + 1000 * f
  | _ => 9067 + 1000 * f

/-- `main` has not entered its loop yet. -/
def booting : MainPc → Bool
  | .wifiInit _ | .wifiWait _ | .mqttInit _ | .mqttWait _ | .timestampInit _ _ | .syncFailed _
  | .authorize _ | .authWait _ => true
  | _ => false

/-- The clock is close to the last read. -/
structure Close (f : ℕ) (s : MainState) : Prop where
  synced : s.clock.uptimeSyncMs ≤ s.uptime
  boot : booting s.pc → s.wlab = .ok wlabInit
  near : ∀ w, s.wlab = .ok w → 0 < w.lastSecs →
    deviceMs s.clock s.uptime ≤ 1000 * w.lastSecs + late f s.pc

theorem close_boot (f : ℕ) : Close f mainBoot := by
  constructor
  case synced => decide
  case boot => exact fun _ => rfl
  case near =>
    rintro w ⟨⟩ hlast
    exact absurd hlast (by decide)

section Steps
variable {period f : ℕ} {s t : MainState}

/-- `main` before its loop, which has read nothing. -/
theorem Close.early (hi : Close f s) (hbooting : booting s.pc) (hwlab : t.wlab = s.wlab)
    (hsynced : t.clock.uptimeSyncMs ≤ t.uptime) : Close f t := by
  have hinit : t.wlab = .ok wlabInit := hwlab.trans (hi.boot hbooting)
  constructor
  case synced => exact hsynced
  case boot => exact fun _ => hinit
  case near =>
    intro w hw hlast
    rw [hinit] at hw
    cases hw
    exact absurd hlast (by decide)

/-- A wait in the loop. -/
theorem Close.wait (hi : Close f s) {ms : ℕ} {pc : MainPc} (hpc : late f s.pc + ms ≤ late f pc)
    (hloop : booting pc = false) : Close f (s.wait ms pc) := by
  have hsynced := hi.synced
  constructor
  case synced =>
    simp only [MainState.wait]
    omega
  case boot => simp [MainState.wait, hloop]
  case near =>
    intro w hw hlast
    have hnear := hi.near w hw hlast
    simp only [MainState.wait, deviceMs] at hnear ⊢
    omega

/-- What takes no time. -/
theorem Close.same (hi : Close f s) {pc : MainPc} (fed : ℤ) (hpc : late f s.pc ≤ late f pc)
    (hloop : booting pc = false) : Close f { s with pc, lastFeed := fed } := by
  constructor
  case synced => exact hi.synced
  case boot => simp [hloop]
  case near =>
    intro w hw hlast
    have hnear := hi.near w hw hlast
    simp only
    omega

/-- A sync of the loop, by which the clock is not set forward too far. -/
theorem Close.sync (hi : Close f s) {slept pulse frame ack ms : ℕ} {answer : Option ℤ}
    (hpc : s.pc = .update slept pulse frame ack) (hms : ms ≤ 4000)
    (hsteady : Steady f s (.sntp answer ms)) : Close f { s.wait ms .keepalive with
      clock := timestampSync s.clock answer (s.uptime + ms) } := by
  have hsynced := hi.synced
  cases answer with
  | none =>
    have hwait : late f s.pc + ms ≤ late f .keepalive := by
      simp only [hpc, late]
      omega
    exact hi.wait hwait rfl
  | some seconds =>
    simp only [Steady, hpc] at hsteady
    rw [timestampGet_eq (by omega)] at hsteady
    constructor
    case synced => exact le_rfl
    case boot => simp [MainState.wait, booting]
    case near =>
      intro w hw hlast
      have hnear := hi.near w hw hlast
      simp only [hpc, late, deviceMs] at hsteady hnear
      simp only [MainState.wait, timestampSync, deviceMs, late]
      omega

/-- A call of `wlab_process` that reads brings the clock close to the last read. -/
theorem Close.process (hi : Close f s) {slept : ℕ} {w : WlabState} {c : Call}
    (hsecs : c.secs = timestampGet s.clock s.uptime) : Close f { s with
      wlab := (wlabProcess period w c).2
      pc := if (wlabProcess period w c).1 = [] then .update slept 0 0 0
        else .pulse slept (publishes (wlabProcess period w c).1) } := by
  have hsynced := hi.synced
  rw [timestampGet_eq hsynced] at hsecs
  have hclock := (wlabProcess_cases period w c).clock
  generalize wlabProcess period w c = r at hclock
  obtain ⟨es, y⟩ := r
  constructor
  case synced => exact hsynced
  case boot =>
    dsimp only
    split_ifs <;> simp [booting]
  case near =>
    rintro t (ht : y = .ok t) hlast
    dsimp only
    cases hclock with
    | skipped hg he hy =>
      obtain rfl : w = t := by simpa [ht] using hy.symm
      unfold Reads measurePeriod at hg
      simp only at he
      simp only [he, ↓reduceIte, late]
      omega
    | read hg hr hp hy =>
      have hne : es ≠ [] := by
        rintro rfl
        cases hr
      rw [if_neg hne, (hy t ht).1]
      simp only [late]
      omega
    | published hg hr hp hd hy =>
      have hne : es ≠ [] := by
        rintro rfl
        cases hr
      rw [if_neg hne, (hy t ht).1]
      simp only [late]
      omega

theorem Close.step (hi : Close f s) {a : MainAct} {es : List WlabEvent}
    (hsteady : Steady f s a) (hc : MainCase period s a es t) : Close f t := by
  have hsynced := hi.synced
  cases hc with
  | wifiFeed secCnt hpc => exact hi.early (by simp [hpc, booting]) rfl hsynced
  | mqttFeed secCnt hpc => exact hi.early (by simp [hpc, booting]) rfl hsynced
  | syncFeed attempts hpc => exact hi.early (by simp [hpc, booting]) rfl hsynced
  | authFeed attempts hpc => exact hi.early (by simp [hpc, booting]) rfl hsynced
  | wifiWait secCnt ms given hpc hms =>
    refine hi.early (by simp [hpc, booting]) rfl ?_
    simp only [MainState.wait]
    omega
  | mqttWait secCnt ms given hpc hms =>
    refine hi.early (by simp [hpc, booting]) rfl ?_
    simp only [MainState.wait]
    omega
  | sync attempts lastWait ms answer hpc hms =>
    refine hi.early (by simp [hpc, booting]) rfl ?_
    cases answer with
    | none =>
      simp only [MainState.wait, timestampSync]
      omega
    | some seconds => exact le_rfl
  | authWait attempts ms rc hpc hms =>
    refine hi.early (by simp [hpc, booting]) rfl ?_
    simp only [MainState.wait]
    omega
  | loopFeed hpc => exact hi.same _ (by simp [hpc, late]) rfl
  | sleep ms hpc hms =>
    refine hi.wait ?_ rfl
    simp only [hpc, late]
    omega
  | process slept w c hpc hw hsecs => exact hi.process hsecs
  | pulse slept ms publishes hpc hms =>
    refine hi.wait ?_ rfl
    simp only [hpc, late]
    omega
  | frame slept pulse ms publishes hpc hms =>
    apply hi.wait
    · split_ifs <;> simp only [hpc, late] <;> omega
    · split_ifs <;> rfl
  | ack slept pulse frame ms hpc hms =>
    unfold MQTT_WORKER_PUBLISH_ACK_TIMEOUT at hms
    refine hi.wait ?_ rfl
    simp only [hpc, late]
    omega
  | updateSync slept pulse frame ack ms answer hpc hms => exact hi.sync hpc hms hsteady
  | updateSkip slept pulse frame ack hpc =>
    refine hi.same s.lastFeed ?_ rfl
    simp only [hpc, late]
    omega
  | keepalive expired hpc =>
    apply hi.same s.lastFeed
    · split_ifs <;> simp [hpc, late]
    · split_ifs <;> rfl

/-- Wherever `main` stands, the last read is not long ago. -/
theorem Close.recent (hi : Close f s) {w : WlabState} (hw : s.wlab = .ok w)
    (hlast : 0 < w.lastSecs) : timestampGet s.clock s.uptime ≤ w.lastSecs + 9 + f := by
  have hnear := hi.near w hw hlast
  have hlate : late f s.pc ≤ 9267 + 1000 * f := by
    cases s.pc <;> simp only [late] <;> omega
  rw [timestampGet_eq hi.synced]
  omega

/-- The account of the publishes along a run of `main`. -/
structure Punctual (period f : ℕ) (h : List WlabEvent) (s : MainState) : Prop where
  close : Close f s
  regular : ∀ w, s.wlab = .ok w → Regular period (9 + f) h w
  alive : publishSecs h ≠ [] → ∃ w, s.wlab = .ok w

theorem punctual_boot (period f : ℕ) : Punctual period f [] mainBoot := by
  constructor
  case close => exact close_boot f
  case regular =>
    rintro w ⟨⟩
    exact regular_init period _
  case alive => exact fun _ => ⟨wlabInit, rfl⟩

theorem Punctual.step {h es : List WlabEvent} (h1 : 1 ≤ period) (h59 : period ≤ 59) (hf : f ≤ 21)
    (hi : Punctual period f h s) {a : MainAct} (hsteady : Steady f s a)
    (hc : MainCase period s a es t) : Punctual period f (h ++ es) t := by
  have hclose := hi.close.step hsteady hc
  by_cases hprocess : ∃ sensor rc, a = .process sensor rc
  · obtain ⟨sensor, rc, rfl⟩ := hprocess
    cases hc with
    | process slept w c hpc hw hsecs =>
      have hon : Reads w c → OnTime (9 + f) w c := by
        intro hreads
        simp only [Steady, hw] at hsteady
        rw [← hsecs] at hsteady
        obtain ⟨hsensor, hsmall⟩ := hsteady hreads
        refine ⟨fun hlast => ?_, hsensor, hsmall⟩
        have hrecent := hi.close.recent hw hlast
        omega
      obtain ⟨hregular, halive⟩ :=
        (hi.regular w hw).step h1 h59 (by omega) hon (wlabProcess_cases period w c)
      exact ⟨hclose, hregular, halive⟩
  · have hsame : es = [] ∧ t.wlab = s.wlab := by
      cases hc with
      | process slept w c hpc hw hsecs => exact absurd ⟨_, _, rfl⟩ hprocess
      | _ => exact ⟨rfl, rfl⟩
    obtain ⟨rfl, hwlab⟩ := hsame
    rw [List.append_nil]
    refine ⟨hclose, ?_, ?_⟩
    · rw [hwlab]
      exact hi.regular
    · rw [hwlab]
      exact hi.alive

end Steps

/-- Once a sample was published, a run of `main` whose sensor answers and whose
clock is not set forward by more than `f` s does not fault, and publishes within
`9 + f` s from the beginning of each qualifying minute. -/
theorem publishes_each_qualifying_minute {period f : ℕ} (h1 : 1 ≤ period) (h59 : period ≤ 59)
    (hf : f ≤ 21) {acts : List MainAct} {h : List WlabEvent} {s : MainState}
    (hr : (mainNormal period).Runs mainBoot acts h s)
    (hsteady : (mainNormal period).EachStep (Steady f) mainBoot acts) {first : ℤ}
    (hfirst : first ∈ publishSecs h) : s.wlab.isOk ∧ ∀ M, first / 60 < M →
      60 * M + 9 + f ≤ timestampGet s.clock s.uptime → minuteOf M % period = 0 →
      ∃ t ∈ publishSecs h, 60 * M ≤ t ∧ t < 60 * M + 9 + f := by
  have hi : Punctual period f h s := by
    apply hr.invariant_of_eachStep (C := Steady f) (I := Punctual period f)
      (punctual_boot period f) _ hsteady
    intro h s a es t hi hsteady hs
    exact hi.step h1 h59 hf hsteady (main_step_cases hs)
  obtain ⟨w, hw⟩ := hi.alive (List.ne_nil_of_mem hfirst)
  have hregular := hi.regular w hw
  refine ⟨by rw [hw]; rfl, ?_⟩
  intro M hM hnow hqual
  have hpos := hregular.prompt first hfirst
  have hle := hregular.clock.publishesLe w rfl first hfirst
  have hrecent := hi.close.recent hw (hpos.1.trans_le hle.1)
  obtain ⟨t, ht, htM⟩ := hregular.complete first hfirst M hM (by omega) hqual
  have hprompt := hregular.prompt t ht
  exact ⟨t, ht, by omega, by omega⟩

/-- What `main` does next when every call succeeds and time is synced to `secs`. -/
def usualAct (secs : ℤ) (s : MainState) : MainAct :=
  match s.pc with
  | .wifiWait _ | .mqttWait _ => .semWait true 500
  | .timestampInit _ _ => .sntp (some secs) 40
  | .authWait _ => .publish 0 30
  | .sleep => .sleep 200
  | .process _ => .process (some ⟨215, 480⟩) 0
  | .pulse _ _ => .pulse 18
  | .frame _ _ _ => .frame 50
  | .ack _ _ _ => .ack 100
  | .keepalive => .keepalive false
  | _ => .proceed

def usualActs (period : ℕ) (secs : ℤ) : ℕ → MainState → List MainAct
  | 0, _ => []
  | n + 1, s =>
    match (mainNormal period).step s (usualAct secs s) with
    | none => []
    | some (_, t) => usualAct secs s :: usualActs period secs n t

set_option maxRecDepth 100000 in
theorem usual_hour_published : ∃ h s,
    (mainNormal 59).Runs mainBoot (usualActs 59 1699999139 1800 mainBoot) h s ∧
      publishSecs h = [1699999143, 1699999203] ∧ s.wlab.isOk ∧ ∀ M, 1699999143 / 60 < M →
        60 * M + 9 + (0 : ℕ) ≤ timestampGet s.clock s.uptime → minuteOf M % 59 = 0 →
        ∃ t ∈ publishSecs h, 60 * M ≤ t ∧ t < 60 * M + 9 + (0 : ℕ) := by
  have hr : (mainNormal 59).Runs mainBoot (usualActs 59 1699999139 1800 mainBoot) _ _ :=
    runs_get (by decide +kernel)
  refine ⟨_, _, hr, by decide +kernel, publishes_each_qualifying_minute (by decide) (by decide)
    (by decide) hr (by decide +kernel) (by decide +kernel)⟩

end WlabStation.Station
