import WlabStation.Station.MainLoop
import WlabStation.Station.Periodic

/-! How long the sensor rests. `wlab_process` counts the 4 s between two reads on
a clock that a sync may set forward, and that shows whole seconds only. -/
namespace WlabStation.Station
open Machine Wlab

/-- A sync sets the clock forward by `f` s at most. -/
def Forward (f : ℕ) (s : MainState) : MainAct → Prop
  | .sntp (some seconds) ms => seconds ≤ timestampGet s.clock (s.uptime + ms) + f
  | _ => True

instance (f : ℕ) (s : MainState) : DecidablePred (Forward f s)
  | .sntp (some _) _ => inferInstanceAs (Decidable (_ ≤ _))
  | .sntp none _ | .proceed | .semWait _ _ | .publish _ _ | .sleep _ | .process _ _ | .pulse _
  | .frame _ | .ack _ | .keepalive _ => isTrue trivial

/-- What a step in the loop does to the time, the clock and the statics of `wlab.c`. -/
inductive LoopCase (period : ℕ) (s t : MainState) : MainAct → List WlabEvent → Prop where
  | quiet (a : MainAct) : t.clock = s.clock → t.wlab = s.wlab → s.uptime ≤ t.uptime →
      LoopCase period s t a []
  | sync (answer : Option ℤ) (ms : ℕ) : Stale s.clock s.uptime → t.uptime = s.uptime + ms →
      t.clock = timestampSync s.clock answer t.uptime → t.wlab = s.wlab →
      LoopCase period s t (.sntp answer ms) []
  | process (w : WlabState) (c : Call) : s.wlab = .ok w → c.secs = timestampGet s.clock s.uptime →
      t.clock = s.clock → t.uptime = s.uptime → t.wlab = (wlabProcess period w c).2 →
      LoopCase period s t (.process c.sensor c.publishRc) (wlabProcess period w c).1

section Steps
variable {period f : ℕ} {s t : MainState} {a : MainAct} {es : List WlabEvent}

theorem loop_step_cases (hloop : booting s.pc = false)
    (hs : (mainNormal period).step s a = some (es, t)) :
    booting t.pc = false ∧ LoopCase period s t a es := by
  cases main_step_cases hs with
  | wifiFeed secCnt hpc | mqttFeed secCnt hpc | syncFeed attempts hpc | authFeed attempts hpc
  | wifiWait secCnt ms given hpc hms | mqttWait secCnt ms given hpc hms
  | sync attempts lastWait ms answer hpc hms | authWait attempts ms rc hpc hms =>
    simp [hpc, booting] at hloop
  | loopFeed hpc => exact ⟨rfl, .quiet _ rfl rfl le_rfl⟩
  | sleep ms hpc hms => exact ⟨rfl, .quiet _ rfl rfl (by simp [MainState.wait])⟩
  | process slept w c hpc hw hsecs =>
    refine ⟨?_, .process w c hw hsecs rfl rfl rfl⟩
    split_ifs <;> rfl
  | pulse slept ms publishes hpc hms => exact ⟨rfl, .quiet _ rfl rfl (by simp [MainState.wait])⟩
  | frame slept pulse ms publishes hpc hms =>
    refine ⟨?_, .quiet _ rfl rfl (by simp [MainState.wait])⟩
    cases publishes <;> rfl
  | ack slept pulse frame ms hpc hms => exact ⟨rfl, .quiet _ rfl rfl (by simp [MainState.wait])⟩
  | updateSync slept pulse frame ack ms answer hpc hms =>
    refine ⟨rfl, .sync answer ms ?_ rfl rfl rfl⟩
    simp only [mainNormal, hpc, Option.ite_none_right_eq_some] at hs
    exact hs.1.2.1
  | updateSkip slept pulse frame ack hpc => exact ⟨rfl, .quiet _ rfl rfl le_rfl⟩
  | keepalive expired hpc =>
    refine ⟨?_, .quiet _ rfl rfl le_rfl⟩
    cases expired <;> rfl

/-- What a call leaves as the time of the last read. -/
theorem process_lastSecs {w v : WlabState} {c : Call}
    (hv : (wlabProcess period w c).2 = .ok v) :
    Reads w c ∧ v.lastSecs = c.secs ∨ ¬ Reads w c ∧ v = w := by
  have hclock := (wlabProcess_cases period w c).clock
  rw [hv] at hclock
  cases hclock with
  | skipped hg he hy => exact .inr ⟨hg, Except.ok.inj hy⟩
  | read hg hr hp hy => exact .inl ⟨hg, (hy v rfl).1⟩
  | published hg hr hp hd hy => exact .inl ⟨hg, (hy v rfl).1⟩

/-- No clock of a run was set in the future. -/
theorem clock_synced {acts : List MainAct} {h : List WlabEvent}
    (hr : (mainNormal period).Runs mainBoot acts h s) : s.clock.uptimeSyncMs ≤ s.uptime := by
  apply hr.invariant (I := fun _ s => s.clock.uptimeSyncMs ≤ s.uptime) (by decide)
  intro h s a es t hi hs
  have hwait : ∀ ms pc, (s.wait ms pc).clock.uptimeSyncMs ≤ (s.wait ms pc).uptime := by
    intro ms pc
    simp only [MainState.wait]
    omega
  cases main_step_cases hs with
  | wifiWait secCnt ms given hpc hms | mqttWait secCnt ms given hpc hms
  | authWait attempts ms rc hpc hms | sleep ms hpc hms | pulse slept ms publishes hpc hms
  | frame slept pulse ms publishes hpc hms | ack slept pulse frame ms hpc hms => exact hwait _ _
  | sync attempts lastWait ms answer hpc hms
  | updateSync slept pulse frame ack ms answer hpc hms =>
    cases answer with
    | none => exact hwait _ _
    | some seconds => exact le_rfl
  | _ => exact hi

/-- Since a read at uptime `since`: until the sensor has rested, the clock has
gone on with the uptime, but for one sync. -/
structure Resting (f : ℕ) (since : ℤ) (s : MainState) : Prop where
  loop : booting s.pc = false
  synced : s.clock.uptimeSyncMs ≤ s.uptime
  later : since ≤ s.uptime
  rest : since + 3001 ≤ s.uptime + 1000 * f ∨ ∀ w, s.wlab = .ok w →
    deviceMs s.clock s.uptime ≤ 1000 * w.lastSecs + 999 + (s.uptime - since) +
      (if s.clock.uptimeSyncMs < since then 0 else 1000 * f : ℤ)

/-- A read takes place after the rest only. -/
theorem Resting.rested {since : ℤ} (hi : Resting f since s) {w : WlabState} {c : Call}
    (hw : s.wlab = .ok w) (hsecs : c.secs = timestampGet s.clock s.uptime) (hreads : Reads w c) :
    since + 3001 ≤ s.uptime + 1000 * f := by
  rcases hi.rest with hrest | hrest
  · exact hrest
  · have hclock := hrest w hw
    rw [timestampGet_eq hi.synced] at hsecs
    have hlt := hreads.lt
    split_ifs at hclock <;> omega

theorem Resting.sync {since : ℤ} (hi : Resting f since s) (hloop : booting t.pc = false)
    {answer : Option ℤ} {ms : ℕ} (hforward : Forward f s (.sntp answer ms))
    (hstale : Stale s.clock s.uptime) (huptime : t.uptime = s.uptime + ms)
    (hclock : t.clock = timestampSync s.clock answer t.uptime) (hwlab : t.wlab = s.wlab) :
    Resting f since t := by
  obtain ⟨-, hsynced, hlater, hrest⟩ := hi
  unfold Stale timestampUpdatePeriodSec at hstale
  constructor
  case loop => exact hloop
  case synced =>
    rw [hclock]
    cases answer with
    | none =>
      simp only [timestampSync]
      omega
    | some seconds => exact le_rfl
  case later => omega
  case rest =>
    by_cases hlong : since ≤ s.clock.uptimeSyncMs
    · left
      omega
    rcases hrest with hrest | hrest
    · left
      omega
    right
    intro w hw
    rw [hwlab] at hw
    have hlast := hrest w hw
    rw [if_pos (by omega)] at hlast
    rw [hclock]
    cases answer with
    | none =>
      simp only [timestampSync, deviceMs] at hlast ⊢
      split_ifs <;> omega
    | some seconds =>
      simp only [Forward] at hforward
      rw [timestampGet_eq (by omega)] at hforward
      simp only [timestampSync, deviceMs] at hlast hforward ⊢
      split_ifs <;> omega

theorem Resting.step {since : ℤ} (hi : Resting f since s) (hforward : Forward f s a)
    (hs : (mainNormal period).step s a = some (es, t)) : Resting f since t := by
  obtain ⟨hloop, hc⟩ := loop_step_cases hi.loop hs
  have hsynced := hi.synced
  have hlater := hi.later
  cases hc with
  | sync answer ms hstale huptime hclock hwlab =>
    exact hi.sync hloop hforward hstale huptime hclock hwlab
  | quiet a hclock hwlab huptime =>
    constructor
    case loop => exact hloop
    case synced =>
      rw [hclock]
      omega
    case later => omega
    case rest =>
      rcases hi.rest with hrest | hrest
      · left
        omega
      right
      intro w hw
      rw [hwlab] at hw
      have hlast := hrest w hw
      rw [hclock]
      simp only [deviceMs] at hlast ⊢
      split_ifs at hlast ⊢ <;> omega
  | process w c hw hsecs hclock huptime hwlab =>
    constructor
    case loop => exact hloop
    case synced => rwa [hclock, huptime]
    case later => rwa [huptime]
    case rest =>
      rw [huptime, hclock, hwlab]
      by_cases hreads : Reads w c
      · exact .inl (hi.rested hw hsecs hreads)
      · rcases hi.rest with hrest | hrest
        · exact .inl hrest
        right
        intro v hv
        obtain ⟨hreads', -⟩ | ⟨-, rfl⟩ := process_lastSecs hv
        · exact absurd hreads' hreads
        · exact hrest v hw

/-- A call that reads starts the rest. -/
theorem resting_read (hsynced : s.clock.uptimeSyncMs ≤ s.uptime)
    (hs : (mainNormal period).step s a = some (es, t)) (hes : readSecs es ≠ []) :
    Resting f s.uptime t := by
  have hc := main_step_cases hs
  cases hc with
  | process slept w c hpc hw hsecs =>
    have hreads : Reads w c := by
      rwa [ne_eq, readSecs_eq_nil_iff, not_not] at hes
    rw [timestampGet_eq hsynced] at hsecs
    constructor
    case loop =>
      dsimp only
      split_ifs <;> rfl
    case synced => exact hsynced
    case later => exact le_rfl
    case rest =>
      right
      intro v hv
      obtain ⟨-, hlast⟩ | ⟨hskip, -⟩ := process_lastSecs hv
      · rw [hlast, hsecs]
        dsimp only
        split_ifs <;> omega
      · exact absurd hreads hskip
  | _ => exact absurd rfl hes

end Steps

/-- Between two reads of the sensor pass more than 3 s of uptime, less what a sync
between them has set the clock forward. -/
theorem reads_apart {period f : ℕ} {acts acts' : List MainAct} {h k es es' : List WlabEvent}
    {s t u v : MainState} {a b : MainAct} (hr : (mainNormal period).Runs mainBoot acts h s)
    (hread : (mainNormal period).step s a = some (es, t)) (hes : readSecs es ≠ [])
    (hr' : (mainNormal period).Runs t acts' k u)
    (hforward : (mainNormal period).EachStep (Forward f) t acts')
    (hread' : (mainNormal period).step u b = some (es', v)) (hes' : readSecs es' ≠ []) :
    s.uptime + 3001 ≤ u.uptime + 1000 * f := by
  have hi : Resting f s.uptime u := by
    apply hr'.invariant_of_eachStep (C := Forward f) (I := fun _ u => Resting f s.uptime u)
      (resting_read (clock_synced hr) hread hes) _ hforward
    intro h s a es t hi hforward hs
    exact hi.step hforward hs
  obtain ⟨-, hc⟩ := loop_step_cases hi.loop hread'
  cases hc with
  | process w c hw hsecs hclock huptime hwlab =>
    rw [ne_eq, readSecs_eq_nil_iff, not_not] at hes'
    exact hi.rested hw hsecs hes'
  | _ => exact absurd rfl hes'

/-- Boot, and a first turn whose read comes at the end of a second of the clock. -/
def lateInSecond : List MainAct :=
  [.proceed, .semWait true 500, .proceed, .semWait true 500, .sntp (some 1700000065) 40, .proceed,
    .publish 0 799, .proceed, .sleep 200]

/-- A turn without a read, up to `wlab_process`, and on to the next turn. -/
def idleTurn (ms : ℕ) : List MainAct := [.proceed, .sleep ms, .process none 0, .proceed,
  .keepalive false]

/-- Up to the read at the beginning of the fourth second after it. -/
def shortestRest : List MainAct :=
  [.pulse 18, .frame 50, .proceed, .keepalive false] ++
    (List.replicate 14 (idleTurn 200)).flatten ++ [.proceed, .sleep 133]

theorem shortest_rest_apart : ∃ h s es t k u es' v,
    (mainNormal 5).Runs mainBoot lateInSecond h s ∧
      (mainNormal 5).step s (.process (some ⟨215, 480⟩) 0) = some (es, t) ∧ readSecs es ≠ [] ∧
      (mainNormal 5).Runs t shortestRest k u ∧
      (mainNormal 5).step u (.process (some ⟨216, 481⟩) 0) = some (es', v) ∧ readSecs es' ≠ [] ∧
      u.uptime = s.uptime + 3001 ∧ s.uptime + 3001 ≤ u.uptime + 1000 * (0 : ℕ) := by
  have hr : (mainNormal 5).Runs mainBoot lateInSecond _ _ := runs_get (by decide +kernel)
  have hread : (mainNormal 5).step
      (((mainNormal 5).run mainBoot lateInSecond).get (by decide +kernel)).2
      (.process (some ⟨215, 480⟩) 0) = some (_, _) := (Option.some_get (by decide +kernel)).symm
  have hr' : (mainNormal 5).Runs
      (((mainNormal 5).step (((mainNormal 5).run mainBoot lateInSecond).get (by decide +kernel)).2
        (.process (some ⟨215, 480⟩) 0)).get (by decide +kernel)).2 shortestRest _ _ :=
    runs_get (by decide +kernel)
  have hread' : (mainNormal 5).step (((mainNormal 5).run
      (((mainNormal 5).step (((mainNormal 5).run mainBoot lateInSecond).get (by decide +kernel)).2
        (.process (some ⟨215, 480⟩) 0)).get (by decide +kernel)).2 shortestRest).get
          (by decide +kernel)).2
      (.process (some ⟨216, 481⟩) 0) = some (_, _) := (Option.some_get (by decide +kernel)).symm
  exact ⟨_, _, _, _, _, _, _, _, hr, hread, by decide +kernel, hr', hread', by decide +kernel,
    by decide +kernel, reads_apart hr hread (by decide +kernel) hr' (by decide +kernel) hread'
      (by decide +kernel)⟩

end WlabStation.Station
