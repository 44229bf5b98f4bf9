import WlabStation.System.Silence

/-! The watchdog of the whole station: whatever the threads, the broker and the
network do, `main` feeds it again after a bounded time, if each call that blocks
keeps to its timeout and what is computed between the calls takes no time. -/
namespace WlabStation.System
open Machine Wlab Station

/-- How long ago `main` has fed the watchdog at most, by where it stands. -/
def unfed : MainPc → ℕ
  | .wifiWait _ | .mqttWait _ | .authWait _ | .sleep => 0
  | .wifiInit _ | .mqttInit _ | .timestampInit _ _ => 1000
  | .syncFailed _ | .authorize _ => 5000
  | .process _ | .pulse _ _ => 200
  | .frame _ _ _ => 218
  | .ack _ _ _ => 268
  | .update _ _ _ _ => 4268
  | .loopTop | .keepalive | .stopped => 8268

def Fed (s : MainState) : Prop := s.uptime ≤ s.lastFeed + unfed s.pc

theorem fed_boot : Fed mainBoot := by
  unfold Fed
  decide

section Steps
variable {period : ℕ} {s m : MainState}

theorem fed_feed (pc : MainPc) : Fed (s.feed pc) := by
  simp only [Fed, MainState.feed]
  omega

/-- A wait that the account of the next place covers. -/
theorem Fed.wait (hi : Fed s) {ms : ℕ} {pc : MainPc} (hpc : unfed s.pc + ms ≤ unfed pc) :
    Fed (s.wait ms pc) := by
  unfold Fed at hi ⊢
  simp only [MainState.wait]
  omega

theorem Fed.step (hi : Fed s) {a : MainAct} {ds : List WlabEvent}
    (hc : MainCase period s a ds m) : Fed m := by
  cases hc with
  | wifiFeed secCnt hpc => exact fed_feed _
  | mqttFeed secCnt hpc => exact fed_feed _
  | syncFeed attempts hpc => exact fed_feed _
  | authFeed attempts hpc => exact fed_feed _
  | loopFeed hpc => exact fed_feed _
  | wifiWait secCnt ms given hpc hms =>
    apply hi.wait
    split_ifs <;> simp only [hpc, unfed] <;> omega
  | mqttWait secCnt ms given hpc hms =>
    apply hi.wait
    split_ifs <;> simp only [hpc, unfed] <;> omega
  | sync attempts lastWait ms answer hpc hms =>
    have hwait : unfed s.pc + ms ≤
        unfed (if answer.isSome then .authorize 0 else .syncFailed (attempts + 1)) := by
      split_ifs <;> simp only [hpc, unfed] <;> omega
    exact hi.wait hwait
  | authWait attempts ms rc hpc hms =>
    unfold MQTT_WORKER_PUBLISH_ACK_TIMEOUT at hms
    apply hi.wait
    split_ifs <;> simp only [hpc, unfed] <;> omega
  | sleep ms hpc hms =>
    apply hi.wait
    simpa only [hpc, unfed, zero_add] using hms
  | process slept w c hpc hw hsecs =>
    unfold Fed at hi ⊢
    dsimp only
    rw [hpc] at hi
    split_ifs <;> simp only [unfed] at hi ⊢ <;> omega
  | pulse slept ms publishes hpc hms =>
    apply hi.wait
    simp only [hpc, unfed]
    omega
  | frame slept pulse ms publishes hpc hms =>
    apply hi.wait
    split_ifs <;> simp only [hpc, unfed] <;> omega
  | ack slept pulse frame ms hpc hms =>
    unfold MQTT_WORKER_PUBLISH_ACK_TIMEOUT at hms
    apply hi.wait
    simp only [hpc, unfed]
    omega
  | updateSync slept pulse frame ack ms answer hpc hms =>
    have hwait : unfed s.pc + ms ≤ unfed .keepalive := by
      simp only [hpc, unfed]
      omega
    exact hi.wait hwait
  | updateSkip slept pulse frame ack hpc =>
    unfold Fed at hi ⊢
    simp only [hpc, unfed] at hi ⊢
    omega
  | keepalive expired hpc =>
    unfold Fed at hi ⊢
    rw [hpc] at hi
    cases expired <;> exact hi

/-- The call that blocks `main` is over before the account is. -/
theorem unfed_blocked (s : MainState) : unfed s.pc + blockLimit s ≤ 8268 := by
  unfold blockLimit MQTT_WORKER_PUBLISH_ACK_TIMEOUT
  cases hpc : s.pc <;> simp only [unfed] <;> first | omega | (split_ifs <;> omega)

end Steps

/-- In every run the watchdog is fed again within 8268 ms of uptime: 200, 18 and
50 ms, a publish that is not acknowledged and a sync that is not answered. -/
theorem fed_within {cfg : Config} {acts : List SystemAct} {h : List SystemEvent}
    {s : SystemState} (hr : (system cfg).Runs powerOn acts h s) :
    s.worker.uptime ≤ s.main.lastFeed + 8268 := by
  obtain ⟨bs, hbs⟩ := main_runs hr
  have hfed : Fed s.main := by
    apply hbs.invariant (I := fun _ s => Fed s) fed_boot
    intro h s a es m hi hs
    exact hi.step (main_step_cases hs)
  have hwithin := (inStep_run hr).within
  have hlimit := unfed_blocked s.main
  unfold Fed at hfed
  omega

theorem first_read_fed : ∃ h s, (system someStation).Runs powerOn firstRead h s ∧
    s.main.lastFeed = 670 ∧ s.worker.uptime ≤ s.main.lastFeed + 8268 := by
  have hr : (system someStation).Runs powerOn firstRead _ _ := runs_get (by decide +kernel)
  exact ⟨_, _, hr, by decide +kernel, fed_within hr⟩

end WlabStation.System
