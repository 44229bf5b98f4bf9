import WlabStation.Station.Periodic
import WlabStation.System.Silence

/-! A deadline for the boot: whatever the access point, the broker and the time
server do, `main` enters its loop or has given up after a bounded time. Each call
that blocks keeps to its timeout; what is computed between the calls takes no time. -/
namespace WlabStation.System
open Machine Wlab Station Network

/-- Where `main` is in its boot, how often it has tried, and for how long it has
been up at most: two waits in seconds, then two rounds of attempts of 4 s. -/
def OnSchedule (s : MainState) : Prop :=
  match s.pc with
  | .wifiInit secCnt | .wifiWait secCnt =>
      secCnt < CONFIG_WIFI_FIRST_CONN_TIMEOUT_SEC ∧ s.uptime ≤ 1000 * secCnt
  | .mqttInit secCnt | .mqttWait secCnt =>
      secCnt < CONFIG_MQTT_FIRST_CONN_TIMEOUT_SEC ∧ s.uptime ≤ 20000 + 1000 * secCnt
  | .timestampInit attempts _ => attempts < 8 ∧ s.uptime ≤ 40000 + 4000 * attempts
  | .syncFailed attempts => attempts ≤ 8 ∧ s.uptime ≤ 40000 + 4000 * attempts
  | .authorize attempts | .authWait attempts => attempts < 8 ∧ s.uptime ≤ 72000 + 4000 * attempts
  | _ => True

theorem onSchedule_boot : OnSchedule mainBoot := ⟨by decide, by decide⟩

section Steps
variable {period : ℕ} {s m : MainState}

theorem onSchedule_of_loop (hloop : booting s.pc = false) : OnSchedule s := by
  unfold OnSchedule
  split <;> first | trivial | simp_all [booting]

theorem OnSchedule.step (hi : OnSchedule s) {a : MainAct} {ds : List WlabEvent}
    (hc : MainCase period s a ds m) : OnSchedule m := by
  unfold OnSchedule CONFIG_WIFI_FIRST_CONN_TIMEOUT_SEC CONFIG_MQTT_FIRST_CONN_TIMEOUT_SEC at hi
  cases hc with
  | wifiFeed secCnt hpc | mqttFeed secCnt hpc | authFeed attempts hpc =>
    simp only [hpc] at hi
    exact hi
  | wifiWait secCnt ms given hpc hms =>
    simp only [hpc] at hi
    split_ifs with hgiven hlast
    · simp only [OnSchedule, MainState.wait, CONFIG_MQTT_FIRST_CONN_TIMEOUT_SEC]
      omega
    · exact onSchedule_of_loop rfl
    · simp only [OnSchedule, MainState.wait]
      unfold CONFIG_WIFI_FIRST_CONN_TIMEOUT_SEC at hlast ⊢
      omega
  | mqttWait secCnt ms given hpc hms =>
    simp only [hpc] at hi
    split_ifs with hgiven hlast
    · simp only [OnSchedule, MainState.wait]
      omega
    · exact onSchedule_of_loop rfl
    · simp only [OnSchedule, MainState.wait]
      unfold CONFIG_MQTT_FIRST_CONN_TIMEOUT_SEC at hlast ⊢
      omega
  | sync attempts lastWait ms answer hpc hms =>
    simp only [hpc] at hi
    split_ifs with hanswer
    · simp only [OnSchedule, MainState.wait]
      omega
    · simp only [OnSchedule, MainState.wait]
      omega
  | syncFeed attempts hpc =>
    simp only [hpc] at hi
    split_ifs with hlast
    · exact onSchedule_of_loop rfl
    · simp only [OnSchedule, MainState.feed]
      omega
  | authWait attempts ms rc hpc hms =>
    simp only [hpc, MQTT_WORKER_PUBLISH_ACK_TIMEOUT] at hi hms
    split_ifs with hrc hlast
    · exact onSchedule_of_loop rfl
    · exact onSchedule_of_loop rfl
    · simp only [OnSchedule, MainState.wait]
      omega
  | process slept w c hpc hw hsecs =>
    apply onSchedule_of_loop
    dsimp only
    split_ifs <;> rfl
  | frame slept pulse ms publishes hpc hms =>
    apply onSchedule_of_loop
    cases publishes <;> rfl
  | keepalive expired hpc =>
    apply onSchedule_of_loop
    cases expired <;> rfl
  | loopFeed hpc | sleep ms hpc hms | pulse slept ms publishes hpc hms
  | ack slept pulse frame ms hpc hms | updateSync slept pulse frame ack ms answer hpc hms
  | updateSkip slept pulse frame ack hpc => exact onSchedule_of_loop rfl

/-- The call of the boot that blocks `main` ends before the deadline. -/
theorem OnSchedule.deadline (hi : OnSchedule s) (hboot : booting s.pc) :
    s.uptime + blockLimit s ≤ 104000 := by
  unfold OnSchedule CONFIG_WIFI_FIRST_CONN_TIMEOUT_SEC CONFIG_MQTT_FIRST_CONN_TIMEOUT_SEC at hi
  unfold blockLimit MQTT_WORKER_PUBLISH_ACK_TIMEOUT
  cases hpc : s.pc <;> simp only [hpc, booting, reduceCtorEq] at hi hboot ⊢ <;> omega

end Steps

/-- In every run `main` is in its boot for 104 s at most: 20 s for an address, 20 s
for a session, 8 syncs and 8 authorisations of 4 s. -/
theorem boots_within {cfg : Config} {acts : List SystemAct} {h : List SystemEvent}
    {s : SystemState} (hr : (system cfg).Runs powerOn acts h s) (hboot : booting s.main.pc) :
    s.worker.uptime ≤ 104000 := by
  obtain ⟨bs, hbs⟩ := main_runs hr
  have hschedule : OnSchedule s.main := by
    apply hbs.invariant (I := fun _ s => OnSchedule s) onSchedule_boot
    intro h s a es m hi hs
    exact hi.step (main_step_cases hs)
  have hwithin := (inStep_run hr).within
  have hdeadline := hschedule.deadline hboot
  omega

/-- Three seconds without an address. -/
def noAddress : List SystemAct :=
  .wifiInit 0 :: .tick 1000 :: .wifiTimeout ::
    (List.replicate 2 [.proceed, .tick 1000, .wifiTimeout]).flatten

theorem three_seconds_within : ∃ h s, (system someStation).Runs powerOn noAddress h s ∧
    s.main.pc = .wifiInit 3 ∧ s.worker.uptime = 3000 ∧ s.worker.uptime ≤ 104000 := by
  have hr : (system someStation).Runs powerOn noAddress _ _ := runs_get (by decide +kernel)
  exact ⟨_, _, hr, by decide +kernel, by decide +kernel, boots_within hr (by decide +kernel)⟩

end WlabStation.System
