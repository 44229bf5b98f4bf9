import WlabStation.System.Gate

/-! A broker that no longer answers: each turn of the loop in `main` ends with
the keepalive test and takes a bounded time, so a reboot comes in time. Time passes
in the calls that block, in each for its own timeout at most, and not between them. -/
namespace WlabStation.System
open Machine Temporal Wlab Station Mqtt Network Sensor Settings

/-- What `LastKeepaliveResp` remembers. -/
def Answered : SystemEvent → Prop
  | .worker (.event .connack result) => result = 0
  | .worker (.event .pingresp _) => True
  | _ => False

instance : DecidablePred Answered := by
  intro e
  unfold Answered
  split <;> infer_instance

/-- Time passes only while a call blocks `main`, and no longer than it may. -/
structure InStep (s : SystemState) : Prop where
  behind : s.main.uptime ≤ s.worker.uptime
  within : s.worker.uptime ≤ s.main.uptime + blockLimit s.main

/-- For how long a step of `main` has blocked it. -/
def duration : MainAct → ℕ
  | .semWait _ ms | .sntp _ ms | .publish _ ms | .sleep ms | .pulse ms | .frame ms | .ack ms => ms
  | .proceed | .process _ _ | .keepalive _ => 0

theorem main_uptime {period : ℕ} {s m : MainState} {a : MainAct} {ds : List WlabEvent}
    (hc : MainCase period s a ds m) : m.uptime = s.uptime + duration a := by
  cases hc <;> simp [MainState.feed, MainState.wait, duration]

section Clock
variable {cfg : Config} {h es : List SystemEvent} {s u : SystemState}

theorem InStep.waited (hi : InStep s) : s.main.uptime + s.waited = s.worker.uptime := by
  have := hi.behind
  simp only [SystemState.waited]
  omega

/-- A call returns, and `main` sees the time. -/
theorem InStep.returned (hi : InStep s) {a : MainAct} {ds : List WlabEvent} {m : MainState}
    (hm : MainCase cfg.period s.main a ds m) (ha : duration a = s.waited)
    (hmain : u.main = m) (hworker : u.worker.uptime = s.worker.uptime) : InStep u := by
  have huptime := main_uptime hm
  have hwaited := hi.waited
  rw [ha] at huptime
  constructor <;> rw [hmain, hworker] <;> omega

/-- `main` goes on without having been blocked. -/
theorem InStep.goesOn (hi : InStep s) {a : MainAct} {ds : List WlabEvent} {m : MainState}
    (hm : MainCase cfg.period s.main a ds m) (ha : duration a = 0) (hlimit : blockLimit s.main = 0)
    (hmain : u.main = m) (hworker : u.worker.uptime = s.worker.uptime) : InStep u := by
  have huptime := main_uptime hm
  obtain ⟨hbehind, hwithin⟩ := hi
  rw [ha] at huptime
  rw [hlimit] at hwithin
  constructor <;> rw [hmain, hworker] <;> omega

theorem InStep.same (hi : InStep s) (hmain : u.main = s.main)
    (hworker : u.worker.uptime = s.worker.uptime) : InStep u := by
  obtain ⟨hbehind, hwithin⟩ := hi
  constructor <;> rw [hmain, hworker] <;> assumption

/-- `main` proceeds where no call blocks it. -/
theorem proceed_unblocked {period : ℕ} {s m : MainState} {ds : List WlabEvent}
    (hs : (mainNormal period).step s .proceed = some (ds, m)) : blockLimit s = 0 := by
  cases hpc : s.pc <;> simp only [mainNormal, hpc, reduceCtorEq] at hs <;>
    simp only [blockLimit, hpc]
  split_ifs at hs with hgo
  simp [hgo.1]

theorem InStep.call (hi : InStep s) {a : PublishAct} (hc : CallCase cfg s a es u) : InStep u := by
  cases hc with
  | goes ds p hp hnone => exact hi.same rfl rfl
  | authorized ds p attempts rc m hp hrc hpc hm => exact hi.returned hm rfl rfl rfl
  | sampled ds p rc m hp hrc hsample hm => exact hi.returned hm rfl rfl rfl

/-- Only time itself moves the clock of the network thread, and only an answer
of the broker what it remembers of it. -/
theorem worker_times {cfg : WorkerConfig} {s t : Worker} {a : WorkerAct} {ds : List WorkerEvent}
    (hc : TimeCase cfg s a ds t) (ha : ∀ ms, a ≠ .tick ms) :
    t.uptime = s.uptime ∧ ((∀ d ∈ ds, ¬ Answered (.worker d)) →
      t.lastKeepaliveResp = s.lastKeepaliveResp) := by
  cases hc with
  | event type result =>
    cases type with
    | connack => by_cases hresult : result = 0 <;> simp [mqttEvtHandler, Answered, hresult]
    | pingresp => simp [mqttEvtHandler, Answered]
    | _ => exact ⟨rfl, fun _ => rfl⟩
  | tick ms => exact absurd rfl (ha ms)
  | input t hnow hsame =>
    simp only [Worker.times, Prod.mk.injEq] at hsame
    exact ⟨hsame.1, fun _ => hsame.2.1⟩
  | live hnow => exact ⟨rfl, fun _ => rfl⟩
  | other a es t hdeaf hquiet hsame =>
    simp only [Worker.times, Prod.mk.injEq] at hsame
    exact ⟨hsame.1, fun _ => hsame.2.1⟩

/-- The network thread itself has no time. -/
theorem threadAct_tick {main : MainPc} {pc : WorkerPc} {a : WorkerAct} (ha : threadAct main pc a)
    (ms : ℕ) : a ≠ .tick ms := by
  rintro rfl
  cases ha

theorem InStep.step (hi : InStep s) {a : SystemAct} (hc : SystemCase cfg s a es u) : InStep u := by
  cases hc with
  | tick ms hlimit =>
    have := hi.behind
    constructor <;> simp only [SystemState.withWorker] <;> omega
  | wifiInit ret m ds w hpc hm hw => exact hi.goesOn hm rfl (by simp [blockLimit, hpc]) rfl rfl
  | wifiWait act a given secCnt m ds w hgiven hpc hw hm => exact hi.returned hm rfl rfl rfl
  | mqttInit m w hpc hw hm => exact hi.goesOn hm rfl (by simp [blockLimit, hpc]) rfl rfl
  | mqttTaken secCnt sem m hpc htake hm => exact hi.returned hm rfl rfl rfl
  | mqttTimeout secCnt m hpc hm => exact hi.returned hm rfl rfl rfl
  | proceed m hpc hpc' hm =>
    exact hi.goesOn (main_step_cases hm) rfl (proceed_unblocked hm) rfl rfl
  | sync answer m hm => exact hi.returned hm rfl rfl rfl
  | authorize fs name deviceId position attempts text uid es u hpc htext huid hidle hc =>
    exact (hi.same (u := { s with deviceId := uid }) rfl rfl).call hc
  | wait act a m ha hm =>
    rcases ha with rfl | rfl | rfl
    · exact hi.returned hm rfl rfl rfl
    · exact hi.returned hm rfl rfl rfl
    · exact hi.returned hm rfl rfl rfl
  | skip usNow w publishRc wl ds m hwl hreads hm =>
    obtain ⟨slept, hpc⟩ := process_pc hm
    exact hi.goesOn hm rfl (by simp [blockLimit, hpc]) rfl rfl
  | read usNow w publishRc wl r reading ds m d hwl hreads hr hreading hm =>
    obtain ⟨slept, hpc⟩ := process_pc hm
    exact hi.goesOn hm rfl (by simp [blockLimit, hpc]) rfl rfl
  | sample p slept pulse frame text es u hpc hp htext hidle hc => exact hi.call hc
  | publish a es u ha hc => exact hi.call hc
  | keepalive m hm =>
    have hlimit : blockLimit s.main = 0 := by
      generalize keepaliveTest cfg.maxPingNoAnsMins s.worker = expired at hm
      cases hm with
      | keepalive expired hpc => simp [blockLimit, hpc]
    exact hi.goesOn hm rfl hlimit rfl rfl
  | address dhcp w hmem hw => exact hi.same rfl rfl
  | lost status ds w hdisco hw => exact hi.same rfl rfl
  | handler a ds w ha hno hdisco hw => exact hi.same rfl rfl
  | worker a ds t ha hs =>
    exact hi.same rfl (worker_times (timeCase_of_step hs) (threadAct_tick ha)).1
  | puback id result ds p hinput hp => exact hi.same rfl rfl
  | broker a ds p ha hp => exact hi.same rfl rfl
  | stray usNow => exact hi.same rfl rfl

/-- The clocks go together in every run. -/
theorem inStep_run {acts : List SystemAct} (hr : (system cfg).Runs powerOn acts h s) :
    InStep s := by
  apply hr.invariant (I := fun _ s => InStep s) ⟨le_rfl, by simp [powerOn, mainBoot, workerInit]⟩
  intro h s a es u hi hs
  exact hi.step (system_step_cases hs).2

end Clock

/-- For how long `main` has been at most under way since the test that ends a turn. -/
def spent : MainPc → Option ℕ
  | .loopTop | .sleep => some 0
  | .process _ | .pulse _ _ => some 200
  | .frame _ _ _ => some 218
  | .ack _ _ _ => some 268
  | .update _ _ _ _ => some 4268
  | .keepalive | .stopped => some 8268
  | _ => none

/-- `main` is in a turn that began no later than at `base`. -/
def InTurn (base : ℤ) (s : MainState) : Prop := ∃ n, spent s.pc = some n ∧ s.uptime ≤ base + n

theorem InTurn.step {period : ℕ} {base : ℤ} {s m : MainState} {a : MainAct}
    {ds : List WlabEvent} (hi : InTurn base s) (hc : MainCase period s a ds m)
    (ha : ∀ expired, a ≠ .keepalive expired) : InTurn base m := by
  obtain ⟨n, hn, huptime⟩ := hi
  cases hc with
  | loopFeed hpc =>
    rw [hpc] at hn
    cases hn
    exact ⟨0, rfl, huptime⟩
  | sleep ms hpc hms =>
    rw [hpc] at hn
    cases hn
    refine ⟨200, rfl, ?_⟩
    simp only [MainState.wait]
    omega
  | process slept w c hpc hw hc =>
    rw [hpc] at hn
    cases hn
    by_cases hnone : (wlabProcess period w c).1 = []
    · refine ⟨4268, by simp [hnone, spent], ?_⟩
      simp only
      omega
    · exact ⟨200, by simp [hnone, spent], huptime⟩
  | pulse slept ms publishes hpc hms =>
    rw [hpc] at hn
    cases hn
    refine ⟨218, rfl, ?_⟩
    simp only [MainState.wait]
    omega
  | frame slept pulse ms publishes hpc hms =>
    rw [hpc] at hn
    cases hn
    cases publishes with
    | true =>
      refine ⟨268, rfl, ?_⟩
      simp only [MainState.wait]
      omega
    | false =>
      refine ⟨4268, rfl, ?_⟩
      simp only [MainState.wait]
      omega
  | ack slept pulse frame ms hpc hms =>
    rw [hpc] at hn
    cases hn
    refine ⟨4268, rfl, ?_⟩
    simp only [MainState.wait, MQTT_WORKER_PUBLISH_ACK_TIMEOUT] at hms ⊢
    omega
  | updateSync slept pulse frame ack ms answer hpc hms =>
    rw [hpc] at hn
    cases hn
    refine ⟨8268, rfl, ?_⟩
    simp only [MainState.wait]
    omega
  | updateSkip slept pulse frame ack hpc =>
    rw [hpc] at hn
    cases hn
    refine ⟨8268, rfl, ?_⟩
    simp only
    omega
  | keepalive expired hpc => exact absurd rfl (ha expired)
  | wifiFeed secCnt hpc | wifiWait secCnt ms given hpc hms | mqttFeed secCnt hpc
  | mqttWait secCnt ms given hpc hms | sync attempts lastWait ms answer hpc hms
  | syncFeed attempts hpc | authFeed attempts hpc | authWait attempts ms rc hpc hms =>
    simp [hpc, spent] at hn

/-- A turn and the call that blocks it end within this time. -/
theorem InTurn.limit {base : ℤ} {s : MainState} (hi : InTurn base s) :
    s.uptime + blockLimit s ≤ base + 8268 := by
  obtain ⟨n, hn, huptime⟩ := hi
  have hlimit : n + blockLimit s ≤ 8268 := by
    cases hpc : s.pc <;> simp only [hpc, spent, reduceCtorEq, Option.some.injEq] at hn <;>
      subst hn <;> simp only [blockLimit, hpc, MQTT_WORKER_PUBLISH_ACK_TIMEOUT] <;>
      first | omega | (split_ifs <;> omega)
  omega

section Turns
variable {cfg : Config} {h es : List SystemEvent} {s u : SystemState} {base : ℤ} {last : ℕ}

/-- The broker was last heard at `last`, and `main` is in a turn. -/
structure Silent (base : ℤ) (last : ℕ) (s : SystemState) : Prop where
  clock : InStep s
  turn : InTurn base s.main
  last : s.worker.lastKeepaliveResp = last

theorem Silent.call (hi : Silent base last s) {a : PublishAct} (hc : CallCase cfg s a es u) :
    InTurn base u.main ∧ u.worker = s.worker := by
  cases hc with
  | goes ds p hp hnone => exact ⟨hi.turn, rfl⟩
  | authorized ds p attempts rc m hp hrc hpc hm => exact ⟨hi.turn.step hm (by simp), rfl⟩
  | sampled ds p rc m hp hrc hsample hm => exact ⟨hi.turn.step hm (by simp), rfl⟩

/-- The test at the end of a turn. -/
theorem Silent.test (hi : Silent base last s) {m : MainState}
    (hbase : (last + (cfg.maxPingNoAnsMins * 60 * 1000).toNat : ℤ) ≤ base)
    (hm : MainCase cfg.period s.main
      (.keepalive (keepaliveTest cfg.maxPingNoAnsMins s.worker)) [] m) : InTurn base m := by
  obtain ⟨n, hn, huptime⟩ := hi.turn
  have hbehind := hi.clock.behind
  generalize hexpired : keepaliveTest cfg.maxPingNoAnsMins s.worker = expired at hm
  cases hm with
  | keepalive expired hpc =>
    rw [hpc] at hn
    cases hn
    cases expired with
    | true => exact ⟨8268, rfl, huptime⟩
    | false =>
      rw [keepaliveTest, decide_eq_false_iff_not, hi.last] at hexpired
      refine ⟨0, rfl, ?_⟩
      simp only
      omega

theorem Silent.step (hi : Silent base last s)
    (hbase : (last + (cfg.maxPingNoAnsMins * 60 * 1000).toNat : ℤ) ≤ base)
    (hes : ∀ e ∈ es, ¬ Answered e) {a : SystemAct} (hc : SystemCase cfg s a es u) :
    Silent base last u := by
  have hclock := hi.clock.step hc
  suffices hsame : InTurn base u.main ∧
      u.worker.lastKeepaliveResp = s.worker.lastKeepaliveResp from
    ⟨hclock, hsame.1, hsame.2.trans hi.last⟩
  cases hc with
  | tick ms hlimit => exact ⟨hi.turn, rfl⟩
  | wifiInit ret m ds w hpc hm hw => exact ⟨hi.turn.step hm (by simp), rfl⟩
  | wifiWait act a given secCnt m ds w hgiven hpc hw hm => exact ⟨hi.turn.step hm (by simp), rfl⟩
  | mqttInit m w hpc hw hm => exact ⟨hi.turn.step hm (by simp), rfl⟩
  | mqttTaken secCnt sem m hpc htake hm => exact ⟨hi.turn.step hm (by simp), rfl⟩
  | mqttTimeout secCnt m hpc hm => exact ⟨hi.turn.step hm (by simp), rfl⟩
  | proceed m hpc hpc' hm => exact ⟨hi.turn.step (main_step_cases hm) (by simp), rfl⟩
  | sync answer m hm => exact ⟨hi.turn.step hm (by simp), rfl⟩
  | authorize fs name deviceId position attempts text uid es u hpc htext huid hidle hc =>
    have hi' : Silent base last { s with deviceId := uid } :=
      ⟨hi.clock.same rfl rfl, hi.turn, hi.last⟩
    obtain ⟨hturn, hworker⟩ := hi'.call hc
    exact ⟨hturn, congrArg Worker.lastKeepaliveResp hworker⟩
  | wait act a m ha hm =>
    rcases ha with rfl | rfl | rfl
    · exact ⟨hi.turn.step hm (by simp), rfl⟩
    · exact ⟨hi.turn.step hm (by simp), rfl⟩
    · exact ⟨hi.turn.step hm (by simp), rfl⟩
  | skip usNow w publishRc wl ds m hwl hreads hm => exact ⟨hi.turn.step hm (by simp), rfl⟩
  | read usNow w publishRc wl r reading ds m d hwl hreads hr hreading hm =>
    exact ⟨hi.turn.step hm (by simp), rfl⟩
  | sample p slept pulse frame text es u hpc hp htext hidle hc =>
    obtain ⟨hturn, hworker⟩ := hi.call hc
    exact ⟨hturn, congrArg Worker.lastKeepaliveResp hworker⟩
  | publish a es u ha hc =>
    obtain ⟨hturn, hworker⟩ := hi.call hc
    exact ⟨hturn, congrArg Worker.lastKeepaliveResp hworker⟩
  | keepalive m hm => exact ⟨hi.test hbase hm, rfl⟩
  | address dhcp w hmem hw => exact ⟨hi.turn, rfl⟩
  | lost status ds w hdisco hw => exact ⟨hi.turn, rfl⟩
  | handler a ds w ha hno hdisco hw => exact ⟨hi.turn, rfl⟩
  | worker a ds t ha hs =>
    refine ⟨hi.turn, (worker_times (timeCase_of_step hs) (threadAct_tick ha)).2 ?_⟩
    intro d hd
    exact hes _ (List.mem_map_of_mem hd)
  | puback id result ds p hinput hp => exact ⟨hi.turn, rfl⟩
  | broker a ds p ha hp => exact ⟨hi.turn, rfl⟩
  | stray usNow => exact ⟨hi.turn, rfl⟩

end Turns

/-- From the head of the loop on, a station whose broker does not answer is up for
no longer than the configured time after the last answer and one turn. -/
theorem silence_ends_run {cfg : Config} {acts acts' : List SystemAct} {h k : List SystemEvent}
    {s u : SystemState} (hr : (system cfg).Runs powerOn acts h s) (hpc : s.main.pc = .loopTop)
    (hr' : (system cfg).Runs s acts' k u) (hsilent : ∀ e ∈ k, ¬ Answered e) :
    u.worker.uptime ≤ max s.worker.uptime
      (s.worker.lastKeepaliveResp + cfg.maxPingNoAnsMins.toNat * 60000 % 2 ^ 32) + 8268 := by
  have hclock := inStep_run hr
  have htimeout := toNat_timeout cfg.maxPingNoAnsMins
  let base := max s.worker.uptime
    (s.worker.lastKeepaliveResp + (cfg.maxPingNoAnsMins * 60 * 1000).toNat)
  have hi : (∀ e ∈ k, ¬ Answered e) → Silent base s.worker.lastKeepaliveResp u := by
    apply hr'.invariant
      (I := fun k u => (∀ e ∈ k, ¬ Answered e) → Silent base s.worker.lastKeepaliveResp u)
    · intro _
      refine ⟨hclock, ⟨0, by simp [hpc, spent], ?_⟩, rfl⟩
      have := hclock.behind
      omega
    · intro k t a es v ht hs hes
      apply (ht fun e he => hes e (by simp [he])).step _ (fun e he => hes e (by simp [he]))
        (system_step_cases hs).2
      omega
  have hu := hi hsilent
  have hlimit := hu.turn.limit
  have hwithin := hu.clock.within
  rw [← htimeout]
  omega

theorem first_turn_in_time : ∃ h s k u, (system someStation).Runs powerOn bootUp h s ∧
    (system someStation).Runs s firstTurn k u ∧ u.worker.uptime = 870 ∧ u.worker.uptime ≤
      max s.worker.uptime (s.worker.lastKeepaliveResp +
        someStation.maxPingNoAnsMins.toNat * 60000 % 2 ^ 32) + 8268 := by
  have hr : (system someStation).Runs powerOn bootUp _ _ := runs_get (by decide +kernel)
  have hr' : (system someStation).Runs
      (((system someStation).run powerOn bootUp).get (by decide +kernel)).2 firstTurn _ _ :=
    runs_get (by decide +kernel)
  exact ⟨_, _, _, _, hr, hr', by decide +kernel,
    silence_ends_run hr (by decide +kernel) hr' (by decide +kernel)⟩

end WlabStation.System
