import WlabStation.Network.Wifi
import WlabStation.Station.Timestamp
import WlabStation.Wlab.Process

/-! The watchdog over a whole run of `main` in normal mode: every call that
blocks advances the uptime, every `wdg_feed` remembers it. -/
namespace WlabStation.Station
open Wlab Network

def CONFIG_WDG_TIMEOUT_SEC : ℕ := 4
def CONFIG_MQTT_FIRST_CONN_TIMEOUT_SEC : ℕ := 20
def MQTT_WORKER_PUBLISH_ACK_TIMEOUT : ℕ := 4

/-- Where `main` stands: before a `wdg_feed` or in a call that blocks. The waits
of an iteration, and the last one before the first sync, are kept. -/
inductive MainPc where
  | wifiInit (secCnt : ℕ)
  | wifiWait (secCnt : ℕ)
  | mqttInit (secCnt : ℕ)
  | mqttWait (secCnt : ℕ)
  | timestampInit (attempts lastWait : ℕ)
  | syncFailed (attempts : ℕ)
  | authorize (attempts : ℕ)
  | authWait (attempts : ℕ)
  | loopTop
  | sleep
  | process (slept : ℕ)
  | pulse (slept : ℕ) (publishes : Bool)
  | frame (slept pulse : ℕ) (publishes : Bool)
  | ack (slept pulse frame : ℕ)
  | update (slept pulse frame ack : ℕ)
  | keepalive
  | stopped
  deriving DecidableEq, Repr

structure MainState where
  pc : MainPc
  uptime : ℤ
  lastFeed : ℤ
  clock : Timestamp
  wlab : Except Fault WlabState
  deriving DecidableEq, Repr

/-- Outcomes of the calls, and for how long they block, in ms. -/
inductive MainAct where
  | proceed
  | semWait (given : Bool) (ms : ℕ)
  | sntp (answer : Option ℤ) (ms : ℕ)
  | publish (rc : ℤ) (ms : ℕ)
  | sleep (ms : ℕ)
  | process (sensor : Option Reading) (publishRc : ℤ)
  | pulse (ms : ℕ)
  | frame (ms : ℕ)
  | ack (ms : ℕ)
  | keepalive (expired : Bool)
  deriving DecidableEq, Repr

/-- `wdg_feed`, then on to `pc`. -/
def MainState.feed (s : MainState) (pc : MainPc) : MainState :=
  { s with pc, lastFeed := s.uptime }

/-- A call that blocked for `ms`, then on to `pc`. -/
def MainState.wait (s : MainState) (ms : ℕ) (pc : MainPc) : MainState :=
  { s with pc, uptime := s.uptime + ms }

/-- The call of `wlab_process` went on to publish. -/
def publishes (es : List WlabEvent) : Bool :=
  es.any fun
    | .publish _ _ _ => true
    | _ => false

/-- `main` in normal mode. A reboot, a failed assertion and a fault end the run. -/
def mainNormal (period : ℕ) : Machine MainState MainAct WlabEvent where
  step s a :=
    match a with
    | .proceed =>
        match s.pc with
        | .wifiInit secCnt => some ([], s.feed (.wifiWait secCnt))
        | .mqttInit secCnt => some ([], s.feed (.mqttWait secCnt))
        | .syncFailed attempts =>
            some ([], s.feed (if attempts = 8 then .stopped else .timestampInit attempts 0))
        | .authorize attempts => some ([], s.feed (.authWait attempts))
        | .loopTop => some ([], s.feed .sleep)
        | .update _ _ _ _ =>
            if ¬ Stale s.clock s.uptime ∧ s.wlab.isOk then some ([], { s with pc := .keepalive })
            else none
        | _ => none
    | .semWait given ms =>
        match s.pc with
        | .wifiWait secCnt =>
            if ms ≤ 1000 then
              some ([], s.wait ms (if given then .mqttInit 0
                else if secCnt + 1 = CONFIG_WIFI_FIRST_CONN_TIMEOUT_SEC then .stopped
                else .wifiInit (secCnt + 1)))
            else none
        | .mqttWait secCnt =>
            if ms ≤ 1000 then
              some ([], s.wait ms (if given then .timestampInit 0 ms
                else if secCnt + 1 = CONFIG_MQTT_FIRST_CONN_TIMEOUT_SEC then .stopped
                else .mqttInit (secCnt + 1)))
            else none
        | _ => none
    | .sntp answer ms =>
        match s.pc with
        | .timestampInit attempts _ =>
            if ms ≤ 4000 then
              some ([], { s.wait ms
                  (if answer.isSome then .authorize 0 else .syncFailed (attempts + 1)) with
                clock := timestampSync s.clock answer (s.uptime + ms) })
            else none
        | .update _ _ _ _ =>
            if ms ≤ 4000 ∧ Stale s.clock s.uptime ∧ s.wlab.isOk then
              some ([], { s.wait ms .keepalive with
                clock := timestampSync s.clock answer (s.uptime + ms) })
            else none
        | _ => none
    | .publish rc ms =>
        match s.pc with
        | .authWait attempts =>
            if ms ≤ 1000 * MQTT_WORKER_PUBLISH_ACK_TIMEOUT then
              some ([], s.wait ms (if rc = 0 then .loopTop else if attempts + 1 = 8 then .stopped
                else .authorize (attempts + 1)))
            else none
        | _ => none
    | .sleep ms =>
        if s.pc = .sleep ∧ ms ≤ 200 then some ([], s.wait ms (.process ms)) else none
    | .process sensor publishRc =>
        match s.pc, s.wlab with
        | .process slept, .ok w =>
            let r := wlabProcess period w ⟨timestampGet s.clock s.uptime, sensor, publishRc⟩
            some (r.1, { s with
              wlab := r.2
              pc := if r.1 = [] then .update slept 0 0 0 else .pulse slept (publishes r.1) })
        | _, _ => none
    | .pulse ms =>
        match s.pc with
        | .pulse slept publishes =>
            if ms ≤ 18 then some ([], s.wait ms (.frame slept ms publishes)) else none
        | _ => none
    | .frame ms =>
        match s.pc with
        | .frame slept pulse publishes =>
            if ms ≤ 50 then
              some ([], s.wait ms
                (if publishes then .ack slept pulse ms else .update slept pulse ms 0))
            else none
        | _ => none
    | .ack ms =>
        match s.pc with
        | .ack slept pulse frame =>
            if ms ≤ 1000 * MQTT_WORKER_PUBLISH_ACK_TIMEOUT then
              some ([], s.wait ms (.update slept pulse frame ms))
            else none
        | _ => none
    | .keepalive expired =>
        if s.pc = .keepalive then some ([], { s with pc := if expired then .stopped else .loopTop })
        else none

/-- `wdg_init` has started the watchdog. -/
def mainBoot : MainState := ⟨.wifiInit 0, 0, 0, ⟨0, 0⟩, .ok wlabInit⟩

/-- The watchdog has not expired. -/
def FedInTime (s : MainState) : Prop := s.uptime ≤ s.lastFeed + 1000 * CONFIG_WDG_TIMEOUT_SEC

/-- A sync of `timestamp_init` together with the wait right before it, and the
waits of each iteration together, are no longer than the timeout. -/
def WaitsFit (s : MainState) (a : MainAct) : Prop :=
  match s.pc, a with
  | .timestampInit _ lastWait, .sntp _ ms => lastWait + ms ≤ 1000 * CONFIG_WDG_TIMEOUT_SEC
  | .ack slept pulse frame, .ack ms =>
      slept + pulse + frame + ms ≤ 1000 * CONFIG_WDG_TIMEOUT_SEC
  | .update slept pulse frame ack, .sntp _ ms =>
      slept + pulse + frame + ack + ms ≤ 1000 * CONFIG_WDG_TIMEOUT_SEC
  | _, _ => True

instance (s : MainState) : Decidable (FedInTime s) := by
  unfold FedInTime
  infer_instance

instance (s : MainState) (a : MainAct) : Decidable (WaitsFit s a) := by
  unfold WaitsFit
  split <;> infer_instance

/-- All that one step can do. -/
inductive MainCase (period : ℕ) (s : MainState) : MainAct → List WlabEvent → MainState → Prop where
  | wifiFeed (secCnt : ℕ) : s.pc = .wifiInit secCnt →
      MainCase period s .proceed [] (s.feed (.wifiWait secCnt))
  | wifiWait (secCnt ms : ℕ) (given : Bool) : s.pc = .wifiWait secCnt → ms ≤ 1000 →
      MainCase period s (.semWait given ms) [] (s.wait ms (if given then .mqttInit 0
        else if secCnt + 1 = CONFIG_WIFI_FIRST_CONN_TIMEOUT_SEC then .stopped
        else .wifiInit (secCnt + 1)))
  | mqttFeed (secCnt : ℕ) : s.pc = .mqttInit secCnt →
      MainCase period s .proceed [] (s.feed (.mqttWait secCnt))
  | mqttWait (secCnt ms : ℕ) (given : Bool) : s.pc = .mqttWait secCnt → ms ≤ 1000 →
      MainCase period s (.semWait given ms) [] (s.wait ms (if given then .timestampInit 0 ms
        else if secCnt + 1 = CONFIG_MQTT_FIRST_CONN_TIMEOUT_SEC then .stopped
        else .mqttInit (secCnt + 1)))
  | sync (attempts lastWait ms : ℕ) (answer : Option ℤ) : s.pc = .timestampInit attempts lastWait →
      ms ≤ 4000 → MainCase period s (.sntp answer ms) []
        { s.wait ms (if answer.isSome then .authorize 0 else .syncFailed (attempts + 1)) with
          clock := timestampSync s.clock answer (s.uptime + ms) }
  | syncFeed (attempts : ℕ) : s.pc = .syncFailed attempts →
      MainCase period s .proceed []
        (s.feed (if attempts = 8 then .stopped else .timestampInit attempts 0))
  | authFeed (attempts : ℕ) : s.pc = .authorize attempts →
      MainCase period s .proceed [] (s.feed (.authWait attempts))
  | authWait (attempts ms : ℕ) (rc : ℤ) : s.pc = .authWait attempts →
      ms ≤ 1000 * MQTT_WORKER_PUBLISH_ACK_TIMEOUT →
      MainCase period s (.publish rc ms) [] (s.wait ms (if rc = 0 then .loopTop
        else if attempts + 1 = 8 then .stopped else .authorize (attempts + 1)))
  | loopFeed : s.pc = .loopTop → MainCase period s .proceed [] (s.feed .sleep)
  | sleep (ms : ℕ) : s.pc = .sleep → ms ≤ 200 →
      MainCase period s (.sleep ms) [] (s.wait ms (.process ms))
  | process (slept : ℕ) (w : WlabState) (c : Call) : s.pc = .process slept → s.wlab = .ok w →
      c.secs = timestampGet s.clock s.uptime →
      MainCase period s (.process c.sensor c.publishRc) (wlabProcess period w c).1 { s with
        wlab := (wlabProcess period w c).2
        pc := if (wlabProcess period w c).1 = [] then .update slept 0 0 0
          else .pulse slept (publishes (wlabProcess period w c).1) }
  | pulse (slept ms : ℕ) (publishes : Bool) : s.pc = .pulse slept publishes → ms ≤ 18 →
      MainCase period s (.pulse ms) [] (s.wait ms (.frame slept ms publishes))
  | frame (slept pulse ms : ℕ) (publishes : Bool) : s.pc = .frame slept pulse publishes →
      ms ≤ 50 → MainCase period s (.frame ms) []
        (s.wait ms (if publishes then .ack slept pulse ms else .update slept pulse ms 0))
  | ack (slept pulse frame ms : ℕ) : s.pc = .ack slept pulse frame →
      ms ≤ 1000 * MQTT_WORKER_PUBLISH_ACK_TIMEOUT →
      MainCase period s (.ack ms) [] (s.wait ms (.update slept pulse frame ms))
  | updateSync (slept pulse frame ack ms : ℕ) (answer : Option ℤ) :
      s.pc = .update slept pulse frame ack → ms ≤ 4000 →
      MainCase period s (.sntp answer ms) [] { s.wait ms .keepalive with
        clock := timestampSync s.clock answer (s.uptime + ms) }
  | updateSkip (slept pulse frame ack : ℕ) : s.pc = .update slept pulse frame ack →
      MainCase period s .proceed [] { s with pc := .keepalive }
  | keepalive (expired : Bool) : s.pc = .keepalive →
      MainCase period s (.keepalive expired) []
        { s with pc := if expired then .stopped else .loopTop }

theorem main_step_cases {period : ℕ} {s t : MainState} {a : MainAct} {es : List WlabEvent}
    (h : (mainNormal period).step s a = some (es, t)) : MainCase period s a es t := by
  cases a with
  | proceed =>
    simp only [mainNormal] at h
    split at h
    next secCnt hpc =>
      cases h
      exact .wifiFeed secCnt hpc
    next secCnt hpc =>
      cases h
      exact .mqttFeed secCnt hpc
    next attempts hpc =>
      cases h
      exact .syncFeed attempts hpc
    next attempts hpc =>
      cases h
      exact .authFeed attempts hpc
    next hpc =>
      cases h
      exact .loopFeed hpc
    next slept pulse frame ack hpc =>
      rw [Option.ite_none_right_eq_some] at h
      cases h.2
      exact .updateSkip slept pulse frame ack hpc
    next => cases h
  | semWait given ms =>
    simp only [mainNormal] at h
    split at h
    next secCnt hpc =>
      rw [Option.ite_none_right_eq_some] at h
      cases h.2
      exact .wifiWait secCnt ms given hpc h.1
    next secCnt hpc =>
      rw [Option.ite_none_right_eq_some] at h
      cases h.2
      exact .mqttWait secCnt ms given hpc h.1
    next => cases h
  | sntp answer ms =>
    simp only [mainNormal] at h
    split at h
    next attempts lastWait hpc =>
      rw [Option.ite_none_right_eq_some] at h
      cases h.2
      exact .sync attempts lastWait ms answer hpc h.1
    next slept pulse frame ack hpc =>
      rw [Option.ite_none_right_eq_some] at h
      cases h.2
      exact .updateSync slept pulse frame ack ms answer hpc h.1.1
    next => cases h
  | publish rc ms =>
    simp only [mainNormal] at h
    split at h
    next attempts hpc =>
      rw [Option.ite_none_right_eq_some] at h
      cases h.2
      exact .authWait attempts ms rc hpc h.1
    next => cases h
  | sleep ms =>
    simp only [mainNormal, Option.ite_none_right_eq_some] at h
    cases h.2
    exact .sleep ms h.1.1 h.1.2
  | process sensor publishRc =>
    simp only [mainNormal] at h
    split at h
    next slept w hpc hw =>
      cases h
      exact .process slept w ⟨_, sensor, publishRc⟩ hpc hw rfl
    next => cases h
  | pulse ms =>
    simp only [mainNormal] at h
    split at h
    next slept publishes hpc =>
      rw [Option.ite_none_right_eq_some] at h
      cases h.2
      exact .pulse slept ms publishes hpc h.1
    next => cases h
  | frame ms =>
    simp only [mainNormal] at h
    split at h
    next slept pulse publishes hpc =>
      rw [Option.ite_none_right_eq_some] at h
      cases h.2
      exact .frame slept pulse ms publishes hpc h.1
    next => cases h
  | ack ms =>
    simp only [mainNormal] at h
    split at h
    next slept pulse frame hpc =>
      rw [Option.ite_none_right_eq_some] at h
      cases h.2
      exact .ack slept pulse frame ms hpc h.1
    next => cases h
  | keepalive expired =>
    simp only [mainNormal, Option.ite_none_right_eq_some] at h
    cases h.2
    exact .keepalive expired h.1

/-- What the time since the last feed consists of. -/
def sinceFeed : MainPc → Option ℕ
  | .wifiWait _ | .mqttWait _ | .authWait _ | .sleep => some 0
  | .timestampInit _ lastWait => some lastWait
  | .process slept | .pulse slept _ => some slept
  | .frame slept pulse _ => some (slept + pulse)
  | .ack slept pulse frame => some (slept + pulse + frame)
  | .update slept pulse frame ack => some (slept + pulse + frame + ack)
  | _ => none

/-- The short waits are within their bounds. -/
def shortWaits : MainPc → Prop
  | .timestampInit _ lastWait => lastWait ≤ 1000
  | .process slept | .pulse slept _ => slept ≤ 200
  | .frame slept pulse _ => slept ≤ 200 ∧ pulse ≤ 18
  | .ack slept pulse frame | .update slept pulse frame _ => slept ≤ 200 ∧ pulse ≤ 18 ∧ frame ≤ 50
  | _ => True

/-- The uptime since the last feed is the sum of the waits kept. -/
structure Timed (s : MainState) : Prop where
  since : ∀ n, sinceFeed s.pc = some n → s.uptime = s.lastFeed + n
  short : shortWaits s.pc

theorem timed_boot : Timed mainBoot := by
  constructor
  case since => simp [mainBoot, sinceFeed]
  case short => trivial

section Waits
variable {s : MainState} {pc : MainPc} {n : ℕ} {C : Prop}

/-- A feed, where the waits that are kept start anew. -/
theorem feed_step (hC : C) (hpc : ∀ n, sinceFeed pc = some n → n = 0) (hshort : shortWaits pc) :
    Timed (s.feed pc) ∧ (FedInTime s → (FedInTime (s.feed pc) ↔ C)) := by
  constructor
  · constructor
    case since =>
      intro n hn
      rw [hpc n hn]
      simp [MainState.feed]
    case short => exact hshort
  · intro _
    exact iff_of_true (by simp [FedInTime, MainState.feed]) hC

/-- A wait, which is added to those that are kept. -/
theorem wait_step (ms : ℕ) (hs : s.uptime = s.lastFeed + n)
    (hC : C ↔ n + ms ≤ 1000 * CONFIG_WDG_TIMEOUT_SEC)
    (hpc : ∀ m, sinceFeed pc = some m → m = n + ms) (hshort : shortWaits pc) :
    Timed (s.wait ms pc) ∧ (FedInTime s → (FedInTime (s.wait ms pc) ↔ C)) := by
  constructor
  · constructor
    case since =>
      intro m hm
      rw [hpc m hm]
      simp only [MainState.wait, hs]
      push_cast
      omega
    case short => exact hshort
  · intro _
    rw [hC]
    simp only [FedInTime, MainState.wait, hs]
    omega

/-- A wait that fits whatever was waited for before. -/
theorem short_wait_step (ms : ℕ) (hs : s.uptime = s.lastFeed + n) (hC : C) (hfit : n + ms ≤ 4000)
    (hpc : ∀ m, sinceFeed pc = some m → m = n + ms) (hshort : shortWaits pc) :
    Timed (s.wait ms pc) ∧ (FedInTime s → (FedInTime (s.wait ms pc) ↔ C)) :=
  wait_step ms hs (iff_of_true hC hfit) hpc hshort

end Waits

/-- One step keeps the account, and the watchdog fed exactly if it meets the condition. -/
theorem Timed.step {period : ℕ} {s t : MainState} {a : MainAct} {es : List WlabEvent}
    (hi : Timed s) (hc : MainCase period s a es t) :
    Timed t ∧ (FedInTime s → (FedInTime t ↔ WaitsFit s a)) := by
  have hsince := hi.since
  have hshort := hi.short
  cases hc with
  | wifiFeed secCnt hpc =>
    exact feed_step (by simp only [WaitsFit, hpc]) (by simp [sinceFeed]) trivial
  | wifiWait secCnt ms given hpc hms =>
    rw [hpc] at hsince
    apply short_wait_step ms (hsince 0 rfl) (by simp only [WaitsFit, hpc]) (by omega)
    · split_ifs <;> simp [sinceFeed]
    · split_ifs <;> trivial
  | mqttFeed secCnt hpc =>
    exact feed_step (by simp only [WaitsFit, hpc]) (by simp [sinceFeed]) trivial
  | mqttWait secCnt ms given hpc hms =>
    rw [hpc] at hsince
    apply short_wait_step ms (hsince 0 rfl) (by simp only [WaitsFit, hpc]) (by omega)
    · split_ifs <;> simp [sinceFeed]
    · split_ifs
      · exact hms
      · trivial
      · trivial
  | sync attempts lastWait ms answer hpc hms =>
    rw [hpc] at hsince
    have hwait : WaitsFit s (.sntp answer ms) ↔
        lastWait + ms ≤ 1000 * CONFIG_WDG_TIMEOUT_SEC := by
      simp only [WaitsFit, hpc]
    let pc : MainPc := if answer.isSome then .authorize 0 else .syncFailed (attempts + 1)
    have hstep : Timed (s.wait ms pc) ∧ (FedInTime s → (FedInTime (s.wait ms pc) ↔ _)) :=
      wait_step ms (hsince lastWait rfl) hwait (by simp only [pc]; split_ifs <;> simp [sinceFeed])
        (by simp only [pc]; split_ifs <;> trivial)
    exact ⟨⟨hstep.1.since, hstep.1.short⟩, hstep.2⟩
  | syncFeed attempts hpc =>
    apply feed_step (by simp only [WaitsFit, hpc])
    · split_ifs <;> simp [sinceFeed]
    · split_ifs
      · trivial
      · exact Nat.zero_le _
  | authFeed attempts hpc =>
    exact feed_step (by simp only [WaitsFit, hpc]) (by simp [sinceFeed]) trivial
  | authWait attempts ms rc hpc hms =>
    rw [hpc] at hsince
    unfold MQTT_WORKER_PUBLISH_ACK_TIMEOUT at hms
    apply short_wait_step ms (hsince 0 rfl) (by simp only [WaitsFit, hpc]) (by omega)
    · split_ifs <;> simp [sinceFeed]
    · split_ifs <;> trivial
  | loopFeed hpc =>
    exact feed_step (by simp only [WaitsFit, hpc]) (by simp [sinceFeed]) trivial
  | sleep ms hpc hms =>
    rw [hpc] at hsince
    apply short_wait_step ms (hsince 0 rfl) (by simp only [WaitsFit, hpc]) (by omega)
    · simp [sinceFeed]
    · exact hms
  | process slept w c hpc hw hsecs =>
    rw [hpc] at hsince hshort
    constructor
    · constructor
      case since =>
        intro n hn
        dsimp only at hn
        split_ifs at hn <;> cases hn <;> exact hsince slept rfl
      case short =>
        dsimp only
        split_ifs
        · exact ⟨hshort, by omega, by omega⟩
        · exact hshort
    · intro hfed
      exact iff_of_true hfed (by simp only [WaitsFit, hpc])
  | pulse slept ms publishes hpc hms =>
    rw [hpc] at hsince hshort
    have hslept : slept ≤ 200 := hshort
    apply short_wait_step ms (hsince slept rfl) (by simp only [WaitsFit, hpc]) (by omega)
    · simp [sinceFeed]
    · exact ⟨hshort, hms⟩
  | frame slept pulse ms publishes hpc hms =>
    rw [hpc] at hsince hshort
    obtain ⟨hslept, hpulse⟩ := hshort
    apply short_wait_step ms (hsince (slept + pulse) rfl) (by simp only [WaitsFit, hpc]) (by omega)
    · split_ifs <;> simp [sinceFeed]
    · split_ifs
      · exact ⟨hslept, hpulse, hms⟩
      · exact ⟨hslept, hpulse, hms⟩
  | ack slept pulse frame ms hpc hms =>
    rw [hpc] at hsince hshort
    apply wait_step ms (hsince (slept + pulse + frame) rfl)
    · simp only [WaitsFit, hpc]
    · simp [sinceFeed]
    · exact hshort
  | updateSync slept pulse frame ack ms answer hpc hms =>
    rw [hpc] at hsince
    have hwait : WaitsFit s (.sntp answer ms) ↔
        slept + pulse + frame + ack + ms ≤ 1000 * CONFIG_WDG_TIMEOUT_SEC := by
      simp only [WaitsFit, hpc]
    have hstep : Timed (s.wait ms .keepalive) ∧
        (FedInTime s → (FedInTime (s.wait ms .keepalive) ↔ _)) :=
      wait_step ms (hsince (slept + pulse + frame + ack) rfl) hwait (by simp [sinceFeed]) trivial
    exact ⟨⟨hstep.1.since, hstep.1.short⟩, hstep.2⟩
  | updateSkip slept pulse frame ack hpc =>
    constructor
    · constructor
      case since => simp [sinceFeed]
      case short => trivial
    · intro hfed
      exact iff_of_true hfed (by simp only [WaitsFit, hpc])
  | keepalive expired hpc =>
    constructor
    · constructor
      case since =>
        dsimp only
        split_ifs <;> simp [sinceFeed]
      case short =>
        dsimp only
        split_ifs <;> trivial
    · intro hfed
      exact iff_of_true hfed (by simp only [WaitsFit, hpc])

/-- The watchdog never expires in a run exactly if the first sync fits behind
the wait before it and the waits of each iteration fit together. -/
theorem watchdog_fed_iff {period : ℕ} {acts : List MainAct} {h : List WlabEvent} {s : MainState}
    (hr : (mainNormal period).Runs mainBoot acts h s) :
    (mainNormal period).EachState FedInTime mainBoot acts ↔
      (mainNormal period).EachStep WaitsFit mainBoot acts := by
  apply hr.eachState_iff (I := Timed) timed_boot
  · decide
  · intro s a es t hi hs
    exact (hi.step (main_step_cases hs)).1
  · intro s a es t hi hfed hs
    exact (hi.step (main_step_cases hs)).2 hfed

/-- Booted with quick answers, then an iteration that reads the sensor. -/
def quickBoot : List MainAct :=
  [.proceed, .semWait true 900, .proceed, .semWait true 300, .sntp (some 1700000000) 40, .proceed,
    .publish 0 60, .proceed, .sleep 200, .process (some ⟨215, 480⟩) 0, .pulse 18, .frame 5]

theorem quick_boot_fed : (mainNormal 5).EachState FedInTime mainBoot quickBoot :=
  (watchdog_fed_iff (Machine.runs_get (by decide +kernel))).mpr (by decide +kernel)

/-- The broker answers in 0.9 s, the time server not within its 4 s. -/
theorem slow_first_sync_expires :
    ¬ ∀ period acts h s, (mainNormal period).Runs mainBoot acts h s → FedInTime s := by
  intro hall
  have h := hall 5 [.proceed, .semWait true 900, .proceed, .semWait true 900, .sntp none 4000] _ _
    (Machine.runs_get (by decide +kernel))
  exact absurd h (by decide +kernel)

end WlabStation.Station
