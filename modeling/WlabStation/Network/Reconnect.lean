import WlabStation.Network.Wifi

/-! The retry is handed from the event handlers to the timer, to the work item
and to the driver. A request that fails in the work item hands it to nobody. -/
namespace WlabStation.Network
open Relation

/-- Somebody will connect again, or a result is on its way. -/
def Wifi.RetryPending (s : Wifi) : Prop :=
  s.reconnectTimer = true ∨ s.workQueued = true ∨ s.workRunning = true ∨ 0 < s.outstanding

instance (s : Wifi) : Decidable s.RetryPending := by
  unfold Wifi.RetryPending
  infer_instance

/-- A request of the work item succeeds, unless the station is connected or
somebody else will connect again. -/
def RetryKept (s : Wifi) : WifiAct → Prop
  | .requestResult ret => ret = 0 ∨ (s.hadConnected = true → s.connected = false →
      s.reconnectTimer = true ∨ s.workQueued = true ∨ 0 < s.outstanding)
  | _ => True

instance (s : Wifi) : DecidablePred (RetryKept s) := by
  intro a
  unfold RetryKept
  split <;> infer_instance

/-- An address was obtained, and `wifi_net_init` returned, only after a connection. -/
structure Booted (s : Wifi) : Prop where
  fresh : s.phase = .start → s.hadConnected = false
  given : 0 < s.firstConnSem.count → s.hadConnected = true
  returned : s.phase = .returned → s.hadConnected = true
  limit : s.firstConnSem.limit = 1

theorem booted_boot : Booted wifiBoot := by
  constructor <;> simp [wifiBoot]

/-- `request` changes the count alone. -/
theorem request_eq (s : Wifi) (ret : ℤ) :
    s.request ret = { s with outstanding := (s.request ret).outstanding } := by
  unfold Wifi.request
  split_ifs <;> rfl

theorem give_fold_limit (dhcp : List Bool) (sem : Sem) :
    (dhcp.foldl (fun sem isDhcp => if isDhcp then sem.give else sem) sem).limit = sem.limit := by
  induction dhcp generalizing sem with
  | nil => rfl
  | cons isDhcp dhcp ih =>
    rw [List.foldl_cons, ih]
    split_ifs <;> rfl

theorem listening_phase {s : Wifi} (hl : s.listening = true) : s.phase ≠ .start := by
  intro hp
  simp [Wifi.listening, hp] at hl

theorem Booted.step {s t : Wifi} {a : WifiAct} {es : List WifiEvent} (hi : Booted s)
    (hc : WifiCase s a es t) : Booted t := by
  cases hc with
  | register => exact ⟨hi.fresh, hi.given, hi.returned, hi.limit⟩
  | netInit ssid passwd ret hp =>
    rw [request_eq]
    constructor
    case fresh => simp
    case given => exact hi.given
    case returned => simp
    case limit => exact hi.limit
  | firstConnTaken sem htake =>
    unfold Sem.take at htake
    split_ifs at htake with hzero
    cases htake
    have hhad := hi.given (Nat.pos_of_ne_zero hzero)
    constructor
    case fresh => simp
    case given => exact fun _ => hhad
    case returned => exact fun _ => hhad
    case limit => exact hi.limit
  | reboot =>
    constructor
    case fresh => simp
    case given => exact hi.given
    case returned => simp
    case limit => exact hi.limit
  | nextSecond secCnt =>
    constructor
    case fresh => simp
    case given => exact hi.given
    case returned => simp
    case limit => exact hi.limit
  | connectResult status hl hpos =>
    unfold handleWifiConnectResult
    split_ifs with hstatus
    · exact ⟨hi.fresh, hi.given, hi.returned, hi.limit⟩
    · constructor
      case fresh => exact fun hp => absurd hp (listening_phase hl)
      case given => exact fun _ => rfl
      case returned => exact fun _ => rfl
      case limit => exact hi.limit
  | disconnectResult status hl => exact ⟨hi.fresh, hi.given, hi.returned, hi.limit⟩
  | ipv4AddrAdd dhcp hl hhad =>
    constructor
    case fresh => exact fun hp => absurd hp (listening_phase hl)
    case given => exact fun _ => hhad
    case returned => exact fun _ => hhad
    case limit =>
      show (handleIpv4Result s dhcp).firstConnSem.limit = 1
      rw [handleIpv4Result, give_fold_limit]
      exact hi.limit
  | timerExpired hl harmed => exact ⟨hi.fresh, hi.given, hi.returned, hi.limit⟩
  | workStart hl hqueued hrunning => exact ⟨hi.fresh, hi.given, hi.returned, hi.limit⟩
  | requestResult ret hl hrunning =>
    rw [request_eq]
    exact ⟨hi.fresh, hi.given, hi.returned, hi.limit⟩

/-- Once the station was connected it is connected or will connect again. -/
def Retries (s : Wifi) : Prop :=
  s.hadConnected = true → s.connected = false → s.RetryPending

/-- A further request takes no retry away. -/
theorem Retries.request {s : Wifi} (hi : Retries s) (ret : ℤ) : Retries (s.request ret) := by
  unfold Wifi.request
  split_ifs with hret
  · exact hi
  · intro _ _
    exact Or.inr (Or.inr (Or.inr (Nat.succ_pos _)))

theorem Retries.step {s t : Wifi} {a : WifiAct} {es : List WifiEvent} (hi : Retries s)
    (hkept : RetryKept s a) (hc : WifiCase s a es t) : Retries t := by
  cases hc with
  | register => exact hi
  | netInit ssid passwd ret hp =>
    have hi' : Retries { s with
        wifiInit := wifiInitParams s.wifiInit ssid passwd
        phase := .waiting CONFIG_WIFI_FIRST_CONN_TIMEOUT_SEC } := hi
    exact hi'.request ret
  | firstConnTaken sem htake => exact hi
  | reboot => exact hi
  | nextSecond secCnt => exact hi
  | connectResult status hl hpos =>
    unfold handleWifiConnectResult
    split_ifs with hstatus
    · intro _ _
      exact Or.inl rfl
    · intro _ hdown
      cases hdown
  | disconnectResult status hl =>
    intro _ _
    exact Or.inl rfl
  | ipv4AddrAdd dhcp hl hhad => exact hi
  | timerExpired hl harmed =>
    intro _ _
    exact Or.inr (Or.inl rfl)
  | workStart hl hqueued hrunning =>
    intro _ _
    exact Or.inr (Or.inr (Or.inl rfl))
  | requestResult ret hl hrunning =>
    unfold Wifi.request
    split_ifs with hret
    · intro hhad hdown
      rcases hkept.resolve_left hret hhad hdown with harmed | hqueued | hpos
      · exact Or.inl harmed
      · exact Or.inr (Or.inl hqueued)
      · exact Or.inr (Or.inr (Or.inr hpos))
    · intro _ _
      exact Or.inr (Or.inr (Or.inr (Nat.succ_pos _)))

theorem booted_run {acts : List WifiAct} {h : List WifiEvent} {s : Wifi}
    (hr : wifi.Runs wifiBoot acts h s) : Booted s := by
  apply hr.invariant (I := fun _ s => Booted s) booted_boot
  intro h s a es t hi hs
  exact hi.step (wifi_step_cases hs)

theorem retries_run {acts : List WifiAct} {h : List WifiEvent} {s : Wifi}
    (hC : wifi.EachStep RetryKept wifiBoot acts) (hr : wifi.Runs wifiBoot acts h s) :
    Retries s := by
  apply hr.invariant_of_eachStep (I := fun _ s => Retries s) _ _ hC
  · intro hhad
    cases hhad
  · intro h s a es t hi hkept hs
    exact hi.step hkept (wifi_step_cases hs)

/-- Steps of the timer, of the work item, and of a driver that connects. -/
def renews : WifiAct → Bool
  | .timerExpired | .workStart => true
  | .requestResult ret | .connectResult ret => ret = 0
  | _ => false

section Renewal
variable {s t : Wifi}

theorem reconnected_of_outstanding (hl : s.listening = true) (hpos : 0 < s.outstanding) :
    ∃ t, ReflTransGen (wifi.Moves fun _ a => renews a) s t ∧ t.connected = true := by
  let t := handleWifiConnectResult { s with outstanding := s.outstanding - 1 } 0
  have hs : wifi.step s (.connectResult 0) = some ([], t) := by simp [wifi, hl, hpos, t]
  exact ⟨t, .single ⟨.connectResult 0, [], rfl, hs⟩, rfl⟩

theorem reconnected_of_workRunning (hl : s.listening = true) (hrunning : s.workRunning = true) :
    ∃ t, ReflTransGen (wifi.Moves fun _ a => renews a) s t ∧ t.connected = true := by
  let v := ({ s with workRunning := false } : Wifi).request 0
  have hs : wifi.step s (.requestResult 0) = some ([.connectRequest s.wifiInit 0], v) := by
    simp [wifi, hl, hrunning, v]
  obtain ⟨t, ht, hup⟩ := reconnected_of_outstanding (s := v) hl (Nat.succ_pos s.outstanding)
  exact ⟨t, .head ⟨.requestResult 0, _, rfl, hs⟩ ht, hup⟩

theorem reconnected_of_workQueued (hl : s.listening = true) (hqueued : s.workQueued = true) :
    ∃ t, ReflTransGen (wifi.Moves fun _ a => renews a) s t ∧ t.connected = true := by
  cases hrunning : s.workRunning with
  | true => exact reconnected_of_workRunning hl hrunning
  | false =>
    let v := { s with workQueued := false, workRunning := true }
    have hs : wifi.step s .workStart = some ([], v) := by simp [wifi, hl, hqueued, hrunning, v]
    obtain ⟨t, ht, hup⟩ := reconnected_of_workRunning (s := v) hl rfl
    exact ⟨t, .head ⟨.workStart, _, rfl, hs⟩ ht, hup⟩

/-- Whoever has the retry, it can be passed on until the station is connected. -/
theorem exists_reconnected (hl : s.listening = true) (hpending : s.RetryPending) :
    ∃ t, ReflTransGen (wifi.Moves fun _ a => renews a) s t ∧ t.connected = true := by
  rcases hpending with harmed | hqueued | hrunning | hpos
  · let v := { s with reconnectTimer := false, workQueued := true }
    have hs : wifi.step s .timerExpired = some ([], v) := by simp [wifi, hl, harmed, v]
    obtain ⟨t, ht, hup⟩ := reconnected_of_workQueued (s := v) hl rfl
    exact ⟨t, .head ⟨.timerExpired, _, rfl, hs⟩ ht, hup⟩
  · exact reconnected_of_workQueued hl hqueued
  · exact reconnected_of_workRunning hl hrunning
  · exact reconnected_of_outstanding hl hpos

/-- Where nobody has the retry, only `wifi_net_init` and a further loss begin one. -/
theorem not_retryPending_step {a : WifiAct} {es : List WifiEvent} (hdown : s.connected = false)
    (hlost : ¬ s.RetryPending) (hinit : ∀ ssid passwd ret, a ≠ .netInit ssid passwd ret)
    (hloss : ∀ status, a ≠ .disconnectResult status) (hc : WifiCase s a es t) :
    t.connected = false ∧ ¬ t.RetryPending := by
  cases hc with
  | netInit ssid passwd ret hp => exact absurd rfl (hinit ssid passwd ret)
  | disconnectResult status hl => exact absurd rfl (hloss status)
  | register | firstConnTaken sem htake | reboot | nextSecond secCnt | ipv4AddrAdd dhcp hl hhad =>
    exact ⟨hdown, hlost⟩
  | connectResult status hl hpos => exact absurd (.inr (.inr (.inr hpos))) hlost
  | timerExpired hl harmed => exact absurd (.inl harmed) hlost
  | workStart hl hqueued hrunning => exact absurd (.inr (.inl hqueued)) hlost
  | requestResult ret hl hrunning => exact absurd (.inr (.inr (.inl hrunning))) hlost

end Renewal

/-- `wifi_net_init` returned, the connection is lost, and nobody will renew it. -/
def Wifi.Abandoned (s : Wifi) : Prop :=
  s.phase = .returned ∧ s.connected = false ∧ ¬ s.RetryPending

instance (s : Wifi) : Decidable s.Abandoned := by
  unfold Wifi.Abandoned
  infer_instance

/-- The request of the work item failed with nothing else pending. -/
theorem retry_lost {s t : Wifi} {a : WifiAct} {es : List WifiEvent} (hkept : ¬ RetryKept s a)
    (hs : wifi.step s a = some (es, t)) :
    t.listening = true ∧ t.phase = s.phase ∧ t.hadConnected = true ∧ t.connected = false ∧
      t.firstConnSem = s.firstConnSem ∧ ¬ t.RetryPending := by
  cases wifi_step_cases hs with
  | requestResult ret hl hrunning =>
    simp only [RetryKept, not_or, Classical.not_imp] at hkept
    obtain ⟨hret, hhad, hdown, harmed, hqueued, hpos⟩ := hkept
    have ht : ({ s with workRunning := false } : Wifi).request ret =
        { s with workRunning := false } := by
      rw [Wifi.request, if_pos hret]
    have hlost : ¬ ({ s with workRunning := false } : Wifi).RetryPending := by
      simp [Wifi.RetryPending, harmed, hqueued, hpos]
    rw [ht]
    exact ⟨hl, rfl, hhad, hdown, rfl, hlost⟩
  | _ => simp [RetryKept] at hkept

/-- A station that lost its retry while it boots: an address that was obtained
in time ends the initialisation. -/
theorem exists_abandoned {s : Wifi} (hl : s.listening = true) (hlimit : s.firstConnSem.limit = 1)
    (hhad : s.hadConnected = true) (hdown : s.connected = false) (hlost : ¬ s.RetryPending) :
    ∃ acts h t, wifi.Runs s acts h t ∧ t.Abandoned := by
  cases hp : s.phase with
  | returned => exact ⟨[], [], s, Machine.runs_nil.mpr ⟨rfl, rfl⟩, hp, hdown, hlost⟩
  | waiting secCnt =>
    let t := handleIpv4Result s [true]
    have hgive : wifi.step s (.ipv4AddrAdd [true]) = some ([], t) := by
      simp [wifi, hl, hhad, t]
    have hcount : t.firstConnSem = ⟨1, 1⟩ := by
      simp [t, handleIpv4Result, Sem.give, hlimit]
    have htake : wifi.step t .firstConnTaken =
        some ([], { t with firstConnSem := ⟨0, 1⟩, phase := .returned }) := by
      simp [wifi, t, handleIpv4Result, hp, Sem.give, Sem.take, hlimit]
    use [.ipv4AddrAdd [true], .firstConnTaken], [],
      { t with firstConnSem := ⟨0, 1⟩, phase := .returned }
    constructor
    · exact Machine.runs_cons.mpr ⟨[], t, [], hgive, Machine.runs_cons.mpr ⟨[], _, [], htake,
        Machine.runs_nil.mpr ⟨rfl, rfl⟩, rfl⟩, rfl⟩
    · exact ⟨rfl, hdown, hlost⟩
  | start => simp [Wifi.listening, hp] at hl
  | rebooted => simp [Wifi.listening, hp] at hl

/-- The reconnection is never abandoned in the runs in which no request of the
work item fails with nothing else pending; each such failure may abandon it. -/
theorem reconnection_kept {acts : List WifiAct} {h : List WifiEvent} {s : Wifi}
    (hr : wifi.Runs wifiBoot acts h s) :
    (wifi.EachStep RetryKept wifiBoot acts →
      s.phase = .returned → s.connected = false → s.RetryPending) ∧
    ∀ a es t, ¬ RetryKept s a → wifi.step s a = some (es, t) →
      ∃ rest k u, wifi.Runs t rest k u ∧ u.Abandoned := by
  have hbooted := booted_run hr
  constructor
  · intro hC hret hdown
    exact retries_run hC hr (hbooted.returned hret) hdown
  · intro a es t hkept hs
    obtain ⟨hl, -, hhad, hdown, hsem, hlost⟩ := retry_lost hkept hs
    apply exists_abandoned hl _ hhad hdown hlost
    rw [hsem]
    exact hbooted.limit

/-- Booted, connected with an address, then disconnected until the timer expires. -/
def lostConnection : List WifiAct :=
  [.netInit [119] (some [112]) 0, .connectResult 0, .ipv4AddrAdd [true], .firstConnTaken,
    .disconnectResult 3, .timerExpired, .workStart]

theorem accepted_request_kept : ∃ h s,
    wifi.Runs wifiBoot (lostConnection ++ [.requestResult 0]) h s ∧ s.RetryPending :=
  ⟨_, _, Machine.runs_get (by decide +kernel),
    (reconnection_kept (Machine.runs_get (by decide +kernel))).1 (by decide +kernel)
      (by decide +kernel) (by decide +kernel)⟩

/-- The driver refuses the request of the work item once. -/
theorem refused_request_abandons :
    ¬ ∀ acts h s, wifi.Runs wifiBoot acts h s → s.phase = .returned → s.connected = false →
      s.RetryPending := by
  intro hall
  have h := hall (lostConnection ++ [.requestResult (-5)]) _ _
    (Machine.runs_get (by decide +kernel)) (by decide +kernel) (by decide +kernel)
  exact absurd h (by decide +kernel)

end WlabStation.Network
