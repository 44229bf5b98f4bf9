import WlabStation.Network.Reconnect

/-! How often the station asks for a connection: once in its initialisation, and
at most once for each report of a connection that failed or was lost. -/
namespace WlabStation.Network
open Machine

/-- A report that starts the timer. -/
def WifiAct.reportsLoss : WifiAct → Bool
  | .connectResult status => status ≠ 0
  | .disconnectResult _ => true
  | _ => false

def WifiEvent.isRequest : WifiEvent → Bool
  | .connectRequest _ _ => true
  | _ => false

/-- The requests that are already decided on: the first one, and those of the timer,
of the work queue and of the work item. -/
def Wifi.requestsDue (s : Wifi) : ℕ :=
  (if s.phase = .start then 1 else 0) + s.reconnectTimer.toNat + s.workQueued.toNat +
    s.workRunning.toNat

/-- What one step can add to the requests that are made or due. -/
theorem requests_step {s t : Wifi} {a : WifiAct} {es : List WifiEvent} (hc : WifiCase s a es t) :
    es.countP WifiEvent.isRequest + t.requestsDue ≤
      s.requestsDue + [a].countP WifiAct.reportsLoss := by
  have htimer := s.reconnectTimer.toNat_le
  have hqueued := s.workQueued.toNat_le
  cases hc with
  | register => simp [Wifi.requestsDue]
  | netInit ssid passwd ret hp =>
    rw [request_eq]
    simp [Wifi.requestsDue, WifiEvent.isRequest, WifiAct.reportsLoss, List.countP_cons, hp]
    omega
  | firstConnTaken sem htake =>
    simp only [Wifi.requestsDue, List.countP_nil, reduceCtorEq, if_false]
    omega
  | reboot =>
    have hnone : [WifiEvent.reboot].countP WifiEvent.isRequest = 0 := rfl
    simp only [Wifi.requestsDue, hnone, reduceCtorEq, if_false]
    omega
  | nextSecond secCnt =>
    have hnone : [WifiEvent.wdgFeed].countP WifiEvent.isRequest = 0 := rfl
    simp only [Wifi.requestsDue, hnone, reduceCtorEq, if_false]
    omega
  | connectResult status hl hpos =>
    unfold handleWifiConnectResult
    by_cases hstatus : status = 0
    · simp [Wifi.requestsDue, hstatus]
    · simp [Wifi.requestsDue, WifiAct.reportsLoss, hstatus]
      omega
  | disconnectResult status hl =>
    have hnone : (handleWifiDisconnectResult s status).1.countP WifiEvent.isRequest = 0 := by
      simp only [handleWifiDisconnectResult]
      split_ifs <;> rfl
    have hone : [WifiAct.disconnectResult status].countP WifiAct.reportsLoss = 1 := rfl
    have hstart := listening_phase hl
    rw [hnone, hone]
    simp [Wifi.requestsDue, handleWifiDisconnectResult, hstart]
    omega
  | ipv4AddrAdd dhcp hl hhad =>
    have hnone : [WifiAct.ipv4AddrAdd dhcp].countP WifiAct.reportsLoss = 0 := rfl
    have hstart := listening_phase hl
    rw [hnone]
    simp [Wifi.requestsDue, handleIpv4Result, hstart]
  | timerExpired hl harmed =>
    simp [Wifi.requestsDue, harmed]
    omega
  | workStart hl hwork hrunning => simp [Wifi.requestsDue, hwork, hrunning]
  | requestResult ret hl hrunning =>
    rw [request_eq]
    simp [Wifi.requestsDue, WifiEvent.isRequest, List.countP_cons, hrunning]
    omega

/-- In every run, in which the reports may come at any time, the requests that were
made and those that are due are at most one more than the reports. -/
theorem requests_bounded {acts : List WifiAct} {h : List WifiEvent} {s : Wifi}
    (hr : wifi.Runs wifiBoot acts h s) :
    h.countP WifiEvent.isRequest + s.requestsDue ≤ acts.countP WifiAct.reportsLoss + 1 := by
  apply hr.induction (I := fun acts h s =>
    h.countP WifiEvent.isRequest + s.requestsDue ≤ acts.countP WifiAct.reportsLoss + 1)
  · decide
  · intro acts h s a es t _ hi hs
    have hstep := requests_step (wifi_step_cases hs)
    rw [List.countP_append, List.countP_append]
    omega

theorem lost_connection_bounded : ∃ h s, wifi.Runs wifiBoot lostConnection h s ∧
    s.requestsDue = 1 ∧
      h.countP WifiEvent.isRequest + s.requestsDue ≤
        lostConnection.countP WifiAct.reportsLoss + 1 := by
  have hr : wifi.Runs wifiBoot lostConnection _ _ := runs_get (by decide +kernel)
  exact ⟨_, _, hr, by decide +kernel, requests_bounded hr⟩

end WlabStation.Network
