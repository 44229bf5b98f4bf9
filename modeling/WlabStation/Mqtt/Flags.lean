import Mathlib.Algebra.Order.Ring.Nat
import WlabStation.Mqtt.Worker

/-! What the network thread tells `main`: the flags `Connected` and
`DisconnectReqExternal`, and the semaphore `ConectedAckSem`. -/
namespace WlabStation.Mqtt

def Worker.flags (s : Worker) : Bool × Bool × Sem :=
  (s.connected, s.disconnectReqExternal, s.conectedAckSem)

section Fields
variable (cfg : WorkerConfig) (s : Worker) (ret : ℤ)

theorem flags_dnsResolve : (dnsResolve cfg s ret).2.flags = s.flags := by
  unfold dnsResolve
  dsimp only
  split_ifs <;> rfl

theorem flags_connectReturned : (connectReturned s ret).flags = s.flags := by
  unfold connectReturned
  split_ifs <;> rfl

theorem flags_subscribeReturned : (subscribeReturned s ret).flags = s.flags := by
  unfold subscribeReturned
  split_ifs <;> rfl

end Fields

/-- Observations that tell nothing about the flags. -/
def WorkerEvent.tacit : WorkerEvent → Bool
  | .event _ _ | .mqttConnect _ | .mqttDisconnect => false
  | _ => true

/-- What one step does to the flags. -/
inductive FlagCase (s : Worker) : WorkerAct → List WorkerEvent → Worker → Prop where
  | event (type : MqttEvtType) (result : ℤ) :
      FlagCase s (.event type result) [.event type result] (mqttEvtHandler s type result)
  | request : FlagCase s .disconnectRequest [] { s with disconnectReqExternal := true }
  | connect (ret : ℤ) (t : Worker) : s.pc = .dispatch →
      t.flags = (false, false, s.conectedAckSem) →
      FlagCase s (.mqttConnect ret) [.mqttConnect ret] t
  | failed (ret : ℤ) (t : Worker) : s.pc = .connectFailed ret → t.flags = s.flags →
      t.pc = .dispatch → FlagCase s .proceed [.mqttDisconnect] t
  | disconnect (t : Worker) : s.pc = .inputExternal → s.disconnectReqExternal = true →
      t.flags = (false, true, s.conectedAckSem.tryTake) → t.pc = .dispatch →
      FlagCase s .proceed [.mqttDisconnect] t
  | other (a : WorkerAct) (es : List WorkerEvent) (t : Worker) : (∀ e ∈ es, e.tacit) →
      t.flags = s.flags → (∀ ret, t.pc = .connectFailed ret → s.pc = .connectFailed ret) →
      FlagCase s a es t

theorem flagCase_of_case {cfg : WorkerConfig} {s t : Worker} {a : WorkerAct}
    {es : List WorkerEvent} (h : WorkerCase cfg s a es t) : FlagCase s a es t := by
  cases h with
  | event type result => exact .event type result
  | disconnectRequest => exact .request
  | tick ms => exact .other _ _ _ (by simp) rfl fun _ => id
  | start hpc => exact .other _ _ _ (by simp) rfl (by simp)
  | dnsResolve ret hpc hst =>
    have hpc' := (dnsResolve_fields cfg s ret).1
    exact .other _ _ _ (dnsResolve_all cfg s ret rfl) (flags_dnsResolve cfg s ret)
      (by simp [hpc', hpc])
  | mqttConnect ret hpc hst => exact .connect ret _ hpc rfl
  | connectFailed ret hpc =>
    exact .failed ret _ hpc (flags_connectReturned s ret) (connectReturned_fields s ret).1
  | connectPoll ret hpc => exact .other _ _ _ (inputOf_all ret rfl) rfl (by simp)
  | connectAbort hpc hc =>
    exact .other _ _ _ (by simp [WorkerEvent.tacit]) (flags_connectReturned s (-1))
      (by simp [(connectReturned_fields s (-1)).1])
  | connectDone hpc hc =>
    exact .other _ _ _ (by simp) (flags_connectReturned s 0)
      (by simp [(connectReturned_fields s 0).1])
  | subscribeNone hpc hst hlist =>
    exact .other _ _ _ (by simp [WorkerEvent.tacit]) (flags_subscribeReturned s 0)
      (by simp [(subscribeReturned_fields s 0).1])
  | subscribeFailed ret hpc hst hret =>
    exact .other _ _ _ (by simp [WorkerEvent.tacit]) (flags_subscribeReturned _ ret)
      (by simp [(subscribeReturned_fields _ ret).1])
  | mqttSubscribe hpc hst => exact .other _ _ _ (by simp [WorkerEvent.tacit]) rfl (by simp)
  | subscribePoll ret hpc hret => exact .other _ _ _ (by simp [WorkerEvent.tacit]) rfl (by simp)
  | subscribeTimeout ret hpc hret =>
    exact .other _ _ _ (by simp [subscribeEnd, WorkerEvent.tacit]) (flags_subscribeReturned _ _)
      (by simp [subscribeEnd, (subscribeReturned_fields _ _).1])
  | subscribeAgain ret hpc => exact .other _ _ _ (by simp) rfl (by simp)
  | subscribeEnd ret hpc =>
    exact .other _ _ _ (by simp [Mqtt.subscribeEnd, WorkerEvent.tacit])
      (flags_subscribeReturned _ _) (by simp [Mqtt.subscribeEnd, (subscribeReturned_fields _ _).1])
  | connected hpc hst => exact .other _ _ _ (by simp) rfl (by simp)
  | disconnected hpc hst => exact .other _ _ _ (by simp) rfl fun _ => id
  | inputEnter hpc hnow => exact .other _ _ _ (by simp) rfl (by simp)
  | keepalive hpc hnow =>
    exact .other _ _ _ (by simp [keepalive, WorkerEvent.tacit]) rfl
      (by simp [keepalive, inputReturned])
  | inputPoll ret hpc => exact .other _ _ _ (inputOf_all ret rfl) rfl (by simp)
  | inputLost hpc hc => exact .other _ _ _ (by simp) rfl (by simp [inputReturned])
  | inputHeld hpc hc => exact .other _ _ _ (by simp) rfl (by simp)
  | inputExternal hpc hreq =>
    exact .disconnect _ hpc hreq (by simp [Worker.flags, inputReturned, hreq]) rfl
  | inputDone hpc hreq => exact .other _ _ _ (by simp) rfl (by simp [inputReturned])

theorem tryTake_count_le (sem : Sem) : sem.tryTake.count ≤ sem.count := by
  simp only [Sem.tryTake, Sem.take]
  split_ifs
  · exact le_rfl
  · exact Nat.sub_le _ _

/-- `ConectedAckSem` is given for an accepted `CONNACK` alone. -/
theorem conectedAckSem_le {s t : Worker} {a : WorkerAct} {es : List WorkerEvent}
    (h : FlagCase s a es t) (ha : a ≠ .event .connack 0) :
    t.conectedAckSem.count ≤ s.conectedAckSem.count := by
  cases h with
  | event type result =>
    cases type with
    | connack =>
      have hresult : result ≠ 0 := by
        rintro rfl
        exact ha rfl
      simp [mqttEvtHandler, hresult]
    | disconnect => exact tryTake_count_le s.conectedAckSem
    | _ => exact le_rfl
  | request => exact le_rfl
  | connect ret t hpc hflags =>
    simp only [Worker.flags, Prod.mk.injEq] at hflags
    rw [hflags.2.2]
  | failed ret t hpc hflags hpc' =>
    simp only [Worker.flags, Prod.mk.injEq] at hflags
    rw [hflags.2.2]
  | disconnect t hpc hreq hflags hpc' =>
    simp only [Worker.flags, Prod.mk.injEq] at hflags
    rw [hflags.2.2]
    exact tryTake_count_le s.conectedAckSem
  | other a es t hes hflags hpc =>
    simp only [Worker.flags, Prod.mk.injEq] at hflags
    rw [hflags.2.2]

/-- Before it is started the thread waits, and calls nobody. -/
theorem waitStart_cases {cfg : WorkerConfig} {s t : Worker} {a : WorkerAct}
    {es : List WorkerEvent} (h : WorkerCase cfg s a es t) (hw : s.pc = .waitStart) :
    (t.pc = .waitStart ∨ a = .proceed) ∧ ∀ e ∈ es, ∃ type result, e = .event type result := by
  cases h with
  | event type result =>
    exact ⟨Or.inl ((mqttEvtHandler_fields s type result).1.trans hw), by simp⟩
  | disconnectRequest => exact ⟨Or.inl hw, by simp⟩
  | tick ms => exact ⟨Or.inl hw, by simp⟩
  | start hpc => exact ⟨Or.inr rfl, by simp⟩
  | _ => simp_all

end WlabStation.Mqtt
