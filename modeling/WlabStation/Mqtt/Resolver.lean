import WlabStation.Mqtt.Worker

/-! The address results of `net_getaddrinfo_addr_str`: `dns_resolve` copies the
address and keeps the result, which nothing frees. -/
namespace WlabStation.Mqtt

open Machine

/-- The results that were delivered. None of the functions of the worker frees one. -/
def outstanding (h : List WorkerEvent) : ℕ := h.count (.getaddrinfo 0)

/-- A query starts with at most one result outstanding. -/
def AtMostOne (h : List WorkerEvent) : WorkerEvent → Prop
  | .getaddrinfo _ => outstanding h ≤ 1
  | _ => True

/-- The state machine comes back to `DNS_RESOLVE`. -/
def Reenters (s t : Worker) : Prop := s.stateMachine ≠ .dnsResolve ∧ t.stateMachine = .dnsResolve

instance : DecidableRel Reenters := fun _ _ => inferInstanceAs (Decidable (_ ∧ _))

/-- `dns_resolve` runs when the state machine has come back at most once. -/
def FewReturns (x : ℕ × Worker) : WorkerAct → Prop
  | .dnsResolve _ => x.1 ≤ 1
  | _ => True

/-- An observation of something else than a query. -/
def WorkerEvent.noQuery : WorkerEvent → Prop
  | .getaddrinfo _ => False
  | _ => True

theorem outstanding_append {es : List WorkerEvent} (hes : ∀ e ∈ es, e.noQuery)
    (h : List WorkerEvent) : outstanding (h ++ es) = outstanding h := by
  have hzero : es.count (.getaddrinfo 0) = 0 :=
    List.count_eq_zero_of_not_mem fun hmem => hes _ hmem
  rw [outstanding, List.count_append, hzero, Nat.add_zero]
  rfl

theorem atMostOne_append {es : List WorkerEvent} (hes : ∀ e ∈ es, e.noQuery)
    (h : List WorkerEvent) : EachEvent AtMostOne (h ++ es) ↔ EachEvent AtMostOne h := by
  apply eachEvent_append
  intro e he k
  have hno := hes e he
  cases e with
  | getaddrinfo ret => cases hno
  | _ => trivial

/-- The case of the state machine in which the thread waits. -/
def WorkerPc.case : WorkerPc → Option WorkerState
  | .connectFailed _ | .connectWait | .connectCheck => some .connectToBroker
  | .subscribeWait | .subscribeInput _ => some .subscribe
  | _ => none

def InCase (s : Worker) : Prop := ∀ st, s.pc.case = some st → s.stateMachine = st

theorem inCase_of_none {s : Worker} (h : s.pc.case = none) : InCase s := by
  intro st hst
  rw [h] at hst
  cases hst

/-- What a step other than `dns_resolve` does to the query: nothing. -/
structure Unqueried (s : Worker) (es : List WorkerEvent) (t : Worker) : Prop where
  events : ∀ e ∈ es, e.noQuery
  inCase : InCase t
  stays : s.stateMachine = .dnsResolve → t.stateMachine = .dnsResolve

section Steps
variable {s : Worker} {es : List WorkerEvent}

/-- The case `CONNECT_TO_BROKER` is left for another case than `DNS_RESOLVE`, or for this one. -/
theorem unqueried_connectReturned (hes : ∀ e ∈ es, e.noQuery)
    (hst : s.stateMachine = .connectToBroker) (ret : ℤ) :
    Unqueried s es (connectReturned s ret) := by
  constructor
  case events => exact hes
  case inCase => exact inCase_of_none (by rw [(connectReturned_fields s ret).1]; rfl)
  case stays => simp [hst]

theorem unqueried_subscribeReturned (hes : ∀ e ∈ es, e.noQuery) {s' : Worker}
    (hst : s.stateMachine = .subscribe) (ret : ℤ) :
    Unqueried s es (subscribeReturned s' ret) := by
  constructor
  case events => exact hes
  case inCase => exact inCase_of_none (by rw [(subscribeReturned_fields s' ret).1]; rfl)
  case stays => simp [hst]

theorem unqueried_inputReturned (hes : ∀ e ∈ es, e.noQuery) {s' : Worker}
    (hst : s'.stateMachine = s.stateMachine) (ret : ℤ) :
    Unqueried s es (inputReturned s' ret) := by
  constructor
  case events => exact hes
  case inCase => exact inCase_of_none rfl
  case stays =>
    intro hdns
    unfold inputReturned
    dsimp only
    split_ifs
    · rfl
    · rw [hst, hdns]

/-- A step that keeps the state machine. -/
theorem unqueried_of_same {t : Worker} (hes : ∀ e ∈ es, e.noQuery)
    (hst : t.stateMachine = s.stateMachine) (hcase : InCase t) : Unqueried s es t :=
  ⟨hes, hcase, fun hdns => hst.trans hdns⟩

end Steps

theorem unqueried_of_step {cfg : WorkerConfig} {s t : Worker} {a : WorkerAct}
    {es : List WorkerEvent} (hi : InCase s) (hno : ∀ ret, a ≠ .dnsResolve ret)
    (hc : WorkerCase cfg s a es t) : Unqueried s es t := by
  cases hc with
  | event type result =>
    obtain ⟨hpc, hst, -⟩ := mqttEvtHandler_fields s type result
    refine unqueried_of_same (by simp [WorkerEvent.noQuery]) hst ?_
    unfold InCase
    rw [hpc, hst]
    exact hi
  | disconnectRequest => exact unqueried_of_same (by simp) rfl hi
  | tick ms => exact unqueried_of_same (by simp) rfl hi
  | start hpc => exact unqueried_of_same (by simp) rfl (inCase_of_none rfl)
  | dnsResolve ret hpc hst => exact absurd rfl (hno ret)
  | mqttConnect ret hpc hst =>
    refine unqueried_of_same (by simp [WorkerEvent.noQuery]) rfl ?_
    intro st hcase
    dsimp only at hcase
    split_ifs at hcase <;> exact hst.trans (Option.some.inj hcase)
  | connectFailed ret hpc =>
    exact unqueried_connectReturned (by simp [WorkerEvent.noQuery]) (hi _ (by rw [hpc]; rfl)) ret
  | connectPoll ret hpc =>
    refine unqueried_of_same (inputOf_all ret trivial) rfl fun st hcase => ?_
    exact (hi _ (by rw [hpc]; rfl)).trans (Option.some.inj hcase)
  | connectAbort hpc hconnected =>
    exact unqueried_connectReturned (by simp [WorkerEvent.noQuery]) (hi _ (by rw [hpc]; rfl)) (-1)
  | connectDone hpc hconnected =>
    exact unqueried_connectReturned (by simp) (hi _ (by rw [hpc]; rfl)) 0
  | subscribeNone hpc hst hlist =>
    exact unqueried_subscribeReturned (by simp [WorkerEvent.noQuery]) hst 0
  | subscribeFailed ret hpc hst hret =>
    exact unqueried_subscribeReturned (by simp [WorkerEvent.noQuery]) hst ret
  | mqttSubscribe hpc hst =>
    refine unqueried_of_same (by simp [WorkerEvent.noQuery]) rfl fun st hcase => ?_
    exact hst.trans (Option.some.inj hcase)
  | subscribePoll ret hpc hret =>
    refine unqueried_of_same (by simp [WorkerEvent.noQuery]) rfl fun st hcase => ?_
    exact (hi _ (by rw [hpc]; rfl)).trans (Option.some.inj hcase)
  | subscribeTimeout ret hpc hret =>
    exact unqueried_subscribeReturned (by simp [subscribeEnd, WorkerEvent.noQuery])
      (hi _ (by rw [hpc]; rfl)) _
  | subscribeAgain ret hpc =>
    refine unqueried_of_same (by simp) rfl fun st hcase => ?_
    exact (hi _ (by rw [hpc]; rfl)).trans (Option.some.inj hcase)
  | subscribeEnd ret hpc =>
    exact unqueried_subscribeReturned (by simp [subscribeEnd, WorkerEvent.noQuery])
      (hi _ (by rw [hpc]; rfl)) _
  | connected hpc hst => exact unqueried_of_same (by simp) rfl (inCase_of_none rfl)
  | disconnected hpc hst => exact unqueried_of_same (by simp) rfl hi
  | inputEnter hpc hnow => exact unqueried_of_same (by simp) rfl (inCase_of_none rfl)
  | keepalive hpc hnow =>
    exact unqueried_inputReturned (by simp [keepalive, WorkerEvent.noQuery]) (by rfl) 0
  | inputPoll ret hpc =>
    exact unqueried_of_same (inputOf_all ret trivial) rfl (inCase_of_none rfl)
  | inputLost hpc hconnected => exact unqueried_inputReturned (by simp) rfl (-1)
  | inputHeld hpc hconnected => exact unqueried_of_same (by simp) rfl (inCase_of_none rfl)
  | inputExternal hpc hreq =>
    exact unqueried_inputReturned (by simp [WorkerEvent.noQuery]) (by rfl) (-1)
  | inputDone hpc hreq => exact unqueried_inputReturned (by simp) rfl 0

/-- Every result but the current one belongs to a return. -/
structure Counted (h : List WorkerEvent) (x : ℕ × Worker) : Prop where
  inCase : InCase x.2
  count : outstanding h = x.1 + if x.2.stateMachine = .dnsResolve then 0 else 1

theorem counted_init : Counted [] (0, workerInit) where
  inCase := inCase_of_none rfl
  count := rfl

theorem Counted.query {cfg : WorkerConfig} (hname : cfg.hostLiteral = false)
    {h : List WorkerEvent} {n : ℕ} {s : Worker} (hi : Counted h (n, s)) (hpc : s.pc = .dispatch)
    (hst : s.stateMachine = .dnsResolve) (ret : ℤ) :
    Counted (h ++ (dnsResolve cfg s ret).1) (n, (dnsResolve cfg s ret).2) ∧
      (EachEvent AtMostOne (h ++ (dnsResolve cfg s ret).1) ↔
        EachEvent AtMostOne h ∧ FewReturns (n, s) (.dnsResolve ret)) := by
  have hcount := hi.count
  simp only [hst, if_true, Nat.add_zero] at hcount
  have hquery : (dnsResolve cfg s ret).1 = [.getaddrinfo ret] := by simp [dnsResolve, hname]
  have hcase : InCase (dnsResolve cfg s ret).2 := by
    apply inCase_of_none
    rw [(dnsResolve_fields cfg s ret).1, hpc]
    rfl
  rw [hquery]
  constructor
  · constructor
    case inCase => exact hcase
    case count =>
      rw [outstanding, List.count_append, ← outstanding, hcount]
      by_cases hret : ret = 0
      · simp [dnsResolve, hname, hret]
      · simp [dnsResolve, hname, hret, hst]
  · rw [eachEvent_concat, AtMostOne, FewReturns, hcount]

theorem Counted.unqueried {h es : List WorkerEvent} {n : ℕ} {s t : Worker}
    (hi : Counted h (n, s)) (hu : Unqueried s es t) :
    Counted (h ++ es) (if Reenters s t then n + 1 else n, t) := by
  obtain ⟨hes, hcase, hstays⟩ := hu
  have hcount := hi.count
  constructor
  case inCase => exact hcase
  case count =>
    rw [outstanding_append hes]
    unfold Reenters
    by_cases hs : s.stateMachine = .dnsResolve
    · simpa [hs, hstays hs] using hcount
    · by_cases ht : t.stateMachine = .dnsResolve
      · simpa [hs, ht] using hcount
      · simpa [hs, ht] using hcount

theorem Counted.step {cfg : WorkerConfig} (hname : cfg.hostLiteral = false)
    {h es : List WorkerEvent} {n : ℕ} {s t : Worker} {a : WorkerAct} (hi : Counted h (n, s))
    (hc : WorkerCase cfg s a es t) :
    Counted (h ++ es) (if Reenters s t then n + 1 else n, t) ∧
      (EachEvent AtMostOne (h ++ es) ↔ EachEvent AtMostOne h ∧ FewReturns (n, s) a) := by
  cases a with
  | dnsResolve ret =>
    obtain ⟨hpc, hst, rfl, rfl⟩ : s.pc = .dispatch ∧ s.stateMachine = .dnsResolve ∧
        (dnsResolve cfg s ret).1 = es ∧ (dnsResolve cfg s ret).2 = t := by
      cases hc with
      | dnsResolve _ hpc hst => exact ⟨hpc, hst, rfl, rfl⟩
    have hno : ¬ Reenters s (dnsResolve cfg s ret).2 := fun hre => hre.1 hst
    rw [if_neg hno]
    exact hi.query hname hpc hst ret
  | _ =>
    have hu := unqueried_of_step hi.inCase (by simp) hc
    exact ⟨hi.unqueried hu, (atMostOne_append hu.events h).trans (and_iff_left trivial).symm⟩

/-- In every run of the worker with a broker name, each query starts with at most one
result outstanding exactly if none starts after a second return to `DNS_RESOLVE`. -/
theorem resolver_results_iff {cfg : WorkerConfig} (hname : cfg.hostLiteral = false)
    {acts : List WorkerAct} {h : List WorkerEvent} {s : Worker}
    (hr : (worker cfg).Runs workerInit acts h s) :
    EachEvent AtMostOne h ↔
      ((worker cfg).counting Reenters).EachStep FewReturns (0, workerInit) acts := by
  obtain ⟨n, hcounting⟩ := hr.counting Reenters
  refine (hcounting.eachEvent_iff counted_init ?_).2
  rintro h ⟨n, s⟩ a es ⟨k, t⟩ hi hs
  obtain ⟨hs, hk⟩ := counting_step.mp hs
  obtain rfl : k = if Reenters s t then n + 1 else n := hk
  exact hi.step hname (worker_step_cases hs)

/-- A query, and four failed connects, after which the worker queries again. -/
def reconnectActs : List WorkerAct := .dnsResolve 0 ::
  (List.replicate 4 [.mqttConnect (-1), .proceed]).flatten

instance (x : ℕ × Worker) (a : WorkerAct) : Decidable (FewReturns x a) := by
  unfold FewReturns
  split <;> infer_instance

theorem two_queries_bounded : ∃ h s, (worker stationConfig).Runs workerInit
    (.proceed :: reconnectActs ++ [.dnsResolve 0]) h s ∧ EachEvent AtMostOne h :=
  ⟨_, _, Machine.runs_get (by decide +kernel),
    (resolver_results_iff rfl (Machine.runs_get (by decide +kernel))).mpr (by decide +kernel)⟩

/-- The third query finds two results that were not freed. -/
theorem third_query_leaks : ∃ h k s, (worker stationConfig).Runs workerInit
      (.proceed :: reconnectActs ++ reconnectActs ++ [.dnsResolve 0]) h s ∧
    h = k ++ [.getaddrinfo 0] ∧ outstanding k = 2 ∧ ¬ EachEvent AtMostOne h := by
  let failed : List WorkerEvent := (List.replicate 4 [.mqttConnect (-1), .mqttDisconnect]).flatten
  let k : List WorkerEvent := .getaddrinfo 0 :: failed ++ .getaddrinfo 0 :: failed
  have htwo : outstanding k = 2 := by decide
  refine ⟨k ++ [.getaddrinfo 0], k, { workerInit with
    pc := .dispatch, stateMachine := .connectToBroker }, by decide +kernel, rfl, htwo, ?_⟩
  intro hall
  have hone : outstanding k ≤ 1 := hall k (.getaddrinfo 0) [] rfl
  omega

end WlabStation.Mqtt
