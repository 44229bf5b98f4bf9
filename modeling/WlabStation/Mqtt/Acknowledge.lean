import WlabStation.Mqtt.Publish

/-! Which message an acknowledgement belongs to. The handler does not look at
the id of a PUBACK, so a late one can end the wait of the next publish. -/
namespace WlabStation.Mqtt

/-- What holds of every run: the semaphore is binary, and a call in progress is
the one whose id is in `PubData.message_id`. -/
structure CallInv (h : List PublishEvent) (s : PublishState) : Prop where
  limit : s.publishAckSem.limit = 1
  count : s.publishAckSem.count ≤ 1
  idle : s.pc = .idle → openCall h = none
  busy : s.pc ≠ .idle → ∃ acks, openCall h = some (s.pubData.messageId, acks)

theorem callInv_init : CallInv [] publishInit where
  limit := rfl
  count := by decide
  idle _ := rfl
  busy h := absurd rfl h

theorem handlePuback_binary {sem : Sem} (hl : sem.limit = 1) (hc : sem.count ≤ 1) (result : ℤ) :
    (handlePuback sem result).limit = 1 ∧ (handlePuback sem result).count ≤ 1 := by
  unfold handlePuback Sem.give
  split_ifs
  · exact ⟨hl, hc⟩
  · exact ⟨hl, hl ▸ min_le_right _ _⟩

theorem openCall_puback (h : List PublishEvent) (id : UInt16) (result : ℤ) :
    openCall (h ++ [.pubackHandled id result]) =
      if result ≠ 0 then openCall h else (openCall h).map fun c => (c.1, id :: c.2) := by
  rw [openCall_append]
  rfl

theorem CallInv.step {h : List PublishEvent} {s t : PublishState} {a : PublishAct}
    {es : List PublishEvent} (hi : CallInv h s) (hc : PublishCase s a es t) :
    CallInv (h ++ es) t := by
  cases hc with
  | refused topic formatted hp =>
    exact ⟨hi.limit, hi.count, fun _ => by rw [openCall_append]; rfl, fun hne => absurd hp hne⟩
  | placed topic formatted d hp hd =>
    exact ⟨hi.limit, hi.count, fun hp' => by simp at hp',
      fun _ => ⟨[], by rw [openCall_append]; rfl⟩⟩
  | drain hp =>
    have hbusy := hi.busy (by simp [hp])
    rw [List.append_nil]
    rw [Sem.tryTake_binary hi.limit hi.count]
    exact ⟨rfl, Nat.zero_le 1, fun hp' => by simp at hp', fun _ => hbusy⟩
  | sendFailed ret hp hret =>
    exact ⟨hi.limit, hi.count, fun _ => by rw [openCall_append]; rfl, fun hne => absurd rfl hne⟩
  | send hp =>
    obtain ⟨acks, hacks⟩ := hi.busy (by simp [hp])
    exact ⟨hi.limit, hi.count, fun hp' => by simp at hp',
      fun _ => ⟨acks, by rw [openCall_append, hacks]; rfl⟩⟩
  | ackTaken sem hp hsem =>
    have hcount := hi.count
    have hlimit := hi.limit
    unfold Sem.take at hsem
    split_ifs at hsem with h0
    cases hsem
    refine ⟨hlimit, ?_, fun _ => by rw [openCall_append]; rfl, fun hne => absurd rfl hne⟩
    simp only
    omega
  | ackTimeout hp hsem =>
    exact ⟨hi.limit, hi.count, fun _ => by rw [openCall_append]; rfl, fun hne => absurd rfl hne⟩
  | puback id result hid =>
    obtain ⟨hlimit, hcount⟩ := handlePuback_binary hi.limit hi.count result
    refine ⟨hlimit, hcount, fun hp => ?_, fun hp => ?_⟩
    · rw [openCall_puback, hi.idle hp]
      simp
    · obtain ⟨acks, hacks⟩ := hi.busy hp
      rw [openCall_puback, hacks]
      split_ifs
      · exact ⟨acks, rfl⟩
      · exact ⟨id :: acks, rfl⟩
  | other a t hp hd hsem ha =>
    rw [List.append_nil]
    refine ⟨by rw [hsem]; exact hi.limit, by rw [hsem]; exact hi.count, fun hp' => ?_,
      fun hp' => ?_⟩
    · exact hi.idle (hp ▸ hp')
    · rw [hd]
      exact hi.busy (hp ▸ hp')

/-- After the drain of a call a given semaphore means that its message was
acknowledged. -/
structure AckInv (h : List PublishEvent) (s : PublishState) : Prop where
  call : CallInv h s
  acked : s.pc = .send ∨ s.pc = .waitAck → s.publishAckSem.count ≠ 0 →
    ∃ c ∈ openCall h, c.1 ∈ c.2

theorem ackInv_init : AckInv [] publishInit := ⟨callInv_init, fun hp => by simp [publishInit] at hp⟩

theorem AckInv.step {h : List PublishEvent} {s t : PublishState} {a : PublishAct}
    {es : List PublishEvent} (hi : AckInv h s) (hm : MatchingAck (h, s) a)
    (hc : PublishCase s a es t) : AckInv (h ++ es) t := by
  refine ⟨hi.call.step hc, fun hp hsem => ?_⟩
  cases hc with
  | refused topic formatted hpc => simp [hpc] at hp
  | placed topic formatted d hpc hd => simp at hp
  | drain hpc =>
    rw [Sem.tryTake_binary hi.call.limit hi.call.count] at hsem
    exact absurd rfl hsem
  | sendFailed ret hpc hret => simp at hp
  | send hpc =>
    obtain ⟨c, hc, hmem⟩ := hi.acked (.inl hpc) hsem
    refine ⟨c, ?_, hmem⟩
    rw [openCall_append, Option.mem_def.mp hc]
    rfl
  | ackTaken sem hpc htake => simp at hp
  | ackTimeout hpc htake => simp at hp
  | puback id result hid =>
    rw [openCall_puback]
    simp only at hp hsem
    split_ifs with hres
    · rw [handlePuback, if_pos hres] at hsem
      exact hi.acked hp hsem
    · obtain ⟨acks, hacks⟩ := hi.call.busy (by rcases hp with hp | hp <;> simp [hp])
      rw [hacks]
      refine ⟨_, rfl, ?_⟩
      rcases hm (not_not.mp hres) hp _ hacks with hid | hmem
      · exact List.mem_cons.mpr (.inl hid.symm)
      · exact List.mem_cons_of_mem _ hmem
  | other a t hpc hd hsame ha =>
    rw [List.append_nil]
    rw [hpc] at hp
    rw [hsame] at hsem
    exact hi.acked hp hsem

theorem AckInv.ackedReturn {h : List PublishEvent} {s : PublishState} (hi : AckInv h s)
    (a : PublishAct) : AckedReturn (h, s) a := by
  intro es t hs hret
  cases publisher_step_cases hs with
  | refused topic formatted hpc => simp [ENETUNREACH] at hret
  | placed topic formatted d hpc hd => simp at hret
  | drain hpc => simp at hret
  | sendFailed ret hpc hne =>
    have h0 : ret = 0 := by simpa [eq_comm] using hret
    exact absurd h0 hne
  | send hpc => simp at hret
  | ackTaken sem hpc htake =>
    refine hi.acked (.inr hpc) fun h0 => ?_
    simp [Sem.take, h0] at htake
  | ackTimeout hpc htake => simp [EAGAIN] at hret
  | puback id result hid => simp at hret
  | other a t hpc hd hsame ha => simp at hret

theorem callInv_run {acts : List PublishAct} {h : List PublishEvent} {s : PublishState}
    (hr : publisher.Runs publishInit acts h s) : CallInv h s :=
  Machine.Runs.invariant callInv_init
    (fun _ _ _ _ _ hi hs => hi.step (publisher_step_cases hs)) hr

/-- The wait of a call whose semaphore was given without a matching PUBACK ends
with 0. -/
theorem not_ackedReturn_of_waitAck {h : List PublishEvent} {s : PublishState}
    (hp : s.pc = .waitAck) (hsem : s.publishAckSem.count ≠ 0)
    (hno : ∀ c ∈ openCall h, c.1 ∉ c.2) : ¬ AckedReturn (h, s) .ackTaken := by
  intro hret
  obtain ⟨c, hc, hmem⟩ := hret [.returned 0] _ (by
    unfold publisher
    simp only [hp, Sem.take, if_neg hsem]
    rfl) (by simp)
  exact hno c hc hmem

theorem exists_not_ackedReturn {h : List PublishEvent} {s : PublishState}
    (hp : s.pc = .send ∨ s.pc = .waitAck) (hsem : s.publishAckSem.count ≠ 0)
    (hno : ∀ c ∈ openCall h, c.1 ∉ c.2) :
    ∃ bs, ¬ publisher.traced.EachStep AckedReturn (h, s) bs := by
  rcases hp with hp | hp
  · refine ⟨[.send 0, .ackTaken], fun hall => ?_⟩
    have hstep : publisher.traced.step (h, s) (.send 0) = some ([.sent s.pubData 0],
        (h ++ [.sent s.pubData 0], { s with
          pc := .waitAck, toBroker := s.pubData.messageId :: s.toBroker })) := by
      unfold Machine.traced publisher
      simp [hp]
    have hnext := hall.2
    rw [hstep] at hnext
    refine absurd hnext.1 (not_ackedReturn_of_waitAck rfl hsem ?_)
    rw [openCall_append]
    exact hno
  · exact ⟨[.ackTaken], fun hall => not_ackedReturn_of_waitAck hp hsem hno hall.1⟩

/-- A PUBACK that matches no id of the call in progress lets it return 0. -/
theorem not_ackedReturn_of_not_matchingAck {h : List PublishEvent} {s t : PublishState}
    {a : PublishAct} {es : List PublishEvent} (hi : CallInv h s)
    (hs : publisher.step s a = some (es, t)) (hm : ¬ MatchingAck (h, s) a) :
    ∃ bs, ¬ publisher.traced.EachStep AckedReturn (h ++ es, t) bs := by
  cases publisher_step_cases hs with
  | puback id result hid =>
    simp only [MatchingAck, not_forall, not_or] at hm
    obtain ⟨rfl, hp, c, hc, hne, hnot⟩ := hm
    refine exists_not_ackedReturn hp ?_ ?_
    · simp [handlePuback, Sem.give, hi.limit]
    · rw [openCall_puback, Option.mem_def.mp hc]
      rintro k hk
      cases hk
      simp only [List.mem_cons, not_or]
      exact ⟨fun he => hne he.symm, hnot⟩
  | _ => simp [MatchingAck] at hm

/-- Every return of 0 is for the message of its own call in the runs in which no
PUBACK of another message is handled after the drain and before one of this
message; where one is, a continuation of the run returns 0 without it. -/
theorem publish_returns_acked_of_matchingAck (acts : List PublishAct) :
    (publisher.traced.EachStep MatchingAck ([], publishInit) acts →
      publisher.traced.EachStep AckedReturn ([], publishInit) acts) ∧
    ∀ h s a es t, publisher.Runs publishInit acts h s → publisher.step s a = some (es, t) →
      ¬ MatchingAck (h, s) a → ∃ bs, ¬ publisher.traced.EachStep AckedReturn (h ++ es, t) bs := by
  constructor
  · exact Machine.EachStep.of_traced_invariant (I := AckInv) ackInv_init
      (fun _ _ _ _ _ hi hm hs => hi.step hm (publisher_step_cases hs))
      fun _ _ a hi _ => hi.ackedReturn a
  · exact fun h s a es t hr hs hm => not_ackedReturn_of_not_matchingAck (callInv_run hr) hs hm

theorem acked_publish_returns_acked : publisher.traced.EachStep AckedReturn ([], publishInit)
    [.setConnected true, .call [119] (.text [49]), .drain, .send 0, .brokerReceive 2, .brokerAck 2,
      .puback 2 0, .ackTaken] :=
  (publish_returns_acked_of_matchingAck _).1 (by decide +kernel)

/-- Two publishes. The acknowledgement of message 2 is handled when the wait for
it has expired and the second call waits for that of message 3. -/
def lateAck : List PublishAct := [.setConnected true, .call [119] (.text [49]), .drain, .send 0,
  .brokerReceive 2, .ackTimeout, .brokerAck 2, .call [119] (.text [50]), .drain, .send 0,
  .puback 2 0, .ackTaken]

/-- The second call returns 0, and message 3 did not even reach the broker. -/
theorem late_ack_ends_next_wait :
    (∃ d e s, publisher.Runs publishInit lateAck [.placed 2, .sent d 0, .returned (-EAGAIN),
      .placed 3, .sent e 0, .pubackHandled 2 0, .returned 0] s ∧ s.toBroker = [3]) ∧
    ¬ ∀ acts, publisher.traced.EachStep AckedReturn ([], publishInit) acts := by
  constructor
  · exact ⟨⟨[49], 1, [119], 1, 0, 1, 2⟩, ⟨[50], 1, [119], 1, 0, 1, 3⟩, _,
      Machine.runs_get (by decide +kernel), by decide +kernel⟩
  · intro hall
    obtain ⟨-, -, -, -, -, -, -, -, -, -, -, h, -⟩ := hall lateAck
    exact absurd (h [.returned 0] _ rfl (by simp)) (by decide +kernel)

end WlabStation.Mqtt
