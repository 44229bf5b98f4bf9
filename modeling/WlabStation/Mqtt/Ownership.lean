import WlabStation.Mqtt.Subscribe

/-! Who holds the blocks of the slab. Two exits of the handler forget the block
of an admitted message; every other step hands it on or gives it back. -/
namespace WlabStation.Mqtt

/-- The block the handler holds. -/
def HandlerPc.blocks : HandlerPc → List ℕ
  | .check _ block => block.toList
  | .receive _ block _ _ => [block]
  | .enqueue block => [block]
  | _ => []

/-- The blocks that the handler, the queue and `subscribe_proc` hold. -/
def SubsState.owners (s : SubsState) : List ℕ :=
  s.handler.blocks ++ (s.queue.items ++ s.held.toList)

/-- An admitted message is not empty, and no read of an admitted message fails. -/
def KeepsBlock (s : SubsState) (a : SubsAct) : Prop :=
  match a, s.handler with
  | .check, .check pub (some _) => Admissible s.connected pub → 0 < pub.payloadLen
  | .readError, .receive _ _ _ _ => False
  | _, _ => True

instance (s : SubsState) (a : SubsAct) : Decidable (KeepsBlock s a) := by
  unfold KeepsBlock
  split <;> infer_instance

/-- Every block is free, held, or among the `leaked` ones that nobody holds. -/
structure Owned (leaked : List ℕ) (s : SubsState) : Prop where
  accounts : s.slab.Accounts subsBlocks (leaked ++ s.owners)
  capacity : s.queue.capacity = 4

theorem owned_init : Owned [] subsInit := ⟨⟨List.Perm.refl _, rfl⟩, rfl⟩

/-- Steps that hand a block on from one owner to another. -/
theorem Owned.handOn {leaked : List ℕ} {s t : SubsState} (hi : Owned leaked s)
    (hslab : t.slab = s.slab) (howners : t.owners.Perm s.owners)
    (hcapacity : t.queue.capacity = s.queue.capacity) : Owned leaked t := by
  refine ⟨?_, hcapacity.trans hi.capacity⟩
  rw [hslab]
  exact hi.accounts.of_perm (howners.append_left _)

/-- Steps that give a block back to the slab. -/
theorem Owned.release {leaked : List ℕ} {s t : SubsState} (hi : Owned leaked s) (block : ℕ)
    (hslab : t.slab = s.slab.release block) (howners : s.owners.Perm (block :: t.owners))
    (hcapacity : t.queue.capacity = s.queue.capacity) : Owned leaked t := by
  refine ⟨?_, hcapacity.trans hi.capacity⟩
  rw [hslab]
  refine (hi.accounts.of_perm ?_).release
  exact List.perm_middle.symm.trans (howners.symm.append_left _)

/-- Steps that forget the block of the handler. -/
theorem Owned.forget {leaked : List ℕ} {s t : SubsState} {block : ℕ} (hi : Owned leaked s)
    (hslab : t.slab = s.slab) (howners : s.owners = block :: t.owners)
    (hcapacity : t.queue.capacity = s.queue.capacity) : Owned (block :: leaked) t := by
  refine ⟨?_, hcapacity.trans hi.capacity⟩
  rw [hslab]
  apply hi.accounts.of_perm
  rw [howners]
  exact List.perm_middle.symm

theorem drainFrom_owners (s : SubsState) (len : ℕ) :
    (drainFrom s len).owners = s.queue.items ++ s.held.toList := by
  unfold drainFrom
  split_ifs <;> rfl

/-- The queue has room for every block, so a put never has to wait. -/
theorem Owned.put_ne_none {leaked : List ℕ} {s : SubsState} {block : ℕ} (hi : Owned leaked s)
    (hh : s.handler = .enqueue block) : s.queue.put block ≠ none := by
  intro hput
  have hle := hi.accounts.length_le
  have hfull : ¬ s.queue.items.length < s.queue.capacity := by
    intro hroom
    simp [Msgq.put, hroom] at hput
  rw [hi.capacity] at hfull
  simp only [SubsState.owners, hh, HandlerPc.blocks, subsBlocks, List.length_append,
    List.length_cons, List.length_nil] at hle
  omega

theorem Owned.check {leaked : List ℕ} {s : SubsState} {pub : PublishParam} {block : Option ℕ}
    (hi : Owned leaked s) (hh : s.handler = .check pub block) :
    (KeepsBlock s .check → Owned leaked (checkMessage s pub block)) ∧
      (¬ KeepsBlock s .check → ∃ b, Owned (b :: leaked) (checkMessage s pub block)) := by
  have howners : s.owners = block.toList ++ (s.queue.items ++ s.held.toList) := by
    rw [SubsState.owners, hh, HandlerPc.blocks]
  cases block with
  | none =>
    have hkeeps : KeepsBlock s .check := by simp [KeepsBlock, hh]
    refine ⟨fun _ => ?_, fun hk => absurd hkeeps hk⟩
    refine hi.handOn ?_ ?_ ?_
    · unfold checkMessage drainFrom
      rfl
    · rw [howners, checkMessage, drainFrom_owners]
      rfl
    · rfl
  | some b =>
    have hkeeps : KeepsBlock s .check ↔ (Admissible s.connected pub → 0 < pub.payloadLen) := by
      simp only [KeepsBlock, hh]
    rw [hkeeps]
    unfold checkMessage
    split_ifs with hadm hlen
    · refine ⟨fun hk => absurd (hk hadm) (by omega), fun _ => ⟨b, ?_⟩⟩
      exact hi.forget rfl howners rfl
    · refine ⟨fun _ => ?_, fun hk => absurd (fun _ => Nat.pos_of_ne_zero hlen) hk⟩
      refine hi.handOn rfl ?_ rfl
      rw [howners]
      exact List.Perm.refl _
    · refine ⟨fun _ => ?_, fun hk => absurd (fun hadm' => absurd hadm' hadm) hk⟩
      refine hi.release b rfl ?_ rfl
      rw [howners, drainFrom_owners]
      exact List.Perm.refl _

/-- A step keeps every block, or loses one, exactly as `KeepsBlock` says. -/
theorem Owned.step {subsCb : Bool} {leaked : List ℕ} {s t : SubsState} {a : SubsAct}
    {es : List SubsEvent} (hi : Owned leaked s) (hc : SubsCase subsCb s a es t) :
    (KeepsBlock s a → Owned leaked t) ∧ (¬ KeepsBlock s a → ∃ b, Owned (b :: leaked) t) := by
  cases hc with
  | publish pub hh =>
    refine ⟨fun _ => hi.handOn rfl ?_ rfl, fun hk => absurd (by simp [KeepsBlock]) hk⟩
    simp [SubsState.owners, hh, HandlerPc.blocks]
  | setConnected connected =>
    exact ⟨fun _ => hi.handOn rfl (List.Perm.refl _) rfl,
      fun hk => absurd (by simp [KeepsBlock]) hk⟩
  | alloc pub block slab hh ha =>
    refine ⟨fun _ => ⟨?_, hi.capacity⟩, fun hk => absurd (by simp [KeepsBlock]) hk⟩
    apply (hi.accounts.alloc ha).of_perm
    simp [SubsState.owners, hh, HandlerPc.blocks]
  | allocTimeout pub hh hfree =>
    refine ⟨fun _ => hi.handOn rfl ?_ rfl, fun hk => absurd (by simp [KeepsBlock]) hk⟩
    simp [SubsState.owners, hh, HandlerPc.blocks]
  | check pub block hh => exact hi.check hh
  | drained bytes len hh hlen =>
    refine ⟨fun _ => hi.handOn ?_ ?_ ?_, fun hk => absurd (by simp [KeepsBlock]) hk⟩
    · rfl
    · rw [drainFrom_owners, SubsState.owners, hh]
      exact List.Perm.refl _
    · rfl
  | drainFailed len hh =>
    refine ⟨fun _ => hi.handOn rfl ?_ rfl, fun hk => absurd (by simp [KeepsBlock, hh]) hk⟩
    simp [SubsState.owners, hh, HandlerPc.blocks]
  | received bytes pub block len readIdx hh hlen =>
    refine ⟨fun _ => ?_, fun hk => absurd (by simp [KeepsBlock]) hk⟩
    unfold receiveChunk
    split_ifs
    · refine hi.handOn rfl ?_ rfl
      simp [SubsState.owners, hh, HandlerPc.blocks, receiveDone]
    · refine hi.handOn rfl ?_ rfl
      simp [SubsState.owners, hh, HandlerPc.blocks]
  | receiveFailed pub block len readIdx hh =>
    refine ⟨fun hk => absurd hk (by simp [KeepsBlock, hh]), fun _ => ⟨block, ?_⟩⟩
    refine hi.forget rfl ?_ rfl
    simp [SubsState.owners, hh, HandlerPc.blocks, receiveFailed]
  | put block queue hh hput =>
    obtain ⟨-, rfl⟩ := Msgq.put_eq_some.mp hput
    refine ⟨fun _ => hi.handOn rfl ?_ rfl, fun hk => absurd (by simp [KeepsBlock]) hk⟩
    simp [SubsState.owners, hh, HandlerPc.blocks]
  | putTimeout block hh hput => exact absurd hput (hi.put_ne_none hh)
  | get block queue hheld hget =>
    obtain ⟨hitems, hcapacity⟩ := Msgq.get_eq_some.mp hget
    refine ⟨fun _ => hi.handOn rfl ?_ hcapacity, fun hk => absurd (by simp [KeepsBlock]) hk⟩
    simp only [SubsState.owners, hitems, hheld, Option.toList_none, Option.toList_some,
      List.append_nil]
    exact (List.perm_append_singleton block _).append_left _
  | consume block hheld =>
    refine ⟨fun _ => hi.release block rfl ?_ rfl,
      fun hk => absurd (by simp [KeepsBlock]) hk⟩
    simp only [SubsState.owners, hheld, Option.toList_none, Option.toList_some, List.append_nil,
      ← List.append_assoc]
    exact List.perm_append_singleton block _

theorem owned_run {subsCb : Bool} {acts : List SubsAct} {h : List SubsEvent} {s : SubsState}
    (hr : (subs subsCb).Runs subsInit acts h s) :
    ∃ leaked, Owned leaked s ∧
      (leaked = [] ↔ (subs subsCb).EachStep KeepsBlock subsInit acts) := by
  refine Machine.Runs.induction (I := fun acts _ s => ∃ leaked, Owned leaked s ∧
    (leaked = [] ↔ (subs subsCb).EachStep KeepsBlock subsInit acts))
    ⟨[], owned_init, by simp [Machine.EachStep]⟩ ?_ hr
  rintro acts h s a es t hk ⟨leaked, hi, hiff⟩ hs
  have hstep := hi.step (subs_step_cases hs)
  rw [Machine.eachStep_concat hk]
  by_cases hkeeps : KeepsBlock s a
  · exact ⟨leaked, hstep.1 hkeeps, by simp [hiff, hkeeps]⟩
  · obtain ⟨b, hb⟩ := hstep.2 hkeeps
    exact ⟨b :: leaked, hb, by simp [hkeeps]⟩

/-- Between two handler calls the blocks in use are those in the queue and the
one being consumed, exactly in the runs in which no step forgot a block. -/
theorem slab_conserved_iff {subsCb : Bool} {acts : List SubsAct} {h : List SubsEvent}
    {s : SubsState} (hr : (subs subsCb).Runs subsInit acts h s) (hidle : s.handler = .idle) :
    s.slab.numUsed = s.queue.items.length + s.held.toList.length ↔
      (subs subsCb).EachStep KeepsBlock subsInit acts := by
  obtain ⟨leaked, hi, hiff⟩ := owned_run hr
  have hused := hi.accounts.used
  simp only [SubsState.owners, hidle, HandlerPc.blocks, List.nil_append,
    List.length_append] at hused
  rw [← hiff, ← List.length_eq_zero_iff]
  omega

theorem one_message_conserved : ∃ h s,
    (subs false).Runs subsInit [.setConnected true, .publish ⟨[116], 1, by decide⟩, .alloc,
      .check, .read [65], .put, .get] h s ∧ s.held = some 0 ∧
      s.slab.numUsed = s.queue.items.length + s.held.toList.length :=
  ⟨_, _, Machine.runs_get (by decide +kernel), by decide +kernel,
    (slab_conserved_iff (Machine.runs_get (by decide +kernel)) (by decide +kernel)).mpr
      (by decide +kernel)⟩

/-- Four messages without payload, each handled to its end. -/
theorem four_empty_payloads_exhaust_slab :
    ¬ ∀ subsCb acts h s, (subs subsCb).Runs subsInit acts h s → s.handler = .idle →
      s.slab.numUsed = s.queue.items.length + s.held.toList.length := by
  intro hall
  have h := hall false (.setConnected true :: (List.replicate 4
    [SubsAct.publish ⟨[116], 0, by decide⟩, .alloc, .check]).flatten) _ _
    (Machine.runs_get (by decide +kernel)) (by decide +kernel)
  exact absurd h (by decide +kernel)

end WlabStation.Mqtt
