import Mathlib.Data.List.Range
import WlabStation.Mqtt.PublishLength

/-! The packet identifiers of the publishes: `PubData.message_id` counts modulo 2^16
from `mqtt_worker_init` on, through refused, failed and timed-out calls. -/
namespace WlabStation.Mqtt

/-- The ids handed to `mqtt_publish`, in order. -/
def sentIds (h : List PublishEvent) : List UInt16 :=
  h.filterMap fun
    | .sent d _ => some d.messageId
    | _ => none

/-- No id is 0, and each differs from the one before. -/
structure ValidIds (ids : List UInt16) : Prop where
  nonzero : ∀ id ∈ ids, id ≠ 0
  fresh : ids.IsChain (· ≠ ·)

/-- A step that hands `PubData` to `mqtt_publish`. -/
def isSend : PublishAct → Bool
  | .send _ => true
  | _ => false

/-- The first `n` ids after `mqtt_worker_init`. -/
def publishIds (n : ℕ) : List UInt16 := (List.range n).map fun k => UInt16.ofNat (k + 2)

theorem ofNat_uint16_eq_iff (a b : ℕ) :
    UInt16.ofNat a = UInt16.ofNat b ↔ a % 65536 = b % 65536 := by
  rw [← UInt16.toNat_inj, UInt16.toNat_ofNat', UInt16.toNat_ofNat']

theorem publishIds_succ (n : ℕ) : publishIds (n + 1) = publishIds n ++ [UInt16.ofNat (n + 2)] := by
  rw [publishIds, List.range_succ, List.map_append]
  rfl

/-- The id number 65535 is 0. -/
theorem zero_mem_publishIds {n : ℕ} (hn : 65535 ≤ n) : 0 ∈ publishIds n := by
  have hwrap : UInt16.ofNat (65534 + 2) = 0 := rfl
  rw [← hwrap]
  exact List.mem_map_of_mem (f := fun k => UInt16.ofNat (k + 2)) (List.mem_range.mpr hn)

theorem publishIds_valid_iff (n : ℕ) : ValidIds (publishIds n) ↔ n < 65535 := by
  constructor
  · intro h
    by_contra hn
    exact h.nonzero 0 (zero_mem_publishIds (not_lt.mp hn)) rfl
  · intro hn
    constructor
    case nonzero =>
      intro id hid
      obtain ⟨k, hk, rfl⟩ := List.mem_map.mp hid
      rw [List.mem_range] at hk
      have hne := (ofNat_uint16_eq_iff (k + 2) 0).not.mpr (by omega)
      exact hne
    case fresh =>
      rw [publishIds, List.isChain_map]
      cases n with
      | zero => exact List.isChain_nil
      | succ n =>
        refine (List.isChain_range_succ _ n).mpr fun k _ => ?_
        rw [Ne, ofNat_uint16_eq_iff]
        omega

/-- A call has placed its id and not yet sent its message. -/
def Placed (s : PublishState) : Prop := s.pc = .drain ∨ s.pc = .send

theorem sentIds_append (h k : List PublishEvent) : sentIds (h ++ k) = sentIds h ++ sentIds k :=
  List.filterMap_append

theorem send_step {s t : PublishState} {a : PublishAct} {es : List PublishEvent}
    (ha : isSend a = true) (hs : publisher.step s a = some (es, t)) :
    Placed s ∧ sentIds es = [s.pubData.messageId] ∧ t.pubData = s.pubData ∧ ¬ Placed t := by
  cases a with
  | send ret =>
    unfold publisher at hs
    cases hp : s.pc <;> simp only [hp, reduceCtorEq] at hs
    split_ifs at hs with hret
    · cases hs
      exact ⟨.inr hp, rfl, rfl, by simp [Placed]⟩
    · cases hs
      exact ⟨.inr hp, rfl, rfl, by simp [Placed]⟩
  | _ => cases ha

/-- Other steps hand nothing over, and only a call that is accepted counts. -/
theorem other_step {s t : PublishState} {a : PublishAct} {es : List PublishEvent}
    (ha : isSend a = false) (hs : publisher.step s a = some (es, t)) : sentIds es = [] ∧
      (¬ Placed s ∧ Placed t ∧ t.pubData.messageId = s.pubData.messageId + 1 ∨
        (Placed t ↔ Placed s) ∧ t.pubData = s.pubData) := by
  unfold Placed
  cases publisher_step_cases hs with
  | placed topic formatted d hp hd =>
    refine ⟨rfl, .inl ⟨by simp [hp], .inl rfl, ?_⟩⟩
    rw [hd]
    rfl
  | sendFailed ret hp hret => cases ha
  | send hp => cases ha
  | refused topic formatted hp => exact ⟨rfl, .inr ⟨Iff.rfl, rfl⟩⟩
  | drain hp => exact ⟨rfl, .inr ⟨by simp [hp], rfl⟩⟩
  | ackTaken sem hp hsem => exact ⟨rfl, .inr ⟨by simp [hp], rfl⟩⟩
  | ackTimeout hp hsem => exact ⟨rfl, .inr ⟨by simp [hp], rfl⟩⟩
  | puback id result hid => exact ⟨rfl, .inr ⟨Iff.rfl, rfl⟩⟩
  | other a t hp hd hsem hne => exact ⟨rfl, .inr ⟨by rw [hp], hd⟩⟩

/-- After `n` messages were handed over. -/
structure IdInv (n : ℕ) (h : List PublishEvent) (s : PublishState) : Prop where
  ids : sentIds h = publishIds n
  placed : Placed s → s.pubData.messageId = UInt16.ofNat (n + 2)
  free : ¬ Placed s → s.pubData.messageId = UInt16.ofNat (n + 1)

theorem idInv_init : IdInv 0 [] publishInit where
  ids := rfl
  placed h := by simp [Placed, publishInit] at h
  free _ := rfl

theorem IdInv.send {n : ℕ} {h es : List PublishEvent} {s t : PublishState} {a : PublishAct}
    (hi : IdInv n h s) (ha : isSend a = true) (hs : publisher.step s a = some (es, t)) :
    IdInv (n + 1) (h ++ es) t := by
  obtain ⟨hplaced, hes, hdata, hfree⟩ := send_step ha hs
  have hid := hi.placed hplaced
  constructor
  case ids => rw [sentIds_append, hi.ids, hes, hid, publishIds_succ]
  case placed => exact fun ht => absurd ht hfree
  case free =>
    intro _
    rw [hdata, hid]

theorem IdInv.other {n : ℕ} {h es : List PublishEvent} {s t : PublishState} {a : PublishAct}
    (hi : IdInv n h s) (ha : isSend a = false) (hs : publisher.step s a = some (es, t)) :
    IdInv n (h ++ es) t := by
  obtain ⟨hes, ⟨hfree, hplaced, hcount⟩ | ⟨hpc, hdata⟩⟩ := other_step ha hs
  · constructor
    case ids => rw [sentIds_append, hi.ids, hes, List.append_nil]
    case placed =>
      intro _
      rw [hcount, hi.free hfree, ← UInt16.ofNat_one, ← UInt16.ofNat_add]
    case free => exact fun ht => absurd hplaced ht
  · constructor
    case ids => rw [sentIds_append, hi.ids, hes, List.append_nil]
    case placed =>
      intro ht
      rw [hdata, hi.placed (hpc.mp ht)]
    case free =>
      intro ht
      rw [hdata, hi.free fun hp => ht (hpc.mpr hp)]

/-- The ids of a run are those of the counter. -/
theorem idInv_run {acts : List PublishAct} {h : List PublishEvent} {s : PublishState}
    (hr : publisher.Runs publishInit acts h s) : IdInv (acts.countP isSend) h s := by
  apply hr.induction (I := fun as h t => IdInv (as.countP isSend) h t) idInv_init
  intro as h t a es u _ hi hs
  rw [List.countP_append, List.countP_singleton]
  cases ha : isSend a with
  | true => exact hi.send ha hs
  | false => exact hi.other ha hs

/-- In every run from `mqtt_worker_init` on the ids are valid exactly if fewer than
65535 messages were handed over. -/
theorem packet_ids_valid_iff {acts : List PublishAct} {h : List PublishEvent} {s : PublishState}
    (hr : publisher.Runs publishInit acts h s) :
    ValidIds (sentIds h) ↔ acts.countP isSend < 65535 := by
  rw [(idInv_run hr).ids]
  exact publishIds_valid_iff _

/-- One publish that is refused, one that is acknowledged and one that fails. -/
def threeCalls : List PublishAct := [.call [119] (.text [48]), .setConnected true,
  .call [119] (.text [49]), .drain, .send 0, .brokerReceive 2, .brokerAck 2, .puback 2 0,
  .ackTaken, .call [119] (.text [50]), .drain, .send (-ENETUNREACH)]

theorem three_calls_valid : ∃ h s, publisher.Runs publishInit threeCalls h s ∧
    sentIds h = [2, 3] ∧ ValidIds (sentIds h) := by
  have hrun : (publisher.run publishInit threeCalls).isSome := by decide +kernel
  have hr := Machine.runs_get hrun
  exact ⟨_, _, hr, (idInv_run hr).ids, (packet_ids_valid_iff hr).mpr (by decide)⟩

/-- `n` publishes, all of which `mqtt_publish` refuses. -/
def failedPublishes (n : ℕ) : List PublishAct :=
  (List.replicate n [.call [119] (.text [49]), .drain, .send (-ENETUNREACH)]).flatten

theorem countP_failedPublishes (n : ℕ) : (failedPublishes n).countP isSend = n := by
  induction n with
  | zero => rfl
  | succ n ih =>
    rw [failedPublishes, List.replicate_succ, List.flatten_cons, List.countP_append]
    rw [failedPublishes] at ih
    rw [ih, Nat.add_comm]
    rfl

/-- A connected station can go on like this. -/
theorem failedPublishes_run (n : ℕ) {s : PublishState} (hs : s.pc = .idle)
    (hon : ¬ (s.connected = false ∨ s.disconnectReqExternal = true)) :
    ∃ h t, publisher.Runs s (failedPublishes n) h t := by
  induction n generalizing s with
  | zero => exact ⟨[], s, Machine.runs_nil.mpr ⟨rfl, rfl⟩⟩
  | succ n ih =>
    let d := preparePublish s.pubData [119] (.text [49])
    let placed := { s with pc := .drain, pubData := d }
    let back := { placed with pc := .idle, publishAckSem := s.publishAckSem.tryTake }
    have hrest : publisher.Runs placed [.drain, .send (-ENETUNREACH)]
        [.sent d (-ENETUNREACH), .returned (-ENETUNREACH)] back := rfl
    have hone : publisher.Runs s [.call [119] (.text [49]), .drain, .send (-ENETUNREACH)] _ back :=
      Machine.runs_cons.mpr ⟨_, _, _, call_placed hs [119] (.text [49]) hon, hrest, rfl⟩
    obtain ⟨h, t, hmore⟩ := ih (s := back) rfl hon
    exact ⟨_, t, Machine.runs_append.mpr ⟨back, _, h, hone, hmore, rfl⟩⟩

/-- The id 0 is handed over by the call number 65535. -/
theorem packet_id_wraps_to_zero : ∃ h s,
    publisher.Runs publishInit (.setConnected true :: failedPublishes 65535) h s ∧
      0 ∈ sentIds h ∧ ¬ ValidIds (sentIds h) := by
  obtain ⟨h, s, hr⟩ := failedPublishes_run 65535 (s := { publishInit with connected := true }) rfl
    (by decide)
  have hall : publisher.Runs publishInit (.setConnected true :: failedPublishes 65535) h s :=
    Machine.runs_cons.mpr ⟨[], _, h, rfl, hr, rfl⟩
  have hcount : (PublishAct.setConnected true :: failedPublishes 65535).countP isSend = 65535 := by
    rw [List.countP_cons_of_neg (by decide), countP_failedPublishes]
  have hids := (idInv_run hall).ids
  rw [hcount] at hids
  have hzero : 0 ∈ sentIds h := by
    rw [hids]
    exact zero_mem_publishIds le_rfl
  exact ⟨h, s, hall, hzero, fun hvalid => hvalid.nonzero 0 hzero rfl⟩

end WlabStation.Mqtt
