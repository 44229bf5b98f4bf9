import WlabStation.Wlab.Feed

/-! Lost readings. A reading that selects the publish branch is committed to no
buffer, and the window is discarded whatever the publish returns. -/
namespace WlabStation.Wlab

/-- The readings handed to `wlab_buffer_commit` for a series. -/
def offered (serie : Serie) (h : List WlabEvent) : List Sample :=
  h.filterMap fun
    | .commit s x _ => if s = serie then some x else none
    | _ => none

@[simp] theorem offered_append (serie : Serie) (h k : List WlabEvent) :
    offered serie (h ++ k) = offered serie h ++ offered serie k := List.filterMap_append

/-- Where the accepted readings of a series are. -/
structure Ledger where
  accepted : List Sample := []
  window : List Sample := []
  delivered : List Sample := []
  lost : List Sample := []

def ledgerStep (serie : Serie) (l : Ledger) : WlabEvent → Ledger
  | .sensorRead _ _ => l
  | .commit s x accepted =>
      if s = serie ∧ accepted then
        { l with accepted := l.accepted ++ [x], window := l.window ++ [x] }
      else l
  | .publish _ _ rc =>
      if rc = 0 then { l with delivered := l.delivered ++ l.window }
      else { l with lost := l.lost ++ l.window }
  | .bufferInit s => if s = serie then { l with window := [] } else l

def ledger (serie : Serie) (h : List WlabEvent) : Ledger := h.foldl (ledgerStep serie) {}

theorem ledger_append (serie : Serie) (h k : List WlabEvent) :
    ledger serie (h ++ k) = k.foldl (ledgerStep serie) (ledger serie h) := List.foldl_append

theorem ledgerStep_sensorRead (serie : Serie) (l : Ledger) (secs : ℤ) (r : Option Reading) :
    ledgerStep serie l (.sensorRead secs r) = l := rfl

theorem ledgerStep_commitEvent (serie serie' : Serie) (l : Ledger) (b : WlabBuffer)
    (x : Sample) : ledgerStep serie l (commitEvent serie' b x) =
      if serie' = serie then
        { l with accepted := offer serie' b l.accepted x, window := offer serie' b l.window x }
      else l := by
  by_cases hs : serie' = serie
  · subst hs
    by_cases hb : b.rejects x.val (threshold serie') <;> simp [commitEvent, ledgerStep, offer, hb]
  · simp [commitEvent, ledgerStep, hs]

theorem ledgerStep_window (serie : Serie) (l : Ledger) (e : WlabEvent) :
    (ledgerStep serie l e).window = windowStep serie l.window e := by
  cases e with
  | sensorRead secs r => rfl
  | commit s x accepted =>
    simp only [ledgerStep, windowStep]
    split_ifs <;> rfl
  | publish secs args rc =>
    simp only [ledgerStep, windowStep]
    split_ifs <;> rfl
  | bufferInit s =>
    simp only [ledgerStep, windowStep]
    split_ifs <;> rfl

theorem ledger_window (serie : Serie) (h : List WlabEvent) :
    (ledger serie h).window = window serie h := by
  induction h using List.reverseRecOn with
  | nil => rfl
  | append_singleton h e ih =>
    rw [ledger_append, window_append]
    simp only [List.foldl_cons, List.foldl_nil]
    rw [ledgerStep_window, ih]

/-- Every successful reading was offered to the commit of both series, once. -/
def AllOffered (h : List WlabEvent) : Prop :=
  ∀ serie, offered serie h = (successes h).map fun p => ⟨p.1, p.2.value serie⟩

/-- Every accepted reading is in the current window or in one that was delivered. -/
def Retained (h : List WlabEvent) : Prop :=
  ∀ serie, ∀ x ∈ (ledger serie h).accepted, x ∈ window serie h ∨ x ∈ (ledger serie h).delivered

/-- No reading is lost at any point of the run of these calls. -/
def NoReadingLost (period : ℕ) (calls : List Call) : Prop :=
  ∀ as h x, as <+: calls → (wlab period).Runs (.ok wlabInit) as h x → AllOffered h ∧ Retained h

theorem runs_error {period : ℕ} {e : Fault} {calls : List Call} {h : List WlabEvent}
    {x : Except Fault WlabState} (hr : (wlab period).Runs (.error e) calls h x) : calls = [] := by
  cases calls with
  | nil => rfl
  | cons c calls =>
    obtain ⟨es, t, k, hs, -, -⟩ := Machine.runs_cons.mp hr
    cases hs

/-- The successful reads of a run are decided by its calls. -/
theorem successSecs_run {period : ℕ} {calls : List Call} {s : WlabState} {h : List WlabEvent}
    {x : Except Fault WlabState} (hr : (wlab period).Runs (.ok s) calls h x) :
    successSecs h = readingSecs s.lastSecs calls := by
  induction calls generalizing s h with
  | nil =>
    obtain ⟨rfl, -⟩ := Machine.runs_nil.mp hr
    rfl
  | cons c calls ih =>
    obtain ⟨es, t, k, hs, hk, rfl⟩ := Machine.runs_cons.mp hr
    obtain ⟨s', hs', hc⟩ := wlab_step_cases hs
    obtain rfl := Except.ok.inj hs'
    rw [successSecs_append]
    cases hc with
    | skipped hg =>
      rw [readingSecs_skipped calls hg, ← ih hk]
      rfl
    | failed hg hsome =>
      rw [readingSecs_failed calls hg hsome, ih hk]
      rfl
    | zeroPeriod r hg hsome hz =>
      obtain rfl := runs_error hk
      obtain ⟨rfl, -⟩ := Machine.runs_nil.mp hk
      rw [readingSecs_success [] hg hsome]
      rfl
    | empty r hg hsome hd hz =>
      obtain rfl := runs_error hk
      obtain ⟨rfl, -⟩ := Machine.runs_nil.mp hk
      rw [readingSecs_success [] hg hsome]
      rfl
    | published r hg hsome hd htz hhz =>
      rw [readingSecs_success calls hg hsome, ih hk]
      rfl
    | zeroGrid r es hg hsome hd hG he =>
      obtain rfl := runs_error hk
      obtain ⟨rfl, -⟩ := Machine.runs_nil.mp hk
      rw [readingSecs_success [] hg hsome]
      rcases he with rfl | rfl <;> rfl
    | committed r t h hg hsome hd ht hh =>
      rw [readingSecs_success calls hg hsome, ih hk]
      rfl

/-- The calls run to their end, or a first part of them ends in a fault. -/
theorem runs_or_fault (period : ℕ) (calls : List Call) :
    (∃ h s, (wlab period).Runs (.ok wlabInit) calls h (.ok s)) ∨
      ∃ as h e, as <+: calls ∧ (wlab period).Runs (.ok wlabInit) as h (.error e) := by
  induction calls using List.reverseRecOn with
  | nil => exact .inl ⟨[], wlabInit, Machine.runs_nil.mpr ⟨rfl, rfl⟩⟩
  | append_singleton calls c ih =>
    rcases ih with ⟨h, s, hr⟩ | ⟨as, h, e, has, hr⟩
    · obtain ⟨es, y, hstep⟩ : ∃ es y, (wlab period).step (.ok s) c = some (es, y) := ⟨_, _, rfl⟩
      have hrun := Machine.runs_concat.mpr ⟨_, h, es, hr, hstep, rfl⟩
      cases y with
      | ok t => exact .inl ⟨_, t, hrun⟩
      | error e => exact .inr ⟨_, _, e, List.prefix_rfl, hrun⟩
    · exact .inr ⟨as, h, e, has.trans (List.prefix_append _ _), hr⟩

/-- No successful reading ever selected the publish branch: `last_minutes` is
still 0, so a qualifying minute can only be the full hour. -/
def Quiet (period : ℕ) (ts : List ℤ) : Prop := ∀ t ∈ ts, tmMin t % period = 0 → tmMin t = 0

instance (period : ℕ) (ts : List ℤ) : Decidable (Quiet period ts) := by
  unfold Quiet
  infer_instance

theorem quiet_append {period : ℕ} {ts us : List ℤ} :
    Quiet period (ts ++ us) ↔ Quiet period ts ∧ Quiet period us := by
  simp [Quiet, or_imp, forall_and]

theorem quiet_of_not_due {period : ℕ} {s : WlabState} {c : Call} (hm : s.lastMinutes = 0) :
    Quiet period [c.secs] ↔ ¬ Due period s c := by
  simp only [Quiet, Due, hm, List.mem_singleton, forall_eq]
  tauto

/-- Readings offered and readings made. -/
structure OfferInv (period : ℕ) (h : List WlabEvent) (x : Except Fault WlabState) : Prop where
  all : AllOffered h ↔ Quiet period (successSecs h)
  length : ∀ serie, (offered serie h).length ≤ (successes h).length
  lastMinutes : ∀ s, x = .ok s → Quiet period (successSecs h) → s.lastMinutes = 0
  fault : ∀ e, x = .error e → ¬ Quiet period (successSecs h)

theorem offerInv_init (period : ℕ) : OfferInv period [] (.ok wlabInit) where
  all := ⟨fun _ _ ht => absurd ht List.not_mem_nil, fun _ _ => rfl⟩
  length _ := le_rfl
  lastMinutes s hs _ := by
    cases hs
    rfl
  fault e he := by cases he

/-- A reading that is not offered is missing for good. -/
theorem OfferInv.withheld {period : ℕ} {h es : List WlabEvent} {s : WlabState} {c : Call}
    {y : Except Fault WlabState} (hi : OfferInv period h (.ok s)) (hd : Due period s c)
    {r : Reading} (hsucc : successes es = [(c.secs, r)]) (hoff : ∀ serie, offered serie es = []) :
    OfferInv period (h ++ es) y := by
  have hsecs : successSecs (h ++ es) = successSecs h ++ [c.secs] := by
    simp [successSecs, hsucc]
  have hnot : ¬ Quiet period (successSecs (h ++ es)) := by
    rw [hsecs, quiet_append]
    rintro ⟨hq, hc⟩
    exact (quiet_of_not_due (hi.lastMinutes s rfl hq)).mp hc hd
  constructor
  case all =>
    refine ⟨fun ha => ?_, fun hq => absurd hq hnot⟩
    have hlen := congrArg List.length (ha .temperature)
    have hle := hi.length .temperature
    simp only [offered_append, hoff, successes_append, hsucc, List.append_nil, List.length_map,
      List.length_append, List.length_singleton] at hlen
    omega
  case length =>
    intro serie
    have hle := hi.length serie
    simp only [offered_append, hoff, successes_append, hsucc, List.append_nil, List.length_append,
      List.length_singleton]
    omega
  case lastMinutes => exact fun _ _ hq => absurd hq hnot
  case fault => exact fun _ _ => hnot

theorem OfferInv.committed {period : ℕ} {h es : List WlabEvent} {s t : WlabState} {c : Call}
    (hi : OfferInv period h (.ok s)) (hd : ¬ Due period s c) {r : Reading}
    (hsucc : successes es = [(c.secs, r)])
    (hoff : ∀ serie, offered serie es = [⟨c.secs, r.value serie⟩])
    (hm : t.lastMinutes = s.lastMinutes) : OfferInv period (h ++ es) (.ok t) := by
  have hsecs : successSecs (h ++ es) = successSecs h ++ [c.secs] := by
    simp [successSecs, hsucc]
  have hall : AllOffered (h ++ es) ↔ AllOffered h := by
    simp [AllOffered, hoff, hsucc]
  constructor
  case all =>
    rw [hall, hi.all, hsecs, quiet_append]
    refine ⟨fun hq => ⟨hq, ?_⟩, fun hq => hq.1⟩
    exact (quiet_of_not_due (hi.lastMinutes s rfl hq)).mpr hd
  case length =>
    intro serie
    have hle := hi.length serie
    simp only [offered_append, hoff, successes_append, hsucc, List.length_append,
      List.length_singleton]
    omega
  case lastMinutes =>
    intro u hu hq
    cases hu
    rw [hsecs, quiet_append] at hq
    rw [hm, hi.lastMinutes s rfl hq.1]
  case fault =>
    intro e he
    cases he

theorem OfferInv.idle {period : ℕ} {h es : List WlabEvent} {s t : WlabState}
    (hi : OfferInv period h (.ok s)) (hsucc : successes es = [])
    (hoff : ∀ serie, offered serie es = []) (hm : t.lastMinutes = s.lastMinutes) :
    OfferInv period (h ++ es) (.ok t) := by
  have hsecs : successSecs (h ++ es) = successSecs h := by simp [successSecs, hsucc]
  have hall : AllOffered (h ++ es) ↔ AllOffered h := by simp [AllOffered, hoff, hsucc]
  constructor
  case all => rw [hall, hsecs, hi.all]
  case length =>
    intro serie
    simpa [hoff, hsucc] using hi.length serie
  case lastMinutes =>
    intro u hu hq
    cases hu
    rw [hsecs] at hq
    rw [hm, hi.lastMinutes s rfl hq]
  case fault =>
    intro e he
    cases he

theorem OfferInv.step {period : ℕ} (h0 : 0 < period) (hP : 60 * period < 4294967296)
    {h es : List WlabEvent} {s : WlabState} {c : Call} {y : Except Fault WlabState}
    (hi : OfferInv period h (.ok s)) (hc : ProcessCase period s c es y) :
    OfferInv period (h ++ es) y := by
  cases hc with
  | skipped hg => exact hi.idle rfl (fun _ => rfl) rfl
  | failed hg hsome => exact hi.idle rfl (fun _ => rfl) rfl
  | zeroPeriod r hg hsome hz => omega
  | empty r hg hsome hd hz => exact hi.withheld hd rfl fun _ => rfl
  | published r hg hsome hd htz hhz => exact hi.withheld hd rfl fun _ => rfl
  | zeroGrid r es hg hsome hd hG he => exact absurd hG (u32_grid_pos h0 hP)
  | committed r t x hg hsome hd ht hx =>
    subst ht hx
    refine hi.committed hd rfl (fun serie => ?_) rfl
    cases serie <;> rfl

theorem offerInv_run {period : ℕ} (h0 : 0 < period) (hP : 60 * period < 4294967296)
    {calls : List Call} {h : List WlabEvent} {x : Except Fault WlabState}
    (hr : (wlab period).Runs (.ok wlabInit) calls h x) : OfferInv period h x := by
  refine Machine.Runs.invariant (offerInv_init period) ?_ hr
  intro h x c es y hi hs
  obtain ⟨s, rfl, hc⟩ := wlab_step_cases hs
  exact hi.step h0 hP hc

/-- Where the accepted readings of a series went. They are told apart by their
times, so a reading of a lost window is in no other place. -/
structure LedgerInv (serie : Serie) (h : List WlabEvent) (x : Except Fault WlabState) : Prop where
  perm : (ledger serie h).accepted.Perm
    ((ledger serie h).delivered ++ (ledger serie h).lost ++ (ledger serie h).window)
  spaced : Spaced (ledger serie h).accepted
  le : ∀ s, x = .ok s → ∀ y ∈ (ledger serie h).accepted, y.secs ≤ s.lastSecs
  lost : (ledger serie h).lost = [] ↔
    ∀ secs args rc, WlabEvent.publish secs args rc ∈ h → rc = 0

theorem ledgerInv_init (serie : Serie) : LedgerInv serie [] (.ok wlabInit) where
  perm := List.Perm.refl _
  spaced := List.Pairwise.nil
  le _ _ _ hy := by cases hy
  lost := ⟨fun _ _ _ _ hp => absurd hp List.not_mem_nil, fun _ => rfl⟩

theorem Spaced.nodup {w : List Sample} (hw : Spaced w) : w.Nodup :=
  hw.imp fun {x y} hxy he => by
    subst he
    omega

theorem LedgerInv.retained_iff {serie : Serie} {h : List WlabEvent}
    {x : Except Fault WlabState} (hi : LedgerInv serie h x) :
    (∀ y ∈ (ledger serie h).accepted, y ∈ window serie h ∨ y ∈ (ledger serie h).delivered) ↔
      ∀ secs args rc, WlabEvent.publish secs args rc ∈ h → rc = 0 := by
  rw [← hi.lost, ← ledger_window]
  constructor
  · intro hr
    rw [List.eq_nil_iff_forall_not_mem]
    intro y hy
    have hnodup := hi.perm.nodup_iff.mp hi.spaced.nodup
    have hacc : y ∈ (ledger serie h).accepted := hi.perm.mem_iff.mpr (by simp [hy])
    rw [List.nodup_append, List.nodup_append] at hnodup
    rcases hr y hacc with hw | hd
    · exact hnodup.2.2 y (by simp [hy]) y hw rfl
    · exact hnodup.1.2.2 y hd y hy rfl
  · intro hlost y hy
    have := hi.perm.mem_iff.mp hy
    simp only [hlost, List.append_nil, List.mem_append] at this
    exact this.symm

theorem LedgerInv.idle {serie : Serie} {h es : List WlabEvent} {s : WlabState}
    {y : Except Fault WlabState} (hi : LedgerInv serie h (.ok s))
    (hl : ledger serie (h ++ es) = ledger serie h)
    (hp : ∀ secs args rc, WlabEvent.publish secs args rc ∉ es)
    (hlast : ∀ t, y = .ok t → s.lastSecs ≤ t.lastSecs) : LedgerInv serie (h ++ es) y := by
  constructor
  case perm =>
    rw [hl]
    exact hi.perm
  case spaced =>
    rw [hl]
    exact hi.spaced
  case le =>
    intro t ht x hx
    rw [hl] at hx
    exact (hi.le s rfl x hx).trans (hlast t ht)
  case lost => simp only [hl, hi.lost, List.mem_append, hp, or_false]

theorem LedgerInv.published {serie : Serie} {h : List WlabEvent} {s t : WlabState}
    {r : Reading} {c : Call} {args : SampleArgs} (hi : LedgerInv serie h (.ok s))
    (hw : (ledger serie h).window ≠ []) (hlast : s.lastSecs ≤ t.lastSecs) :
    LedgerInv serie (h ++ [.sensorRead c.secs (some r), .publish c.secs args c.publishRc,
      .bufferInit .temperature, .bufferInit .humidity]) (.ok t) := by
  have hl : ledger serie (h ++ [.sensorRead c.secs (some r), .publish c.secs args c.publishRc,
      .bufferInit .temperature, .bufferInit .humidity]) =
      if c.publishRc = 0 then { ledger serie h with
        delivered := (ledger serie h).delivered ++ (ledger serie h).window, window := [] }
      else { ledger serie h with
        lost := (ledger serie h).lost ++ (ledger serie h).window, window := [] } := by
    cases serie <;> simp only [ledger_append, List.foldl_cons, List.foldl_nil, ledgerStep] <;>
      split_ifs <;> simp_all
  have hperm := hi.perm
  by_cases hrc : c.publishRc = 0
  · rw [if_pos hrc] at hl
    constructor
    case perm =>
      rw [hl]
      simp only [List.append_nil]
      apply hperm.trans
      rw [List.append_assoc, List.append_assoc]
      exact List.Perm.append_left _ List.perm_append_comm
    case spaced =>
      rw [hl]
      exact hi.spaced
    case le =>
      intro u hu x hx
      cases hu
      rw [hl] at hx
      exact (hi.le s rfl x hx).trans hlast
    case lost =>
      simp only [hl, hi.lost, List.mem_append]
      constructor
      · rintro hall secs args rc (hp | hp)
        · exact hall secs args rc hp
        · simp only [List.mem_cons, WlabEvent.publish.injEq, reduceCtorEq, false_or,
            List.not_mem_nil, or_false] at hp
          exact hp.2.2 ▸ hrc
      · exact fun hall secs args rc hp => hall secs args rc (.inl hp)
  · rw [if_neg hrc] at hl
    constructor
    case perm =>
      rw [hl]
      simpa only [List.append_nil, List.append_assoc] using hperm
    case spaced =>
      rw [hl]
      exact hi.spaced
    case le =>
      intro u hu x hx
      cases hu
      rw [hl] at hx
      exact (hi.le s rfl x hx).trans hlast
    case lost =>
      rw [hl]
      refine ⟨fun hnil => absurd (List.append_eq_nil_iff.mp hnil).2 hw, fun hall => ?_⟩
      exact absurd (hall c.secs args c.publishRc (by simp)) hrc

theorem LedgerInv.committed {serie : Serie} {h es : List WlabEvent} {s t : WlabState}
    {b : WlabBuffer} {x : Sample} (hi : LedgerInv serie h (.ok s))
    (hl : ledger serie (h ++ es) = { ledger serie h with
      accepted := offer serie b (ledger serie h).accepted x
      window := offer serie b (ledger serie h).window x })
    (hp : ∀ secs args rc, WlabEvent.publish secs args rc ∉ es)
    (hx : s.lastSecs + 4 ≤ x.secs) (hlast : t.lastSecs = x.secs) :
    LedgerInv serie (h ++ es) (.ok t) := by
  have hle := hi.le s rfl
  constructor
  case perm =>
    rw [hl]
    simp only [offer]
    split_ifs
    · exact hi.perm
    · rw [← List.append_assoc]
      exact hi.perm.append_right _
  case spaced =>
    rw [hl]
    apply hi.spaced.offer
    intro y hy
    have := hle y hy
    omega
  case le =>
    intro u hu y hy
    cases hu
    rw [hl] at hy
    rcases mem_offer hy with hy | rfl
    · have := hle y hy
      omega
    · exact hlast.ge
  case lost => simp only [hl, hi.lost, List.mem_append, hp, or_false]

theorem LedgerInv.step {period : ℕ} (h0 : 0 < period) (hP : 60 * period < 4294967296)
    {serie : Serie} {h es : List WlabEvent} {s : WlabState}
    {c : Call} {y : Except Fault WlabState} (hi : LedgerInv serie h (.ok s))
    (hw : WindowInv period h s) (hc : ProcessCase period s c es y) :
    LedgerInv serie (h ++ es) y := by
  have hread (k : List WlabEvent) (secs : ℤ) (r : Option Reading) :
      ledger serie (k ++ [.sensorRead secs r]) = ledger serie k := by
    simp [ledger_append, ledgerStep_sensorRead]
  cases hc with
  | skipped hg =>
    refine hi.idle (by rw [List.append_nil]) (by simp) fun t ht => ?_
    rw [Except.ok.inj ht]
  | failed hg hsome =>
    have hlt := hg.lt
    refine hi.idle (hread h _ _) (by simp) fun t ht => ?_
    cases ht
    simp only
    omega
  | zeroPeriod r hg hsome hz => exact hi.idle (hread h _ _) (by simp) fun t ht => by cases ht
  | empty r hg hsome hd hz => exact hi.idle (hread h _ _) (by simp) fun t ht => by cases ht
  | published r hg hsome hd htz hhz =>
    have hlt := hg.lt
    refine hi.published ?_ (by simp only; omega)
    rw [ledger_window]
    intro he
    have hb := hw.buffer serie
    rw [he] at hb
    cases serie with
    | temperature => exact htz (congrArg WlabBuffer.cnt hb)
    | humidity => exact hhz (congrArg WlabBuffer.cnt hb)
  | zeroGrid r es hg hsome hd hG he => exact absurd hG (u32_grid_pos h0 hP)
  | committed r t x hg hsome hd ht hx =>
    have hlt := hg.lt
    subst ht hx
    cases serie with
    | temperature =>
      refine hi.committed (b := s.temp) (x := ⟨c.secs, r.temp.toInt⟩) ?_ (by simp [commitEvent])
        hlt rfl
      simp [ledger_append, ledgerStep_commitEvent, ledgerStep_sensorRead]
    | humidity =>
      refine hi.committed (b := s.rh) (x := ⟨c.secs, r.rh.toInt⟩) ?_ (by simp [commitEvent])
        hlt rfl
      simp [ledger_append, ledgerStep_commitEvent, ledgerStep_sensorRead]

theorem ledgerInv_run {period : ℕ} (h0 : 0 < period) (hP : 60 * period < 4294967296)
    {calls : List Call} {h : List WlabEvent} {x : Except Fault WlabState}
    (hr : (wlab period).Runs (.ok wlabInit) calls h x) (serie : Serie) : LedgerInv serie h x := by
  refine Machine.Runs.induction (I := fun _ h x => LedgerInv serie h x) (ledgerInv_init serie)
    ?_ hr
  intro calls h x c es y hk hi hs
  obtain ⟨s, rfl, hc⟩ := wlab_step_cases hs
  exact hi.step h0 hP (windowInv_run hk) hc

/-- Every accepted reading is kept exactly when no publish failed so far. -/
theorem retained_iff {period : ℕ} (h0 : 0 < period) (hP : 60 * period < 4294967296)
    {calls : List Call} {h : List WlabEvent} {x : Except Fault WlabState}
    (hr : (wlab period).Runs (.ok wlabInit) calls h x) :
    Retained h ↔ ∀ secs args rc, WlabEvent.publish secs args rc ∈ h → rc = 0 := by
  have hi := ledgerInv_run h0 hP hr
  constructor
  · exact fun hret => (hi .temperature).retained_iff.mp (hret .temperature)
  · exact fun hpub serie => (hi serie).retained_iff.mpr hpub

/-- Before its first due reading a run publishes nothing. -/
theorem no_publish_of_quiet {period : ℕ} (h0 : 0 < period) (hP : 60 * period < 4294967296)
    {calls : List Call} {h : List WlabEvent} {x : Except Fault WlabState}
    (hr : (wlab period).Runs (.ok wlabInit) calls h x) (hq : Quiet period (successSecs h)) :
    ∀ secs args rc, WlabEvent.publish secs args rc ∉ h := by
  refine Machine.Runs.induction (I := fun _ h _ => Quiet period (successSecs h) →
    ∀ secs args rc, WlabEvent.publish secs args rc ∉ h) (fun _ _ _ _ => List.not_mem_nil) ?_ hr hq
  intro calls h x c es y hk hi hs hq secs args rc
  obtain ⟨s, rfl, hc⟩ := wlab_step_cases hs
  rw [successSecs_append, quiet_append] at hq
  rw [List.mem_append, not_or]
  refine ⟨hi hq.1 secs args rc, ?_⟩
  cases hc with
  | skipped hg => simp
  | failed hg hsome => simp
  | zeroPeriod r hg hsome hz => simp
  | empty r hg hsome hd hz => simp
  | published r hg hsome hd htz hhz =>
    have hm := (offerInv_run h0 hP hk).lastMinutes s rfl hq.1
    exact absurd hd ((quiet_of_not_due hm).mp hq.2)
  | zeroGrid r es hg hsome hd hG he => rcases he with rfl | rfl <;> simp [commitEvent]
  | committed r t x hg hsome hd ht hx => simp [commitEvent]

/-- Readings survive exactly in the runs that never select the publish branch;
what was accepted survives exactly while every publish returns 0. -/
theorem no_reading_lost_iff {period : ℕ} (h0 : 0 < period) (hP : 60 * period < 4294967296)
    (calls : List Call) :
    (NoReadingLost period calls ↔
      ∀ t ∈ readingSecs 0 calls, tmMin t % period = 0 → tmMin t = 0) ∧
    ((∀ as h x, as <+: calls → (wlab period).Runs (.ok wlabInit) as h x → Retained h) ↔
      ∀ as h x, as <+: calls → (wlab period).Runs (.ok wlabInit) as h x →
        ∀ secs args rc, WlabEvent.publish secs args rc ∈ h → rc = 0) := by
  refine ⟨⟨fun hall => ?_, fun hq as h x has hr => ?_⟩, ?_⟩
  · rcases runs_or_fault period calls with ⟨h, s, hr⟩ | ⟨as, h, e, has, hr⟩
    · have hquiet := (offerInv_run h0 hP hr).all.mp (hall _ _ _ List.prefix_rfl hr).1
      rwa [successSecs_run hr] at hquiet
    · have hi := offerInv_run h0 hP hr
      exact absurd (hi.all.mp (hall _ _ _ has hr).1) (hi.fault e rfl)
  · have hquiet : Quiet period (successSecs h) := by
      rw [successSecs_run hr]
      intro t ht
      exact hq t ((readingSecs_mono has).subset ht)
    refine ⟨(offerInv_run h0 hP hr).all.mpr hquiet, (retained_iff h0 hP hr).mpr ?_⟩
    intro secs args rc hp
    exact absurd hp (no_publish_of_quiet h0 hP hr hquiet secs args rc)
  · refine forall_congr' fun as => forall_congr' fun h => forall_congr' fun x => ?_
    exact forall_congr' fun _ => forall_congr' fun hr => retained_iff h0 hP hr

theorem no_reading_lost_before_minute_five :
    NoReadingLost 5 [⟨60, some ⟨215, 480⟩, 0⟩, ⟨64, none, 0⟩, ⟨68, some ⟨216, 481⟩, 0⟩] :=
  (no_reading_lost_iff (by decide) (by decide) _).1.mpr (by decide +kernel)

/-- The reading of minute 5 is not committed, and its publish times out. -/
theorem reading_lost_at_minute_five :
    ¬ ∀ period calls, 1 ≤ period → period ≤ 59 → NoReadingLost period calls := by
  intro hall
  have hlost := hall 5 [⟨240, some ⟨215, 480⟩, 0⟩, ⟨300, some ⟨216, 481⟩, -11⟩] (by decide)
    (by decide) _ _ _ List.prefix_rfl (Machine.runs_get (by decide +kernel))
  exact absurd (hlost.1 .temperature) (by decide +kernel)

end WlabStation.Wlab
