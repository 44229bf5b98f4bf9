import Mathlib.Algebra.Order.Archimedean.Real.Basic
import WlabStation.Machine.Run
import WlabStation.Station.Timestamp

/-! The error of the clock: `timestamp_get` against the true time, over every
sequence of syncs whose answers are at most `D` ms old. -/
namespace WlabStation.Station

open Machine

structure ClockState where
  timestamp : Timestamp
  uptime : ℤ
  deriving DecidableEq

/-- Time passes, a sync returns, and `timestamp_get` is called. -/
inductive ClockAct where
  | tick (ms : ℕ)
  | sync (sntp : Option ℤ)
  | get
  deriving DecidableEq

/-- A value of `timestamp_get`, and the uptime at which it was returned. -/
structure Got where
  uptime : ℤ
  value : ℤ
  deriving DecidableEq

def clock : Machine ClockState ClockAct Got where
  step s
    | .tick ms => some ([], { s with uptime := s.uptime + ms })
    | .sync sntp => some ([], { s with timestamp := timestampSync s.timestamp sntp s.uptime })
    | .get => some ([⟨s.uptime, timestampGet s.timestamp s.uptime⟩], s)

/-- A call of `timestamp_update` as steps of the clock. -/
def updateActs (t : Timestamp) (now : ℤ) (sntp : Option ℤ) (duration : ℕ) : List ClockAct :=
  if Stale t now then [.tick duration, .sync sntp] else []

theorem clock_update (t : Timestamp) (now : ℤ) (sntp : Option ℤ) (duration : ℕ) :
    clock.Runs ⟨t, now⟩ (updateActs t now sntp duration) []
      ⟨(timestampUpdate t now sntp duration).1, (timestampUpdate t now sntp duration).2⟩ := by
  unfold updateActs timestampUpdate
  split_ifs
  · rfl
  · rfl

section
variable (c D : ℝ)

/-- The seconds of the true time at some instant of the `D` ms before the uptime
`now`, where the true time is `c` ms ahead of the uptime. -/
def Truthful (now seconds : ℤ) : Prop :=
  ∃ x : ℝ, now + c - D ≤ x ∧ x ≤ now + c ∧ seconds = ⌊x / 1000⌋

/-- A sync fails, or its answer is truthful. -/
def TruthfulSync (s : ClockState) : ClockAct → Prop
  | .sync (some seconds) => Truthful c D s.uptime seconds
  | _ => True

/-- The last answer was truthful, and time has only passed since. -/
structure Synced (s : ClockState) : Prop where
  le : s.timestamp.uptimeSyncMs ≤ s.uptime
  truthful : Truthful c D s.timestamp.uptimeSyncMs s.timestamp.sntpSyncSec

/-- The value is not later than the true time, and less than `D + 2000` ms behind. -/
structure Accurate (g : Got) : Prop where
  upper : 1000 * (g.value : ℝ) ≤ g.uptime + c
  lower : g.uptime + c - 1000 * (g.value : ℝ) < D + 2000

/-- No later value is smaller by more than the delay and two seconds. -/
def StepsBack (h : List Got) : Prop :=
  h.Pairwise fun f g => (f.value - g.value : ℝ) ≤ D / 1000 + 2

/-- All values so far are accurate, and come in the order of time. -/
structure ClockInv (h : List Got) (s : ClockState) : Prop where
  synced : Synced c D s
  accurate : ∀ g ∈ h, Accurate c D g ∧ g.uptime ≤ s.uptime
  back : StepsBack D h

variable {c D}

theorem synced_first {now seconds : ℤ} (h : Truthful c D now seconds) (t : Timestamp) :
    Synced c D ⟨timestampSync t (some seconds) now, now⟩ := ⟨le_rfl, h⟩

/-- Both floors lose less than a second, the delay at most `D` ms. -/
theorem Synced.accurate {s : ClockState} (hs : Synced c D s) :
    Accurate c D ⟨s.uptime, timestampGet s.timestamp s.uptime⟩ := by
  obtain ⟨hle, x, hlo, hhi, hsec⟩ := hs
  obtain ⟨hfloor, hfloor'⟩ := Int.floor_eq_iff.mp hsec.symm
  have hget := timestampGet_of_le hle
  have hdiv : 1000 * (timestampGet s.timestamp s.uptime - s.timestamp.sntpSyncSec) ≤
      s.uptime - s.timestamp.uptimeSyncMs := by omega
  have hdiv' : s.uptime - s.timestamp.uptimeSyncMs <
      1000 * (timestampGet s.timestamp s.uptime - s.timestamp.sntpSyncSec) + 1000 := by omega
  have hreal : 1000 * ((timestampGet s.timestamp s.uptime : ℝ) - s.timestamp.sntpSyncSec) ≤
      s.uptime - s.timestamp.uptimeSyncMs := by exact_mod_cast hdiv
  have hreal' : (s.uptime : ℝ) - s.timestamp.uptimeSyncMs <
      1000 * ((timestampGet s.timestamp s.uptime : ℝ) - s.timestamp.sntpSyncSec) + 1000 := by
    exact_mod_cast hdiv'
  constructor
  case upper =>
    dsimp only
    linarith
  case lower =>
    dsimp only
    linarith

theorem Synced.step {s t : ClockState} {a : ClockAct} {es : List Got} (hi : Synced c D s)
    (ha : TruthfulSync c D s a) (hs : clock.step s a = some (es, t)) :
    Synced c D t ∧ s.uptime ≤ t.uptime ∧ ∀ g ∈ es, Accurate c D g ∧ g.uptime = s.uptime := by
  cases a with
  | tick ms =>
    cases hs
    have hle := hi.le
    refine ⟨⟨?_, hi.truthful⟩, ?_, by simp⟩
    · dsimp only
      omega
    · dsimp only
      omega
  | sync sntp =>
    cases hs
    cases sntp with
    | none => exact ⟨hi, le_rfl, by simp⟩
    | some seconds => exact ⟨synced_first ha _, le_rfl, by simp⟩
  | get =>
    cases hs
    refine ⟨hi, le_rfl, fun g hg => ?_⟩
    rw [List.mem_singleton.mp hg]
    exact ⟨hi.accurate, rfl⟩

/-- Two accurate values in the order of their calls. -/
theorem Accurate.step_back {f g : Got} (hf : Accurate c D f) (hg : Accurate c D g)
    (h : f.uptime ≤ g.uptime) : (f.value - g.value : ℝ) ≤ D / 1000 + 2 := by
  have hreal : (f.uptime : ℝ) ≤ g.uptime := by exact_mod_cast h
  have hupper := hf.upper
  have hlower := hg.lower
  linarith

theorem ClockInv.step {h es : List Got} {s t : ClockState} {a : ClockAct}
    (hi : ClockInv c D h s) (ha : TruthfulSync c D s a) (hs : clock.step s a = some (es, t)) :
    ClockInv c D (h ++ es) t := by
  obtain ⟨hsynced, hle, hes⟩ := hi.synced.step ha hs
  constructor
  case synced => exact hsynced
  case accurate =>
    intro g hg
    rcases List.mem_append.mp hg with hg | hg
    · exact ⟨(hi.accurate g hg).1, (hi.accurate g hg).2.trans hle⟩
    · exact ⟨(hes g hg).1, (hes g hg).2.le.trans hle⟩
  case back =>
    apply List.pairwise_append.mpr
    refine ⟨hi.back, ?_, ?_⟩
    · cases a with
      | get =>
        cases hs
        exact List.pairwise_singleton _ _
      | _ =>
        cases hs
        exact List.Pairwise.nil
    · intro f hf g hg
      obtain ⟨hacc, hbefore⟩ := hi.accurate f hf
      exact hacc.step_back (hes g hg).1 (hbefore.trans (hes g hg).2.ge)

theorem clockInv_run {s t : ClockState} (hs : Synced c D s) {acts : List ClockAct} {h : List Got}
    (htrue : clock.EachStep (TruthfulSync c D) s acts) (hr : clock.Runs s acts h t) :
    ClockInv c D h t := by
  apply Runs.invariant_of_eachStep (I := ClockInv c D) _ _ htrue hr
  · exact ⟨hs, by simp, List.Pairwise.nil⟩
  · exact fun h t a es u hi ha hs => hi.step ha hs

end

/-- A sync that fails can be left out of every run. -/
theorem failed_sync_silent (s : ClockState) (as bs : List ClockAct) :
    clock.run s (as ++ .sync none :: bs) = clock.run s (as ++ bs) := by
  induction as generalizing s with
  | nil =>
    have hstep : clock.step s (.sync none) = some ([], s) := rfl
    simp only [List.nil_append, run, hstep, Prod.mk.eta, Option.map_id']
  | cons a as ih =>
    simp only [List.cons_append, run, ih]

/-- After the first truthful answer, in every run whose syncs are truthful or fail,
every value is accurate, none steps back by more than the delay and two
seconds, and a sync that fails changes no value. -/
theorem clock_error_bounds {c D : ℝ} {now seconds : ℤ} (hfirst : Truthful c D now seconds)
    (t : Timestamp) {acts : List ClockAct} {h : List Got} {s : ClockState}
    (htrue : clock.EachStep (TruthfulSync c D) ⟨timestampSync t (some seconds) now, now⟩ acts)
    (hr : clock.Runs ⟨timestampSync t (some seconds) now, now⟩ acts h s) :
    (∀ g ∈ h, Accurate c D g) ∧ StepsBack D h ∧ ∀ as bs, acts = as ++ bs →
      clock.Runs ⟨timestampSync t (some seconds) now, now⟩ (as ++ .sync none :: bs) h s := by
  have hi := clockInv_run (synced_first hfirst t) htrue hr
  refine ⟨fun g hg => (hi.accurate g hg).1, hi.back, ?_⟩
  rintro as bs rfl
  rw [Runs, failed_sync_silent]
  exact hr

/-- Two truthful syncs, 301 s apart, and a failed one; the true time is 10^9 ms ahead of the
uptime and the answers are at most 500 ms old. -/
theorem two_syncs_accurate :
    let acts : List ClockAct := [.tick 999, .get, .tick 300000, .sync (some 1000301), .get,
      .sync none, .get]
    let h : List Got := [⟨1699, 1000000⟩, ⟨301699, 1000301⟩, ⟨301699, 1000301⟩]
    (∃ s, clock.Runs ⟨⟨700, 1000000⟩, 700⟩ acts h s) ∧
      (∀ g ∈ h, Accurate 1000000000 500 g) ∧ StepsBack 500 h := by
  intro acts h
  have hfirst : Truthful 1000000000 500 700 1000000 :=
    ⟨1000000400, by norm_num, by norm_num, by norm_num⟩
  have hsecond : Truthful 1000000000 500 301699 1000301 :=
    ⟨1000301500, by norm_num, by norm_num, by norm_num⟩
  have hr : clock.Runs ⟨timestampSync ⟨0, 0⟩ (some 1000000) 700, 700⟩ acts h
      ⟨⟨301699, 1000301⟩, 301699⟩ := by decide
  have htrue : clock.EachStep (TruthfulSync 1000000000 500)
      ⟨timestampSync ⟨0, 0⟩ (some 1000000) 700, 700⟩ acts :=
    ⟨trivial, trivial, trivial, hsecond, trivial, trivial, trivial, trivial⟩
  obtain ⟨haccurate, hback, -⟩ := clock_error_bounds hfirst ⟨0, 0⟩ htrue hr
  exact ⟨⟨_, hr⟩, haccurate, hback⟩

end WlabStation.Station
