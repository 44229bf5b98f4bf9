import Mathlib.Tactic.Linarith

/-! `timestamp.c`: epoch seconds from the uptime and the last SNTP answer. -/
namespace WlabStation.Station

/-- The two statics: the uptime of the last sync in ms, and its SNTP seconds. -/
structure Timestamp where
  uptimeSyncMs : ℤ
  sntpSyncSec : ℤ
  deriving DecidableEq, Repr

/-- `CONFIG_TIMESTAMP_UPDATE_PERIOD_SEC`. -/
def timestampUpdatePeriodSec : ℤ := 300

/-- `timestamp_get` at uptime `now`. -/
def timestampGet (t : Timestamp) (now : ℤ) : ℤ :=
  t.sntpSyncSec + (now - t.uptimeSyncMs).tdiv 1000

/-- `timestamp_sync`, whose answer arrives at uptime `now`. A failure changes nothing. -/
def timestampSync (t : Timestamp) (sntp : Option ℤ) (now : ℤ) : Timestamp :=
  match sntp with
  | some seconds => ⟨now, seconds⟩
  | none => t

/-- The sync of `timestamp_update` is due. -/
def Stale (t : Timestamp) (now : ℤ) : Prop :=
  t.uptimeSyncMs + 1000 * timestampUpdatePeriodSec < now

instance (t : Timestamp) (now : ℤ) : Decidable (Stale t now) := by
  unfold Stale
  infer_instance

/-- `timestamp_update` at uptime `now`, and the uptime when it returns: a sync
that takes place lasts `duration` ms. -/
def timestampUpdate (t : Timestamp) (now : ℤ) (sntp : Option ℤ) (duration : ℕ) : Timestamp × ℤ :=
  if Stale t now then (timestampSync t sntp (now + duration), now + duration) else (t, now)

theorem timestampGet_of_le {t : Timestamp} {now : ℤ} (h : t.uptimeSyncMs ≤ now) :
    timestampGet t now = t.sntpSyncSec + (now - t.uptimeSyncMs) / 1000 := by
  rw [timestampGet, Int.tdiv_eq_ediv_of_nonneg (by omega)]

theorem timestampGet_mono {t : Timestamp} {a b : ℤ} (ha : t.uptimeSyncMs ≤ a) (hab : a ≤ b) :
    timestampGet t a ≤ timestampGet t b := by
  rw [timestampGet_of_le ha, timestampGet_of_le (ha.trans hab)]
  omega

/-- Between two syncs the clock runs at the rate of the uptime. -/
theorem timestampGet_add {t : Timestamp} {now : ℤ} (h : t.uptimeSyncMs ≤ now) (k : ℕ) :
    timestampGet t (now + 1000 * k) = timestampGet t now + k := by
  rw [timestampGet_of_le h, timestampGet_of_le (by omega)]
  omega

theorem timestampUpdate_le {t : Timestamp} {now : ℤ} (h : t.uptimeSyncMs ≤ now)
    (sntp : Option ℤ) (duration : ℕ) :
    (timestampUpdate t now sntp duration).1.uptimeSyncMs ≤
      (timestampUpdate t now sntp duration).2 := by
  unfold timestampUpdate timestampSync
  split_ifs
  · cases sntp with
    | none => simp only; omega
    | some seconds => exact le_rfl
  · exact h

end WlabStation.Station
