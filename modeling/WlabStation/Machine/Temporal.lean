import WlabStation.Machine.Run
import Mathlib.Data.List.Forall2

/-! What a history tells about the past: what was last, and what came in order. -/
namespace WlabStation.Temporal
variable {ε : Type*}

/-- `q` was observed, and `p` not since. -/
def Since (p q : ε → Prop) (h : List ε) : Prop :=
  ∃ k e l, h = k ++ e :: l ∧ q e ∧ ∀ x ∈ l, ¬ p x

section Since
variable {p q : ε → Prop} {h es : List ε}

@[simp] theorem since_nil : ¬ Since p q [] := by
  rintro ⟨k, e, l, h, -⟩
  simp at h

theorem since_concat {e : ε} : Since p q (h ++ [e]) ↔ q e ∨ ¬ p e ∧ Since p q h := by
  constructor
  · rintro ⟨k, x, l, hk, hq, hp⟩
    rcases List.eq_nil_or_concat l with rfl | ⟨l, y, rfl⟩
    · obtain ⟨-, hx⟩ := List.append_inj' hk rfl
      cases hx
      exact Or.inl hq
    · rw [List.concat_eq_append, ← List.cons_append, ← List.append_assoc] at hk
      obtain ⟨rfl, hy⟩ := List.append_inj' hk rfl
      cases hy
      refine Or.inr ⟨hp _ (by simp), k, x, l, rfl, hq, ?_⟩
      intro z hz
      exact hp z (by simp [hz])
  · rintro (hq | ⟨hp, k, x, l, rfl, hq, hl⟩)
    · exact ⟨h, e, [], rfl, hq, by simp⟩
    · refine ⟨k, x, l ++ [e], by simp, hq, ?_⟩
      intro z hz
      rcases List.mem_append.mp hz with hz | hz
      · exact hl z hz
      · rw [List.mem_singleton.mp hz]
        exact hp

/-- Observations that are neither. -/
theorem since_append_of_quiet (hes : ∀ e ∈ es, ¬ p e ∧ ¬ q e) :
    Since p q (h ++ es) ↔ Since p q h := by
  induction es using List.reverseRecOn with
  | nil => rw [List.append_nil]
  | append_singleton es e ih =>
    obtain ⟨hp, hq⟩ := hes e (by simp)
    rw [← List.append_assoc, since_concat, ih fun x hx => hes x (by simp [hx])]
    simp [hp, hq]

/-- Observations after which `q` still is the last. -/
theorem Since.append (hs : Since p q h) (hes : ∀ e ∈ es, ¬ p e) : Since p q (h ++ es) := by
  obtain ⟨k, e, l, rfl, hq, hl⟩ := hs
  refine ⟨k, e, l ++ es, by simp, hq, ?_⟩
  intro x hx
  rcases List.mem_append.mp hx with hx | hx
  · exact hl x hx
  · exact hes x hx

theorem since_append_of_mem {e : ε} (he : e ∈ es) (hq : q e) (hes : ∀ e ∈ es, ¬ p e) :
    Since p q (h ++ es) := by
  obtain ⟨k, l, rfl⟩ := List.append_of_mem he
  refine ⟨h ++ k, e, l, by simp, hq, ?_⟩
  intro x hx
  exact hes x (by simp [hx])

end Since

/-- `q` was observed, and `p` fewer than `n` times since it last was. -/
def FewerSince (n : ℕ) (p : ε → Bool) (q : ε → Prop) (h : List ε) : Prop :=
  ∃ k e l, h = k ++ e :: l ∧ q e ∧ (∀ x ∈ l, ¬ q x) ∧ l.countP p < n

section FewerSince
variable {m n : ℕ} {p : ε → Bool} {q : ε → Prop} {h es : List ε} {e : ε}

theorem fewerSince_concat (hq : q e) (hn : 0 < n) : FewerSince n p q (h ++ [e]) :=
  ⟨h, e, [], rfl, hq, by simp, hn⟩

theorem FewerSince.mono (hf : FewerSince m p q h) (hmn : m ≤ n) : FewerSince n p q h := by
  obtain ⟨k, e, l, hk, hq, hl, hm⟩ := hf
  exact ⟨k, e, l, hk, hq, hl, Nat.lt_of_lt_of_le hm hmn⟩

/-- Each observation adds to the count at most. -/
theorem FewerSince.append (hf : FewerSince m p q h) (hes : ∀ e ∈ es, ¬ q e) :
    FewerSince (m + es.countP p) p q (h ++ es) := by
  obtain ⟨k, e, l, rfl, hq, hl, hm⟩ := hf
  refine ⟨k, e, l ++ es, by simp, hq, ?_, ?_⟩
  · intro x hx
    rcases List.mem_append.mp hx with hx | hx
    · exact hl x hx
    · exact hes x hx
  · rw [List.countP_append]
    exact Nat.add_lt_add_right hm _

end FewerSince

/-- Observations that meet `ms` were made in this order. -/
def Passed (ms : List (ε → Prop)) (h : List ε) : Prop :=
  ∃ l, l.Sublist h ∧ List.Forall₂ (fun p e => p e) ms l

section Passed
variable {ms ns : List (ε → Prop)} {h es : List ε}

theorem passed_nil (h : List ε) : Passed [] h := ⟨[], List.nil_sublist h, .nil⟩

/-- The past does not change. -/
theorem Passed.append (hm : Passed ms h) (es : List ε) : Passed ms (h ++ es) := by
  obtain ⟨l, hl, hms⟩ := hm
  exact ⟨l, hl.trans (List.sublist_append_left h es), hms⟩

theorem Passed.take (hm : Passed ms h) (n : ℕ) : Passed (ms.take n) h := by
  obtain ⟨l, hl, hms⟩ := hm
  exact ⟨l.take n, (List.take_sublist n l).trans hl, List.forall₂_take n hms⟩

/-- Fewer of them. -/
theorem Passed.mono {m n : ℕ} (hm : Passed (ms.take n) h) (hmn : m ≤ n) :
    Passed (ms.take m) h := by
  have htake := hm.take m
  rwa [List.take_take, Nat.min_eq_left hmn] at htake

/-- The next of them. -/
theorem Passed.next {n : ℕ} (hm : Passed (ms.take n) h) {p : ε → Prop} (hp : ms[n]? = some p)
    {e : ε} (he : e ∈ es) (hpe : p e) : Passed (ms.take (n + 1)) (h ++ es) := by
  obtain ⟨l, hl, hms⟩ := hm
  rw [List.take_add_one, hp]
  exact ⟨l ++ [e], hl.append (List.singleton_sublist.mpr he),
    List.rel_append hms (.cons hpe .nil)⟩

end Passed
/-- Observations that find before them what a growing history keeps. -/
theorem eachEvent_append_of_mono {P : List ε → ε → Prop}
    (mono : ∀ k l e, P k e → P (k ++ l) e) {h es : List ε} (hall : Machine.EachEvent P h)
    (hes : ∀ e ∈ es, P h e) : Machine.EachEvent P (h ++ es) := by
  induction es using List.reverseRecOn with
  | nil => rwa [List.append_nil]
  | append_singleton es e ih =>
    rw [← List.append_assoc, Machine.eachEvent_concat]
    exact ⟨ih fun x hx => hes x (by simp [hx]), mono h es e (hes e (by simp))⟩

end WlabStation.Temporal
