import Mathlib.Data.List.Induction
import Mathlib.Logic.Relation
import Mathlib.Tactic.Cases

/-! Labelled machines and their finite runs. A step may be refused, and a step
that is taken emits a list of observations; every choice of the environment is
part of the action, so a run is determined by its list of actions. -/
namespace WlabStation

/-- `step s a = none` means that the action `a` is not enabled in `s`. -/
structure Machine (σ α ε : Type*) where
  step : σ → α → Option (List ε × σ)

namespace Machine
variable {σ α ε : Type*} (M : Machine σ α ε)

/-- Execute all actions in order, collecting the observations. -/
def run : σ → List α → Option (List ε × σ)
  | s, [] => some ([], s)
  | s, a :: as =>
      match M.step s a with
      | none => none
      | some (es, t) => (run t as).map fun r => (es ++ r.1, r.2)

/-- The actions lead from `s` to `t` and leave the history `h`. -/
def Runs (s : σ) (as : List α) (h : List ε) (t : σ) : Prop := M.run s as = some (h, t)

instance [DecidableEq σ] [DecidableEq ε] (s t : σ) (as : List α) (h : List ε) :
    Decidable (M.Runs s as h t) := by
  unfold Runs
  infer_instance

/-- Every step of the execution meets `C`, a condition on the state before the step. -/
def EachStep (C : σ → α → Prop) : σ → List α → Prop
  | _, [] => True
  | s, a :: as => C s a ∧
      match M.step s a with
      | none => True
      | some (_, t) => EachStep C t as

instance EachStep.decidable (C : σ → α → Prop) [∀ s a, Decidable (C s a)] :
    ∀ s as, Decidable (M.EachStep C s as)
  | _, [] => .isTrue trivial
  | s, a :: as =>
      match h : M.step s a with
      | none => decidable_of_iff (C s a) (by simp [EachStep, h])
      | some (_, t) =>
          have := EachStep.decidable C t as
          decidable_of_iff (C s a ∧ M.EachStep C t as) (by simp [EachStep, h])

variable {M}

@[simp] theorem runs_nil {s t : σ} {h : List ε} : M.Runs s [] h t ↔ h = [] ∧ t = s := by
  simp [Runs, run, eq_comm]

theorem runs_get {s : σ} {as : List α} (hr : (M.run s as).isSome) :
    M.Runs s as ((M.run s as).get hr).1 ((M.run s as).get hr).2 :=
  (Option.some_get hr).symm

theorem runs_cons {s u : σ} {a : α} {as : List α} {h : List ε} :
    M.Runs s (a :: as) h u ↔
      ∃ es t k, M.step s a = some (es, t) ∧ M.Runs t as k u ∧ h = es ++ k := by
  unfold Runs
  cases hs : M.step s a with
  | none => simp [run, hs]
  | some r =>
    obtain ⟨es, t⟩ := r
    cases hk : M.run t as with
    | none => simp [run, hs, hk]
    | some q =>
      obtain ⟨k, v⟩ := q
      simp only [run, hs, hk, Option.map_some, Option.some.injEq, Prod.mk.injEq]
      constructor
      · rintro ⟨rfl, rfl⟩
        exact ⟨es, t, k, ⟨rfl, rfl⟩, ⟨hk, rfl⟩⟩
      · rintro ⟨es', t', k', ⟨rfl, rfl⟩, hk', rfl⟩
        rw [hk] at hk'
        simpa using hk'

theorem runs_append {s u : σ} {as bs : List α} {h : List ε} :
    M.Runs s (as ++ bs) h u ↔
      ∃ t k l, M.Runs s as k t ∧ M.Runs t bs l u ∧ h = k ++ l := by
  induction as generalizing s h with
  | nil => simp
  | cons a as ih =>
    simp only [List.cons_append, runs_cons, ih]
    constructor
    · rintro ⟨es, t, _, hs, ⟨v, k, l, hk, hl, rfl⟩, rfl⟩
      exact ⟨v, es ++ k, l, ⟨es, t, k, hs, hk, rfl⟩, hl, by simp⟩
    · rintro ⟨v, _, l, ⟨es, t, k, hs, hk, rfl⟩, hl, rfl⟩
      exact ⟨es, t, k ++ l, hs, ⟨v, k, l, hk, hl, rfl⟩, by simp⟩

theorem runs_concat {s u : σ} {as : List α} {a : α} {h : List ε} :
    M.Runs s (as ++ [a]) h u ↔
      ∃ t k es, M.Runs s as k t ∧ M.step t a = some (es, u) ∧ h = k ++ es := by
  simp only [runs_append, runs_cons, runs_nil]
  constructor
  · rintro ⟨t, k, _, hk, ⟨es, v, _, hs, ⟨rfl, rfl⟩, rfl⟩, rfl⟩
    exact ⟨t, k, es, hk, hs, by simp⟩
  · rintro ⟨t, k, es, hk, hs, rfl⟩
    exact ⟨t, k, es, hk, ⟨es, u, [], hs, ⟨rfl, rfl⟩, by simp⟩, rfl⟩

theorem eachStep_concat {C : σ → α → Prop} {s t : σ} {as : List α} {a : α} {h : List ε}
    (hr : M.Runs s as h t) : M.EachStep C s (as ++ [a]) ↔ M.EachStep C s as ∧ C t a := by
  induction as generalizing s h with
  | nil =>
    obtain ⟨-, rfl⟩ := runs_nil.mp hr
    cases hs : M.step t a <;> simp [EachStep, hs]
  | cons b as ih =>
    obtain ⟨es, v, k, hs, hk, -⟩ := runs_cons.mp hr
    simp only [List.cons_append, EachStep, hs, ih hk, and_assoc]

theorem EachStep.of_append {C : σ → α → Prop} {s : σ} {as bs : List α}
    (h : M.EachStep C s (as ++ bs)) : M.EachStep C s as := by
  induction as generalizing s with
  | nil => trivial
  | cons a as ih =>
    refine ⟨h.1, ?_⟩
    have ht := h.2
    split
    · trivial
    next es t hs =>
      rw [hs] at ht
      exact ih ht

/-- Induction over runs: an invariant of the actions so far, their history and
the state reached, which every enabled step preserves. -/
theorem Runs.induction {I : List α → List ε → σ → Prop} {s : σ} (init : I [] [] s)
    (step : ∀ as h t a es u, M.Runs s as h t → I as h t → M.step t a = some (es, u) →
      I (as ++ [a]) (h ++ es) u)
    {as : List α} {h : List ε} {t : σ} (hr : M.Runs s as h t) : I as h t := by
  induction as using List.reverseRecOn generalizing h t with
  | nil =>
    obtain ⟨rfl, rfl⟩ := runs_nil.mp hr
    exact init
  | append_singleton as a ih =>
    obtain ⟨u, k, es, hk, hs, rfl⟩ := runs_concat.mp hr
    exact step as k u a es t hk (ih hk) hs

/-- An invariant of history and state. -/
theorem Runs.invariant {I : List ε → σ → Prop} {s : σ} (init : I [] s)
    (step : ∀ h t a es u, I h t → M.step t a = some (es, u) → I (h ++ es) u)
    {as : List α} {h : List ε} {t : σ} (hr : M.Runs s as h t) : I h t :=
  Runs.induction (I := fun _ h t => I h t) init
    (fun _ h t a es u _ hi hs => step h t a es u hi hs) hr

/-- An invariant that only steps meeting `C` preserve. -/
theorem Runs.invariant_of_eachStep {C : σ → α → Prop} {I : List ε → σ → Prop} {s : σ}
    (init : I [] s)
    (step : ∀ h t a es u, I h t → C t a → M.step t a = some (es, u) → I (h ++ es) u)
    {as : List α} {h : List ε} {t : σ} (hC : M.EachStep C s as) (hr : M.Runs s as h t) :
    I h t := by
  refine Runs.induction (I := fun as h t => M.EachStep C s as → I h t) (fun _ => init)
    ?_ hr hC
  intro as h t a es u hk hi hs hC
  obtain ⟨hCas, hCa⟩ := (eachStep_concat hk).mp hC
  exact step h t a es u (hi hCas) hCa hs

theorem eachStep_true (s : σ) (as : List α) : M.EachStep (fun _ _ => True) s as := by
  induction as generalizing s with
  | nil => trivial
  | cons a as ih =>
    refine ⟨trivial, ?_⟩
    split
    · trivial
    next es t hs => exact ih t

theorem eachStep_of_mem {C : α → Prop} (s : σ) {as : List α} (h : ∀ a ∈ as, C a) :
    M.EachStep (fun _ a => C a) s as := by
  induction as generalizing s with
  | nil => trivial
  | cons a as ih =>
    refine ⟨h a List.mem_cons_self, ?_⟩
    split
    · trivial
    next es t hs => exact ih t fun b hb => h b (List.mem_cons_of_mem a hb)

/-- An invariant that steps meeting `C` preserve turns `C` into `D` at every step. -/
theorem EachStep.of_invariant {C D : σ → α → Prop} {I : σ → Prop} {s : σ} (init : I s)
    (step : ∀ t a es u, I t → C t a → M.step t a = some (es, u) → I u)
    (holds : ∀ t a, I t → C t a → D t a) {as : List α} (h : M.EachStep C s as) :
    M.EachStep D s as := by
  induction as generalizing s with
  | nil => trivial
  | cons a as ih =>
    refine ⟨holds s a init h.1, ?_⟩
    have ht := h.2
    split
    · trivial
    next es t hs =>
      rw [hs] at ht
      exact ih (step s a es t init h.1 hs) ht

theorem EachStep.iff {C D : σ → α → Prop} {s : σ} {as : List α}
    (h : M.EachStep (fun t a => C t a ↔ D t a) s as) : M.EachStep C s as ↔ M.EachStep D s as := by
  induction as generalizing s with
  | nil => exact Iff.rfl
  | cons a as ih =>
    obtain ⟨ha, ht⟩ := h
    unfold EachStep
    apply and_congr ha
    split
    · exact Iff.rfl
    next es t hs =>
      rw [hs] at ht
      exact ih ht

/-- The machine that carries its history, for conditions on what happened so far. -/
def traced (M : Machine σ α ε) : Machine (List ε × σ) α ε where
  step x a := (M.step x.2 a).map fun r => (r.1, (x.1 ++ r.1, r.2))

theorem traced_step {x y : List ε × σ} {a : α} {es : List ε} :
    M.traced.step x a = some (es, y) ↔ M.step x.2 a = some (es, y.2) ∧ y.1 = x.1 ++ es := by
  obtain ⟨k, t⟩ := y
  simp only [traced, Option.map_eq_some_iff, Prod.mk.injEq, Prod.exists]
  constructor
  · rintro ⟨es', t', hs, rfl, rfl, rfl⟩
    exact ⟨hs, rfl⟩
  · rintro ⟨hs, rfl⟩
    exact ⟨es, t, hs, rfl, rfl, rfl⟩

theorem Runs.traced {s t : σ} {as : List α} {h : List ε} (hr : M.Runs s as h t) :
    M.traced.Runs ([], s) as h (h, t) := by
  apply hr.induction (I := fun as h t => M.traced.Runs ([], s) as h (h, t))
  · exact runs_nil.mpr ⟨rfl, rfl⟩
  · intro as h t a es u _ hk hs
    exact runs_concat.mpr ⟨(h, t), h, es, hk, traced_step.mpr ⟨hs, rfl⟩, rfl⟩

/-- An invariant that steps preserve which meet a condition on what happened so far. -/
theorem Runs.invariant_of_traced {C : List ε × σ → α → Prop} {I : List ε → σ → Prop} {s : σ}
    (init : I [] s)
    (step : ∀ h t a es u, I h t → C (h, t) a → M.step t a = some (es, u) → I (h ++ es) u)
    {as : List α} {h : List ε} {t : σ} (hC : M.traced.EachStep C ([], s) as)
    (hr : M.Runs s as h t) : I h t := by
  apply Runs.invariant_of_eachStep (I := fun _ x => I x.1 x.2) (t := (h, t)) init _ hC hr.traced
  intro _ x a es y hi hCx hs
  obtain ⟨hs, hh⟩ := traced_step.mp hs
  rw [hh]
  exact step x.1 x.2 a es y.2 hi hCx hs

/-- The same for conditions and invariants that see the history. -/
theorem EachStep.of_traced_invariant {C D : List ε × σ → α → Prop} {I : List ε → σ → Prop}
    {s : σ} (init : I [] s)
    (step : ∀ h t a es u, I h t → C (h, t) a → M.step t a = some (es, u) → I (h ++ es) u)
    (holds : ∀ h t a, I h t → C (h, t) a → D (h, t) a) {as : List α}
    (h : M.traced.EachStep C ([], s) as) : M.traced.EachStep D ([], s) as := by
  refine EachStep.of_invariant (I := fun x => I x.1 x.2) init ?_
    (fun x a => holds x.1 x.2 a) h
  intro x a es y hi hC hs
  obtain ⟨hs, hh⟩ := traced_step.mp hs
  rw [hh]
  exact step x.1 x.2 a es y.2 hi hC hs

/-- The machine that counts its steps between states related by `p`. -/
def counting (M : Machine σ α ε) (p : σ → σ → Prop) [DecidableRel p] : Machine (ℕ × σ) α ε where
  step x a := (M.step x.2 a).map fun r => (r.1, (if p x.2 r.2 then x.1 + 1 else x.1, r.2))

theorem counting_step {p : σ → σ → Prop} [DecidableRel p] {x y : ℕ × σ} {a : α} {es : List ε} :
    (M.counting p).step x a = some (es, y) ↔
      M.step x.2 a = some (es, y.2) ∧ y.1 = if p x.2 y.2 then x.1 + 1 else x.1 := by
  obtain ⟨k, t⟩ := y
  simp only [counting, Option.map_eq_some_iff, Prod.mk.injEq, Prod.exists]
  constructor
  · rintro ⟨es', t', hs, rfl, rfl, rfl⟩
    exact ⟨hs, rfl⟩
  · rintro ⟨hs, hk⟩
    exact ⟨es, t, hs, rfl, hk.symm, rfl⟩

/-- Counting adds nothing to a run and takes nothing from it. -/
theorem Runs.counting {s t : σ} {as : List α} {h : List ε} (hr : M.Runs s as h t)
    (p : σ → σ → Prop) [DecidableRel p] :
    ∃ n, (M.counting p).Runs (0, s) as h (n, t) := by
  apply hr.induction (I := fun as h t => ∃ n, (M.counting p).Runs (0, s) as h (n, t))
  · exact ⟨0, runs_nil.mpr ⟨rfl, rfl⟩⟩
  · rintro as h t a es u - ⟨n, hk⟩ hs
    exact ⟨if p t u then n + 1 else n,
      runs_concat.mpr ⟨(n, t), h, es, hk, counting_step.mpr ⟨hs, rfl⟩, rfl⟩⟩

/-- Every state that the execution passes through meets `P`. -/
def EachState (M : Machine σ α ε) (P : σ → Prop) (s : σ) (as : List α) : Prop :=
  ∀ bs h t, bs <+: as → M.Runs s bs h t → P t

theorem eachState_nil {P : σ → Prop} {s : σ} : M.EachState P s [] ↔ P s := by
  constructor
  · intro hall
    exact hall [] [] s (List.prefix_refl _) (runs_nil.mpr ⟨rfl, rfl⟩)
  · intro hs bs h t hbs hr
    rw [List.prefix_nil.mp hbs] at hr
    obtain ⟨-, rfl⟩ := runs_nil.mp hr
    exact hs

theorem eachState_concat {P : σ → Prop} {s t : σ} {as : List α} {a : α} {h : List ε}
    (hr : M.Runs s (as ++ [a]) h t) :
    M.EachState P s (as ++ [a]) ↔ M.EachState P s as ∧ P t := by
  constructor
  · intro hall
    constructor
    · intro bs k u hbs hk
      exact hall bs k u (hbs.trans (List.prefix_append _ _)) hk
    · exact hall _ h t (List.prefix_refl _) hr
  · rintro ⟨hall, ht⟩ bs k u hbs hk
    rcases List.prefix_concat_iff.mp hbs with rfl | hbs
    · unfold Runs at hr hk
      rw [hr] at hk
      cases hk
      exact ht
    · exact hall bs k u hbs hk

/-- Where a step keeps `P` exactly if it meets `C`, runs keep `P` exactly if
all their steps meet `C`. -/
theorem Runs.eachState_iff {C : σ → α → Prop} {P I : σ → Prop} {s : σ} (init : I s) (hs : P s)
    (keep : ∀ t a es u, I t → M.step t a = some (es, u) → I u)
    (step : ∀ t a es u, I t → P t → M.step t a = some (es, u) → (P u ↔ C t a))
    {as : List α} {h : List ε} {t : σ} (hr : M.Runs s as h t) :
    M.EachState P s as ↔ M.EachStep C s as := by
  have hinv : I t ∧ (M.EachState P s as ↔ M.EachStep C s as) ∧ (M.EachState P s as → P t) := by
    apply hr.induction (I := fun as _ t =>
      I t ∧ (M.EachState P s as ↔ M.EachStep C s as) ∧ (M.EachState P s as → P t))
    · exact ⟨init, iff_of_true (eachState_nil.mpr hs) trivial, fun _ => hs⟩
    · rintro as h t a es u hk ⟨hi, hiff, hlast⟩ hst
      have hconcat := eachState_concat (P := P) (runs_concat.mpr ⟨t, h, es, hk, hst, rfl⟩)
      rw [hconcat, eachStep_concat hk, ← hiff]
      constructor
      · exact keep t a es u hi hst
      constructor
      · apply and_congr_right
        intro hall
        exact step t a es u hi (hlast hall) hst
      · exact And.right
  exact hinv.2.1

/-- Each observation finds before it what `P` asks for. -/
def EachEvent (P : List ε → ε → Prop) (h : List ε) : Prop :=
  ∀ k e l, h = k ++ e :: l → P k e

theorem eachEvent_nil (P : List ε → ε → Prop) : EachEvent P [] := by
  intro k e l h
  simp at h

theorem eachEvent_concat {P : List ε → ε → Prop} {h : List ε} {e : ε} :
    EachEvent P (h ++ [e]) ↔ EachEvent P h ∧ P h e := by
  constructor
  · intro hall
    constructor
    · intro k x l hk
      exact hall k x (l ++ [e]) (by simp [hk])
    · exact hall h e [] rfl
  · rintro ⟨hall, he⟩ k x l hk
    rcases List.eq_nil_or_concat l with rfl | ⟨l, y, rfl⟩
    · obtain ⟨rfl, hx⟩ := List.append_inj' hk rfl
      cases hx
      exact he
    · rw [List.concat_eq_append, ← List.cons_append, ← List.append_assoc] at hk
      obtain ⟨hk, -⟩ := List.append_inj' hk rfl
      exact hall k x l hk

/-- Observations of which `P` asks nothing. -/
theorem eachEvent_append {P : List ε → ε → Prop} {h es : List ε}
    (hes : ∀ e ∈ es, ∀ k, P k e) : EachEvent P (h ++ es) ↔ EachEvent P h := by
  induction es using List.reverseRecOn with
  | nil => rw [List.append_nil]
  | append_singleton es e ih =>
    rw [← List.append_assoc, eachEvent_concat, ih (fun x hx => hes x (by simp [hx]))]
    exact and_iff_left (hes e (by simp) _)

/-- Where a step adds observations that `P` admits exactly if it meets `C`, a run
shows only such observations exactly if all its steps meet `C`. -/
theorem Runs.eachEvent_iff {C : σ → α → Prop} {P : List ε → ε → Prop} {I : List ε → σ → Prop}
    {s : σ} (init : I [] s)
    (step : ∀ h t a es u, I h t → M.step t a = some (es, u) →
      I (h ++ es) u ∧ (EachEvent P (h ++ es) ↔ EachEvent P h ∧ C t a))
    {as : List α} {h : List ε} {t : σ} (hr : M.Runs s as h t) :
    I h t ∧ (EachEvent P h ↔ M.EachStep C s as) := by
  apply hr.induction (I := fun as h t => I h t ∧ (EachEvent P h ↔ M.EachStep C s as))
  · exact ⟨init, iff_of_true (eachEvent_nil P) trivial⟩
  · rintro as h t a es u hk ⟨hi, hiff⟩ hs
    obtain ⟨hi', hiff'⟩ := step h t a es u hi hs
    rw [eachStep_concat hk, ← hiff]
    exact ⟨hi', hiff'⟩

/-- Observations that leave what is computed from the history as it was. -/
theorem foldl_append_of_fixed {γ : Type*} {f : γ → ε → γ} {es : List ε}
    (hes : ∀ e ∈ es, ∀ c, f c e = c) (h : List ε) (c : γ) :
    (h ++ es).foldl f c = h.foldl f c := by
  induction es using List.reverseRecOn with
  | nil => rw [List.append_nil]
  | append_singleton es e ih =>
    rw [← List.append_assoc, List.foldl_append, ih (fun x hx => hes x (by simp [hx]))]
    exact hes e (by simp) _

/-- Some step that meets `C` leads from `s` to `t`. -/
def Moves (M : Machine σ α ε) (C : σ → α → Prop) (s t : σ) : Prop :=
  ∃ a es, C s a ∧ M.step s a = some (es, t)

/-- What such steps reach is what the runs of such steps end in. -/
theorem leads_iff_runs {C : σ → α → Prop} {s t : σ} :
    Relation.ReflTransGen (M.Moves C) s t ↔ ∃ as h, M.Runs s as h t ∧ M.EachStep C s as := by
  constructor
  · intro hst
    induction hst using Relation.ReflTransGen.head_induction_on with
    | refl => exact ⟨[], [], runs_nil.mpr ⟨rfl, rfl⟩, trivial⟩
    | head hmove hrest ih =>
      obtain ⟨a, es, ha, hs⟩ := hmove
      obtain ⟨as, h, hr, hC⟩ := ih
      refine ⟨a :: as, es ++ h, runs_cons.mpr ⟨es, _, h, hs, hr, rfl⟩, ha, ?_⟩
      rw [hs]
      exact hC
  · rintro ⟨as, h, hr, hC⟩
    apply hr.invariant_of_eachStep (I := fun _ t => Relation.ReflTransGen (M.Moves C) s t)
      .refl _ hC
    intro h t a es u ht ha hs
    exact ht.tail ⟨a, es, ha, hs⟩

end Machine
end WlabStation
