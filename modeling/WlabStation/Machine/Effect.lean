import WlabStation.Machine.Run

/-! Systems composed of machines. A step of the system lets its components take
steps one after another, and what a component sees of a run is a run of its own. -/
namespace WlabStation

/-- A partial action on a state, with the observations it makes. -/
def Effect (σ ε : Type*) := σ → Option (List ε × σ)

/-- A component of a larger state. -/
structure Part (σ τ : Type*) where
  get : σ → τ
  set : τ → σ → σ
  get_set : ∀ t s, get (set t s) = t

namespace Effect
variable {σ τ α β ε δ : Type*}

def andThen (f g : Effect σ ε) : Effect σ ε := fun s =>
  (f s).bind fun r => (g r.2).map fun q => (r.1 ++ q.1, q.2)

/-- Nobody is ready. -/
def refuse : Effect σ ε := fun _ => none

/-- Nothing but a condition. -/
def when (p : σ → Prop) [DecidablePred p] : Effect σ ε := fun s =>
  if p s then some ([], s) else none

def modify (f : σ → σ) : Effect σ ε := fun s => some ([], f s)

def emit (es : List ε) : Effect σ ε := fun s => some (es, s)

/-- An effect that depends on the state it starts in. -/
def reading (f : σ → Effect σ ε) : Effect σ ε := fun s => f s s

/-- A step of a component. -/
def ofPart (p : Part σ τ) (N : Machine τ β δ) (e : δ → ε) (b : β) : Effect σ ε := fun s =>
  (N.step (p.get s) b).map fun r => (r.1.map e, p.set r.2 s)

section Inversion
variable {f g : Effect σ ε} {s u : σ} {es : List ε}

theorem andThen_eq_some : f.andThen g s = some (es, u) ↔
    ∃ k t l, f s = some (k, t) ∧ g t = some (l, u) ∧ es = k ++ l := by
  unfold andThen
  cases hf : f s with
  | none => simp
  | some r =>
    obtain ⟨k, t⟩ := r
    simp only [Option.bind_some, Option.map_eq_some_iff, Prod.mk.injEq, Prod.exists,
      Option.some.injEq]
    constructor
    · rintro ⟨l, v, hg, rfl, rfl⟩
      exact ⟨k, t, l, ⟨rfl, rfl⟩, hg, rfl⟩
    · rintro ⟨k', t', l, ⟨rfl, rfl⟩, hg, rfl⟩
      exact ⟨l, u, hg, rfl, rfl⟩

@[simp] theorem refuse_eq_some : ¬ (refuse : Effect σ ε) s = some (es, u) := by
  simp [refuse]

theorem when_eq_some {p : σ → Prop} [DecidablePred p] :
    (when p : Effect σ ε) s = some (es, u) ↔ p s ∧ es = [] ∧ u = s := by
  unfold when
  split_ifs with hp <;> simp [hp, eq_comm]

theorem modify_eq_some {m : σ → σ} :
    (modify m : Effect σ ε) s = some (es, u) ↔ es = [] ∧ u = m s := by
  simp [modify, eq_comm]

theorem emit_eq_some {ds : List ε} : emit ds s = some (es, u) ↔ es = ds ∧ u = s := by
  simp [emit, eq_comm]

theorem exists_of_reading {r : σ → Effect σ ε} (h : reading r s = some (es, u)) :
    ∃ f, r s = f ∧ f s = some (es, u) := ⟨_, rfl, h⟩

theorem ofPart_eq_some {p : Part σ τ} {N : Machine τ β δ} {e : δ → ε} {b : β} :
    ofPart p N e b s = some (es, u) ↔
      ∃ ds t, N.step (p.get s) b = some (ds, t) ∧ es = ds.map e ∧ u = p.set t s := by
  simp only [ofPart, Option.map_eq_some_iff, Prod.mk.injEq, Prod.exists, eq_comm (a := es),
    eq_comm (a := u)]

end Inversion

/-- What the effect does is, seen through `R` and `obs`, a run of `N`. -/
def Follows (N : Machine τ β δ) (R : σ → τ → Prop) (obs : ε → List δ) (f : Effect σ ε) : Prop :=
  ∀ s t es u, R s t → f s = some (es, u) → ∃ bs v, N.Runs t bs (es.flatMap obs) v ∧ R u v

section Follows
variable {N : Machine τ β δ} {R : σ → τ → Prop} {obs : ε → List δ} {f g : Effect σ ε}

theorem Follows.andThen (hf : Follows N R obs f) (hg : Follows N R obs g) :
    Follows N R obs (f.andThen g) := by
  intro s t es u hR h
  obtain ⟨k, v, l, hk, hl, rfl⟩ := andThen_eq_some.mp h
  obtain ⟨bs, w, hbs, hR⟩ := hf s t k v hR hk
  obtain ⟨cs, x, hcs, hR⟩ := hg v w l u hR hl
  rw [List.flatMap_append]
  exact ⟨bs ++ cs, x, Machine.runs_append.mpr ⟨w, _, _, hbs, hcs, rfl⟩, hR⟩

/-- The effect does nothing that `N` could see. -/
theorem Follows.of_still
    (h : ∀ s t es u, R s t → f s = some (es, u) → es.flatMap obs = [] ∧ R u t) :
    Follows N R obs f := by
  intro s t es u hR hf
  obtain ⟨hes, hR⟩ := h s t es u hR hf
  rw [hes]
  exact ⟨[], t, Machine.runs_nil.mpr ⟨rfl, rfl⟩, hR⟩

theorem Follows.refuse : Follows N R obs Effect.refuse :=
  fun _ _ _ _ _ h => absurd h refuse_eq_some

theorem Follows.when (p : σ → Prop) [DecidablePred p] : Follows N R obs (Effect.when p) := by
  apply Follows.of_still
  intro s t es u hR h
  obtain ⟨-, rfl, rfl⟩ := when_eq_some.mp h
  exact ⟨rfl, hR⟩

theorem Follows.modify {m : σ → σ} (hm : ∀ s t, R s t → R (m s) t) :
    Follows N R obs (Effect.modify m) := by
  apply Follows.of_still
  intro s t es u hR h
  obtain ⟨rfl, rfl⟩ := modify_eq_some.mp h
  exact ⟨rfl, hm s t hR⟩

theorem Follows.emit {ds : List ε} (hds : ds.flatMap obs = []) :
    Follows N R obs (Effect.emit ds) := by
  apply Follows.of_still
  intro s t es u hR h
  obtain ⟨rfl, rfl⟩ := emit_eq_some.mp h
  exact ⟨hds, hR⟩

theorem Follows.reading {r : σ → Effect σ ε} (hr : ∀ s, Follows N R obs (r s)) :
    Follows N R obs (Effect.reading r) :=
  fun s t es u hR h => hr s s t es u hR h

/-- The component itself takes the step, up to what `R` leaves open. -/
theorem Follows.part {p : Part σ τ} {e : δ → ε} {b : β} (he : ∀ d, obs (e d) = [d])
    (hR : ∀ s t ds v, R s t → N.step (p.get s) b = some (ds, v) →
      ∃ w, N.step t b = some (ds, w) ∧ R (p.set v s) w) :
    Follows N R obs (ofPart p N e b) := by
  intro s t es u hst h
  obtain ⟨ds, v, hs, rfl, rfl⟩ := ofPart_eq_some.mp h
  obtain ⟨w, hw, hvw⟩ := hR s t ds v hst hs
  have hds : (ds.map e).flatMap obs = ds := by
    simp [List.flatMap_map, he]
  rw [hds]
  exact ⟨[b], w, Machine.runs_cons.mpr ⟨ds, w, [], hw, Machine.runs_nil.mpr ⟨rfl, rfl⟩, by simp⟩,
    hvw⟩

/-- The component, seen as it is. -/
theorem Follows.own {p : Part σ τ} {e : δ → ε} (he : ∀ d, obs (e d) = [d]) (b : β) :
    Follows N (fun s t => p.get s = t) obs (ofPart p N e b) := by
  apply Follows.part he
  rintro s t ds v rfl hs
  exact ⟨v, hs, p.get_set v s⟩

/-- Another component takes a step. -/
theorem Follows.other {υ γ ζ : Type*} {p : Part σ υ} {M : Machine υ γ ζ} {e : ζ → ε}
    (he : ∀ d, obs (e d) = []) (hR : ∀ s t v, R s t → R (p.set v s) t) (c : γ) :
    Follows N R obs (ofPart p M e c) := by
  apply Follows.of_still
  intro s t es u hst h
  obtain ⟨ds, v, -, rfl, rfl⟩ := ofPart_eq_some.mp h
  exact ⟨by simp [List.flatMap_map, he], hR s t v hst⟩

end Follows
end Effect

/-- Where every step of a system follows a component, so does every run. -/
theorem Machine.Runs.follow {σ τ α β ε δ : Type*} {M : Machine σ α ε} {N : Machine τ β δ}
    {R : σ → τ → Prop} {obs : ε → List δ}
    (hstep : ∀ a, Effect.Follows N R obs fun s => M.step s a) {s u : σ} {t : τ}
    {as : List α} {h : List ε} (hst : R s t) (hr : M.Runs s as h u) :
    ∃ bs v, N.Runs t bs (h.flatMap obs) v ∧ R u v := by
  apply hr.induction (I := fun _ h u => ∃ bs v, N.Runs t bs (h.flatMap obs) v ∧ R u v)
  · exact ⟨[], t, Machine.runs_nil.mpr ⟨rfl, rfl⟩, hst⟩
  · rintro as h u a es w - ⟨bs, v, hbs, hR⟩ hs
    obtain ⟨cs, x, hcs, hR⟩ := hstep a u v es w hR hs
    rw [List.flatMap_append]
    exact ⟨bs ++ cs, x, Machine.runs_append.mpr ⟨v, _, _, hbs, hcs, rfl⟩, hR⟩

end WlabStation
