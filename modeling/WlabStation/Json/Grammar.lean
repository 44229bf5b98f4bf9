import WlabStation.Json.Parser

/-! The parser as a relation between a text, what starts it and what is left,
with one rule for each production. More fuel never changes a result, so the
relation is functional. -/
namespace WlabStation.Json

theorem parseString_mono {n : ℕ} {s : List Char} {r : List Char × List Char}
    (h : parseString n s = some r) : parseString (n + 1) s = some r := by
  induction n generalizing s r with
  | zero => cases h
  | succ n ih =>
    cases s with
    | nil => cases h
    | cons c s =>
      rw [parseString] at h ⊢
      split_ifs at h ⊢ with hquote hslash hctrl
      · exact h
      · simp only [Option.bind_eq_bind, Option.bind_eq_some_iff] at h ⊢
        obtain ⟨⟨d, s'⟩, hesc, ⟨ds, s''⟩, hrest, hr⟩ := h
        exact ⟨(d, s'), hesc, (ds, s''), ih hrest, hr⟩
      · simp only [Option.bind_eq_bind, Option.bind_eq_some_iff] at h ⊢
        obtain ⟨⟨ds, s'⟩, hrest, hr⟩ := h
        exact ⟨(ds, s'), ih hrest, hr⟩

theorem parseName_mono {n : ℕ} {s : List Char} {r : List Char × List Char}
    (h : parseName n s = some r) : parseName (n + 1) s = some r := by
  unfold parseName at h ⊢
  split at h
  next s' hs =>
    simp only [Option.bind_eq_bind, Option.bind_eq_some_iff] at h ⊢
    obtain ⟨k, hk, hr⟩ := h
    exact ⟨k, parseString_mono hk, hr⟩
  next => cases h

theorem map_mono {α β : Type*} {a b : Option α} {f : α → β} {r : β}
    (hab : ∀ x, a = some x → b = some x) (h : a.map f = some r) : b.map f = some r := by
  obtain ⟨x, hx, rfl⟩ := Option.map_eq_some_iff.mp h
  rw [hab x hx, Option.map_some]

/-- All three recursive parsers at once, by induction on the fuel. -/
theorem parse_mono (n : ℕ) :
    (∀ s r, parseValue n s = some r → parseValue (n + 1) s = some r) ∧
    (∀ s r, parseMembers n s = some r → parseMembers (n + 1) s = some r) ∧
    (∀ s r, parseElements n s = some r → parseElements (n + 1) s = some r) := by
  induction n with
  | zero =>
    refine ⟨?_, ?_, ?_⟩ <;>
    · intro s r h
      simp only [parseValue, parseMembers, parseElements] at h
      cases h
  | succ n ih =>
    obtain ⟨hvalue, hmembers, helements⟩ := ih
    refine ⟨?_, ?_, ?_⟩
    · intro s r h
      rw [parseValue] at h ⊢
      split at h
      next hs => cases h
      next c s' hs =>
        split_ifs at h ⊢ with h1 h2 h3 h4
        · exact map_mono (fun x hx => parseString_mono hx) h
        · split at h
          next => exact h
          next => exact map_mono (fun x hx => hmembers _ x hx) h
        · split at h
          next => exact h
          next => exact map_mono (fun x hx => helements _ x hx) h
        · exact h
        · exact h
    · intro s r h
      rw [parseMembers] at h ⊢
      simp only [Option.bind_eq_bind, Option.bind_eq_some_iff] at h ⊢
      obtain ⟨⟨k, s₁⟩, hname, ⟨v, s₂⟩, hv, hr⟩ := h
      refine ⟨(k, s₁), parseName_mono hname, (v, s₂), hvalue _ _ hv, ?_⟩
      simp only at hr ⊢
      split at hr
      next s₃ hs =>
        simp only [Option.bind_eq_some_iff] at hr ⊢
        obtain ⟨ms, hms, hr⟩ := hr
        exact ⟨ms, hmembers _ _ hms, hr⟩
      next s₃ hs => exact hr
      next => cases hr
    · intro s r h
      rw [parseElements] at h ⊢
      simp only [Option.bind_eq_bind, Option.bind_eq_some_iff] at h ⊢
      obtain ⟨⟨v, s₂⟩, hv, hr⟩ := h
      refine ⟨(v, s₂), hvalue _ _ hv, ?_⟩
      simp only at hr ⊢
      split at hr
      next s₃ hs =>
        simp only [Option.bind_eq_some_iff] at hr ⊢
        obtain ⟨vs, hvs, hr⟩ := hr
        exact ⟨vs, helements _ _ hvs, hr⟩
      next s₃ hs => exact hr
      next => cases hr

/-- The text `s` starts with a value `v` and goes on with `r`. -/
def ValueAt (s : List Char) (v : Value) (r : List Char) : Prop := ∃ n, parseValue n s = some (v, r)

def MembersAt (s : List Char) (ms : List (List Char × Value)) (r : List Char) : Prop :=
  ∃ n, parseMembers n s = some (ms, r)

def StringAt (s cs r : List Char) : Prop := ∃ n, parseString n s = some (cs, r)

def NameAt (s k r : List Char) : Prop := ∃ n, parseName n s = some (k, r)

section
variable {s r : List Char}

theorem parseValue_le {n m : ℕ} (hnm : n ≤ m) {x : Value × List Char}
    (h : parseValue n s = some x) : parseValue m s = some x :=
  Nat.le_induction h (fun k _ hk => (parse_mono k).1 s x hk) m hnm

theorem parseMembers_le {n m : ℕ} (hnm : n ≤ m) {x : List (List Char × Value) × List Char}
    (h : parseMembers n s = some x) : parseMembers m s = some x :=
  Nat.le_induction h (fun k _ hk => (parse_mono k).2.1 s x hk) m hnm

theorem parseString_le {n m : ℕ} (hnm : n ≤ m) {x : List Char × List Char}
    (h : parseString n s = some x) : parseString m s = some x :=
  Nat.le_induction h (fun _ _ hk => parseString_mono hk) m hnm

theorem parseName_le {n m : ℕ} (hnm : n ≤ m) {x : List Char × List Char}
    (h : parseName n s = some x) : parseName m s = some x :=
  Nat.le_induction h (fun _ _ hk => parseName_mono hk) m hnm

/-- A text starts with one value only. -/
theorem ValueAt.unique {v v' : Value} {r' : List Char} (h : ValueAt s v r)
    (h' : ValueAt s v' r') : v = v' ∧ r = r' := by
  obtain ⟨n, h⟩ := h
  obtain ⟨m, h'⟩ := h'
  have hn := parseValue_le (Nat.le_max_left n m) h
  rw [parseValue_le (Nat.le_max_right n m) h'] at hn
  obtain ⟨rfl, rfl⟩ := Prod.mk.inj (Option.some.inj hn)
  exact ⟨rfl, rfl⟩

theorem StringAt.unique {cs cs' r' : List Char} (h : StringAt s cs r)
    (h' : StringAt s cs' r') : cs = cs' ∧ r = r' := by
  obtain ⟨n, h⟩ := h
  obtain ⟨m, h'⟩ := h'
  have hn := parseString_le (Nat.le_max_left n m) h
  rw [parseString_le (Nat.le_max_right n m) h'] at hn
  obtain ⟨rfl, rfl⟩ := Prod.mk.inj (Option.some.inj hn)
  exact ⟨rfl, rfl⟩

theorem stringAt_nil {cs : List Char} : ¬ StringAt [] cs r := by
  rintro ⟨n, h⟩
  cases n <;> cases h

/-- The closing quotation mark. -/
theorem stringAt_quote {cs : List Char} : StringAt ('\x22' :: s) cs r ↔ cs = [] ∧ r = s := by
  constructor
  · rintro ⟨n, h⟩
    cases n with
    | zero => cases h
    | succ n =>
      obtain ⟨rfl, rfl⟩ := Prod.mk.inj (Option.some.inj h)
      exact ⟨rfl, rfl⟩
  · rintro ⟨rfl, rfl⟩
    exact ⟨1, rfl⟩

theorem stringAt_escape {cs : List Char} : StringAt ('\\' :: s) cs r ↔
    ∃ d s' ds, parseEscape s = some (d, s') ∧ StringAt s' ds r ∧ cs = d :: ds := by
  constructor
  · rintro ⟨n, h⟩
    cases n with
    | zero => cases h
    | succ n =>
      rw [parseString, if_neg (by decide), if_pos rfl] at h
      simp only [Option.bind_eq_bind, Option.bind_eq_some_iff] at h
      obtain ⟨⟨d, s'⟩, hesc, ⟨ds, s''⟩, hrest, hr⟩ := h
      obtain ⟨rfl, rfl⟩ := Prod.mk.inj (Option.some.inj hr)
      exact ⟨d, s', ds, hesc, ⟨n, hrest⟩, rfl⟩
  · rintro ⟨d, s', ds, hesc, ⟨n, hrest⟩, rfl⟩
    refine ⟨n + 1, ?_⟩
    rw [parseString, if_neg (by decide), if_pos rfl]
    simp only [Option.bind_eq_bind, Option.bind_eq_some_iff]
    exact ⟨(d, s'), hesc, (ds, r), hrest, rfl⟩

/-- Any other character stands for itself. -/
theorem stringAt_char {c : Char} {cs : List Char} (hquote : c ≠ '\x22') (hslash : c ≠ '\\') :
    StringAt (c :: s) cs r ↔ Plain c ∧ ∃ ds, StringAt s ds r ∧ cs = c :: ds := by
  constructor
  · rintro ⟨n, h⟩
    cases n with
    | zero => cases h
    | succ n =>
      rw [parseString, if_neg hquote, if_neg hslash] at h
      split_ifs at h with hctrl
      simp only [Option.bind_eq_bind, Option.bind_eq_some_iff] at h
      obtain ⟨⟨ds, s''⟩, hrest, hr⟩ := h
      obtain ⟨rfl, rfl⟩ := Prod.mk.inj (Option.some.inj hr)
      exact ⟨⟨hquote, hslash, hctrl⟩, ds, ⟨n, hrest⟩, rfl⟩
  · rintro ⟨⟨-, -, hctrl⟩, ds, ⟨n, hrest⟩, rfl⟩
    refine ⟨n + 1, ?_⟩
    rw [parseString, if_neg hquote, if_neg hslash, if_pos hctrl]
    simp only [Option.bind_eq_bind, Option.bind_eq_some_iff]
    exact ⟨(ds, r), hrest, rfl⟩

theorem nameAt_iff {k : List Char} : NameAt s k r ↔
    ∃ s' s'', skipWs s = '\x22' :: s' ∧ StringAt s' k s'' ∧ skipWs s'' = ':' :: r := by
  constructor
  · rintro ⟨n, h⟩
    unfold parseName at h
    split at h
    next s' hs =>
      simp only [Option.bind_eq_bind, Option.bind_eq_some_iff] at h
      obtain ⟨⟨k', s''⟩, hk, hr⟩ := h
      simp only at hr
      split at hr
      next s₃ hcolon =>
        obtain ⟨rfl, rfl⟩ := Prod.mk.inj (Option.some.inj hr)
        exact ⟨s', s'', hs, ⟨n, hk⟩, hcolon⟩
      next => cases hr
    next => cases h
  · rintro ⟨s', s'', hs, ⟨n, hk⟩, hcolon⟩
    refine ⟨n, ?_⟩
    simp only [parseName, hs, Option.bind_eq_bind, Option.bind_eq_some_iff]
    refine ⟨(k, s''), hk, ?_⟩
    simp only [hcolon]

theorem valueAt_string {v : Value} : ValueAt ('\x22' :: s) v r ↔
    ∃ cs, StringAt s cs r ∧ v = .str cs := by
  have hws : skipWs ('\x22' :: s) = '\x22' :: s := List.dropWhile_cons_of_neg (by decide)
  constructor
  · rintro ⟨n, h⟩
    cases n with
    | zero => cases h
    | succ n =>
      simp only [parseValue, hws, if_true, Option.map_eq_some_iff, Prod.mk.injEq] at h
      obtain ⟨⟨cs, r'⟩, hcs, rfl, rfl⟩ := h
      exact ⟨cs, ⟨n, hcs⟩, rfl⟩
  · rintro ⟨cs, ⟨n, hcs⟩, rfl⟩
    refine ⟨n + 1, ?_⟩
    simp only [parseValue, hws, if_true, hcs, Option.map_some]

/-- An object with members. -/
theorem valueAt_object {v : Value} (hne : ∀ s', skipWs s ≠ '\x7d' :: s') :
    ValueAt ('\x7b' :: s) v r ↔ ∃ ms, MembersAt s ms r ∧ v = .obj ms := by
  have hws : skipWs ('\x7b' :: s) = '\x7b' :: s := List.dropWhile_cons_of_neg (by decide)
  constructor
  · rintro ⟨n, h⟩
    cases n with
    | zero => cases h
    | succ n =>
      simp only [parseValue, hws] at h
      rw [if_neg (by decide), if_pos trivial] at h
      obtain ⟨⟨ms, r'⟩, hms, hr⟩ := Option.map_eq_some_iff.mp h
      obtain ⟨rfl, rfl⟩ := Prod.mk.inj hr
      exact ⟨ms, ⟨n, hms⟩, rfl⟩
  · rintro ⟨ms, ⟨n, hms⟩, rfl⟩
    refine ⟨n + 1, ?_⟩
    simp only [parseValue, hws]
    rw [if_neg (by decide), if_pos trivial]
    rw [hms, Option.map_some]

theorem valueAt_number {c : Char} {v : Value} (hc : c = '-' ∨ c.isDigit) :
    ValueAt (c :: s) v r ↔ ∃ q, parseNumber (c :: s) = some (q, r) ∧ v = .num q := by
  have hne : ∀ d, d ≠ '-' → d.isDigit = false → c ≠ d := by
    rintro d hd hdigit rfl
    rcases hc with rfl | hc
    · exact hd rfl
    · rw [hdigit] at hc
      cases hc
  have hnot : isWs c = false := by
    simp only [isWs, Bool.or_eq_false_iff, decide_eq_false_iff_not]
    exact ⟨⟨⟨hne _ (by decide) (by decide), hne _ (by decide) (by decide)⟩,
      hne _ (by decide) (by decide)⟩, hne _ (by decide) (by decide)⟩
  have hws : skipWs (c :: s) = c :: s := List.dropWhile_cons_of_neg (by simp [hnot])
  have hparse : ∀ n, parseValue (n + 1) (c :: s) =
      (parseNumber (c :: s)).map fun r => (.num r.1, r.2) := by
    intro n
    simp only [parseValue, hws]
    rw [if_neg (hne _ (by decide) (by decide)), if_neg (hne _ (by decide) (by decide)),
      if_neg (hne _ (by decide) (by decide)), if_pos hc]
  constructor
  · rintro ⟨n, h⟩
    cases n with
    | zero => cases h
    | succ n =>
      rw [hparse] at h
      obtain ⟨⟨q, r'⟩, hq, hr⟩ := Option.map_eq_some_iff.mp h
      obtain ⟨rfl, rfl⟩ := Prod.mk.inj hr
      exact ⟨q, hq, rfl⟩
  · rintro ⟨q, hq, rfl⟩
    refine ⟨1, ?_⟩
    rw [hparse, hq, Option.map_some]

/-- A member, and more after a comma or the closing brace. -/
theorem membersAt_iff {ms : List (List Char × Value)} : MembersAt s ms r ↔
    ∃ k s₁ v s₂, NameAt s k s₁ ∧ ValueAt s₁ v s₂ ∧
      ((∃ s₃ ms', skipWs s₂ = ',' :: s₃ ∧ MembersAt s₃ ms' r ∧ ms = (k, v) :: ms') ∨
        (skipWs s₂ = '\x7d' :: r ∧ ms = [(k, v)])) := by
  constructor
  · rintro ⟨n, h⟩
    cases n with
    | zero => cases h
    | succ n =>
      rw [parseMembers] at h
      simp only [Option.bind_eq_bind, Option.bind_eq_some_iff] at h
      obtain ⟨⟨k, s₁⟩, hname, ⟨v, s₂⟩, hv, hr⟩ := h
      refine ⟨k, s₁, v, s₂, ⟨n, hname⟩, ⟨n, hv⟩, ?_⟩
      simp only at hr
      split at hr
      next s₃ hs =>
        simp only [Option.bind_eq_some_iff] at hr
        obtain ⟨⟨ms', r'⟩, hms, hr⟩ := hr
        obtain ⟨rfl, rfl⟩ := Prod.mk.inj (Option.some.inj hr)
        exact .inl ⟨s₃, ms', hs, ⟨n, hms⟩, rfl⟩
      next s₃ hs =>
        obtain ⟨rfl, rfl⟩ := Prod.mk.inj (Option.some.inj hr)
        exact .inr ⟨hs, rfl⟩
      next => cases hr
  · rintro ⟨k, s₁, v, s₂, ⟨n, hname⟩, ⟨m, hv⟩, hend⟩
    rcases hend with ⟨s₃, ms', hs, ⟨l, hms⟩, rfl⟩ | ⟨hs, rfl⟩
    · refine ⟨n + m + l + 1, ?_⟩
      rw [parseMembers]
      simp only [Option.bind_eq_bind, Option.bind_eq_some_iff]
      refine ⟨(k, s₁), parseName_le (by omega) hname, (v, s₂), parseValue_le (by omega) hv, ?_⟩
      simp only [hs, Option.bind_eq_some_iff]
      exact ⟨(ms', r), parseMembers_le (by omega) hms, rfl⟩
    · refine ⟨n + m + 1, ?_⟩
      rw [parseMembers]
      simp only [Option.bind_eq_bind, Option.bind_eq_some_iff]
      refine ⟨(k, s₁), parseName_le (by omega) hname, (v, s₂), parseValue_le (by omega) hv, ?_⟩
      simp only [hs]
      rfl

end

end WlabStation.Json
