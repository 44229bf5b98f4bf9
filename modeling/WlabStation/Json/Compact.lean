import WlabStation.Json.Grammar
import Mathlib.Tactic.NormNum

/-! Texts as a program prints them, without blanks: what their values are, and
that a string printed between quotation marks reads back only if it is plain. -/
namespace WlabStation.Json

theorem stringAt_plain {cs : List Char} (h : ∀ c ∈ cs, Plain c) (r : List Char) :
    StringAt (cs ++ '\x22' :: r) cs r := by
  induction cs with
  | nil => exact stringAt_quote.mpr ⟨rfl, rfl⟩
  | cons c cs ih =>
    have hc := h c List.mem_cons_self
    exact (stringAt_char hc.1 hc.2.1).mpr
      ⟨hc, cs, ih fun d hd => h d (List.mem_cons_of_mem c hd), rfl⟩

/-- What precedes the first `x` of a text that starts with `o` and `x`. -/
theorem prefix_past {α : Type*} {x : α} {o a s : List α} (hx : x ∉ a) (h : o ++ [x] <+: a ++ s) :
    ∃ o', o = a ++ o' ∧ o' ++ [x] <+: s := by
  induction a generalizing o with
  | nil => exact ⟨o, rfl, h⟩
  | cons b a ih =>
    cases o with
    | nil =>
      obtain ⟨rfl, -⟩ := List.cons_prefix_cons.mp h
      exact absurd List.mem_cons_self hx
    | cons c o =>
      obtain ⟨rfl, htail⟩ := List.cons_prefix_cons.mp h
      obtain ⟨o', rfl, ho⟩ := ih (fun hm => hx (List.mem_cons_of_mem _ hm)) htail
      exact ⟨o', rfl, ho⟩

/-- Characters wait in the queue `q` while `a` is read and `d` is produced. -/
theorem queue_step {α : Type*} {x d : α} {q a o ds : List α} (ha : a ≠ []) (hqx : x ∉ q)
    (hax : x ∉ a) (h : q ++ (a ++ o) = d :: ds) :
    ∃ q', ds = q' ++ o ∧ x ∉ q' ∧ q'.length + 1 = q.length + a.length := by
  obtain ⟨b, q', hq'⟩ :=
    List.exists_cons_of_ne_nil (List.append_ne_nil_of_right_ne_nil q ha)
  rw [← List.append_assoc, hq'] at h
  obtain ⟨-, rfl⟩ := List.cons.inj h
  refine ⟨q', rfl, ?_, ?_⟩
  · intro hm
    have hmem : x ∈ q ++ a := hq' ▸ List.mem_cons_of_mem b hm
    exact (List.mem_append.mp hmem).elim hqx hax
  · have hlen := congrArg List.length hq'
    simpa using hlen.symm

theorem hexQuad_consumes {s s' : List Char} {n : ℕ} (h : hexQuad s = some (n, s')) :
    ∃ e, s = e ++ s' ∧ '\x22' ∉ e := by
  have hdigit : ∀ {c n}, hexDigit c = some n → '\x22' ≠ c := by
    rintro c n hc rfl
    cases hc
  match s with
  | a :: b :: c :: d :: s =>
    simp only [hexQuad, Option.bind_eq_bind, Option.bind_eq_some_iff] at h
    obtain ⟨_, ha, _, hb, _, hc, _, hd, hr⟩ := h
    obtain ⟨-, rfl⟩ := Prod.mk.inj (Option.some.inj hr)
    refine ⟨[a, b, c, d], rfl, ?_⟩
    simp [hdigit ha, hdigit hb, hdigit hc, hdigit hd]
  | [] => cases h
  | [_] => cases h
  | [_, _] => cases h
  | [_, _, _] => cases h

/-- An escape takes no quotation mark, or it is the one that denotes it. -/
theorem parseEscape_consumes {s s' : List Char} {d : Char} (h : parseEscape s = some (d, s')) :
    ∃ e, e ≠ [] ∧ s = e ++ s' ∧ ('\x22' ∉ e ∨ d = '\x22') := by
  cases s with
  | nil => cases h
  | cons c s =>
    rw [parseEscape] at h
    split_ifs at h with hu
    · subst hu
      simp only [Option.bind_eq_bind, Option.bind_eq_some_iff] at h
      obtain ⟨⟨n, s₁⟩, hquad, h⟩ := h
      obtain ⟨e, rfl, he⟩ := hexQuad_consumes hquad
      simp only at h
      split_ifs at h with hplane
      · obtain ⟨-, rfl⟩ := Prod.mk.inj (Option.some.inj h)
        refine ⟨'u' :: e, List.cons_ne_nil _ _, rfl, .inl ?_⟩
        simp [he]
      · match s₁ with
        | [] => cases h
        | [_] => cases h
        | b :: u :: s₂ =>
          simp only [lowSurrogate, Option.bind_eq_bind, Option.bind_eq_some_iff] at h
          obtain ⟨⟨l, s₃⟩, hlow, h⟩ := h
          obtain ⟨f, rfl, hf⟩ := hexQuad_consumes hlow
          simp only at h
          split_ifs at h with hrange
          obtain ⟨rfl, rfl, -⟩ := hrange
          obtain ⟨-, rfl⟩ := Prod.mk.inj (Option.some.inj h)
          refine ⟨'u' :: e ++ '\\' :: 'u' :: f, List.cons_ne_nil _ _, by simp, .inl ?_⟩
          simp [he, hf]
    · obtain ⟨d', hd, hr⟩ := Option.map_eq_some_iff.mp h
      obtain ⟨rfl, rfl⟩ := Prod.mk.inj hr
      refine ⟨[c], List.cons_ne_nil _ _, rfl, ?_⟩
      by_cases hc : c = '\x22'
      · subst hc
        exact .inr (Option.some.inj hd).symm
      · exact .inl (by simpa using Ne.symm hc)

/-- A string that reads as the text `o` in front of its closing mark has no
escapes. The characters that escapes save, `q`, would still have to be read. -/
theorem StringAt.unescaped {w q o r : List Char} (h : StringAt w (q ++ o) r) (hq : '\x22' ∉ q)
    (ho : o ++ ['\x22'] <+: w) : q = [] ∧ ∀ c ∈ o, Plain c := by
  induction hn : w.length using Nat.strong_induction_on generalizing w q o with
  | _ n ih =>
    subst hn
    cases w with
    | nil => exact absurd h stringAt_nil
    | cons c w =>
      by_cases hquote : c = '\x22'
      · subst hquote
        obtain ⟨hnil, -⟩ := stringAt_quote.mp h
        obtain ⟨rfl, rfl⟩ := List.append_eq_nil_iff.mp hnil
        exact ⟨rfl, by simp⟩
      by_cases hslash : c = '\\'
      · subst hslash
        obtain ⟨d, s', ds, hesc, hrest, heq⟩ := stringAt_escape.mp h
        obtain ⟨e, hne, rfl, hmark⟩ := parseEscape_consumes hesc
        exfalso
        rcases hmark with he | rfl
        · have hmark : '\x22' ∉ '\\' :: e := by simp [he]
          obtain ⟨o', rfl, ho'⟩ := prefix_past hmark ho
          obtain ⟨q', rfl, hq', hlen⟩ := queue_step (List.cons_ne_nil _ _) hq hmark heq
          have hlt : s'.length < ('\\' :: (e ++ s')).length := by
            simp only [List.length_cons, List.length_append]
            omega
          obtain ⟨rfl, -⟩ := ih _ hlt hrest hq' ho' rfl
          have hpos := List.length_pos_iff.mpr hne
          simp only [List.length_cons, List.length_nil] at hlen
          omega
        · cases q with
          | nil =>
            rw [List.nil_append] at heq
            subst heq
            exact absurd (List.cons_prefix_cons.mp ho).1 (by decide)
          | cons a q =>
            obtain ⟨rfl, -⟩ := List.cons.inj heq
            exact hq List.mem_cons_self
      · obtain ⟨hc, ds, hrest, heq⟩ := (stringAt_char hquote hslash).mp h
        have hmark : '\x22' ∉ [c] := by simpa using Ne.symm hquote
        obtain ⟨o', rfl, ho'⟩ := prefix_past hmark ho
        obtain ⟨q', rfl, hq', hlen⟩ := queue_step (List.cons_ne_nil _ _) hq hmark heq
        obtain ⟨rfl, hplain⟩ := ih _ (Nat.lt_succ_self _) hrest hq' ho' rfl
        simp only [List.length_cons, List.length_nil] at hlen
        refine ⟨List.length_eq_zero_iff.mp (by omega), ?_⟩
        intro x hx
        rcases List.mem_append.mp hx with hx | hx
        · rw [List.mem_singleton.mp hx]
          exact hc
        · exact hplain x hx

/-- What may follow a value inside an object or at the end of a text. -/
def Ends (r : List Char) : Prop := r = [] ∨ ∃ s, r = ',' :: s ∨ r = '\x7d' :: s

/-- Wherever the text `t` stands before such an end, it is read as `v`. -/
def Reads (t : List Char) (v : Value) : Prop := ∀ r, Ends r → ValueAt (t ++ r) v r

def stringText (cs : List Char) : List Char := '\x22' :: cs ++ ['\x22']

theorem Reads.string {cs : List Char} (h : ∀ c ∈ cs, Plain c) :
    Reads (stringText cs) (.str cs) := by
  intro r _
  refine valueAt_string.mpr ⟨cs, ?_, rfl⟩
  show StringAt ((cs ++ ['\x22']) ++ r) cs r
  rw [List.append_assoc]
  exact stringAt_plain h r

/-- No digit, point or exponent follows. -/
theorem Ends.head {r : List Char} (h : Ends r) {p : Char → Bool} (hcomma : p ',' = false)
    (hbrace : p '\x7d' = false) : ∀ c, r.head? = some c → p c = false := by
  rcases h with rfl | ⟨s, rfl | rfl⟩
  · simp
  · simpa using hcomma
  · simpa using hbrace

theorem parseDigits_append {ds r : List Char} (hne : ds ≠ []) (hds : ∀ c ∈ ds, c.isDigit)
    (hr : ∀ c, r.head? = some c → c.isDigit = false) : parseDigits (ds ++ r) = some (ds, r) := by
  have htake : r.takeWhile Char.isDigit = [] := by
    cases r with
    | nil => rfl
    | cons c r => exact List.takeWhile_cons_of_neg (by simp [hr c rfl])
  have hdrop : r.dropWhile Char.isDigit = r := by
    cases r with
    | nil => rfl
    | cons c r => exact List.dropWhile_cons_of_neg (by simp [hr c rfl])
  rw [parseDigits, List.takeWhile_append_of_pos hds, List.dropWhile_append_of_pos hds, htake,
    hdrop, List.append_nil, if_neg hne]

theorem toDigits_isDigit {n : ℕ} : ∀ c ∈ Nat.toDigits 10 n, c.isDigit :=
  fun _ hc => Nat.isDigit_of_mem_toDigits (by decide) (by decide) hc

theorem toDigits_ne_nil (n : ℕ) : Nat.toDigits 10 n ≠ [] :=
  List.length_pos_iff.mp Nat.length_toDigits_pos

/-- A leading zero stands alone. -/
theorem toDigits_leading_zero {n : ℕ} (h : (Nat.toDigits 10 n).head? = some '0') :
    Nat.toDigits 10 n = ['0'] := by
  have hall : ∀ n, (Nat.toDigits 10 n).head? = some '0' → n = 0 := by
    intro n
    induction n using Nat.strong_induction_on with
    | _ n ih =>
      intro hn
      by_cases hlt : n < 10
      · rw [Nat.toDigits_of_lt_base hlt] at hn
        exact Nat.digitChar_eq_zero.mp (Option.some.inj hn)
      · obtain ⟨c, cs, hcs⟩ := List.exists_cons_of_ne_nil (toDigits_ne_nil (n / 10))
        rw [Nat.toDigits_of_base_le (by decide) (Nat.not_lt.mp hlt), hcs] at hn
        have hdiv := ih (n / 10) (by omega) (by rw [hcs]; exact hn)
        omega
  rw [hall n h]
  rfl

theorem parseInteger_toDigits (n : ℕ) {r : List Char}
    (hr : ∀ c, r.head? = some c → c.isDigit = false) :
    parseInteger (Nat.toDigits 10 n ++ r) = some (Nat.toDigits 10 n, r) := by
  rw [parseInteger, parseDigits_append (toDigits_ne_nil n) toDigits_isDigit hr]
  exact if_neg fun h => h.2 (toDigits_leading_zero h.1)

/-- The sign and the digits of an integer. -/
def intChars (neg : Bool) (n : ℕ) : List Char := (if neg then ['-'] else []) ++ Nat.toDigits 10 n

theorem parseSign_toDigits (neg : Bool) (n : ℕ) (r : List Char) :
    parseSign (intChars neg n ++ r) = (neg, Nat.toDigits 10 n ++ r) := by
  cases neg with
  | true => rfl
  | false =>
    obtain ⟨c, cs, hcs⟩ := List.exists_cons_of_ne_nil (toDigits_ne_nil n)
    have hc : c ≠ '-' := by
      rintro rfl
      have hdigit := toDigits_isDigit (n := n) '-' (by simp [hcs])
      cases hdigit
    simp only [intChars, hcs, Bool.false_eq_true, if_false, List.nil_append, List.cons_append]
    unfold parseSign
    split
    next s heq => exact absurd (List.cons.inj heq).1 hc
    next => rfl

theorem Ends.no_exponent {r : List Char} (h : Ends r) : parseExponent r = some (0, r) := by
  rcases h with rfl | ⟨s, rfl | rfl⟩
  · rfl
  · rw [parseExponent, if_neg (by decide)]
  · rw [parseExponent, if_neg (by decide)]

/-- A number whose integer part is printed in decimal. -/
theorem valueAt_intChars (neg : Bool) (n : ℕ) {t fs r : List Char}
    (ht : ∀ c, t.head? = some c → c.isDigit = false) (hfs : parseFraction t = some (fs, r))
    (hr : Ends r) :
    ValueAt (intChars neg n ++ t) (.num (decimal neg (Nat.toDigits 10 n) fs 0)) r := by
  have hnum : parseNumber (intChars neg n ++ t) =
      some (decimal neg (Nat.toDigits 10 n) fs 0, r) := by
    simp only [parseNumber, parseSign_toDigits, parseInteger_toDigits n ht,
      Option.bind_eq_bind, Option.bind_some, hfs, hr.no_exponent]
    rfl
  obtain ⟨c, cs, hcs⟩ := List.exists_cons_of_ne_nil (toDigits_ne_nil n)
  have hdigit : c.isDigit := toDigits_isDigit (n := n) c (hcs ▸ List.mem_cons_self)
  cases neg with
  | true => exact (valueAt_number (.inl rfl)).mpr ⟨_, hnum, rfl⟩
  | false =>
    have hcons : intChars false n ++ t = c :: (cs ++ t) := by
      rw [intChars, hcs]
      rfl
    rw [hcons] at hnum ⊢
    exact (valueAt_number (.inr hdigit)).mpr ⟨_, hnum, rfl⟩

theorem Reads.int (neg : Bool) (n : ℕ) : Reads (intChars neg n) (.num (sign neg * n)) := by
  intro r hr
  have hfs : parseFraction r = some ([], r) := by
    rcases hr with rfl | ⟨s, rfl | rfl⟩ <;> rfl
  have hval : decimal neg (Nat.toDigits 10 n) [] 0 = sign neg * n := by
    simp [decimal, Nat.ofDigitChars_ten_toDigits]
  rw [← hval]
  exact valueAt_intChars neg n (hr.head (by decide) (by decide)) hfs hr

/-- One digit behind the decimal point. -/
theorem Reads.tenths (neg : Bool) (n : ℕ) {d : ℕ} (hd : d < 10) :
    Reads (intChars neg n ++ ['.', d.digitChar]) (.num (sign neg * ((10 * n + d : ℕ) / 10))) := by
  intro r hr
  have hdigit : ∀ c ∈ [d.digitChar], c.isDigit := by
    intro c hc
    rw [List.mem_singleton.mp hc, Nat.isDigit_digitChar]
    exact decide_eq_true hd
  have hfs : parseFraction (['.', d.digitChar] ++ r) = some ([d.digitChar], r) :=
    parseDigits_append (List.cons_ne_nil _ _) hdigit (hr.head (by decide) (by decide))
  have hval : decimal neg (Nat.toDigits 10 n) [d.digitChar] 0 =
      sign neg * ((10 * n + d : ℕ) / 10) := by
    have hpow : (10 : ℚ) ^ ((0 : ℤ) - [d.digitChar].length) = 10⁻¹ := by simp
    rw [decimal, Nat.ofDigitChars_append, Nat.ofDigitChars_ten_toDigits,
      Nat.ofDigitChars_cons_digitChar_of_lt_ten hd, Nat.ofDigitChars_nil, hpow, mul_assoc,
      div_eq_mul_inv]
  rw [← hval, List.append_assoc]
  exact valueAt_intChars neg n (by simp) hfs hr

/-- A member as it is printed. -/
def memberText (k t : List Char) : List Char := '\x22' :: k ++ '\x22' :: ':' :: t

@[simp] theorem memberText_append (k t r : List Char) :
    memberText k t ++ r = memberText k (t ++ r) := by
  simp [memberText]

theorem nameAt_member {k t k' r : List Char} (hk : ∀ c ∈ k, Plain c) :
    NameAt (memberText k t) k' r ↔ k' = k ∧ r = t := by
  have hws : skipWs (memberText k t) = '\x22' :: (k ++ '\x22' :: ':' :: t) :=
    List.dropWhile_cons_of_neg (by decide)
  have hcolon : skipWs (':' :: t) = ':' :: t := List.dropWhile_cons_of_neg (by decide)
  constructor
  · intro h
    obtain ⟨s', s'', hs, hstr, hc⟩ := nameAt_iff.mp h
    rw [hws] at hs
    obtain ⟨-, rfl⟩ := List.cons.inj hs
    obtain ⟨rfl, rfl⟩ := hstr.unique (stringAt_plain hk _)
    rw [hcolon] at hc
    exact ⟨rfl, (List.cons.inj hc).2.symm⟩
  · rintro ⟨rfl, rfl⟩
    exact nameAt_iff.mpr ⟨_, _, hws, stringAt_plain hk _, hcolon⟩

/-- The first member, when its value cannot be told yet. -/
theorem MembersAt.head {k t r : List Char} {ms : List (List Char × Value)}
    (hk : ∀ c ∈ k, Plain c) (h : MembersAt (memberText k t) ms r) :
    ∃ v s ms', ValueAt t v s ∧ ms = (k, v) :: ms' := by
  obtain ⟨k', s₁, v, s₂, hname, hv, hend⟩ := membersAt_iff.mp h
  obtain ⟨rfl, rfl⟩ := (nameAt_member hk).mp hname
  rcases hend with ⟨_, ms', -, -, rfl⟩ | ⟨-, rfl⟩
  · exact ⟨v, s₂, ms', hv, rfl⟩
  · exact ⟨v, s₂, [], hv, rfl⟩

theorem membersAt_cons {k t s r : List Char} {v : Value} {ms : List (List Char × Value)}
    (hk : ∀ c ∈ k, Plain c) (hv : Reads t v) :
    MembersAt (memberText k (t ++ ',' :: s)) ms r ↔
      ∃ ms', MembersAt s ms' r ∧ ms = (k, v) :: ms' := by
  have hcomma : skipWs (',' :: s) = ',' :: s := List.dropWhile_cons_of_neg (by decide)
  have hval := hv (',' :: s) (.inr ⟨s, .inl rfl⟩)
  constructor
  · intro h
    obtain ⟨k', s₁, v', s₂, hname, hv', hend⟩ := membersAt_iff.mp h
    obtain ⟨rfl, rfl⟩ := (nameAt_member hk).mp hname
    obtain ⟨rfl, rfl⟩ := hv'.unique hval
    rw [hcomma] at hend
    rcases hend with ⟨s₃, ms', hs, hms, rfl⟩ | ⟨hs, -⟩
    · obtain ⟨-, rfl⟩ := List.cons.inj hs
      exact ⟨ms', hms, rfl⟩
    · exact absurd (List.cons.inj hs).1 (by decide)
  · rintro ⟨ms', hms, rfl⟩
    exact membersAt_iff.mpr ⟨k, _, v, _, (nameAt_member hk).mpr ⟨rfl, rfl⟩, hval,
      .inl ⟨s, ms', hcomma, hms, rfl⟩⟩

theorem MembersAt.cons {k t s r : List Char} {v : Value} {ms : List (List Char × Value)}
    (hk : ∀ c ∈ k, Plain c) (hv : Reads t v) (h : MembersAt s ms r) :
    MembersAt (memberText k (t ++ ',' :: s)) ((k, v) :: ms) r :=
  (membersAt_cons hk hv).mpr ⟨ms, h, rfl⟩

theorem membersAt_last {k t s : List Char} {v : Value} (hk : ∀ c ∈ k, Plain c)
    (hv : Reads t v) : MembersAt (memberText k (t ++ '\x7d' :: s)) [(k, v)] s := by
  have hbrace : skipWs ('\x7d' :: s) = '\x7d' :: s := List.dropWhile_cons_of_neg (by decide)
  have hval := hv ('\x7d' :: s) (.inr ⟨s, .inr rfl⟩)
  exact membersAt_iff.mpr ⟨k, _, v, _, (nameAt_member hk).mpr ⟨rfl, rfl⟩, hval, .inr ⟨hbrace, rfl⟩⟩

/-- A blank in front of a member. -/
theorem membersAt_blank {s r : List Char} {ms : List (List Char × Value)} :
    MembersAt (' ' :: s) ms r ↔ MembersAt s ms r := by
  have hws : skipWs (' ' :: s) = skipWs s := List.dropWhile_cons_of_pos (by decide)
  have hname : ∀ k t, NameAt (' ' :: s) k t ↔ NameAt s k t := by
    intro k t
    rw [nameAt_iff, nameAt_iff, hws]
  rw [membersAt_iff, membersAt_iff (s := s)]
  simp only [hname]

/-- The only member named `k` is the string `s`. -/
def OnlyString (ms : List (List Char × Value)) (k s : List Char) : Prop :=
  ms.filter (fun m => m.1 = k) = [(k, .str s)]

theorem OnlyString.head {ms : List (List Char × Value)} {k s : List Char} {v : Value}
    (h : OnlyString ((k, v) :: ms) k s) : v = .str s := by
  unfold OnlyString at h
  rw [List.filter_cons_of_pos (by simp)] at h
  exact (Prod.mk.inj (List.cons.inj h).1).2

@[simp] theorem onlyString_cons_of_ne {ms : List (List Char × Value)} {k k' s : List Char}
    {v : Value} (hk : k' ≠ k) : OnlyString ((k', v) :: ms) k s ↔ OnlyString ms k s := by
  unfold OnlyString
  rw [List.filter_cons_of_neg (by simpa using hk)]

/-- A string printed as a member and read as the only one of its name: where it
is read as it was printed, it is plain, and the other members follow. -/
theorem membersAt_stringText {k c t s r : List Char} {ms : List (List Char × Value)}
    (hk : ∀ x ∈ k, Plain x) (h : MembersAt (memberText k (stringText c ++ ',' :: t)) ms r)
    (honly : OnlyString ms k s) (hc : c = s ∨ ∀ x ∈ c, Plain x) :
    c = s ∧ (∀ x ∈ c, Plain x) ∧ ∃ ms', MembersAt t ms' r ∧ ms = (k, .str c) :: ms' := by
  have hcs : c = s ∧ ∀ x ∈ c, Plain x := by
    obtain ⟨v, s₂, ms', hv, rfl⟩ := h.head hk
    obtain rfl := honly.head
    have htext : stringText c ++ ',' :: t = '\x22' :: (c ++ '\x22' :: ',' :: t) := by
      simp [stringText]
    rw [htext] at hv
    obtain ⟨cs, hstr, heq⟩ := valueAt_string.mp hv
    obtain rfl := Value.str.inj heq
    rcases hc with rfl | hplain
    · have hpre : c ++ ['\x22'] <+: c ++ '\x22' :: ',' :: t := ⟨',' :: t, by simp⟩
      exact ⟨rfl, (StringAt.unescaped (q := []) hstr (by simp) hpre).2⟩
    · exact ⟨(hstr.unique (stringAt_plain hplain _)).1.symm, hplain⟩
  obtain ⟨ms', hms, rfl⟩ := (membersAt_cons hk (Reads.string hcs.2)).mp h
  exact ⟨hcs.1, hcs.2, ms', hms, rfl⟩

/-- An object around text that is read as its members. -/
theorem Reads.object {k t : List Char} {ms : List (List Char × Value)}
    (h : ∀ r, MembersAt (memberText k t ++ r) ms r) :
    Reads ('\x7b' :: memberText k t) (.obj ms) := by
  intro r _
  have hws : ∀ s', skipWs (memberText k t ++ r) ≠ '\x7d' :: s' := by
    intro s' hs
    have hquote : skipWs (memberText k t ++ r) = memberText k t ++ r :=
      List.dropWhile_cons_of_neg (by decide)
    rw [hquote] at hs
    exact absurd (List.cons.inj hs).1 (by decide)
  exact (valueAt_object hws).mpr ⟨ms, h r, rfl⟩

end WlabStation.Json
