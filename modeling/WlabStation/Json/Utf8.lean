import WlabStation.Json.Compact

/-! Texts as they are exchanged: the UTF-8 encoding of their characters. -/
namespace WlabStation.Json

def utf8Bytes (cs : List Char) : List UInt8 := cs.flatMap String.utf8EncodeChar

@[simp] theorem utf8Bytes_append (cs ds : List Char) :
    utf8Bytes (cs ++ ds) = utf8Bytes cs ++ utf8Bytes ds := List.flatMap_append

theorem utf8Bytes_injective {cs ds : List Char} (h : utf8Bytes cs = utf8Bytes ds) : cs = ds := by
  have hencode : cs.utf8Encode = ds.utf8Encode := congrArg List.toByteArray h
  have hdecode := congrArg ByteArray.utf8Decode? hencode
  simpa using hdecode

/-- A 7-bit character is one byte. -/
theorem utf8Bytes_ascii {cs : List Char} (h : ∀ c ∈ cs, c.toNat < 128) :
    utf8Bytes cs = cs.map fun c => UInt8.ofNat c.toNat := by
  induction cs with
  | nil => rfl
  | cons c cs ih =>
    have hc : c.val.toNat ≤ 127 := Nat.le_of_lt_succ (h c List.mem_cons_self)
    have hone : String.utf8EncodeChar c = [UInt8.ofNat c.toNat] := if_pos hc
    rw [utf8Bytes, List.flatMap_cons, hone, List.map_cons, List.singleton_append]
    exact congrArg _ (ih fun d hd => h d (List.mem_cons_of_mem c hd))

/-- The bytes are a well-formed text with the value `v`. -/
def Denotes (bytes : List UInt8) (v : Value) : Prop :=
  ∃ cs r, utf8Bytes cs = bytes ∧ ValueAt cs v r ∧ skipWs r = []

/-- This is what a receiver's parser finds, once it has enough fuel. -/
theorem denotes_iff_parseText {bytes : List UInt8} {v : Value} :
    Denotes bytes v ↔ ∃ cs n, utf8Bytes cs = bytes ∧ parseText n cs = some v := by
  constructor
  · rintro ⟨cs, r, hcs, ⟨n, hn⟩, hr⟩
    refine ⟨cs, n, hcs, ?_⟩
    rw [parseText, hn, Option.bind_eq_bind, Option.bind_some]
    exact if_pos hr
  · rintro ⟨cs, n, hcs, hn⟩
    obtain ⟨⟨v', r⟩, hv, hr⟩ := Option.bind_eq_some_iff.mp hn
    simp only at hr
    split_ifs at hr with hws
    obtain rfl := Option.some.inj hr
    exact ⟨cs, r, hcs, ⟨n, hv⟩, hws⟩

theorem Denotes.unique {bytes : List UInt8} {v v' : Value} (h : Denotes bytes v)
    (h' : Denotes bytes v') : v = v' := by
  obtain ⟨cs, r, hcs, hv, -⟩ := h
  obtain ⟨ds, r', hds, hv', -⟩ := h'
  obtain rfl := utf8Bytes_injective (hcs.trans hds.symm)
  exact (hv.unique hv').1

theorem Reads.denotes {t : List Char} {v : Value} (h : Reads t v) : Denotes (utf8Bytes t) v := by
  refine ⟨t, [], rfl, ?_, rfl⟩
  have hv := h [] (.inl rfl)
  rw [List.append_nil] at hv
  exact hv

end WlabStation.Json
