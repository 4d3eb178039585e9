import WikiBackend.Codec.Base64

/-! The four spellings of an encoded text in RFC 4648: in the standard or in the url-safe
alphabet, with or without the padding. -/

namespace Base64

def sextets : List UInt8 → List Nat
  | [] => []
  | [a] => [a.toNat / 4, a.toNat % 4 * 16]
  | [a, b] => [a.toNat / 4, a.toNat % 4 * 16 + b.toNat / 16, b.toNat % 16 * 4]
  | a :: b :: c :: bs =>
    a.toNat / 4 :: (a.toNat % 4 * 16 + b.toNat / 16) :: (b.toNat % 16 * 4 + c.toNat / 64) ::
      c.toNat % 64 :: sextets bs

def padding (n : Nat) : List Char := List.replicate ((4 - n % 4) % 4) '='

def toUrlSafe (c : Char) : Char := if c = '+' then '-' else if c = '/' then '_' else c

structure Spelling where
  urlSafe : Bool
  padded : Bool
  deriving DecidableEq

def Spelling.encode (sp : Spelling) (bs : List UInt8) : List Char :=
  let cs := if sp.padded then Base64.encode bs else (Base64.encode bs).takeWhile (· ≠ '=')
  if sp.urlSafe then cs.map toUrlSafe else cs

theorem sextets_lt {bs : List UInt8} : ∀ v ∈ sextets bs, v < 64 := by
  have hlt : ∀ b : UInt8, b.toNat < 256 := fun b => b.toNat_lt
  induction bs using sextets.induct with
  | case1 => exact List.forall_mem_nil _
  | case2 a =>
    have ha := hlt a
    simp only [sextets, List.forall_mem_cons]
    exact ⟨by omega, by omega, List.forall_mem_nil _⟩
  | case3 a b =>
    have ha := hlt a
    have hb := hlt b
    simp only [sextets, List.forall_mem_cons]
    exact ⟨by omega, by omega, by omega, List.forall_mem_nil _⟩
  | case4 a b c bs ih =>
    have ha := hlt a
    have hb := hlt b
    have hc := hlt c
    simp only [sextets, List.forall_mem_cons]
    exact ⟨by omega, by omega, by omega, by omega, ih⟩

theorem padding_add_four (n : Nat) : padding (n + 4) = padding n := by
  rw [padding, padding, Nat.add_mod_right]

theorem encode_eq (bs : List UInt8) :
    encode bs = (sextets bs).map encodeChar ++ padding (sextets bs).length := by
  induction bs using encode.induct with
  | case1 => rfl
  | case2 a => rfl
  | case3 a b => rfl
  | case4 a b c bs ih =>
    simp only [encode, sextets, List.map_cons, List.cons_append, List.length_cons, padding_add_four,
      ih]

theorem encodeChar_ne_pad_of_mem {bs : List UInt8} {c : Char}
    (h : c ∈ (sextets bs).map encodeChar) : c ≠ '=' := by
  obtain ⟨v, hv, rfl⟩ := List.mem_map.1 h
  exact encodeChar_ne_pad (sextets_lt v hv)

theorem takeWhile_encode (bs : List UInt8) :
    (encode bs).takeWhile (· ≠ '=') = (sextets bs).map encodeChar := by
  have hdata : ∀ c ∈ (sextets bs).map encodeChar, decide (c ≠ '=') = true :=
    fun c hc => decide_eq_true (encodeChar_ne_pad_of_mem hc)
  have hpad : (padding (sextets bs).length).takeWhile (· ≠ '=') = [] := by
    rw [padding, List.takeWhile_replicate]
    rfl
  rw [encode_eq, List.takeWhile_append_of_pos hdata, hpad, List.append_nil]

theorem four_dvd_length_encode (bs : List UInt8) : (encode bs).length % 4 = 0 := by
  rw [encode_eq, List.length_append, padding, List.length_replicate, List.length_map]
  omega

/-! ## The url-safe alphabet -/

theorem encodeChar_ne {v : Nat} (hv : v < 64) {c : Char} (hc : decodeChar c = none) :
    encodeChar v ≠ c := by
  rintro rfl
  rw [decodeChar_encodeChar hv] at hc
  cases hc

theorem fromUrlSafe_encodeChar {v : Nat} (hv : v < 64) :
    fromUrlSafe (encodeChar v) = encodeChar v := by
  unfold fromUrlSafe
  rw [if_neg (encodeChar_ne hv (by decide)), if_neg (encodeChar_ne hv (by decide))]

theorem fromUrlSafe_toUrlSafe_encodeChar {v : Nat} (hv : v < 64) :
    fromUrlSafe (toUrlSafe (encodeChar v)) = encodeChar v := by
  unfold toUrlSafe
  split
  · next h => rw [h]; rfl
  · split
    · next h => rw [h]; rfl
    · exact fromUrlSafe_encodeChar hv

theorem toUrlSafe_cases (c : Char) :
    toUrlSafe c = c ∨ toUrlSafe c ≠ '=' ∧ decodeChar (toUrlSafe c) = none := by
  unfold toUrlSafe
  split
  · exact .inr (by decide)
  · split
    · exact .inr (by decide)
    · exact .inl rfl

theorem toUrlSafe_ascii {c : Char} (hc : c.toNat < 128) : (toUrlSafe c).toNat < 128 := by
  unfold toUrlSafe
  split
  · decide
  · split
    · decide
    · exact hc

theorem map_eq_self {f : Char → Char} {cs : List Char} (h : ∀ c ∈ cs, f c = c) : cs.map f = cs := by
  conv_rhs => rw [← List.map_id cs]
  exact List.map_congr_left h

theorem mem_encode_cases {bs : List UInt8} {p : Char → Prop} (hpad : p '=')
    (hdata : ∀ v < 64, p (encodeChar v)) : ∀ c ∈ encode bs, p c := by
  intro c hc
  rcases mem_encode hc with rfl | ⟨v, hv, rfl⟩
  · exact hpad
  · exact hdata v hv

/-! ## Padding a spelling again -/

namespace Spelling

variable {sp : Spelling} {bs bs' : List UInt8}

def chars (sp : Spelling) (bs : List UInt8) : List Char :=
  if sp.padded then Base64.encode bs else (Base64.encode bs).takeWhile (· ≠ '=')

theorem encode_eq : sp.encode bs = (sp.chars bs).map (if sp.urlSafe then toUrlSafe else id) := by
  rw [Spelling.encode, chars]
  cases sp.urlSafe
  · exact (List.map_id _).symm
  · rfl

theorem chars_append_padding : sp.chars bs ++ padding (sp.chars bs).length = Base64.encode bs := by
  rw [chars]
  cases sp.padded
  · simp only [Bool.false_eq_true, if_false, takeWhile_encode, List.length_map, ← Base64.encode_eq]
  · simp only [if_true, padding, four_dvd_length_encode]
    exact List.append_nil _

theorem mem_chars {c : Char} (h : c ∈ sp.chars bs) : c ∈ Base64.encode bs := by
  have hpad : sp.chars bs ++ padding (sp.chars bs).length = Base64.encode bs :=
    chars_append_padding
  rw [← hpad]
  exact List.mem_append_left _ h

theorem forall_mem_encode {p : Char → Prop} (hpad : p '=') (hdata : ∀ v < 64, p (encodeChar v))
    (hurl : ∀ v < 64, p (toUrlSafe (encodeChar v))) : ∀ c ∈ sp.encode bs, p c := by
  rw [encode_eq, List.forall_mem_map]
  intro c hc
  cases sp.urlSafe with
  | false => exact mem_encode_cases hpad hdata c (mem_chars hc)
  | true =>
    rcases mem_encode (mem_chars hc) with rfl | ⟨v, hv, rfl⟩
    · exact hpad
    · exact hurl v hv

theorem map_fromUrlSafe_encode :
    (sp.encode bs ++ padding (sp.encode bs).length).map fromUrlSafe = Base64.encode bs := by
  have hpad : (padding (sp.chars bs).length).map fromUrlSafe = padding (sp.chars bs).length := by
    rw [padding, List.map_replicate]
    rfl
  have hchars : ((sp.chars bs).map (if sp.urlSafe then toUrlSafe else id)).map fromUrlSafe =
      sp.chars bs := by
    rw [List.map_map]
    apply map_eq_self
    intro c hc
    have hback : ∀ c ∈ Base64.encode bs,
        (fromUrlSafe ∘ if sp.urlSafe then toUrlSafe else id) c = c := by
      cases sp.urlSafe with
      | false => exact mem_encode_cases rfl fun v hv => fromUrlSafe_encodeChar hv
      | true => exact mem_encode_cases rfl fun v hv => fromUrlSafe_toUrlSafe_encodeChar hv
    exact hback c (mem_chars hc)
  rw [encode_eq, List.length_map, List.map_append, hpad, hchars, chars_append_padding]

end Spelling

/-! ## What the strict decoder refuses -/

theorem decodeFrom_strict_mem {cs : List Char} {s : State} {bs : List UInt8}
    (h : decodeFrom true s cs = some bs) : ∀ c ∈ cs, c = '=' ∨ decodeChar c ≠ none := by
  induction cs generalizing s bs with
  | nil => exact List.forall_mem_nil _
  | cons c cs ih =>
    rw [List.forall_mem_cons]
    rw [decodeFrom] at h
    by_cases hc : c = '='
    · refine ⟨.inl hc, ?_⟩
      rw [if_pos hc] at h
      split at h
      · cases h
      split at h
      · split at h
        · cases h
        · next hcs =>
          rw [not_and, not_not] at hcs
          rw [hcs rfl]
          exact List.forall_mem_nil _
      · exact ih h
    · rw [if_neg hc] at h
      split at h
      · rw [if_pos rfl] at h
        cases h
      · next v hv =>
        split at h
        · cases h
        obtain ⟨bs', hbs, -⟩ := Option.map_eq_some_iff.1 h
        exact ⟨.inr (by rw [hv]; exact Option.some_ne_none v), ih hbs⟩

theorem State.push_quadPos {s : State} (hs : s.quadPos < 4) (v : Nat) :
    (s.push v).2.quadPos = (s.quadPos + 1) % 4 := by
  obtain ⟨q, l, p, b⟩ := s
  have hq : q = 0 ∨ q = 1 ∨ q = 2 ∨ q = 3 := by
    simp only at hs
    omega
  rcases hq with rfl | rfl | rfl | rfl <;> simp [State.push]

theorem decodeFrom_strict_length {cs : List Char} {s : State} {bs : List UInt8}
    (hs : s.quadPos < 4) (hne : ∀ c ∈ cs, c ≠ '=') (h : decodeFrom true s cs = some bs) :
    (s.quadPos + cs.length) % 4 = 0 := by
  induction cs generalizing s bs with
  | nil =>
    rw [decodeFrom] at h
    split_ifs at h with hq
    rw [hq]
    rfl
  | cons c cs ih =>
    rw [List.forall_mem_cons] at hne
    rw [decodeFrom, if_neg hne.1] at h
    split at h
    · rw [if_pos rfl] at h
      cases h
    · next v hv =>
      split at h
      · cases h
      obtain ⟨bs', hbs, -⟩ := Option.map_eq_some_iff.1 h
      have hq := State.push_quadPos hs v
      have hlen := ih (by omega) hne.2 hbs
      rw [List.length_cons]
      omega

namespace Spelling

variable {sp : Spelling} {bs bs' : List UInt8}

theorem eq_encode_of_strict (h : decode true (sp.encode bs) = some bs') :
    sp.encode bs = Base64.encode bs := by
  have hmem := decodeFrom_strict_mem h
  have halphabet : sp.encode bs = sp.chars bs := by
    rw [encode_eq] at hmem ⊢
    refine map_eq_self fun c hc => ?_
    cases hu : sp.urlSafe with
    | false => rfl
    | true =>
      rcases mem_encode (mem_chars hc) with rfl | ⟨v, hv, rfl⟩
      · rfl
      · have hin := hmem _ (List.mem_map_of_mem hc)
        rw [hu] at hin
        rcases toUrlSafe_cases (encodeChar v) with heq | ⟨hne, hnone⟩
        · exact heq
        · exact absurd hin (not_or.2 ⟨hne, not_not.2 hnone⟩)
  rw [halphabet] at h ⊢
  rw [chars] at h ⊢
  cases hp : sp.padded with
  | true => rfl
  | false =>
    simp only [hp, Bool.false_eq_true, if_false, takeWhile_encode] at h ⊢
    have hlen := decodeFrom_strict_length (show start.quadPos < 4 by decide)
      (fun c hc => encodeChar_ne_pad_of_mem hc) h
    have hpad : padding (sextets bs).length = [] := by
      rw [List.length_map, show start.quadPos = 0 from rfl, Nat.zero_add] at hlen
      rw [padding, hlen]
      rfl
    rw [Base64.encode_eq, hpad, List.append_nil]

theorem decode_strict_iff : decode true (sp.encode bs) = some bs' ↔
    sp.encode bs = Base64.encode bs ∧ bs' = bs := by
  constructor
  · intro h
    have heq := eq_encode_of_strict h
    rw [heq, decode_encode, Option.some.injEq] at h
    exact ⟨heq, h.symm⟩
  · rintro ⟨heq, rfl⟩
    rw [heq, decode_encode]

theorem ascii : ∀ c ∈ sp.encode bs, c.toNat < 128 :=
  forall_mem_encode (by decide) (fun _ => encodeChar_ascii)
    fun _ hv => toUrlSafe_ascii (encodeChar_ascii hv)

end Spelling

end Base64
