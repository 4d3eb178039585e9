import Mathlib.Data.Set.Function
import WikiBackend.Token.RoundTrip

/-! Integrity of tokens. Two decoded tokens with one tag, or with one iv and
ciphertext, are the same bytes, so nothing made from issued tokens is accepted
unless it is one of them. -/

namespace WikiBackend

variable {L : Library} {key : Bytes} {raw : Bytes}

structure IssuedToken where
  iv : Bytes
  ciphertext : Bytes
  ivLength : iv.length = ivLength

namespace IssuedToken

variable (t : IssuedToken)

def signed : Bytes := t.ciphertext ++ t.iv

def tag (L : Library) (key : Bytes) : Bytes := L.hmacSha256 key t.signed

def bytes (L : Library) (key : Bytes) : Bytes := t.iv ++ t.tag L key ++ t.ciphertext

end IssuedToken

theorem eq_bytes_of_signed {t : IssuedToken} (hl : ivLength + hmacLength < raw.length)
    (htag : L.hmacSha256 key (signedOf raw) = tagOf raw) (h : signedOf raw = t.signed) :
    raw = t.bytes L key := by
  have hiv : (ivOf raw).length = t.iv.length := by
    rw [ivOf, List.length_take, t.ivLength, Nat.min_eq_left (by omega)]
  obtain ⟨hc, hi⟩ := List.append_inj' h hiv
  calc raw = ivOf raw ++ tagOf raw ++ ciphertextOf raw := (parts_append raw).symm
    _ = t.bytes L key := by rw [hi, hc, ← htag, h]; rfl

variable {svc : TokenService} {token : String} {payload : Dict}

theorem eq_bytes_of_decrypt {S : Set Bytes} (hinj : S.InjOn (L.hmacSha256 svc.key))
    {t : IssuedToken} (ht : t.signed ∈ S) (hb : b64decode L token = .ok raw)
    (hraw : signedOf raw ∈ S) (h : svc.decrypt L token = .ok payload)
    (hpart : tagOf raw = t.tag L svc.key ∨ ivOf raw = t.iv ∧ ciphertextOf raw = t.ciphertext) :
    raw = t.bytes L svc.key := by
  obtain ⟨raw', _, hb', hl, htag, -, -⟩ := TokenService.decrypt_eq_ok.1 h
  cases hb.symm.trans hb'
  apply eq_bytes_of_signed hl htag
  rcases hpart with hp | ⟨hi, hc⟩
  · exact hinj hraw ht (htag.trans hp)
  · rw [signedOf, hc, hi, IssuedToken.signed]

theorem decrypt_forged {S : Set Bytes} (hinj : S.InjOn (L.hmacSha256 svc.key)) {t : IssuedToken}
    (ht : t.signed ∈ S) {iv tag ciphertext : Bytes} (hiv : iv.length = ivLength)
    (htag : tag.length = hmacLength) (hb : b64decode L token = .ok (iv ++ tag ++ ciphertext))
    (hraw : ciphertext ++ iv ∈ S)
    (hforged : tag = t.tag L svc.key ∧ (iv ≠ t.iv ∨ ciphertext ≠ t.ciphertext) ∨
      (iv = t.iv ∧ ciphertext = t.ciphertext) ∧ tag ≠ t.tag L svc.key) :
    svc.decrypt L token ≠ .ok payload := by
  intro h
  obtain ⟨hi, hg, hc⟩ := parts_of_append ciphertext hiv htag
  have hraw' : signedOf (iv ++ tag ++ ciphertext) ∈ S := by rwa [signedOf, hi, hc]
  have hpart : tagOf (iv ++ tag ++ ciphertext) = t.tag L svc.key ∨
      ivOf (iv ++ tag ++ ciphertext) = t.iv ∧
        ciphertextOf (iv ++ tag ++ ciphertext) = t.ciphertext := by
    rw [hi, hg, hc]
    exact hforged.imp And.left And.left
  have he := eq_bytes_of_decrypt hinj ht hb hraw' h hpart
  rw [IssuedToken.bytes, List.append_assoc, List.append_assoc] at he
  obtain ⟨he₁, he₂⟩ := List.append_inj he (hiv.trans t.ivLength.symm)
  rcases hforged with ⟨rfl, hne⟩ | ⟨⟨-, rfl⟩, hne⟩
  · exact hne.elim (· he₁) (· (List.append_cancel_left he₂))
  · exact hne (List.append_cancel_right he₂)

/-- Nothing made from the parts of issued tokens is accepted, except these tokens themselves.
The second part names the forgeries: a changed iv or ciphertext of any length, a changed tag,
and a splice of three issued tokens. -/
theorem token_integrity {issued : Set IssuedToken} {S : Set Bytes}
    (hinj : S.InjOn (L.hmacSha256 svc.key)) (hissued : ∀ t ∈ issued, t.signed ∈ S) :
    (∀ token raw payload, b64decode L token = .ok raw → signedOf raw ∈ S →
      svc.decrypt L token = .ok payload → ∀ t ∈ issued,
      tagOf raw = t.tag L svc.key ∨ ivOf raw = t.iv ∧ ciphertextOf raw = t.ciphertext →
      raw = t.bytes L svc.key) ∧
    ∀ token iv tag ciphertext, iv.length = ivLength → tag.length = hmacLength →
      b64decode L token = .ok (iv ++ tag ++ ciphertext) → ciphertext ++ iv ∈ S →
      ((∃ t ∈ issued, iv ≠ t.iv ∧ tag = t.tag L svc.key ∧ ciphertext = t.ciphertext) ∨
        (∃ t ∈ issued, iv = t.iv ∧ tag ≠ t.tag L svc.key ∧ ciphertext = t.ciphertext) ∨
        (∃ t ∈ issued, iv = t.iv ∧ tag = t.tag L svc.key ∧ ciphertext ≠ t.ciphertext) ∨
        ∃ t₁ ∈ issued, ∃ t₂ ∈ issued, ∃ t₃ ∈ issued, iv = t₁.iv ∧ tag = t₂.tag L svc.key ∧
          ciphertext = t₃.ciphertext ∧ ∀ t ∈ issued, iv ++ tag ++ ciphertext ≠ t.bytes L svc.key) →
      ∀ payload, svc.decrypt L token ≠ .ok payload := by
  constructor
  · intro token raw payload hb hraw h t ht hpart
    exact eq_bytes_of_decrypt hinj (hissued t ht) hb hraw h hpart
  · rintro token iv tag ciphertext hiv htag hb hraw
      (⟨t, ht, hi, hg, -⟩ | ⟨t, ht, hi, hg, hc⟩ | ⟨t, ht, -, hg, hc⟩ |
        ⟨t₁, -, t₂, ht, t₃, -, -, hg, -, hne⟩) payload
    · exact decrypt_forged hinj (hissued t ht) hiv htag hb hraw (.inl ⟨hg, .inl hi⟩)
    · exact decrypt_forged hinj (hissued t ht) hiv htag hb hraw (.inr ⟨⟨hi, hc⟩, hg⟩)
    · exact decrypt_forged hinj (hissued t ht) hiv htag hb hraw (.inl ⟨hg, .inr hc⟩)
    · refine decrypt_forged hinj (hissued t₂ ht) hiv htag hb hraw (.inl ⟨hg, ?_⟩)
      by_contra hsame
      obtain ⟨rfl, rfl⟩ : iv = t₂.iv ∧ ciphertext = t₂.ciphertext := by simpa using hsame
      exact hne t₂ ht (by rw [hg, IssuedToken.bytes])

namespace Recorded

def issued₁ : IssuedToken := ⟨iv₁, ciphertext₁, rfl⟩

def issued₂ : IssuedToken := ⟨iv₂, ciphertext₂, rfl⟩

def messages : List Bytes := [issued₁.signed, issued₂.signed, ciphertext₂ ++ iv₁]

theorem hmacSha256_injOn :
    Set.InjOn (recordedLibrary.hmacSha256 service.key) {m | m ∈ messages} := by
  have h : ∀ m ∈ messages, ∀ m' ∈ messages, recordedLibrary.hmacSha256 service.key m =
      recordedLibrary.hmacSha256 service.key m' → m = m' := by decide +kernel
  exact fun m hm m' hm' => h m hm m' hm'

end Recorded

open Recorded in
theorem token_integrity_recorded :
    ∃ e, service.decrypt recordedLibrary (b64encode (iv₁ ++ tag₂ ++ ciphertext₂)) = .error e := by
  have hissued : ∀ t ∈ ({issued₁, issued₂} : Set IssuedToken), t.signed ∈ {m | m ∈ messages} := by
    rintro t (rfl | rfl)
    · exact List.mem_cons_self
    · exact List.mem_cons_of_mem _ List.mem_cons_self
  have htag : tag₂ = issued₂.tag recordedLibrary service.key := by
    rw [IssuedToken.tag, service_key]
    decide +kernel
  have hrejected := (token_integrity hmacSha256_injOn hissued).2 _ iv₁ tag₂ ciphertext₂ rfl rfl
    (b64decode_b64encode lawful.b64decodeValidate _) (by decide +kernel)
    (.inl ⟨issued₂, .inr rfl, by decide, htag, rfl⟩)
  cases h : service.decrypt recordedLibrary (b64encode (iv₁ ++ tag₂ ++ ciphertext₂)) with
  | error e => exact ⟨e, rfl⟩
  | ok payload => exact absurd h (hrejected payload)

/-! ## The issuer -/

theorem xor_ne_self (b : UInt8) : b ^^^ 0xff ≠ b := by
  intro h
  have hb : b ^^^ (b ^^^ 0xff) = b ^^^ b := congrArg (b ^^^ ·) h
  rw [← UInt8.xor_assoc, UInt8.xor_self, UInt8.zero_xor] at hb
  exact absurd hb (by decide)

theorem decrypt_tamperHmac {t : IssuedToken} (hL : L.Lawful) (hc : t.ciphertext ≠ [])
    (h : tamperHmac L (b64encode (t.bytes L svc.key)) = .ok token) :
    svc.decrypt L token ≠ .ok payload := by
  have htag : (t.tag L svc.key).length = hmacLength := hL.hmacSha256_length _ _
  have hlen : ¬(t.bytes L svc.key).length ≤ ivLength + hmacLength := by
    rw [IssuedToken.bytes, List.length_append, List.length_append, t.ivLength, htag]
    have hpos : 0 < t.ciphertext.length := List.length_pos_iff.2 hc
    omega
  obtain ⟨b, bs, hbs⟩ := List.exists_cons_of_ne_nil
    (List.length_pos_iff.1 (htag ▸ (by decide : 0 < hmacLength)))
  have hmod : (t.bytes L svc.key).modify ivLength (· ^^^ 0xff) =
      t.iv ++ (b ^^^ 0xff) :: bs ++ t.ciphertext := by
    rw [IssuedToken.bytes, hbs, List.append_assoc, List.modify_eq_take_drop,
      List.take_left' t.ivLength, List.drop_left' t.ivLength, List.append_assoc]
    rfl
  simp only [tamperHmac, hL.b64decodeValidate, stdB64decodeValidate_b64encode, hlen, if_false,
    hmod] at h
  cases h
  refine decrypt_forged (S := {t.signed}) (Set.injOn_singleton _ _) rfl t.ivLength ?_
    (b64decode_b64encode hL.b64decodeValidate _) rfl (.inr ⟨⟨rfl, rfl⟩, ?_⟩)
  · rw [← htag, hbs, List.length_cons, List.length_cons]
  · rw [hbs]
    exact fun he => xor_ne_self b (List.cons.inj he).1

end WikiBackend
