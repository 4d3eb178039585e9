import WikiBackend.Token.Service

/-! What the token service raises, and what it means that it accepts a token. -/

namespace WikiBackend

variable {α β : Type} {x y : Except Exc α} {f : α → Except Exc β} {L : Library}

theorem call_eq_ok {x : Except LibError α} {a : α} : call x = .ok a ↔ x = .ok a := by
  cases x with
  | error e => exact ⟨fun h => (nomatch h), fun h => (nomatch h)⟩
  | ok b => exact ⟨fun h => congrArg _ (Except.ok.inj h), fun h => congrArg _ (Except.ok.inj h)⟩

theorem exceptException_throw_eq_ok {e : Exc} {a : α} :
    exceptException x (throw e) = .ok a ↔ x = .ok a := by
  cases x with
  | error e => exact ⟨fun h => (nomatch h), fun h => (nomatch h)⟩
  | ok b => exact Iff.rfl

/-! ## The one domain error -/

def Rejects (x : Except Exc α) : Prop := ∀ e, x = .error (.app e) → Exc.app e = oauthCodeInvalid

theorem rejects_pure (a : α) : Rejects (pure a) := by
  rintro e ⟨⟩

theorem rejects_throw : Rejects (throw oauthCodeInvalid : Except Exc α) := by
  rintro e ⟨⟩
  rfl

theorem rejects_call (x : Except LibError α) : Rejects (call x) := by
  rintro e h
  cases x <;> cases h

theorem Rejects.bind (hx : Rejects x) (hf : ∀ a, x = .ok a → Rejects (f a)) : Rejects (x >>= f) := by
  intro e h
  cases hc : x with
  | error y =>
    rw [hc] at h
    cases h
    exact hx e hc
  | ok a =>
    rw [hc] at h
    exact hf a hc e h

theorem Rejects.tryCatch {h : Exc → Except Exc α} (hh : ∀ e, x = .error e → Rejects (h e)) :
    Rejects (tryCatch x h) := by
  intro e he
  cases hc : x with
  | error y =>
    rw [hc] at he
    exact hh y hc e he
  | ok a =>
    rw [hc] at he
    cases he

theorem Rejects.exceptValueError (hx : Rejects x) (hy : Rejects y) :
    Rejects (exceptValueError x y) := by
  apply Rejects.tryCatch
  intro e he
  split
  · exact hy
  · rintro e' ⟨⟩
    exact hx e' he

theorem Rejects.exceptException (hy : Rejects y) : Rejects (exceptException x y) :=
  .tryCatch fun _ _ => hy

theorem Rejects.ite {p : Prop} [Decidable p] (hx : Rejects x) (hy : Rejects y) :
    Rejects (if p then x else y) := by
  split
  · exact hx
  · exact hy

theorem rejects_parsePayload (text : String) : Rejects (parsePayload L text) := by
  apply Rejects.tryCatch
  intro e he
  split
  · refine .ite (.exceptValueError ?_ rejects_throw) rejects_throw
    exact (rejects_call _).bind fun _ _ => rejects_call _
  · rintro e' ⟨⟩
    exact rejects_call _ e' he

/-! ## The stages of the decryption -/

def ivOf (raw : Bytes) : Bytes := raw.take ivLength
def tagOf (raw : Bytes) : Bytes := (raw.drop ivLength).take hmacLength
def ciphertextOf (raw : Bytes) : Bytes := raw.drop (ivLength + hmacLength)

def signedOf (raw : Bytes) : Bytes := ciphertextOf raw ++ ivOf raw

theorem parts_append (raw : Bytes) : ivOf raw ++ tagOf raw ++ ciphertextOf raw = raw := by
  rw [ivOf, tagOf, ciphertextOf, List.append_assoc, ← List.drop_drop,
    List.take_append_drop, List.take_append_drop]

theorem parts_of_append {iv tag : Bytes} (ciphertext : Bytes) (hi : iv.length = ivLength)
    (ht : tag.length = hmacLength) :
    ivOf (iv ++ tag ++ ciphertext) = iv ∧ tagOf (iv ++ tag ++ ciphertext) = tag ∧
      ciphertextOf (iv ++ tag ++ ciphertext) = ciphertext := by
  refine ⟨?_, ?_, ?_⟩
  · rw [ivOf, List.append_assoc, List.take_left' hi]
  · rw [tagOf, List.append_assoc, List.drop_left' hi, List.take_left' ht]
  · rw [ciphertextOf, List.drop_left' (by rw [List.length_append, hi, ht])]

namespace TokenService

variable {svc : TokenService} {token : String}

def readPayload (L : Library) (padded : Bytes) : Except Exc Dict := do
  let plaintext ← exceptException (pkcs7Unpad padded) (throw oauthCodeInvalid)
  let text ← exceptException (call (decodeUtf8 plaintext)) (throw oauthCodeInvalid)
  match ← parsePayload L text with
  | .obj payload => return payload
  | _ => throw oauthCodeInvalid

theorem decrypt_eq :
    svc.decrypt L token = exceptException (b64decode L token) (throw oauthCodeInvalid) >>= fun raw =>
      if raw.length ≤ ivLength + hmacLength then throw oauthCodeInvalid
      else if L.hmacSha256 svc.key (signedOf raw) ≠ tagOf raw then throw oauthCodeInvalid
      else call (L.aesCbcDecrypt svc.key (ivOf raw) (ciphertextOf raw)) >>= readPayload L := by
  unfold decrypt
  apply bind_congr
  intro raw
  by_cases hl : raw.length ≤ ivLength + hmacLength
  · rw [if_pos hl, if_pos hl]
    rfl
  rw [if_neg hl, if_neg hl]
  by_cases ht : L.hmacSha256 svc.key (signedOf raw) = tagOf raw
  · rw [if_neg (not_not.2 ht)]
    exact if_neg (not_not.2 ht)
  · rw [if_pos ht]
    exact if_pos ht

theorem rejects_decrypt : Rejects (svc.decrypt L token) := by
  rw [decrypt_eq]
  apply (Rejects.exceptException rejects_throw).bind
  intro raw _
  refine .ite rejects_throw (.ite rejects_throw ((rejects_call _).bind fun padded _ => ?_))
  apply (Rejects.exceptException rejects_throw).bind
  intro plaintext _
  apply (Rejects.exceptException rejects_throw).bind
  intro text _
  apply (rejects_parsePayload text).bind
  intro v _
  cases v with
  | obj payload => exact rejects_pure payload
  | _ => exact rejects_throw

theorem decryptAndValidate_error {e : Exc} (h : svc.decryptAndValidate L token = .error e) :
    e = oauthCodeInvalid := by
  have hr : Rejects (svc.decrypt L token >>= fun payload => call (modelValidate L payload)) :=
    rejects_decrypt.bind fun _ _ => rejects_call _
  unfold decryptAndValidate at h
  cases hc : svc.decrypt L token >>= fun payload => call (modelValidate L payload) with
  | ok data =>
    simp only [hc] at h
    cases h
  | error y =>
    simp only [hc] at h
    cases y with
    | app e' =>
      cases h
      exact hr e' hc
    | lib e' =>
      cases h
      rfl

theorem checkTtl_error {now : Instant} {data : TokenPayload} {e : Exc}
    (h : svc.checkTtl now data = .error e) : e = oauthCodeInvalid := by
  unfold checkTtl at h
  split at h <;> cases h
  rfl

theorem verifyToken_error {now : Instant} {e : Exc} (h : svc.verifyToken L now token = .error e) :
    e = oauthCodeInvalid := by
  unfold verifyToken at h
  cases hd : svc.decryptAndValidate L token with
  | error y =>
    rw [hd] at h
    cases h
    exact decryptAndValidate_error hd
  | ok data =>
    rw [hd] at h
    exact checkTtl_error h

/-! ## Accepted tokens -/

theorem decryptAndValidate_eq_ok {data : TokenPayload} :
    svc.decryptAndValidate L token = .ok data ↔
      ∃ payload, svc.decrypt L token = .ok payload ∧ modelValidate L payload = .ok data := by
  have hbody : (svc.decrypt L token >>= fun payload => call (modelValidate L payload)) = .ok data ↔
      ∃ payload, svc.decrypt L token = .ok payload ∧ modelValidate L payload = .ok data := by
    simp only [bind_eq_ok, call_eq_ok]
  rw [← hbody]
  unfold decryptAndValidate
  cases hc : svc.decrypt L token >>= fun payload => call (modelValidate L payload) with
  | ok data' => exact Iff.rfl
  | error y =>
    cases y with
    | app e => exact ⟨fun h => (nomatch h), fun h => (nomatch h)⟩
    | lib e => exact ⟨fun h => (nomatch h), fun h => (nomatch h)⟩

theorem checkTtl_eq_ok {now : Instant} {data data' : TokenPayload} :
    svc.checkTtl now data = .ok data' ↔ data' = data ∧ unixTime now - data.createdAt ≤ svc.ttlSeconds := by
  unfold checkTtl
  constructor
  · intro h
    split at h <;> cases h
    rename_i hle
    exact ⟨rfl, Int.not_lt.1 hle⟩
  · rintro ⟨rfl, hle⟩
    exact if_neg (Int.not_lt.2 hle)

theorem verifyToken_eq_ok {now : Instant} {data : TokenPayload} :
    svc.verifyToken L now token = .ok data ↔
      svc.decryptAndValidate L token = .ok data ∧ unixTime now - data.createdAt ≤ svc.ttlSeconds := by
  unfold verifyToken
  rw [bind_eq_ok]
  constructor
  · rintro ⟨data', hd, h⟩
    obtain ⟨rfl, hle⟩ := checkTtl_eq_ok.1 h
    exact ⟨hd, hle⟩
  · rintro ⟨hd, hle⟩
    exact ⟨data, hd, checkTtl_eq_ok.2 ⟨rfl, hle⟩⟩

theorem decrypt_eq_ok {payload : Dict} :
    svc.decrypt L token = .ok payload ↔ ∃ raw padded, b64decode L token = .ok raw ∧
      ivLength + hmacLength < raw.length ∧ L.hmacSha256 svc.key (signedOf raw) = tagOf raw ∧
      L.aesCbcDecrypt svc.key (ivOf raw) (ciphertextOf raw) = .ok padded ∧
      readPayload L padded = .ok payload := by
  rw [decrypt_eq, bind_eq_ok]
  apply exists_congr
  intro raw
  rw [exceptException_throw_eq_ok]
  by_cases hl : raw.length ≤ ivLength + hmacLength
  · rw [if_pos hl]
    exact ⟨fun ⟨_, h⟩ => (nomatch h), fun ⟨_, _, h, _⟩ => absurd hl (Nat.not_le.2 h)⟩
  rw [if_neg hl]
  by_cases ht : L.hmacSha256 svc.key (signedOf raw) = tagOf raw
  · rw [if_neg (not_not.2 ht), bind_eq_ok]
    simp only [call_eq_ok, Nat.not_le.1 hl, ht, true_and, exists_and_left]
  · rw [if_pos ht]
    exact ⟨fun ⟨_, h⟩ => (nomatch h), fun ⟨_, _, _, h, _⟩ => absurd h ht⟩

theorem readPayload_eq_ok {padded : Bytes} {payload : Dict} :
    readPayload L padded = .ok payload ↔ ∃ plaintext text, pkcs7Unpad padded = .ok plaintext ∧
      decodeUtf8 plaintext = .ok text ∧ parsePayload L text = .ok (.obj payload) := by
  simp only [readPayload, bind_eq_ok, exceptException_throw_eq_ok, call_eq_ok]
  constructor
  · rintro ⟨plaintext, hu, text, hd, v, hp, h⟩
    cases v with
    | obj p =>
      cases h
      exact ⟨plaintext, text, hu, hd, hp⟩
    | _ => cases h
  · rintro ⟨plaintext, text, hu, hd, hp⟩
    exact ⟨plaintext, hu, text, hd, _, hp, rfl⟩

end TokenService

end WikiBackend
