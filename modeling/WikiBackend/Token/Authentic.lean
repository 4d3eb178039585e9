import WikiBackend.Token.RoundTrip

/-! Authentic tokens: those that were encrypted and tagged with the service's key, whatever
their payload. -/

namespace WikiBackend

open TokenService

def Encrypts (L : Library) (svc : TokenService) (text token : String) : Prop :=
  ∃ iv ciphertext, iv.length = ivLength ∧ ciphertext ≠ [] ∧
    b64decode L token =
      .ok (iv ++ L.hmacSha256 svc.key (ciphertext ++ iv) ++ ciphertext) ∧
    L.aesCbcDecrypt svc.key iv ciphertext = .ok (pkcs7Pad (encodeUtf8 text))

/-- The text is the JSON object itself, or a JWT with the object in its middle segment. -/
inductive Plaintext (L : Library) (payload : Dict) : String → Prop where
  | json {text : String} : L.jsonLoads text = .ok (.obj payload) → Plaintext L payload text
  | jwt {header segment signature : String} {bytes : Bytes} : '.' ∉ header.toList → '.' ∉ segment.toList →
      '.' ∉ signature.toList →
      L.jsonLoads (header ++ "." ++ segment ++ "." ++ signature) = .error .jsonDecodeError →
      L.urlsafeB64decode (padB64 segment) = .ok bytes →
      L.jsonLoadsBytes bytes = .ok (.obj payload) →
      Plaintext L payload (header ++ "." ++ segment ++ "." ++ signature)

section
variable {L : Library} {svc : TokenService} {payload : Dict} {text token : String} {now : Instant}
  {data : TokenPayload}

theorem takeWhile_ne_append {a : Char} {l l' : List Char} (h : a ∉ l) :
    (l ++ a :: l').takeWhile (· ≠ a) = l := by
  induction l with
  | nil => simp
  | cons b l ih =>
    have hb : b ≠ a := fun he => h (he ▸ List.mem_cons_self)
    rw [List.cons_append, List.takeWhile_cons_of_pos (by simpa using hb),
      ih fun hm => h (List.mem_cons_of_mem _ hm)]

theorem dropWhile_ne_append {a : Char} {l l' : List Char} (h : a ∉ l) :
    (l ++ a :: l').dropWhile (· ≠ a) = a :: l' := by
  induction l with
  | nil => simp
  | cons b l ih =>
    have hb : b ≠ a := fun he => h (he ▸ List.mem_cons_self)
    rw [List.cons_append, List.dropWhile_cons_of_pos (by simpa using hb),
      ih fun hm => h (List.mem_cons_of_mem _ hm)]

theorem payloadSegment_jwt {header segment signature : String} (hh : '.' ∉ header.toList)
    (hs : '.' ∉ segment.toList) :
    payloadSegment (header ++ "." ++ segment ++ "." ++ signature) = segment := by
  have htext : (header ++ "." ++ segment ++ "." ++ signature).toList =
      header.toList ++ '.' :: (segment.toList ++ '.' :: signature.toList) := by
    simp [String.toList_append]
  rw [payloadSegment, htext, dropWhile_ne_append hh, List.drop_one, List.tail_cons,
    takeWhile_ne_append hs, String.ofList_toList]

theorem count_dots_jwt {header segment signature : String} (hh : '.' ∉ header.toList)
    (hs : '.' ∉ segment.toList) (hg : '.' ∉ signature.toList) :
    (header ++ "." ++ segment ++ "." ++ signature).toList.count '.' = jwtDotCount := by
  simp [String.toList_append, List.count_append, List.count_eq_zero_of_not_mem, hh, hs, hg,
    jwtDotCount]

theorem parsePayload_of_plaintext (hp : Plaintext L payload text) :
    parsePayload L text = .ok (.obj payload) := by
  cases hp with
  | json h =>
    rw [parsePayload, h]
    rfl
  | @jwt _ segment _ bytes hh hs hg hj hd hb =>
    have hinner : (do
        let decoded ← call (L.urlsafeB64decode (padB64 segment))
        call (L.jsonLoadsBytes decoded)) = .ok (.obj payload) :=
      bind_eq_ok.2 ⟨bytes, call_eq_ok.2 hd, call_eq_ok.2 hb⟩
    rw [parsePayload, hj, count_dots_jwt hh hs hg, payloadSegment_jwt hh hs, hinner]
    rfl

theorem decrypt_of_encrypts (hL : L.Lawful) (he : Encrypts L svc text token)
    (hp : Plaintext L payload text) : svc.decrypt L token = .ok payload := by
  obtain ⟨iv, ciphertext, hiv, hne, hraw, hdec⟩ := he
  have htag := hL.hmacSha256_length svc.key (ciphertext ++ iv)
  obtain ⟨h₁, h₂, h₃⟩ := parts_of_append ciphertext hiv htag
  refine decrypt_eq_ok.2 ⟨_, _, hraw, ?_, ?_, by rw [h₁, h₃, hdec], ?_⟩
  · rw [List.length_append, List.length_append, hiv, htag]
    exact Nat.lt_add_of_pos_right (List.length_pos_iff.2 hne)
  · rw [signedOf, h₁, h₂, h₃]
  · exact readPayload_eq_ok.2 ⟨_, _, pkcs7Unpad_pkcs7Pad _, decodeUtf8_encodeUtf8 _,
      parsePayload_of_plaintext hp⟩

theorem verifyToken_of_encrypts (hL : L.Lawful) (he : Encrypts L svc text token)
    (hp : Plaintext L payload text) :
    svc.verifyToken L now token = .ok data ↔
      modelValidate L payload = .ok data ∧ unixTime now - data.createdAt ≤ svc.ttlSeconds := by
  rw [verifyToken_eq_ok, decryptAndValidate_eq_ok, decrypt_of_encrypts hL he hp]
  simp only [Except.ok.injEq, exists_eq_left']

/-- pydantic's lax mode: its table of integers, and nothing but strings for a string. -/
structure Library.Coerces (L : Library) : Prop where
  int : ∀ {v n}, L.validateInt v = .ok n ↔ Lax.asInt v = some n
  str : ∀ {v s}, L.validateStr v = .ok s ↔ v = .str s

theorem Library.Coerces.validates (hC : L.Coerces) : L.Validates :=
  ⟨fun _ => hC.int.2 rfl, fun _ => hC.str.2 rfl⟩

theorem coerces_recorded : recordedLibrary.Coerces :=
  ⟨Lax.validateInt_eq_ok, Lax.validateStr_eq_ok⟩

end

/-! ## Recorded tokens -/

structure Recording where
  payload : Dict
  text : String
  iv : Bytes
  ciphertext : Bytes
  tag : Bytes
  ivLength : iv.length = ivLength
  ciphertextLength : (pkcs7Pad (encodeUtf8 text)).length = ciphertext.length
  tagLength : tag.length = hmacLength

namespace Recording

variable (r : Recording)

def cipher (k iv data : Bytes) : Except LibError Bytes :=
  if data.length % 16 ≠ 0 then .error .valueError
  else if k = Recorded.key ∧ iv = r.iv then
    .ok (Equiv.swap (pkcs7Pad (encodeUtf8 r.text)) r.ciphertext data)
  else .ok data

def library : Library :=
  { recordedLibrary with
    hmacSha256 := fun k msg =>
      if k = Recorded.key ∧ msg = r.ciphertext ++ r.iv then r.tag else List.replicate hmacLength 0
    aesCbcEncrypt := r.cipher
    aesCbcDecrypt := r.cipher
    jsonDumps := fun _ => r.text
    jsonLoads := fun text =>
      if text = r.text then .ok (.obj r.payload) else .error .jsonDecodeError }

def token : String := b64encode (r.iv ++ r.tag ++ r.ciphertext)

def service : TokenService := .new r.library "local-app" "local-secret" 300

theorem service_key : r.service.key = Recorded.key := Recorded.service_key

theorem hmacSha256_eq : r.library.hmacSha256 r.service.key (r.ciphertext ++ r.iv) = r.tag := by
  rw [service_key]
  exact if_pos ⟨rfl, rfl⟩

theorem lawful : r.library.Lawful where
  sha256_length := Recorded.lawful.sha256_length
  hmacSha256_length k msg := by
    simp only [library]
    split_ifs
    · exact r.tagLength
    · exact List.length_replicate
  aesCbc {k iv data} _ _ h16 := by
    have hmod {data : Bytes} (h : 16 ∣ data.length) : ¬data.length % 16 ≠ 0 :=
      not_not.2 (Nat.mod_eq_zero_of_dvd h)
    simp only [library, cipher, if_neg (hmod h16)]
    split_ifs
    · obtain ⟨hl, hs⟩ := Recorded.swap_swap_length data r.ciphertextLength
      exact ⟨_, rfl, hl, by rw [if_neg (hmod (hl ▸ h16)), hs]⟩
    · exact ⟨_, rfl, rfl, by rw [if_neg (hmod h16)]⟩
  b64decodeValidate := rfl

theorem coerces : r.library.Coerces := ⟨coerces_recorded.int, coerces_recorded.str⟩

theorem encrypts : Encrypts r.library r.service r.text r.token := by
  have h16 : 16 ∣ r.ciphertext.length := r.ciphertextLength ▸ dvd_length_pkcs7Pad _
  have hne : r.ciphertext ≠ [] := by
    intro h
    have hlen := r.ciphertextLength
    rw [h, pkcs7Pad, List.length_append, List.length_replicate, List.length_nil] at hlen
    omega
  refine ⟨r.iv, r.ciphertext, r.ivLength, hne, ?_, ?_⟩
  · rw [hmacSha256_eq]
    exact b64decode_b64encode rfl _
  · rw [service_key]
    simp only [library, cipher, if_neg (not_not.2 (Nat.mod_eq_zero_of_dvd h16)), and_self, if_true,
      Equiv.swap_apply_right]

theorem jsonLoads_text : r.library.jsonLoads r.text = .ok (.obj r.payload) := by
  simp only [library, if_true]

theorem plaintext : Plaintext r.library r.payload r.text := .json r.jsonLoads_text

end Recording

end WikiBackend
