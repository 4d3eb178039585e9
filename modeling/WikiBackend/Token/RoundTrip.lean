import WikiBackend.Token.Mock
import WikiBackend.Token.Rejection

/-! The issuer and the verifier agree: what one encrypts the other reads back. -/

namespace WikiBackend

/-! ## Padding and base64 -/

theorem stripChars_eq_self {cs : List Char} (h : ∀ c ∈ cs, isSpace c = false) :
    stripChars cs = cs := by
  have drop {l : List Char} (hl : ∀ c ∈ l, isSpace c = false) : l.dropWhile isSpace = l := by
    cases l with
    | nil => rfl
    | cons c l => rw [List.dropWhile_cons_of_neg (by simp [hl c List.mem_cons_self])]
  rw [stripChars, trimChars, drop h, drop fun c hc => h c (List.mem_reverse.1 hc), List.reverse_reverse]

theorem isSpace_encodeChar : ∀ v : Fin 64, isSpace (Base64.encodeChar v) = false := by decide +kernel

theorem strip_b64encode (data : Bytes) : strip (b64encode data) = b64encode data := by
  rw [strip, b64encode, String.toList_ofList, stripChars_eq_self]
  intro c hc
  rcases Base64.mem_encode hc with rfl | ⟨v, hv, rfl⟩
  · decide
  · exact isSpace_encodeChar ⟨v, hv⟩

theorem b64decode_b64encode {L : Library} (hb : L.b64decodeValidate = stdB64decodeValidate)
    (data : Bytes) : b64decode L (b64encode data) = .ok data := by
  rw [b64decode, strip_b64encode, hb, stdB64decodeValidate_b64encode]
  rfl

theorem pkcs7Unpad_pkcs7Pad (data : Bytes) : pkcs7Unpad (pkcs7Pad data) = .ok data := by
  have h1 : 1 ≤ 16 - data.length % 16 := by omega
  have h16 : 16 - data.length % 16 ≤ 16 := by omega
  rw [pkcs7Pad]
  generalize 16 - data.length % 16 = n at h1 h16
  have hn : (UInt8.ofNat n).toNat = n := UInt8.toNat_ofNat_of_lt' (show n < 256 by omega)
  have hlast : (data ++ List.replicate n (UInt8.ofNat n)).getLast? = some (UInt8.ofNat n) := by
    rw [List.getLast?_append, List.getLast?_replicate, if_neg (by omega), Option.some_or]
  have hlen : (data ++ List.replicate n (UInt8.ofNat n)).length - n = data.length := by simp
  simp only [pkcs7Unpad, hlast, hn, lastBytes, dropLastBytes, hlen, List.drop_left, List.take_left]
  rw [if_neg (by simp only [ivLength]; omega), if_neg (not_not.2 rfl)]
  rfl

theorem dvd_length_pkcs7Pad (data : Bytes) : 16 ∣ (pkcs7Pad data).length := by
  rw [pkcs7Pad, List.length_append, List.length_replicate]
  omega

/-! ## Encryption and decryption -/

open TokenService

/-- What the verifier relies on in the libraries it calls: a cipher that inverts itself on
whole blocks, digests of 32 bytes, and RFC 4648 base64. -/
structure Library.Lawful (L : Library) : Prop where
  sha256_length : ∀ data, (L.sha256 data).length = 32
  hmacSha256_length : ∀ key msg, (L.hmacSha256 key msg).length = hmacLength
  aesCbc : ∀ {key iv data}, key.length = 32 → iv.length = ivLength → 16 ∣ data.length →
    ∃ ciphertext, L.aesCbcEncrypt key iv data = .ok ciphertext ∧
      ciphertext.length = data.length ∧ L.aesCbcDecrypt key iv ciphertext = .ok data
  b64decodeValidate : L.b64decodeValidate = stdB64decodeValidate

variable {L : Library} {env : Environ} {applicationId secretKey : String} {ttlSeconds : Int}
  {payload : Dict} {iv urandom : Bytes}

theorem parsePayload_jsonDumps
    (hjson : L.jsonLoads (L.jsonDumps (.obj payload)) = .ok (.obj payload)) :
    parsePayload L (L.jsonDumps (.obj payload)) = .ok (.obj payload) := by
  rw [parsePayload, hjson]
  rfl

theorem readPayload_jsonDumps
    (hjson : L.jsonLoads (L.jsonDumps (.obj payload)) = .ok (.obj payload)) :
    readPayload L (pkcs7Pad (encodeUtf8 (L.jsonDumps (.obj payload)))) = .ok payload := by
  exact readPayload_eq_ok.2 ⟨_, _, pkcs7Unpad_pkcs7Pad _, decodeUtf8_encodeUtf8 _,
    parsePayload_jsonDumps hjson⟩

theorem encryptPayload_fixedIv (ttlSeconds : Int) (hid : env "OAUTH_NAME_APPLICATION_ID" = some applicationId)
    (hsk : env "OAUTH_NAME_SECRET_KEY" = some secretKey) (hiv : iv.length = ivLength) :
    encryptPayload L env payload (some iv) urandom = (do
      let key := (TokenService.new L applicationId secretKey ttlSeconds).key
      let ciphertext ← L.aesCbcEncrypt key iv (pkcs7Pad (encodeUtf8 (L.jsonDumps (.obj payload))))
      return b64encode (iv ++ L.hmacSha256 key (ciphertext ++ iv) ++ ciphertext)) := by
  have hne : iv.isEmpty = false := by
    cases iv with
    | nil => cases hiv
    | cons => rfl
  simp only [encryptPayload, getenv, hid, hsk, hne, Option.getD_some]
  rfl

theorem decrypt_b64encode {svc : TokenService} {ciphertext padded : Bytes} (hL : L.Lawful)
    (hiv : iv.length = ivLength) (hne : ciphertext ≠ [])
    (hdec : L.aesCbcDecrypt svc.key iv ciphertext = .ok padded)
    (hread : readPayload L padded = .ok payload) :
    svc.decrypt L (b64encode (iv ++ L.hmacSha256 svc.key (ciphertext ++ iv) ++ ciphertext)) =
      .ok payload := by
  have htag := hL.hmacSha256_length svc.key (ciphertext ++ iv)
  obtain ⟨h₁, h₂, h₃⟩ := parts_of_append ciphertext hiv htag
  refine decrypt_eq_ok.2 ⟨_, padded, b64decode_b64encode hL.b64decodeValidate _, ?_, ?_, ?_, hread⟩
  · rw [List.length_append, List.length_append, hiv, htag]
    exact Nat.lt_add_of_pos_right (List.length_pos_iff.2 hne)
  · rw [signedOf, h₁, h₂, h₃]
  · rw [h₁, h₃, hdec]

theorem decrypt_encryptPayload (urandom : Bytes) (hL : L.Lawful)
    (hid : env "OAUTH_NAME_APPLICATION_ID" = some applicationId)
    (hsk : env "OAUTH_NAME_SECRET_KEY" = some secretKey) (hiv : iv.length = ivLength)
    (hjson : L.jsonLoads (L.jsonDumps (.obj payload)) = .ok (.obj payload)) :
    ∃ token, encryptPayload L env payload (some iv) urandom = .ok token ∧
      (TokenService.new L applicationId secretKey ttlSeconds).decrypt L token = .ok payload := by
  obtain ⟨ciphertext, henc, hlen, hdec⟩ :=
    hL.aesCbc (hL.sha256_length (encodeUtf8 (applicationId ++ ":" ++ secretKey))) hiv
      (dvd_length_pkcs7Pad (encodeUtf8 (L.jsonDumps (.obj payload))))
  have hne : ciphertext ≠ [] := by
    rintro rfl
    simp only [pkcs7Pad, List.length_append, List.length_replicate, List.length_nil] at hlen
    omega
  refine ⟨_, ?_, decrypt_b64encode hL hiv hne hdec (readPayload_jsonDumps hjson)⟩
  rw [encryptPayload_fixedIv ttlSeconds hid hsk hiv]
  exact (congrArg (· >>= _) henc)

/-! ## Validation -/

structure Library.Validates (L : Library) : Prop where
  int : ∀ n, L.validateInt (.int n) = .ok n
  str : ∀ s, L.validateStr (.str s) = .ok s

/-- The payload holds exactly these values; a field with a default may be absent. -/
structure Describes (payload : Dict) (data : TokenPayload) : Prop where
  telegramId : payload.lookup "telegram_id" = some (.int data.telegramId)
  username : payload.lookup "username" = some (optStr data.username)
  createdAt : payload.lookup "created_at" = some (.int data.createdAt)
  firstName : payload.lookup "first_name" = some (optStr data.firstName) ∨
    payload.lookup "first_name" = none ∧ data.firstName = none
  lastName : payload.lookup "last_name" = some (optStr data.lastName) ∨
    payload.lookup "last_name" = none ∧ data.lastName = none
  photoUrl : payload.lookup "photo_url" = some (optStr data.photoUrl) ∨
    payload.lookup "photo_url" = none ∧ data.photoUrl = none
  permission : payload.lookup "permission" = some (optStr data.permission) ∨
    payload.lookup "permission" = none ∧ data.permission = none

theorem requiredField_eq {α : Type} {name : String} {v : Json} {a : α}
    {validate : Json → Except LibError α} (h : payload.lookup name = some v)
    (hv : validate v = .ok a) : requiredField payload name validate = .ok a := by
  rw [requiredField, h]
  exact hv

theorem validateOptStr_optStr (hV : L.Validates) (v : Option PyStr) :
    validateOptStr L (optStr v) = .ok v := by
  cases v with
  | none => rfl
  | some s => simp only [optStr, validateOptStr, hV.str]; rfl

theorem defaultField_eq (hV : L.Validates) {name : String} {v : Option PyStr}
    (h : payload.lookup name = some (optStr v) ∨ payload.lookup name = none ∧ v = none) :
    defaultField payload name none (validateOptStr L) = .ok v := by
  rcases h with h | ⟨h, rfl⟩
  · rw [defaultField, h]
    exact validateOptStr_optStr hV v
  · rw [defaultField, h]

theorem modelValidate_of_describes {data : TokenPayload} (hV : L.Validates)
    (h : Describes payload data) : modelValidate L payload = .ok data := by
  rw [modelValidate, requiredField_eq h.telegramId (hV.int _),
    requiredField_eq h.username (validateOptStr_optStr hV _),
    requiredField_eq h.createdAt (hV.int _), defaultField_eq hV h.firstName,
    defaultField_eq hV h.lastName, defaultField_eq hV h.photoUrl, defaultField_eq hV h.permission]
  rfl

theorem verifyToken_of_decrypt {svc : TokenService} {token : String} {data : TokenPayload}
    {now : Instant} (hdec : svc.decrypt L token = .ok payload)
    (hval : modelValidate L payload = .ok data) (ht : unixTime now - data.createdAt ≤ svc.ttlSeconds) :
    svc.verifyToken L now token = .ok data := by
  have hd : svc.decryptAndValidate L token = .ok data := by
    rw [decryptAndValidate, hdec]
    exact congrArg (tryCatch · _) (call_eq_ok.2 hval)
  rw [verifyToken, hd]
  exact if_neg (Int.not_lt.2 ht)

/-- A token of the issuer, under the secrets it shares with the verifier, decrypts to its
payload, and is accepted with the payload's values while it is not older than the limit. -/
theorem issuer_verifier_round_trip (hL : L.Lawful) (hV : L.Validates)
    (hid : env "OAUTH_NAME_APPLICATION_ID" = some applicationId)
    (hsk : env "OAUTH_NAME_SECRET_KEY" = some secretKey) (hiv : iv.length = ivLength)
    (hjson : L.jsonLoads (L.jsonDumps (.obj payload)) = .ok (.obj payload)) :
    ∃ token, encryptPayload L env payload (some iv) urandom = .ok token ∧
      (TokenService.new L applicationId secretKey ttlSeconds).decrypt L token = .ok payload ∧
      ∀ data now, Describes payload data → unixTime now - data.createdAt ≤ ttlSeconds →
        (TokenService.new L applicationId secretKey ttlSeconds).verifyToken L now token =
          .ok data := by
  obtain ⟨token, henc, hdec⟩ := decrypt_encryptPayload urandom hL hid hsk hiv hjson
  exact ⟨token, henc, hdec, fun data now h ht =>
    verifyToken_of_decrypt hdec (modelValidate_of_describes hV h) ht⟩

/-! ## The recorded calls -/

namespace Recorded

theorem swap_swap_length {a b : Bytes} (data : Bytes) (h : a.length = b.length) :
    (Equiv.swap a b data).length = data.length ∧ Equiv.swap a b (Equiv.swap a b data) = data := by
  refine ⟨?_, Equiv.congr_fun (Equiv.swap_swap a b) data⟩
  rw [Equiv.swap_apply_def]
  split_ifs with ha hb
  · rw [ha, h]
  · rw [hb, h]
  · rfl

theorem length₁ : (pkcs7Pad (encodeUtf8 text₁)).length = ciphertext₁.length := by decide +kernel

theorem length₂ : (pkcs7Pad (encodeUtf8 text₂)).length = ciphertext₂.length := by decide +kernel

theorem lawful : recordedLibrary.Lawful where
  sha256_length data := by
    simp only [recordedLibrary]
    split_ifs <;> rfl
  hmacSha256_length k msg := by
    simp only [recordedLibrary]
    split_ifs <;> rfl
  aesCbc {k iv data} _ _ h16 := by
    have hmod {data : Bytes} (h : 16 ∣ data.length) : ¬data.length % 16 ≠ 0 :=
      not_not.2 (Nat.mod_eq_zero_of_dvd h)
    simp only [recordedLibrary, recordedLibrary.cipher, if_neg (hmod h16)]
    split_ifs with h₁ h₂
    · obtain ⟨hl, hs⟩ := swap_swap_length data length₁
      exact ⟨_, rfl, hl, by rw [if_neg (hmod (hl ▸ h16)), hs]⟩
    · obtain ⟨hl, hs⟩ := swap_swap_length data length₂
      exact ⟨_, rfl, hl, by rw [if_neg (hmod (hl ▸ h16)), hs]⟩
    · exact ⟨_, rfl, rfl, by rw [if_neg (hmod h16)]⟩
  b64decodeValidate := rfl

theorem validates : recordedLibrary.Validates := ⟨fun _ => rfl, fun _ => rfl⟩

def environ : Environ := fun name =>
  if name = "OAUTH_NAME_APPLICATION_ID" then some "local-app"
  else if name = "OAUTH_NAME_SECRET_KEY" then some "local-secret"
  else none

abbrev service : TokenService := .new recordedLibrary "local-app" "local-secret" 300

theorem service_key : service.key = key := by decide +kernel

end Recorded

open Recorded in
theorem issuer_verifier_round_trip_recorded :
    ∃ token, encryptPayload recordedLibrary environ payload₁ (some iv₁) [] = .ok token ∧
      service.decrypt recordedLibrary token = .ok payload₁ ∧
      ∀ data now, Describes payload₁ data → unixTime now - data.createdAt ≤ 300 →
        service.verifyToken recordedLibrary now token = .ok data :=
  issuer_verifier_round_trip lawful validates rfl rfl rfl rfl

namespace Recorded

def data₁ : TokenPayload := ⟨42, some "ada", 1700000000, none, none, none, none⟩

theorem describes₁ : Describes payload₁ data₁ :=
  ⟨rfl, rfl, rfl, .inr ⟨rfl, rfl⟩, .inr ⟨rfl, rfl⟩, .inr ⟨rfl, rfl⟩, .inr ⟨rfl, rfl⟩⟩

theorem decrypt₁ : service.decrypt recordedLibrary token₁ = .ok payload₁ := by
  have htag : recordedLibrary.hmacSha256 service.key (ciphertext₁ ++ iv₁) = tag₁ := by
    rw [service_key]
    simp only [recordedLibrary, and_self, if_true]
  have hdec : recordedLibrary.aesCbcDecrypt service.key iv₁ ciphertext₁ =
      .ok (pkcs7Pad (encodeUtf8 text₁)) := by
    rw [service_key]
    exact congrArg Except.ok (Equiv.swap_apply_right _ _)
  have hread : readPayload recordedLibrary
      (pkcs7Pad (encodeUtf8 (recordedLibrary.jsonDumps (.obj payload₁)))) = .ok payload₁ :=
    readPayload_jsonDumps rfl
  rw [token₁, ← htag]
  exact decrypt_b64encode lawful rfl nofun hdec hread

theorem verifyToken₁ {now : Instant} (h : unixTime now - 1700000000 ≤ 300) :
    service.verifyToken recordedLibrary now token₁ = .ok data₁ :=
  verifyToken_of_decrypt decrypt₁ (modelValidate_of_describes validates describes₁) h

end Recorded

end WikiBackend
