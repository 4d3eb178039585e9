import Mathlib.Data.List.DropRight
import WikiBackend.Token.Agreement
import WikiBackend.Token.Integrity
import WikiBackend.Token.Payloads

/-! The example tokens of the issuer, and what the service makes of each of them. -/

namespace WikiBackend

/-! ## Environment values -/

theorem isSpace_of_isWhiteSpace {c : Char} (h : isWhiteSpace c) : isSpace c := by
  rw [isSpace, h, Bool.true_or]

theorem trimChars_append {space : Char → Bool} {front cs back : List Char} (hne : cs ≠ [])
    (hfront : ∀ c ∈ front, space c) (hcs : ∀ c ∈ cs, ¬space c) (hback : ∀ c ∈ back, space c) :
    trimChars space (front ++ cs ++ back) = cs := by
  have hdrop {cs back : List Char} (hne : cs ≠ []) (hcs : ∀ c ∈ cs, ¬space c) :
      (cs ++ back).dropWhile space = cs ++ back := by
    obtain ⟨c, cs, rfl⟩ := List.exists_cons_of_ne_nil hne
    exact List.dropWhile_cons_of_neg (hcs c List.mem_cons_self)
  have hreverse : (cs ++ back).reverse.dropWhile space = cs.reverse := by
    have hne' : cs.reverse ≠ [] := List.reverse_ne_nil_iff.2 hne
    rw [List.reverse_append,
      List.dropWhile_append_of_pos fun c hc => hback c (List.mem_reverse.1 hc)]
    have h : (cs.reverse ++ []).dropWhile space = cs.reverse ++ [] :=
      hdrop hne' fun c hc => hcs c (List.mem_reverse.1 hc)
    rwa [List.append_nil] at h
  rw [trimChars, List.append_assoc, List.dropWhile_append_of_pos hfront, hdrop hne hcs, hreverse,
    List.reverse_reverse]

theorem exists_trimChars (space : Char → Bool) (cs : List Char) :
    ∃ front back, cs = front ++ trimChars space cs ++ back ∧ (∀ c ∈ front, space c) ∧
      ∀ c ∈ back, space c := by
  refine ⟨cs.takeWhile space, (cs.dropWhile space).rtakeWhile space, ?_, ?_, ?_⟩
  · have htrim : trimChars space cs = (cs.dropWhile space).rdropWhile space := rfl
    rw [htrim, List.append_assoc, List.rdropWhile_append_rtakeWhile, List.takeWhile_append_dropWhile]
  · exact fun c hc => List.mem_takeWhile_imp hc
  · exact fun c hc => List.mem_rtakeWhile_imp hc

theorem not_isSpace_of_digitValue {c : Char} {n : Nat} (h : digitValue c = some n) :
    ¬isSpace c := by
  obtain ⟨z, hfind, -⟩ := Option.map_eq_some_iff.1 h
  have hrange : z ≤ c.toNat ∧ c.toNat < z + 10 := by simpa using List.find?_some hfind
  have hdigits : ∀ z ∈ digitZeros, ∀ k < 10, ¬isSpace (Char.ofNat (z + k)) := by decide +kernel
  have hc : Char.ofNat (z + (c.toNat - z)) = c := by
    rw [Nat.add_sub_cancel' hrange.1, Char.ofNat_toNat]
  exact hc ▸ hdigits z (List.mem_of_find?_eq_some hfind) (c.toNat - z) (by omega)

theorem not_isSpace_of_readDigits {cs : List Char} {digits : List Nat}
    (h : readDigits cs = some digits) : cs ≠ [] ∧ ∀ c ∈ cs, ¬isSpace c := by
  fun_induction readDigits cs generalizing digits with
  | case1 => cases h
  | case2 c cs ih =>
    obtain ⟨n, hc, h⟩ := Option.bind_eq_some_iff.1 h
    have hc := not_isSpace_of_digitValue hc
    refine ⟨List.cons_ne_nil _ _, List.forall_mem_cons.2 ⟨hc, ?_⟩⟩
    split at ih
    · exact List.forall_mem_nil _
    · obtain ⟨_, hcs, -⟩ := Option.bind_eq_some_iff.1 h
      exact List.forall_mem_cons.2 ⟨by decide, (ih hcs).2⟩
    · next hne =>
      split at h
      · exact List.forall_mem_nil _
      · cases hne _ rfl
      · obtain ⟨_, hcs, -⟩ := Option.bind_eq_some_iff.1 h
        exact (ih hcs).2

theorem not_isSpace_of_pyInt {s : String} {n : Int} (h : pyInt s = .ok n) :
    trimChars isWhiteSpace s.toList ≠ [] ∧ ∀ c ∈ trimChars isWhiteSpace s.toList, ¬isSpace c := by
  have hsigned (sign : Char) (cs : List Char) (hsign : ¬isSpace sign)
      (h : cs ≠ [] ∧ ∀ c ∈ cs, ¬isSpace c) : ∀ c ∈ sign :: cs, ¬isSpace c :=
    List.forall_mem_cons.2 ⟨hsign, h.2⟩
  unfold pyInt at h
  generalize trimChars isWhiteSpace s.toList = cs at h ⊢
  split at h
  next negative digits hsplit =>
    split at h
    · cases h
    · next hread =>
      replace hread := not_isSpace_of_readDigits hread
      split at hsplit
      · cases hsplit
        exact ⟨List.cons_ne_nil _ _, hsigned '-' _ (by decide) hread⟩
      · cases hsplit
        exact ⟨List.cons_ne_nil _ _, hsigned '+' _ (by decide) hread⟩
      · cases hsplit
        exact hread

theorem pyInt_strip {s : String} {n : Int} (h : pyInt s = .ok n) : pyInt (strip s) = .ok n := by
  obtain ⟨hne, hspace⟩ := not_isSpace_of_pyInt h
  obtain ⟨front, back, hs, hfront, hback⟩ := exists_trimChars isWhiteSpace s.toList
  have hstrip : stripChars s.toList = trimChars isWhiteSpace s.toList := by
    conv_lhs => rw [hs]
    exact trimChars_append hne (fun c hc => isSpace_of_isWhiteSpace (hfront c hc)) hspace
      fun c hc => isSpace_of_isWhiteSpace (hback c hc)
  have htrim : trimChars isWhiteSpace (trimChars isWhiteSpace s.toList) =
      trimChars isWhiteSpace s.toList := by
    have h : trimChars isWhiteSpace ([] ++ trimChars isWhiteSpace s.toList ++ []) =
        trimChars isWhiteSpace s.toList :=
      trimChars_append hne (List.forall_mem_nil _)
        (fun c hc hw => hspace c hc (isSpace_of_isWhiteSpace hw)) (List.forall_mem_nil _)
    rwa [List.nil_append, List.append_nil] at h
  have hs : pyInt (strip s) = pyInt s := by
    simp only [pyInt, strip, String.toList_ofList, hstrip, htrim]
  rw [hs, h]

theorem ttl_of_getSettings {env : Environ} {settings : Settings} {default : String} {ttl : Int}
    (h : getSettings env = .ok settings)
    (httl : pyInt (getenv env "TOKEN_TTL_SECONDS" default) = .ok ttl) :
    settings.tokenTtlSeconds = ttl := by
  simp only [getSettings, bind_eq_ok] at h
  obtain ⟨_, -, _, -, ttl', ht, _, -, h⟩ := h
  cases h
  simp only [envIntRequired, bind_eq_ok] at ht
  obtain ⟨value, hv, ht⟩ := ht
  obtain ⟨raw, hraw, rfl⟩ := envRequired_eq_ok hv
  rw [getenv, hraw, Option.getD_some] at httl
  rw [pyInt_strip httl] at ht
  exact (Except.ok.inj ht).symm

/-! ## Tokens of the issuer -/

variable {L : Library} {svc : TokenService} {env : Environ} {settings : Settings}
  {payload : Dict} {token : String} {now issued : Instant} {urandom : Nat → Bytes}
  {telegramId createdAt ttlSeconds : Int} {fixedIv : Option Bytes} {fixedCreatedAt : Option Int}

def Accepted (L : Library) (svc : TokenService) (now : Instant) (token : String) : Prop :=
  ∃ data, svc.verifyToken L now token = .ok data

theorem not_accepted_of_decrypt (h : ∀ payload, svc.decrypt L token ≠ .ok payload) :
    ¬Accepted L svc now token := by
  rintro ⟨data, hd⟩
  obtain ⟨hd, -⟩ := TokenService.verifyToken_eq_ok.1 hd
  obtain ⟨payload, hd, -⟩ := TokenService.decryptAndValidate_eq_ok.1 hd
  exact h payload hd

theorem not_accepted_of_b64decode {e : Exc} (h : b64decode L token = .error e) :
    ¬Accepted L svc now token := by
  refine not_accepted_of_decrypt fun payload hd => ?_
  obtain ⟨raw, _, hraw, -⟩ := TokenService.decrypt_eq_ok.1 hd
  cases h.symm.trans hraw

theorem encryptPayload_iv {random : Bytes} (L : Library) (env : Environ) (payload : Dict)
    (hfixed : ∀ iv ∈ fixedIv, iv.length = ivLength)
    (hr : random.length = ivLength) :
    ∃ iv, iv.length = ivLength ∧ encryptPayload L env payload fixedIv random = (do
      let ciphertext ← L.aesCbcEncrypt (issuerKey L env) iv
        (pkcs7Pad (encodeUtf8 (L.jsonDumps (.obj payload))))
      return b64encode (iv ++ L.hmacSha256 (issuerKey L env) (ciphertext ++ iv) ++ ciphertext)) := by
  cases fixedIv with
  | none => exact ⟨random, hr, rfl⟩
  | some iv =>
    have hl := hfixed iv rfl
    cases iv with
    | nil => cases hl
    | cons b iv => exact ⟨b :: iv, hl, rfl⟩

theorem encryptPayload_eq_ok {random : Bytes} (payload : Dict) (hL : L.Lawful)
    (hkey : issuerKey L env = svc.key) (hfixed : ∀ iv ∈ fixedIv, iv.length = ivLength)
    (hr : random.length = ivLength) :
    ∃ t : IssuedToken, t.ciphertext ≠ [] ∧
      encryptPayload L env payload fixedIv random = .ok (b64encode (t.bytes L svc.key)) ∧
      L.aesCbcDecrypt svc.key t.iv t.ciphertext =
        .ok (pkcs7Pad (encodeUtf8 (L.jsonDumps (.obj payload)))) := by
  obtain ⟨iv, hiv, heq⟩ := encryptPayload_iv L env payload hfixed hr
  obtain ⟨ciphertext, henc, hlen, hdec⟩ := hL.aesCbc (hL.sha256_length _) hiv
    (dvd_length_pkcs7Pad (encodeUtf8 (L.jsonDumps (.obj payload))))
  rw [← issuerKey, hkey] at hdec
  refine ⟨⟨iv, ciphertext, hiv⟩, ?_, ?_, hdec⟩
  · rintro rfl
    rw [pkcs7Pad, List.length_append, List.length_replicate, List.length_nil] at hlen
    omega
  · rw [heq, issuerKey, henc, ← issuerKey, hkey]
    rfl

theorem tamperHmac_eq_ok (hL : L.Lawful) (raw : Bytes) :
    ∃ token, tamperHmac L (b64encode raw) = .ok token := by
  simp only [tamperHmac, hL.b64decodeValidate, stdB64decodeValidate_b64encode]
  split
  · exact ⟨_, rfl⟩
  · exact ⟨_, rfl⟩

def ReadsBack (L : Library) (payload : Dict) : Prop :=
  L.jsonLoads (L.jsonDumps (.obj payload)) = .ok (.obj payload)

theorem verifyToken_of_issued {t : IssuedToken} {data : TokenPayload} (hL : L.Lawful)
    (hne : t.ciphertext ≠ []) (hjson : ReadsBack L payload)
    (hdec : L.aesCbcDecrypt svc.key t.iv t.ciphertext =
      .ok (pkcs7Pad (encodeUtf8 (L.jsonDumps (.obj payload))))) :
    svc.verifyToken L now (b64encode (t.bytes L svc.key)) = .ok data ↔
      modelValidate L payload = .ok data ∧ unixTime now - data.createdAt ≤ svc.ttlSeconds :=
  verifyToken_of_encrypts hL
    ⟨t.iv, t.ciphertext, t.ivLength, hne, b64decode_b64encode hL.b64decodeValidate _, hdec⟩
    (.json hjson)

theorem accepted_iff {t : IssuedToken} {data : TokenPayload} (hL : L.Lawful)
    (hne : t.ciphertext ≠ []) (hjson : ReadsBack L payload)
    (hdec : L.aesCbcDecrypt svc.key t.iv t.ciphertext =
      .ok (pkcs7Pad (encodeUtf8 (L.jsonDumps (.obj payload)))))
    (hval : modelValidate L payload = .ok data) :
    Accepted L svc now (b64encode (t.bytes L svc.key)) ↔
      unixTime now - data.createdAt ≤ svc.ttlSeconds := by
  constructor
  · rintro ⟨data', hd⟩
    obtain ⟨hval', hage⟩ := (verifyToken_of_issued hL hne hjson hdec).1 hd
    cases hval.symm.trans hval'
    exact hage
  · intro hage
    exact ⟨data, (verifyToken_of_issued hL hne hjson hdec).2 ⟨hval, hage⟩⟩

/-! ## Payloads -/

def exampleData (env : Environ) (telegramId createdAt : Int) : TokenPayload where
  telegramId
  createdAt
  username := getenv env "OAUTH_MOCK_USERNAME" "demo"
  firstName := getenv env "OAUTH_MOCK_FIRST_NAME" "Demo"
  lastName := getenv env "OAUTH_MOCK_LAST_NAME" "User"
  photoUrl := getenv env "OAUTH_MOCK_PHOTO_URL" "https://example.com/photo.png"
  permission := getenv env "OAUTH_MOCK_PERMISSION" "admin"

variable (env telegramId createdAt ttlSeconds)

theorem modelValidate_valid (hC : L.Coerces) :
    modelValidate L (examplePayloads env telegramId createdAt ttlSeconds).valid =
      .ok (exampleData env telegramId createdAt) :=
  (modelValidate_eq_ok hC).2 ⟨⟨_, rfl, rfl⟩, ⟨_, rfl, rfl⟩,
    rfl, .inl rfl, .inl rfl, .inl rfl, .inl rfl⟩

theorem modelValidate_expired (hC : L.Coerces) :
    modelValidate L (examplePayloads env telegramId createdAt ttlSeconds).expired =
      .ok (exampleData env telegramId (createdAt - ttlSeconds - 1)) :=
  (modelValidate_eq_ok hC).2 ⟨⟨_, rfl, rfl⟩, ⟨_, rfl, rfl⟩,
    rfl, .inl rfl, .inl rfl, .inl rfl, .inl rfl⟩

theorem modelValidate_wrongTypes (hC : L.Coerces) :
    modelValidate L (examplePayloads env telegramId createdAt ttlSeconds).wrongTypes =
      .ok (exampleData env 123 1690000000) := by
  have hid : Lax.asInt (.str "123") = some 123 := by decide +kernel
  have hcreated : Lax.asInt (.str "1690000000") = some 1690000000 := by decide +kernel
  exact (modelValidate_eq_ok hC).2 ⟨⟨_, rfl, hid⟩, ⟨_, rfl, hcreated⟩,
    rfl, .inl rfl, .inl rfl, .inl rfl, .inl rfl⟩

theorem modelValidate_missingFields (hC : L.Coerces) (data : TokenPayload) :
    modelValidate L (examplePayloads env telegramId createdAt ttlSeconds).missingFields ≠
      .ok data := by
  intro h
  obtain ⟨⟨v, hv, -⟩, -⟩ := (modelValidate_eq_ok hC).1 h
  cases hv

/-! ## Verdicts -/

variable {env telegramId createdAt ttlSeconds}

/-- What the service makes of the example tokens. Of the last one only the date is checked, as
pydantic reads numerals; and a token is never too young, so that the expired one is accepted
before `createdAt`. -/
structure ExampleVerdicts (L : Library) (svc : TokenService) (createdAt : Int) (now : Instant)
    (tokens : ExampleTokens) : Prop where
  valid : Accepted L svc now tokens.valid ↔ unixTime now - createdAt ≤ svc.ttlSeconds
  expired : Accepted L svc now tokens.expired ↔ unixTime now < createdAt
  invalid : ¬Accepted L svc now tokens.invalid
  invalidHmac : ¬Accepted L svc now tokens.invalidHmac
  invalidBase64 : ¬Accepted L svc now tokens.invalidBase64
  missingFields : ¬Accepted L svc now tokens.missingFields
  wrongTypes : Accepted L svc now tokens.wrongTypes ↔ unixTime now - 1690000000 ≤ svc.ttlSeconds

structure ExamplesReadBack (L : Library) (payloads : ExamplePayloads) : Prop where
  valid : ReadsBack L payloads.valid
  expired : ReadsBack L payloads.expired
  missingFields : ReadsBack L payloads.missingFields
  wrongTypes : ReadsBack L payloads.wrongTypes

theorem issuerKey_of_getTokenService {default : String} (hsvc : getTokenService L env = .ok svc)
    (hun : SecretsUnpadded env)
    (httl : pyInt (getenv env "TOKEN_TTL_SECONDS" default) = .ok ttlSeconds) :
    issuerKey L env = svc.key ∧ svc.ttlSeconds = ttlSeconds := by
  simp only [getTokenService, bind_eq_ok] at hsvc
  obtain ⟨settings, hset, h⟩ := hsvc
  cases h
  refine ⟨?_, ttl_of_getSettings hset httl⟩
  rw [issuerKey, (issuerPrivateKey_eq_iff hset).2 hun]
  rfl

theorem not_accepted_of_undecodable (token : String)
    (hstd : L.b64decodeValidate = stdB64decodeValidate)
    (hurl : L.urlsafeB64decode = stdUrlsafeB64decode)
    (h : stdB64decodeValidate (strip token) = .error .binasciiError)
    (h' : stdUrlsafeB64decode (padB64 (strip token)) = .error .binasciiError) :
    ¬Accepted L svc now token := by
  refine not_accepted_of_b64decode (e := oauthCodeInvalid) ?_
  simp only [b64decode, hstd, hurl, h, h']
  rfl

theorem token_examples_verdicts {fixed : Option Int} (hL : L.Lawful) (hC : L.Coerces)
    (hurl : L.urlsafeB64decode = stdUrlsafeB64decode)
    (hsvc : getTokenService L env = .ok svc) (hun : SecretsUnpadded env)
    (httl : pyInt (getenv env "TOKEN_TTL_SECONDS" "86400") = .ok ttlSeconds)
    (hfixed : getFixedCreatedAt env = .ok fixed)
    (hid : pyInt (getenv env "OAUTH_MOCK_TELEGRAM_ID" "123456") = .ok telegramId)
    (hr : ∀ n, (urandom n).length = ivLength)
    (hjson : ExamplesReadBack L
      (examplePayloads env telegramId (fixed.getD (unixTime issued)) svc.ttlSeconds)) :
    ∃ tokens, tokenExamples L env issued urandom = .ok tokens ∧
      ∀ now, ExampleVerdicts L svc (fixed.getD (unixTime issued)) now tokens := by
  obtain ⟨hkey, rfl⟩ := issuerKey_of_getTokenService hsvc hun httl
  have hiv : ∀ iv ∈ (if fixed.isSome then some (List.replicate ivLength (0 : UInt8)) else none),
      iv.length = ivLength := by
    intro iv h
    split at h
    · cases h
      exact List.length_replicate
    · cases h
  generalize hcreated : fixed.getD (unixTime issued) = createdAt at hjson ⊢
  have hissued (payload : Dict) (n : Nat) := encryptPayload_eq_ok payload hL hkey hiv (hr n)
  obtain ⟨valid, hvalid, evalid, dvalid⟩ :=
    hissued (examplePayloads env telegramId createdAt svc.ttlSeconds).valid 0
  obtain ⟨expired, hexpired, eexpired, dexpired⟩ :=
    hissued (examplePayloads env telegramId createdAt svc.ttlSeconds).expired 1
  obtain ⟨missing, hmissing, emissing, dmissing⟩ :=
    hissued (examplePayloads env telegramId createdAt svc.ttlSeconds).missingFields 2
  obtain ⟨wrong, hwrong, ewrong, dwrong⟩ :=
    hissued (examplePayloads env telegramId createdAt svc.ttlSeconds).wrongTypes 3
  obtain ⟨tampered, htampered⟩ := tamperHmac_eq_ok hL (valid.bytes L svc.key)
  have htokens : tokenExamples L env issued urandom = .ok {
      valid := b64encode (valid.bytes L svc.key)
      expired := b64encode (expired.bytes L svc.key)
      invalid := "invalid-token"
      invalidHmac := tampered
      invalidBase64 := "!!!not_base64!!!"
      missingFields := b64encode (missing.bytes L svc.key)
      wrongTypes := b64encode (wrong.bytes L svc.key) } := by
    unfold tokenExamples
    rw [httl, hfixed, hid]
    simp only [bind, Except.bind]
    rw [hcreated, evalid, eexpired, emissing, ewrong]
    simp only [htampered]
    rfl
  refine ⟨_, htokens, fun now => ⟨?_, ?_, ?_, ?_, ?_, ?_, ?_⟩⟩
  · exact accepted_iff hL hvalid hjson.valid dvalid (modelValidate_valid _ _ _ _ hC)
  · rw [accepted_iff hL hexpired hjson.expired dexpired (modelValidate_expired _ _ _ _ hC)]
    simp only [exampleData]
    omega
  · exact not_accepted_of_undecodable "invalid-token" hL.b64decodeValidate hurl
      (by decide +kernel) (by decide +kernel)
  · exact not_accepted_of_decrypt fun _ => decrypt_tamperHmac hL hvalid htampered
  · exact not_accepted_of_undecodable "!!!not_base64!!!" hL.b64decodeValidate hurl
      (by decide +kernel) (by decide +kernel)
  · rintro ⟨data, hd⟩
    exact modelValidate_missingFields _ _ _ _ hC data
      ((verifyToken_of_issued hL hmissing hjson.missingFields dmissing).1 hd).1
  · exact accepted_iff hL hwrong hjson.wrongTypes dwrong
      (modelValidate_wrongTypes _ _ _ _ hC)

namespace Recorded

def exampleEnviron : Environ := fun name =>
  if name = "OAUTH_MOCK_FIXED_CREATED_AT" then some "1700000000"
  else if name = "OAUTH_MOCK_TELEGRAM_ID" then some "7"
  else if name = "OAUTH_MOCK_USERNAME" then some "ada"
  else if name = "OAUTH_MOCK_FIRST_NAME" then some "Ada"
  else if name = "OAUTH_MOCK_LAST_NAME" then some "L"
  else if name = "OAUTH_MOCK_PHOTO_URL" then some "p"
  else if name = "OAUTH_MOCK_PERMISSION" then some "r"
  else sharedEnviron name

def examples : ExamplePayloads := examplePayloads exampleEnviron 7 1700000000 300

def validExample : Recording where
  payload := examples.valid
  text :=
    "\x7b\"telegram_id\": 7, \"username\": \"ada\", \"first_name\": \"Ada\"," ++
      " \"last_name\": \"L\", \"photo_url\": \"p\", \"permission\": \"r\", \"created_at\": 1700000000\x7d"
  iv := List.replicate WikiBackend.ivLength 0
  ciphertext :=
    [38, 79, 126, 43, 128, 204, 246, 101, 201, 181, 82, 178, 134, 44, 8, 186, 174, 192, 22,
     189, 69, 73, 154, 89, 253, 97, 19, 216, 47, 139, 9, 39, 33, 120, 48, 151, 125, 89, 88,
     238, 41, 128, 198, 65, 202, 118, 43, 47, 37, 15, 227, 78, 100, 79, 70, 115, 212, 106, 207,
     223, 193, 72, 56, 16, 239, 216, 207, 111, 127, 12, 172, 182, 135, 81, 195, 126, 175, 3,
     33, 19, 179, 213, 154, 99, 55, 205, 58, 239, 76, 112, 55, 85, 202, 25, 7, 240, 151, 238,
     65, 193, 217, 203, 206, 100, 34, 94, 56, 214, 182, 177, 241, 28, 213, 175, 127, 53, 36,
     243, 19, 57, 38, 48, 52, 72, 98, 136, 87, 215, 13, 245, 127, 144, 90, 55, 61, 221, 190,
     105, 221, 76, 29, 69, 195, 5]
  tag :=
    [245, 71, 159, 123, 238, 104, 28, 162, 114, 231, 185, 48, 207, 200, 58, 140, 54, 107, 150,
     72, 35, 110, 36, 225, 118, 177, 141, 72, 150, 114, 94, 62]
  ivLength := rfl
  ciphertextLength := by decide +kernel
  tagLength := rfl

def expiredExample : Recording where
  payload := examples.expired
  text :=
    "\x7b\"telegram_id\": 7, \"username\": \"ada\", \"first_name\": \"Ada\"," ++
      " \"last_name\": \"L\", \"photo_url\": \"p\", \"permission\": \"r\", \"created_at\": 1699999699\x7d"
  iv := List.replicate WikiBackend.ivLength 0
  ciphertext :=
    [38, 79, 126, 43, 128, 204, 246, 101, 201, 181, 82, 178, 134, 44, 8, 186, 174, 192, 22,
     189, 69, 73, 154, 89, 253, 97, 19, 216, 47, 139, 9, 39, 33, 120, 48, 151, 125, 89, 88,
     238, 41, 128, 198, 65, 202, 118, 43, 47, 37, 15, 227, 78, 100, 79, 70, 115, 212, 106, 207,
     223, 193, 72, 56, 16, 239, 216, 207, 111, 127, 12, 172, 182, 135, 81, 195, 126, 175, 3,
     33, 19, 179, 213, 154, 99, 55, 205, 58, 239, 76, 112, 55, 85, 202, 25, 7, 240, 151, 238,
     65, 193, 217, 203, 206, 100, 34, 94, 56, 214, 182, 177, 241, 28, 213, 175, 127, 53, 36,
     243, 19, 57, 38, 48, 52, 72, 98, 136, 87, 215, 116, 164, 57, 36, 77, 28, 201, 201, 234,
     24, 6, 30, 175, 191, 214, 163]
  tag :=
    [193, 209, 163, 169, 160, 186, 255, 110, 165, 223, 207, 183, 11, 235, 180, 247, 169, 166,
     50, 188, 217, 241, 7, 88, 32, 246, 59, 200, 11, 171, 18, 141]
  ivLength := rfl
  ciphertextLength := by decide +kernel
  tagLength := rfl

def missingFieldsExample : Recording where
  payload := examples.missingFields
  text :=
    "\x7b\"username\": \"ada\", \"first_name\": \"Ada\"," ++
      " \"last_name\": \"L\", \"photo_url\": \"p\", \"permission\": \"r\", \"created_at\": 1700000000\x7d"
  iv := List.replicate WikiBackend.ivLength 0
  ciphertext :=
    [74, 87, 56, 111, 117, 227, 4, 121, 213, 101, 120, 9, 188, 178, 127, 204, 121, 33, 212,
     245, 78, 67, 190, 2, 154, 95, 152, 168, 117, 160, 221, 82, 39, 70, 11, 13, 145, 231, 211,
     207, 64, 11, 116, 187, 2, 198, 20, 42, 10, 71, 212, 160, 178, 200, 188, 204, 222, 40, 35,
     172, 96, 228, 155, 55, 123, 239, 80, 114, 78, 74, 51, 191, 203, 143, 168, 221, 115, 96,
     33, 175, 15, 209, 166, 240, 205, 115, 5, 26, 134, 115, 0, 25, 219, 224, 121, 193, 13, 184,
     108, 250, 3, 15, 74, 222, 142, 160, 252, 4, 138, 41, 124, 60, 111, 31, 111, 202, 135, 71,
     253, 111, 197, 122, 198, 169, 78, 159, 254, 119]
  tag :=
    [187, 124, 245, 179, 71, 47, 109, 46, 54, 102, 255, 35, 167, 174, 25, 163, 244, 119, 216,
     136, 195, 197, 130, 252, 83, 137, 88, 170, 104, 221, 178, 149]
  ivLength := rfl
  ciphertextLength := by decide +kernel
  tagLength := rfl

def wrongTypesExample : Recording where
  payload := examples.wrongTypes
  text :=
    "\x7b\"telegram_id\": \"123\", \"username\": \"ada\", \"first_name\": \"Ada\"," ++
      " \"last_name\": \"L\", \"photo_url\": \"p\", \"permission\": \"r\", \"created_at\": \"1690000000\"\x7d"
  iv := List.replicate WikiBackend.ivLength 0
  ciphertext :=
    [38, 79, 126, 43, 128, 204, 246, 101, 201, 181, 82, 178, 134, 44, 8, 186, 60, 69, 134, 133,
     30, 202, 165, 78, 154, 236, 107, 51, 18, 179, 82, 206, 100, 0, 213, 199, 30, 30, 183, 107,
     190, 189, 144, 77, 219, 27, 240, 178, 159, 207, 202, 123, 118, 245, 10, 66, 24, 93, 156,
     6, 217, 129, 71, 26, 176, 103, 39, 237, 115, 137, 182, 93, 203, 95, 83, 88, 133, 81, 206,
     180, 21, 58, 113, 23, 148, 113, 152, 63, 173, 40, 0, 52, 4, 13, 191, 221, 254, 240, 219,
     80, 43, 121, 84, 129, 158, 230, 209, 25, 164, 57, 128, 1, 234, 21, 70, 162, 88, 152, 184,
     82, 100, 29, 2, 245, 163, 72, 143, 33, 3, 211, 244, 141, 43, 175, 122, 199, 130, 119, 87,
     44, 65, 164, 91, 106, 190, 9, 240, 238, 203, 219, 74, 211, 159, 159, 177, 202, 96, 248,
     144, 193]
  tag :=
    [1, 92, 144, 186, 57, 88, 172, 106, 72, 65, 143, 1, 116, 124, 177, 88, 142, 64, 163, 197,
     68, 207, 39, 189, 105, 190, 195, 67, 66, 231, 64, 28]
  ivLength := rfl
  ciphertextLength := by decide +kernel
  tagLength := rfl

def exampleRecordings : List Recording :=
  [validExample, expiredExample, missingFieldsExample, wrongTypesExample]

def exchange (rs : List Recording) : Equiv.Perm Bytes :=
  rs.foldr (fun r e => (Equiv.swap (pkcs7Pad (encodeUtf8 r.text)) r.ciphertext).trans e)
    (Equiv.refl _)

theorem length_exchange (rs : List Recording) (data : Bytes) :
    (exchange rs data).length = data.length := by
  induction rs generalizing data with
  | nil => rfl
  | cons r rs ih =>
    calc (exchange (r :: rs) data).length
        = (Equiv.swap (pkcs7Pad (encodeUtf8 r.text)) r.ciphertext data).length := ih _
      _ = data.length := (swap_swap_length data r.ciphertextLength).1

def exampleCipher (e : Equiv.Perm Bytes) (k iv data : Bytes) : Except LibError Bytes :=
  if data.length % 16 ≠ 0 then .error .valueError
  else if k = key ∧ iv = List.replicate ivLength 0 then .ok (e data)
  else .ok data

def exampleLibrary : Library :=
  { recordedLibrary with
    hmacSha256 := fun k msg =>
      match exampleRecordings.find? fun r => k = key ∧ msg = r.ciphertext ++ r.iv with
      | some r => r.tag
      | none => List.replicate hmacLength 0
    aesCbcEncrypt := exampleCipher (exchange exampleRecordings)
    aesCbcDecrypt := exampleCipher (exchange exampleRecordings).symm
    jsonDumps := fun
      | .obj payload =>
        match Dict.lookup payload "telegram_id", Dict.lookup payload "created_at" with
        | none, _ => missingFieldsExample.text
        | some (.str _), _ => wrongTypesExample.text
        | _, some (.int 1700000000) => validExample.text
        | _, _ => expiredExample.text
      | _ => validExample.text
    jsonLoads := fun text =>
      match exampleRecordings.find? (·.text = text) with
      | some r => .ok (.obj r.payload)
      | none => .error .jsonDecodeError }

theorem lawful_examples : exampleLibrary.Lawful where
  sha256_length := lawful.sha256_length
  hmacSha256_length k msg := by
    simp only [exampleLibrary]
    split
    · exact Recording.tagLength _
    · exact List.length_replicate
  aesCbc {k iv data} _ _ h16 := by
    have hmod {data : Bytes} (h : 16 ∣ data.length) : ¬data.length % 16 ≠ 0 :=
      not_not.2 (Nat.mod_eq_zero_of_dvd h)
    simp only [exampleLibrary, exampleCipher, if_neg (hmod h16)]
    split_ifs
    · have hl := length_exchange exampleRecordings data
      exact ⟨_, rfl, hl, by rw [if_neg (hmod (hl ▸ h16)), Equiv.symm_apply_apply]⟩
    · exact ⟨_, rfl, rfl, by rw [if_neg (hmod h16)]⟩
  b64decodeValidate := rfl

theorem coerces_examples : exampleLibrary.Coerces := ⟨coerces_recorded.int, coerces_recorded.str⟩

def exampleService : TokenService := .new exampleLibrary "local-app" "local-secret" 300

theorem secretsUnpadded_examples : SecretsUnpadded exampleEnviron := by
  intro name hname value h
  refine secretsUnpadded_shared name hname value ?_
  simp only [List.mem_cons, List.not_mem_nil, or_false] at hname
  rcases hname with rfl | rfl
  · exact h
  · exact h

theorem find?_text {rs : List Recording} {r : Recording} (h : rs.Pairwise (·.text ≠ ·.text))
    (hr : r ∈ rs) : rs.find? (·.text = r.text) = some r := by
  induction rs with
  | nil => cases hr
  | cons r' rs ih =>
    obtain ⟨hne, h⟩ := List.pairwise_cons.1 h
    rcases List.mem_cons.1 hr with rfl | hr
    · exact List.find?_cons_of_pos (by simp)
    · rw [List.find?_cons_of_neg (by simpa using hne r hr)]
      exact ih h hr

theorem readsBack_examples {r : Recording} (hr : r ∈ exampleRecordings)
    (h : exampleLibrary.jsonDumps (.obj r.payload) = r.text) :
    ReadsBack exampleLibrary r.payload := by
  have hdistinct : exampleRecordings.Pairwise (·.text ≠ ·.text) := by decide +kernel
  rw [ReadsBack, h]
  simp only [exampleLibrary, find?_text hdistinct hr]

theorem readBack_examples : ExamplesReadBack exampleLibrary examples := by
  have hr : ∀ r ∈ exampleRecordings, ReadsBack exampleLibrary r.payload := by
    intro r hr
    refine readsBack_examples hr ?_
    simp only [exampleRecordings, List.mem_cons, List.not_mem_nil, or_false] at hr
    rcases hr with rfl | rfl | rfl | rfl
    · rfl
    · rfl
    · rfl
    · rfl
  simp only [exampleRecordings, List.forall_mem_cons] at hr
  exact ⟨hr.1, hr.2.1, hr.2.2.1, hr.2.2.2.1⟩

theorem getTokenService_examples :
    getTokenService exampleLibrary exampleEnviron = .ok exampleService := by
  have hset : getSettings exampleEnviron = .ok sharedSettings := by rfl
  rw [getTokenService, hset]
  rfl

theorem token_examples_verdicts_recorded :
    ∃ tokens, tokenExamples exampleLibrary exampleEnviron 0 (fun _ => validExample.iv) =
        .ok tokens ∧
      ∀ now, ExampleVerdicts exampleLibrary exampleService 1700000000 now tokens := by
  have hfixed : getFixedCreatedAt exampleEnviron = .ok (some 1700000000) := by decide +kernel
  have httl : pyInt (getenv exampleEnviron "TOKEN_TTL_SECONDS" "86400") = .ok 300 := by
    decide +kernel
  exact token_examples_verdicts lawful_examples coerces_examples rfl getTokenService_examples
    secretsUnpadded_examples httl hfixed (by decide +kernel) (fun _ => validExample.ivLength) readBack_examples

end Recorded

end WikiBackend
