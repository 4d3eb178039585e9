import WikiBackend.Token.Authentic

/-! The issuer and the service under one environment. The issuer takes the secrets as they stand
in their variables, the service strips them; and the issuer takes a `created_at` of zero for a
missing one. -/

namespace WikiBackend

def issuerPrivateKey (env : Environ) : String :=
  getenv env "OAUTH_NAME_APPLICATION_ID" "local-app" ++ ":" ++
    getenv env "OAUTH_NAME_SECRET_KEY" "local-secret"

def Settings.privateKey (settings : Settings) : String :=
  settings.oauthNameApplicationId ++ ":" ++ settings.oauthNameSecretKey

def SecretsUnpadded (env : Environ) : Prop :=
  ∀ name ∈ ["OAUTH_NAME_APPLICATION_ID", "OAUTH_NAME_SECRET_KEY"], ∀ value,
    env name = some value → strip value = value

/-- The keys of two different secrets give the message different tags. -/
def Library.TellsApart (L : Library) (privateKey privateKey' : String) (message : Bytes) : Prop :=
  privateKey ≠ privateKey' →
    L.hmacSha256 (L.sha256 (encodeUtf8 privateKey)) message ≠
      L.hmacSha256 (L.sha256 (encodeUtf8 privateKey')) message

def issuerKey (L : Library) (env : Environ) : Bytes := L.sha256 (encodeUtf8 (issuerPrivateKey env))

def issuedText (L : Library) (req : IssueTokenRequest) (issued : Instant) : String :=
  L.jsonDumps (.obj (req.modelDump (req.createdAtOr issued)))

def IssueTokenRequest.data (req : IssueTokenRequest) (createdAt : Int) : TokenPayload :=
  ⟨req.telegramId, req.username, createdAt, req.firstName, req.lastName, req.photoUrl,
    req.permission⟩

/-- The token is accepted with the requested fields while it is fresh, and rejected afterwards. -/
def JudgedAsRequested (L : Library) (svc : TokenService) (req : IssueTokenRequest)
    (createdAt : Int) (now : Instant) (token : String) : Prop :=
  if unixTime now - createdAt ≤ svc.ttlSeconds then
    svc.verifyToken L now token = .ok (req.data createdAt)
  else svc.verifyToken L now token = .error oauthCodeInvalid

variable {L : Library} {svc : TokenService} {env : Environ} {settings : Settings}
  {req : IssueTokenRequest} {issued now : Instant} {urandom : Bytes} {c : Int}

/-! ## Secrets -/

theorem stripChars_isInfix (cs : List Char) : stripChars cs <:+: cs := by
  have hright : (cs.dropWhile isSpace).reverse.dropWhile isSpace <:+
      (cs.dropWhile isSpace).reverse := List.dropWhile_suffix _
  have hleft : stripChars cs <+: cs.dropWhile isSpace := by
    rw [stripChars, trimChars, ← List.reverse_suffix, List.reverse_reverse]
    exact hright
  exact hleft.isInfix.trans (List.dropWhile_suffix _).isInfix

theorem length_strip_le (s : String) : (strip s).length ≤ s.length := by
  rw [strip, String.length_ofList, ← String.length_toList]
  exact (stripChars_isInfix _).length_le

theorem strip_eq_of_length {s : String} (h : (strip s).length = s.length) : strip s = s := by
  rw [strip, String.length_ofList, ← String.length_toList] at h
  rw [strip, (stripChars_isInfix _).eq_of_length h, String.ofList_toList]

theorem issuerPrivateKey_eq_iff (h : getSettings env = .ok settings) :
    issuerPrivateKey env = settings.privateKey ↔ SecretsUnpadded env := by
  obtain ⟨applicationId, secretKey, hid, hsk, hid', hsk'⟩ := secrets_of_getSettings h
  simp only [issuerPrivateKey, Settings.privateKey, getenv, hid, hsk, hid', hsk', Option.getD_some]
  constructor
  · intro heq
    have hlen := congrArg String.length heq
    simp only [String.length_append] at hlen
    have hl := length_strip_le applicationId
    have hl' := length_strip_le secretKey
    intro name hname value hv
    simp only [List.mem_cons, List.not_mem_nil, or_false] at hname
    rcases hname with rfl | rfl
    · rw [hid] at hv
      cases hv
      exact strip_eq_of_length (by omega)
    · rw [hsk] at hv
      cases hv
      exact strip_eq_of_length (by omega)
  · intro hun
    rw [hun "OAUTH_NAME_APPLICATION_ID" (by simp) _ hid, hun "OAUTH_NAME_SECRET_KEY" (by simp) _ hsk]

/-! ## Issued tokens -/

theorem issueToken_eq_ok (env : Environ) (req : IssueTokenRequest) (issued : Instant)
    (hL : L.Lawful) (hr : urandom.length = ivLength) :
    ∃ ciphertext, ciphertext ≠ [] ∧
      L.aesCbcEncrypt (issuerKey L env) urandom
        (pkcs7Pad (encodeUtf8 (issuedText L req issued))) = .ok ciphertext ∧
      L.aesCbcDecrypt (issuerKey L env) urandom ciphertext =
        .ok (pkcs7Pad (encodeUtf8 (issuedText L req issued))) ∧
      issueToken L env issued urandom req = .ok (b64encode (urandom ++
        L.hmacSha256 (issuerKey L env) (ciphertext ++ urandom) ++ ciphertext)) := by
  obtain ⟨ciphertext, henc, hlen, hdec⟩ := hL.aesCbc (hL.sha256_length _) hr
    (dvd_length_pkcs7Pad (encodeUtf8 (issuedText L req issued)))
  refine ⟨ciphertext, ?_, henc, hdec, ?_⟩
  · rintro rfl
    rw [pkcs7Pad, List.length_append, List.length_replicate, List.length_nil] at hlen
    omega
  · exact congrArg (· >>= _) henc

theorem describes_modelDump (createdAt : Int) :
    Describes (req.modelDump createdAt) (req.data createdAt) :=
  ⟨rfl, rfl, rfl, .inl rfl, .inl rfl, .inl rfl, .inl rfl⟩

theorem verifyToken_issued {ciphertext : Bytes} {data : TokenPayload}
    (hL : L.Lawful) (hV : L.Validates) (hr : urandom.length = ivLength)
    (hjson : L.jsonLoads (issuedText L req issued) =
      .ok (.obj (req.modelDump (req.createdAtOr issued))))
    (hne : ciphertext ≠ [])
    (hdec : L.aesCbcDecrypt svc.key urandom ciphertext =
      .ok (pkcs7Pad (encodeUtf8 (issuedText L req issued)))) :
    svc.verifyToken L now (b64encode (urandom ++
        L.hmacSha256 svc.key (ciphertext ++ urandom) ++ ciphertext)) = .ok data ↔
      data = req.data (req.createdAtOr issued) ∧
        unixTime now - req.createdAtOr issued ≤ svc.ttlSeconds := by
  have he : Encrypts L svc (issuedText L req issued)
      (b64encode (urandom ++ L.hmacSha256 svc.key (ciphertext ++ urandom) ++ ciphertext)) :=
    ⟨urandom, ciphertext, hr, hne, b64decode_b64encode hL.b64decodeValidate _, hdec⟩
  rw [verifyToken_of_encrypts hL he (.json hjson),
    modelValidate_of_describes hV (describes_modelDump _)]
  constructor
  · rintro ⟨h, hage⟩
    cases h
    exact ⟨rfl, hage⟩
  · rintro ⟨rfl, hage⟩
    exact ⟨rfl, hage⟩

theorem verifyToken_foreign {key ciphertext : Bytes} (hL : L.Lawful)
    (hr : urandom.length = ivLength)
    (htag : L.hmacSha256 key (ciphertext ++ urandom) ≠
      L.hmacSha256 svc.key (ciphertext ++ urandom)) :
    svc.verifyToken L now (b64encode (urandom ++
      L.hmacSha256 key (ciphertext ++ urandom) ++ ciphertext)) = .error oauthCodeInvalid := by
  cases hv : svc.verifyToken L now (b64encode (urandom ++
      L.hmacSha256 key (ciphertext ++ urandom) ++ ciphertext)) with
  | error e => rw [TokenService.verifyToken_error hv]
  | ok data =>
    obtain ⟨hd, -⟩ := TokenService.verifyToken_eq_ok.1 hv
    obtain ⟨payload, hd, -⟩ := TokenService.decryptAndValidate_eq_ok.1 hd
    obtain ⟨raw, _, hraw, -, hsigned, -, -⟩ := TokenService.decrypt_eq_ok.1 hd
    rw [b64decode_b64encode hL.b64decodeValidate] at hraw
    cases hraw
    obtain ⟨h₁, h₂, h₃⟩ :=
      parts_of_append ciphertext hr (hL.hmacSha256_length key (ciphertext ++ urandom))
    rw [signedOf, h₁, h₂, h₃] at hsigned
    exact absurd hsigned.symm htag

/-! ## Agreement -/

theorem judgedAsRequested_iff {createdAt : Int} {token : String}
    (h : ∀ data, svc.verifyToken L now token = .ok data ↔
      data = req.data createdAt ∧ unixTime now - createdAt ≤ svc.ttlSeconds) :
    JudgedAsRequested L svc req c now token ↔
      createdAt = c ∨ svc.ttlSeconds < unixTime now - c ∧
        svc.ttlSeconds < unixTime now - createdAt := by
  have hdata : req.data c = req.data createdAt ↔ createdAt = c :=
    ⟨fun h => (congrArg TokenPayload.createdAt h).symm, fun h => h ▸ rfl⟩
  have herror : svc.verifyToken L now token = .error oauthCodeInvalid ↔
      svc.ttlSeconds < unixTime now - createdAt := by
    cases hv : svc.verifyToken L now token with
    | error e =>
      rw [TokenService.verifyToken_error hv]
      refine iff_of_true rfl (Int.not_le.1 fun hage => ?_)
      cases hv.symm.trans ((h _).2 ⟨rfl, hage⟩)
    | ok data => exact iff_of_false nofun (Int.not_lt.2 ((h data).1 hv).2)
  unfold JudgedAsRequested
  split
  · rename_i hage
    rw [h, hdata]
    constructor
    · rintro ⟨hc, -⟩
      exact .inl hc
    · rintro (rfl | ⟨hold, -⟩)
      · exact ⟨rfl, hage⟩
      · exact absurd hold (Int.not_lt.2 hage)
  · rename_i hage
    rw [herror]
    constructor
    · intro hold
      exact .inr ⟨Int.not_le.1 hage, hold⟩
    · rintro (rfl | ⟨-, hold⟩)
      · exact Int.not_le.1 hage
      · exact hold

def Agree (L : Library) (env : Environ) (issued : Instant) (urandom : Bytes)
    (req : IssueTokenRequest) (c : Int) (now : Instant) : Prop :=
  ∃ svc token, getTokenService L env = .ok svc ∧ issueToken L env issued urandom req = .ok token ∧
    JudgedAsRequested L svc req c now token

theorem agree_iff {token : String} (hset : getSettings env = .ok settings)
    (htoken : issueToken L env issued urandom req = .ok token) :
    Agree L env issued urandom req c now ↔
      JudgedAsRequested L (.new L settings.oauthNameApplicationId settings.oauthNameSecretKey
        settings.tokenTtlSeconds) req c now token := by
  have hsvc : getTokenService L env = .ok (.new L settings.oauthNameApplicationId
      settings.oauthNameSecretKey settings.tokenTtlSeconds) := by
    rw [getTokenService, hset]
    rfl
  simp only [Agree, hsvc, htoken, Except.ok.injEq, exists_and_left, exists_eq_left']

theorem agree_iff_of_unpadded (hL : L.Lawful) (hV : L.Validates)
    (hset : getSettings env = .ok settings) (hr : urandom.length = ivLength)
    (hjson : L.jsonLoads (issuedText L req issued) =
      .ok (.obj (req.modelDump (req.createdAtOr issued))))
    (hun : SecretsUnpadded env) :
    Agree L env issued urandom req c now ↔
      req.createdAtOr issued = c ∨ settings.tokenTtlSeconds < unixTime now - c ∧
        settings.tokenTtlSeconds < unixTime now - req.createdAtOr issued := by
  obtain ⟨ciphertext, hne, henc, hdec, htoken⟩ := issueToken_eq_ok env req issued hL hr
  have hkey : issuerKey L env = (TokenService.new L settings.oauthNameApplicationId
      settings.oauthNameSecretKey settings.tokenTtlSeconds).key := by
    rw [issuerKey, (issuerPrivateKey_eq_iff hset).2 hun]
    rfl
  rw [agree_iff hset htoken]
  rw [hkey] at hdec ⊢
  exact judgedAsRequested_iff fun data => verifyToken_issued hL hV hr hjson hne hdec

theorem agree_iff_of_padded (hL : L.Lawful) (hset : getSettings env = .ok settings)
    (hr : urandom.length = ivLength)
    (hapart : ∀ ciphertext, L.aesCbcEncrypt (issuerKey L env) urandom
        (pkcs7Pad (encodeUtf8 (issuedText L req issued))) = .ok ciphertext →
      L.TellsApart (issuerPrivateKey env) settings.privateKey (ciphertext ++ urandom))
    (hun : ¬SecretsUnpadded env) :
    Agree L env issued urandom req c now ↔ settings.tokenTtlSeconds < unixTime now - c := by
  obtain ⟨ciphertext, hne, henc, hdec, htoken⟩ := issueToken_eq_ok env req issued hL hr
  have htag := hapart ciphertext henc fun h => hun ((issuerPrivateKey_eq_iff hset).1 h)
  rw [agree_iff hset htoken, JudgedAsRequested, verifyToken_foreign hL hr htag]
  split
  · rename_i hage
    exact iff_of_false nofun (Int.not_lt.2 hage)
  · rename_i hage
    exact iff_of_true rfl (Int.not_le.1 hage)

/-- The two programs agree, at a reading of the clock, if the secrets have no white space around
them and the requested `created_at` is not zero; and besides only on tokens that are too old in
any case. -/
theorem issuer_agrees_iff (hL : L.Lawful) (hV : L.Validates)
    (hset : getSettings env = .ok settings) (hr : urandom.length = ivLength)
    (hc : req.createdAt = some c)
    (hjson : L.jsonLoads (issuedText L req issued) =
      .ok (.obj (req.modelDump (req.createdAtOr issued))))
    (hapart : ∀ ciphertext, L.aesCbcEncrypt (issuerKey L env) urandom
        (pkcs7Pad (encodeUtf8 (issuedText L req issued))) = .ok ciphertext →
      L.TellsApart (issuerPrivateKey env) settings.privateKey (ciphertext ++ urandom)) :
    Agree L env issued urandom req c now ↔
      SecretsUnpadded env ∧ (c ≠ 0 ∨ unixTime issued = 0 ∨
        settings.tokenTtlSeconds < unixTime now ∧
          settings.tokenTtlSeconds < unixTime now - unixTime issued) ∨
      ¬SecretsUnpadded env ∧ settings.tokenTtlSeconds < unixTime now - c := by
  by_cases hun : SecretsUnpadded env
  · have hcreated : req.createdAtOr issued = if c = 0 then unixTime issued else c := by
      rw [IssueTokenRequest.createdAtOr, hc]
    rw [agree_iff_of_unpadded hL hV hset hr hjson hun]
    simp only [hun, hcreated, true_and, not_true_eq_false, false_and, or_false]
    split
    · rename_i hzero
      subst hzero
      simp only [ne_eq, not_true_eq_false, false_or, Int.sub_zero]
    · rename_i hzero
      exact iff_of_true (.inl rfl) (.inl hzero)
  · rw [agree_iff_of_padded hL hset hr hapart hun]
    simp only [hun, false_and, not_false_eq_true, true_and, false_or]

namespace Recorded

def adaToken : Recording where
  payload :=
    [("telegram_id", .int 42), ("username", .str "ada"), ("first_name", .null),
      ("last_name", .null), ("photo_url", .null), ("permission", .null),
      ("created_at", .int 1700000000)]
  text :=
    "\x7b\"telegram_id\": 42, \"username\": \"ada\", \"first_name\": null, \"last_name\": null, " ++
      "\"photo_url\": null, \"permission\": null, \"created_at\": 1700000000\x7d"
  iv := [32, 33, 34, 35, 36, 37, 38, 39, 40, 41, 42, 43, 44, 45, 46, 47]
  ciphertext :=
    [198, 234, 115, 181, 235, 44, 192, 31, 197, 14, 165, 55, 39, 229, 113, 56, 50, 215, 33, 178,
     223, 214, 75, 232, 45, 174, 148, 112, 176, 5, 35, 111, 25, 197, 0, 132, 209, 3, 35, 22, 165,
     158, 105, 68, 88, 224, 157, 236, 210, 1, 177, 215, 103, 60, 109, 25, 74, 241, 155, 27, 115,
     50, 159, 71, 43, 112, 86, 165, 8, 90, 201, 140, 148, 149, 33, 44, 235, 109, 132, 66, 140, 3,
     132, 123, 27, 41, 44, 55, 133, 93, 123, 91, 243, 3, 8, 47, 88, 89, 132, 223, 54, 96, 183, 111,
     0, 147, 185, 154, 206, 183, 206, 162, 206, 91, 187, 123, 245, 30, 86, 29, 192, 179, 101, 220,
     250, 134, 184, 225, 216, 130, 125, 98, 201, 83, 180, 178, 181, 44, 26, 93, 152, 32, 204, 83]
  tag :=
    [137, 189, 86, 209, 2, 80, 16, 65, 0, 104, 150, 141, 52, 92, 49, 43, 57, 233, 43, 135, 255, 7,
     93, 50, 30, 130, 84, 152, 181, 240, 98, 22]
  ivLength := rfl
  ciphertextLength := by decide +kernel
  tagLength := rfl

def sharedEnviron : Environ := fun name =>
  if name = "TOKEN_TTL_SECONDS" then some "300"
  else if name = "SESSION_TTL_SECONDS" then some "3600"
  else environ name

def sharedSettings : Settings := ⟨"local-app", "local-secret", 300, 3600, ["*"]⟩

theorem getSettings_shared : getSettings sharedEnviron = .ok sharedSettings := by
  rfl

theorem secretsUnpadded_shared : SecretsUnpadded sharedEnviron :=
  (issuerPrivateKey_eq_iff getSettings_shared).1 rfl

def issueRequest (createdAt : Int) : IssueTokenRequest :=
  ⟨42, some "ada", none, none, none, none, some createdAt⟩

theorem jsonLoads_issuedText {c : Int} {t : Instant}
    (h : (issueRequest c).createdAtOr t = 1700000000) :
    adaToken.library.jsonLoads (issuedText adaToken.library (issueRequest c) t) =
      .ok (.obj ((issueRequest c).modelDump ((issueRequest c).createdAtOr t))) := by
  rw [h]
  exact adaToken.jsonLoads_text

theorem issuer_agrees_iff_recorded :
    Agree adaToken.library sharedEnviron (1690000000 * 1000000) adaToken.iv (issueRequest 1700000000)
      1700000000 (1700000301 * 1000000) := by
  apply (issuer_agrees_iff adaToken.lawful adaToken.coerces.validates getSettings_shared
    adaToken.ivLength rfl (jsonLoads_issuedText (by decide)) ?_).2
  · exact .inl ⟨secretsUnpadded_shared, .inl (by decide)⟩
  · intro ciphertext _ hne
    exact absurd ((issuerPrivateKey_eq_iff getSettings_shared).2 secretsUnpadded_shared) hne

theorem zero_created_at_accepted :
    ¬∀ (L : Library) (env : Environ) (settings : Settings) (req : IssueTokenRequest)
      (issued now : Instant) (urandom : Bytes) (c : Int), L.Lawful → L.Validates →
      getSettings env = .ok settings → urandom.length = ivLength → req.createdAt = some c →
      L.jsonLoads (issuedText L req issued) =
        .ok (.obj (req.modelDump (req.createdAtOr issued))) →
      (∀ ciphertext, L.aesCbcEncrypt (issuerKey L env) urandom
          (pkcs7Pad (encodeUtf8 (issuedText L req issued))) = .ok ciphertext →
        L.TellsApart (issuerPrivateKey env) settings.privateKey (ciphertext ++ urandom)) →
      Agree L env issued urandom req c now := by
  intro h
  have hagree := h adaToken.library sharedEnviron sharedSettings (issueRequest 0)
    (1700000000 * 1000000) (1700000000 * 1000000) adaToken.iv 0 adaToken.lawful adaToken.coerces.validates
    getSettings_shared adaToken.ivLength rfl (jsonLoads_issuedText (by decide)) fun _ _ hne =>
      absurd ((issuerPrivateKey_eq_iff getSettings_shared).2 secretsUnpadded_shared) hne
  have hjudged := (agree_iff_of_unpadded adaToken.lawful adaToken.coerces.validates getSettings_shared
    adaToken.ivLength (jsonLoads_issuedText (by decide)) secretsUnpadded_shared).1 hagree
  revert hjudged
  decide

end Recorded

end WikiBackend
