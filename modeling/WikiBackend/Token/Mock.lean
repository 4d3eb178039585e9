import Mathlib.Logic.Equiv.Basic
import WikiBackend.Token.Lax
import WikiBackend.Token.Service

/-! The local issuer of access tokens. -/

namespace WikiBackend

def pkcs7Pad (data : Bytes) : Bytes :=
  let padLen := 16 - data.length % 16
  data ++ List.replicate padLen (UInt8.ofNat padLen)

/-- `urandom` is what `os.urandom(16)` would return. -/
def encryptPayload (L : Library) (env : Environ) (payload : Dict) (fixedIv : Option Bytes)
    (urandom : Bytes) : Except LibError String := do
  let applicationId := getenv env "OAUTH_NAME_APPLICATION_ID" "local-app"
  let secretKey := getenv env "OAUTH_NAME_SECRET_KEY" "local-secret"
  let key := L.sha256 (encodeUtf8 (applicationId ++ ":" ++ secretKey))
  let iv :=
    match fixedIv with
    | some iv => if iv.isEmpty then urandom else iv
    | none => urandom
  let plaintext := encodeUtf8 (L.jsonDumps (.obj payload))
  let padded := pkcs7Pad plaintext
  let ciphertext ← L.aesCbcEncrypt key iv padded
  let hashValue := L.hmacSha256 key (ciphertext ++ iv)
  return b64encode (iv ++ hashValue ++ ciphertext)

structure IssueTokenRequest where
  telegramId : Int
  username : Option PyStr
  firstName : Option PyStr
  lastName : Option PyStr
  photoUrl : Option PyStr
  permission : Option PyStr
  createdAt : Option Int

def optStr : Option PyStr → Json
  | some s => .str s
  | none => .null

def IssueTokenRequest.modelDump (req : IssueTokenRequest) (createdAt : Int) : Dict :=
  [("telegram_id", .int req.telegramId), ("username", optStr req.username),
    ("first_name", optStr req.firstName), ("last_name", optStr req.lastName),
    ("photo_url", optStr req.photoUrl), ("permission", optStr req.permission),
    ("created_at", .int createdAt)]

/-- `data["created_at"] or int(time.time())` -/
def IssueTokenRequest.createdAtOr (req : IssueTokenRequest) (now : Instant) : Int :=
  match req.createdAt with
  | none => unixTime now
  | some c => if c = 0 then unixTime now else c

def issueToken (L : Library) (env : Environ) (now : Instant) (urandom : Bytes)
    (req : IssueTokenRequest) : Except LibError String :=
  encryptPayload L env (req.modelDump (req.createdAtOr now)) none urandom

def tamperHmac (L : Library) (token : String) : Except LibError String :=
  match L.b64decodeValidate token with
  | .error e => if e.isValueError then .ok token else .error e
  | .ok raw =>
    if raw.length ≤ ivLength + hmacLength then .ok token
    else .ok (b64encode (raw.modify ivLength (· ^^^ 0xff)))

/-! ## Example tokens -/

def getFixedCreatedAt (env : Environ) : Except LibError (Option Int) :=
  match env "OAUTH_MOCK_FIXED_CREATED_AT" with
  | none => .ok none
  | some value => if strip value = "" then .ok none else some <$> pyInt value

def dictSet (payload : Dict) (name : PyStr) (value : Json) : Dict :=
  if payload.any (·.1 = name) then payload.map fun f => if f.1 = name then (name, value) else f
  else payload ++ [(name, value)]

def dictPop (payload : Dict) (name : PyStr) : Dict := payload.filter (·.1 ≠ name)

structure ExamplePayloads where
  valid : Dict
  expired : Dict
  missingFields : Dict
  wrongTypes : Dict

def examplePayloads (env : Environ) (telegramId createdAt ttlSeconds : Int) : ExamplePayloads :=
  let basePayload : Dict :=
    [("telegram_id", .int telegramId),
      ("username", .str (getenv env "OAUTH_MOCK_USERNAME" "demo")),
      ("first_name", .str (getenv env "OAUTH_MOCK_FIRST_NAME" "Demo")),
      ("last_name", .str (getenv env "OAUTH_MOCK_LAST_NAME" "User")),
      ("photo_url", .str (getenv env "OAUTH_MOCK_PHOTO_URL" "https://example.com/photo.png")),
      ("permission", .str (getenv env "OAUTH_MOCK_PERMISSION" "admin"))]
  { valid := dictSet basePayload "created_at" (.int createdAt)
    expired := dictSet basePayload "created_at" (.int (createdAt - ttlSeconds - 1))
    missingFields := dictPop (dictSet basePayload "created_at" (.int createdAt)) "telegram_id"
    wrongTypes :=
      dictSet (dictSet basePayload "telegram_id" (.str "123")) "created_at" (.str "1690000000") }

structure ExampleTokens where
  valid : String
  expired : String
  invalid : String
  invalidHmac : String
  invalidBase64 : String
  missingFields : String
  wrongTypes : String

/-- `token_examples`; `urandom n` is what the call of `os.urandom(16)` number `n` would return. -/
def tokenExamples (L : Library) (env : Environ) (now : Instant) (urandom : Nat → Bytes) :
    Except LibError ExampleTokens := do
  let ttlSeconds ← pyInt (getenv env "TOKEN_TTL_SECONDS" "86400")
  let fixedCreatedAt ← getFixedCreatedAt env
  let fixedIv := if fixedCreatedAt.isSome then some (List.replicate ivLength 0) else none
  let telegramId ← pyInt (getenv env "OAUTH_MOCK_TELEGRAM_ID" "123456")
  let createdAt := fixedCreatedAt.getD (unixTime now)
  let payloads := examplePayloads env telegramId createdAt ttlSeconds
  let validToken ← encryptPayload L env payloads.valid fixedIv (urandom 0)
  let expired ← encryptPayload L env payloads.expired fixedIv (urandom 1)
  let invalidHmac ← tamperHmac L validToken
  let missingFields ← encryptPayload L env payloads.missingFields fixedIv (urandom 2)
  let wrongTypes ← encryptPayload L env payloads.wrongTypes fixedIv (urandom 3)
  return {
    valid := validToken
    expired := expired
    invalid := "invalid-token"
    invalidHmac := invalidHmac
    invalidBase64 := "!!!not_base64!!!"
    missingFields := missingFields
    wrongTypes := wrongTypes }

/-! ## Recorded calls

Two tokens as the issuer makes them with its default secrets, and a session token. -/

namespace Recorded

def key : Bytes :=
  [145, 9, 253, 180, 167, 222, 139, 242, 2, 0, 74, 190, 17, 252, 253, 32, 34, 33, 143, 229, 11,
   147, 126, 95, 190, 220, 232, 79, 61, 156, 177, 246]

def payload₁ : Dict :=
  [("telegram_id", .int 42), ("username", .str "ada"), ("created_at", .int 1700000000)]

def payload₂ : Dict :=
  [("telegram_id", .int 7), ("username", .null), ("created_at", .int 1700000000)]

def text₁ : String :=
  "\x7b\"telegram_id\": 42, \"username\": \"ada\", \"created_at\": 1700000000\x7d"

def text₂ : String :=
  "\x7b\"telegram_id\": 7, \"username\": null, \"created_at\": 1700000000\x7d"

def iv₁ : Bytes := [0, 1, 2, 3, 4, 5, 6, 7, 8, 9, 10, 11, 12, 13, 14, 15]

def iv₂ : Bytes := [16, 17, 18, 19, 20, 21, 22, 23, 24, 25, 26, 27, 28, 29, 30, 31]

def ciphertext₁ : Bytes :=
  [201, 47, 132, 33, 198, 111, 190, 27, 73, 71, 107, 142, 105, 239, 39, 155, 156, 134, 225, 33,
   251, 31, 52, 181, 199, 180, 32, 40, 92, 7, 237, 152, 160, 220, 163, 0, 125, 123, 174, 151,
   198, 119, 101, 15, 94, 77, 66, 82, 17, 7, 199, 198, 127, 40, 222, 55, 61, 196, 9, 95, 203,
   126, 181, 56, 198, 28, 213, 58, 3, 221, 56, 47, 3, 240, 204, 246, 247, 50, 180, 5]

def ciphertext₂ : Bytes :=
  [244, 212, 60, 182, 213, 76, 68, 29, 29, 143, 104, 199, 42, 45, 50, 90, 172, 109, 221, 164,
   67, 249, 218, 84, 124, 143, 14, 177, 129, 116, 40, 252, 19, 72, 92, 8, 121, 171, 205, 25,
   109, 41, 204, 22, 25, 147, 112, 212, 65, 51, 219, 162, 188, 160, 230, 162, 87, 38, 134, 50,
   45, 39, 60, 198]

def tag₁ : Bytes :=
  [179, 54, 214, 86, 168, 52, 39, 147, 171, 211, 129, 209, 117, 193, 100, 6, 46, 205, 251, 110,
   189, 36, 231, 79, 37, 55, 5, 188, 151, 201, 201, 161]

def tag₂ : Bytes :=
  [213, 206, 74, 250, 53, 164, 236, 214, 189, 48, 74, 111, 94, 230, 223, 15, 0, 204, 216, 71,
   228, 205, 107, 215, 73, 128, 55, 139, 186, 179, 12, 252]

def tag₁₂ : Bytes :=
  [157, 249, 75, 50, 189, 110, 235, 201, 13, 68, 61, 233, 210, 83, 186, 138, 78, 164, 119, 205,
   29, 35, 87, 123, 216, 210, 53, 62, 246, 28, 36, 160]

def token₁ : String := b64encode (iv₁ ++ tag₁ ++ ciphertext₁)

def sessionToken : String := "kX8sVZr0u3mQyT1wLhJ5cNfBgD7pEaRi-OoU2_tKzMs"

def sessionTokenHash : Bytes :=
  [115, 232, 212, 99, 128, 209, 227, 179, 195, 70, 121, 160, 204, 190, 228, 227, 108, 214, 176,
   236, 11, 5, 252, 227, 196, 124, 20, 209, 180, 104, 99, 56]

end Recorded

open Recorded in
/-- Library calls as recorded; what was not recorded has a default answer. -/
def recordedLibrary : Library where
  sha256 data :=
    if data = encodeUtf8 "local-app:local-secret" then key
    else if data = encodeUtf8 sessionToken then sessionTokenHash
    else List.replicate 32 0
  hmacSha256 k msg :=
    if k = key ∧ msg = ciphertext₁ ++ iv₁ then tag₁
    else if k = key ∧ msg = ciphertext₂ ++ iv₂ then tag₂
    else if k = key ∧ msg = ciphertext₂ ++ iv₁ then tag₁₂
    else List.replicate hmacLength 0
  aesCbcEncrypt := cipher
  aesCbcDecrypt := cipher
  b64decodeValidate := stdB64decodeValidate
  urlsafeB64decode := stdUrlsafeB64decode
  jsonDumps
    | .obj [_, (_, .null), _] => text₂
    | _ => text₁
  jsonLoads text :=
    if text = text₁ then .ok (.obj payload₁)
    else if text = text₂ then .ok (.obj payload₂)
    else .error .jsonDecodeError
  jsonLoadsBytes _ := .error .jsonDecodeError
  validateInt := Lax.validateInt
  validateStr := Lax.validateStr
where
  /-- The recorded blocks are exchanged, which serves for both directions. -/
  cipher (k iv data : Bytes) : Except LibError Bytes :=
    if data.length % 16 ≠ 0 then .error .valueError
    else if k = key ∧ iv = iv₁ then .ok (Equiv.swap (pkcs7Pad (encodeUtf8 text₁)) ciphertext₁ data)
    else if k = key ∧ iv = iv₂ then .ok (Equiv.swap (pkcs7Pad (encodeUtf8 text₂)) ciphertext₂ data)
    else .ok data

end WikiBackend
