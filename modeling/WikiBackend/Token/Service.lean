import WikiBackend.Core.Clock
import WikiBackend.Core.Config
import WikiBackend.Token.Library

/-! Decryption and validation of the access token. -/

namespace WikiBackend

def ivLength : Nat := 16
def hmacLength : Nat := 32
def jwtDotCount : Nat := 2

abbrev oauthCodeInvalid : Exc := appError 401 .oauthCodeInvalid

def call {α : Type} (x : Except LibError α) : Except Exc α := x.mapError .lib

/-- `try: x; except (binascii.Error, ValueError): h` -/
def exceptValueError {α : Type} (x h : Except Exc α) : Except Exc α :=
  tryCatch x fun e => if e.isValueError then h else throw e

def exceptException {α : Type} (x h : Except Exc α) : Except Exc α := tryCatch x fun _ => h

structure TokenPayload where
  telegramId : Int
  username : Option PyStr
  createdAt : Int
  firstName : Option PyStr
  lastName : Option PyStr
  photoUrl : Option PyStr
  permission : Option PyStr
  deriving DecidableEq

section
variable (L : Library)

def validateOptStr : Json → Except LibError (Option PyStr)
  | .null => .ok none
  | v => some <$> L.validateStr v

def requiredField {α : Type} (payload : Dict) (name : String) (validate : Json → Except LibError α) :
    Except LibError α :=
  match payload.lookup name with
  | some v => validate v
  | none => .error .validationError

def defaultField {α : Type} (payload : Dict) (name : String) (default : α)
    (validate : Json → Except LibError α) : Except LibError α :=
  match payload.lookup name with
  | some v => validate v
  | none => .ok default

/-- `TokenPayload.model_validate(payload)`; fields that are not declared are ignored. -/
def modelValidate (payload : Dict) : Except LibError TokenPayload := do
  let telegramId ← requiredField payload "telegram_id" L.validateInt
  let username ← requiredField payload "username" (validateOptStr L)
  let createdAt ← requiredField payload "created_at" L.validateInt
  let firstName ← defaultField payload "first_name" none (validateOptStr L)
  let lastName ← defaultField payload "last_name" none (validateOptStr L)
  let photoUrl ← defaultField payload "photo_url" none (validateOptStr L)
  let permission ← defaultField payload "permission" none (validateOptStr L)
  return ⟨telegramId, username, createdAt, firstName, lastName, photoUrl, permission⟩

def padB64 (value : String) : String :=
  value ++ String.ofList (List.replicate ((4 - value.length % 4) % 4) '=')

def b64decode (token : String) : Except Exc Bytes :=
  let cleaned := strip token
  exceptValueError (call (L.b64decodeValidate cleaned))
    (exceptValueError (call (L.urlsafeB64decode (padB64 cleaned))) (throw oauthCodeInvalid))

/-- Python's `data[-n:]` and `data[:-n]` for `n ≥ 1`, also where `n` exceeds the length. -/
def lastBytes (data : Bytes) (n : Nat) : Bytes := data.drop (data.length - n)
def dropLastBytes (data : Bytes) (n : Nat) : Bytes := data.take (data.length - n)

def pkcs7Unpad (data : Bytes) : Except Exc Bytes :=
  match data.getLast? with
  | none => throw oauthCodeInvalid
  | some last =>
    let padLen := last.toNat
    if padLen < 1 ∨ padLen > ivLength then throw oauthCodeInvalid
    else if lastBytes data padLen ≠ List.replicate padLen last then throw oauthCodeInvalid
    else return dropLastBytes data padLen

/-- The middle part of `text.split(".", 2)`. -/
def payloadSegment (text : String) : String :=
  String.ofList (((text.toList.dropWhile (· ≠ '.')).drop 1).takeWhile (· ≠ '.'))

def parsePayload (text : String) : Except Exc Json :=
  tryCatch (call (L.jsonLoads text)) fun e =>
    if e = .lib .jsonDecodeError then
      if text.toList.count '.' = jwtDotCount then
        exceptValueError
          (do
            let decoded ← call (L.urlsafeB64decode (padB64 (payloadSegment text)))
            call (L.jsonLoadsBytes decoded))
          (throw oauthCodeInvalid)
      else throw oauthCodeInvalid
    else throw e

end

structure TokenService where
  key : Bytes
  ttlSeconds : Int

namespace TokenService

def new (L : Library) (applicationId secretKey : String) (ttlSeconds : Int) : TokenService where
  key := L.sha256 (encodeUtf8 (applicationId ++ ":" ++ secretKey))
  ttlSeconds := ttlSeconds

variable (L : Library) (svc : TokenService)

def decrypt (token : String) : Except Exc Dict := do
  let raw ← exceptException (b64decode L token) (throw oauthCodeInvalid)
  if raw.length ≤ ivLength + hmacLength then throw oauthCodeInvalid
  let iv := raw.take ivLength
  let expectedHash := (raw.drop ivLength).take hmacLength
  let ciphertext := raw.drop (ivLength + hmacLength)
  let computedHash := L.hmacSha256 svc.key (ciphertext ++ iv)
  if computedHash ≠ expectedHash then throw oauthCodeInvalid
  let padded ← call (L.aesCbcDecrypt svc.key iv ciphertext)
  let plaintext ← exceptException (pkcs7Unpad padded) (throw oauthCodeInvalid)
  -- a failed decoding raises UnicodeDecodeError, the only exception caught here
  let text ← exceptException (call (decodeUtf8 plaintext)) (throw oauthCodeInvalid)
  match ← parsePayload L text with
  | .obj payload => return payload
  | _ => throw oauthCodeInvalid

/-- The guarded part of `verify_token`: what is not a domain error becomes one. -/
def decryptAndValidate (token : String) : Except Exc TokenPayload :=
  tryCatch
    (do
      let payload ← svc.decrypt L token
      call (modelValidate L payload))
    fun e =>
      match e with
      | .app e => throw (.app e)
      | .lib _ => throw oauthCodeInvalid

def checkTtl (now : Instant) (data : TokenPayload) : Except Exc TokenPayload :=
  if unixTime now - data.createdAt > svc.ttlSeconds then throw oauthCodeInvalid else return data

def verifyToken (now : Instant) (token : String) : Except Exc TokenPayload := do
  let data ← svc.decryptAndValidate L token
  svc.checkTtl now data

end TokenService

def getTokenService (L : Library) (env : Environ) : Except LibError TokenService := do
  let settings ← getSettings env
  return .new L settings.oauthNameApplicationId settings.oauthNameSecretKey settings.tokenTtlSeconds

end WikiBackend
