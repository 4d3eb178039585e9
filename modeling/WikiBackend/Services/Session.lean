import WikiBackend.Repositories.Sessions
import WikiBackend.Repositories.Spaces
import WikiBackend.Repositories.Users
import WikiBackend.Token.Mock

/-! The services: authentication, sessions, spaces, users. -/

namespace WikiBackend

structure App where
  lib : Library
  tokenService : TokenService
  sessionTtlSeconds : Int
  /-- case folding of the database's locale -/
  fold : Char → Char

def getApp (L : Library) (fold : Char → Char) (env : Environ) : Except LibError App := do
  let tokenService ← getTokenService L env
  let settings ← getSettings env
  return ⟨L, tokenService, settings.sessionTtlSeconds, fold⟩

def recordedApp : App where
  lib := recordedLibrary
  tokenService := .new recordedLibrary "local-app" "local-secret" 300
  sessionTtlSeconds := 3600
  fold := Char.toLower

structure SessionData where
  user : UserProfile
  expiresAt : Instant
  sessionToken : Option String
  deriving DecidableEq

namespace App

variable (app : App)

/-! ## Authentication -/

/-- `TokenService.verify_token`: the clock is read only for a token that decrypts. -/
def verifyAccessToken (token : String) : Act TokenPayload := do
  let data ← fromExcept (app.tokenService.decryptAndValidate app.lib token)
  let now ← clock
  fromExcept (app.tokenService.checkTtl now data)

def verifyToken (token : String) : Act (UserProfile × Bool) := do
  let payload ← app.verifyAccessToken token
  orInternalError
    (UserRepository.upsertUser payload.telegramId payload.username payload.firstName
      payload.lastName payload.photoUrl payload.permission)

/-! ## Sessions -/

def hashToken (token : String) : String := hexdigest (app.lib.sha256 (encodeUtf8 token))

def ensureActive (record : SessionRecord) : Act Unit := do
  let now ← clock
  if record.revokedAt.isSome then throw (appError 401 .sessionExpired)
  if record.expiresAt ≤ now then throw (appError 401 .sessionExpired)

def expiresAt (ttlSeconds : Int) : Act Instant := do
  let now ← clock
  fromExcept (addSeconds now ttlSeconds)

def getSessionRecord (sessionToken : String) : Act SessionRecord := do
  match ← SessionRepository.getByTokenHash (app.hashToken sessionToken) with
  | none => throw (appError 401 .sessionMissing)
  | some record =>
    ensureActive record
    return record

def getUser (record : SessionRecord) : Act UserProfile := do
  match ← UserRepository.getById record.userId with
  | none => throw (appError 500 .internalError)
  | some user => return user

def createSession (token : String) : Act SessionData := do
  let (user, _) ← app.verifyToken token
  let sessionToken ← tokenUrlsafe
  let tokenHash := app.hashToken sessionToken
  let expires ← expiresAt app.sessionTtlSeconds
  let _ ← orInternalError do
    let sessionId ← uuid4
    SessionRepository.createSession sessionId user.id tokenHash expires
  return { user := user, expiresAt := expires, sessionToken := some sessionToken }

def getSession (sessionToken : String) : Act SessionData := do
  let record ← app.getSessionRecord sessionToken
  let user ← getUser record
  return { user := user, expiresAt := record.expiresAt, sessionToken := none }

def refreshSession (sessionToken : String) : Act SessionData := do
  let record ← app.getSessionRecord sessionToken
  let newExpiresAt ← expiresAt app.sessionTtlSeconds
  let updated ← orInternalError
    (SessionRepository.updateExpiry (app.hashToken sessionToken) newExpiresAt)
  if updated.isNone then throw (appError 401 .sessionMissing)
  let user ← getUser record
  return { user := user, expiresAt := newExpiresAt, sessionToken := none }

def revokeSession (sessionToken : String) : Act Unit := do
  let _ ← app.getSessionRecord sessionToken
  let now ← clock
  orInternalError (SessionRepository.revoke (app.hashToken sessionToken) now)

end App

/-! ## Spaces and users -/

namespace SpaceService

def createSpace (name : String) (userId : Int) : Act UUID := SpaceRepository.createSpace name userId

end SpaceService

namespace UserService

def searchUsers (query : String) (limit : Int) : Act (List UserProfile) :=
  UserRepository.searchByUsername query limit

end UserService

end WikiBackend
