import WikiBackend.Services.Effects

/-! Sessions: the repository. -/

namespace WikiBackend.SessionRepository

def createSession (sessionId : UUID) (userId : Int) (tokenHash : String) (expiresAt : Instant) :
    Act SessionRecord := do
  let row ← sql (.insertSession sessionId userId tokenHash expiresAt)
  match row with
  | none => throw (.lib (.runtimeError "Failed to create session"))
  | some row => return row

def getByTokenHash (tokenHash : String) : Act (Option SessionRecord) :=
  sql (.sessionByTokenHash tokenHash)

def updateExpiry (tokenHash : String) (expiresAt : Instant) : Act (Option SessionRecord) := do
  let now ← clock
  sql (.updateExpiry tokenHash expiresAt now)

def revoke (tokenHash : String) (revokedAt : Instant) : Act Unit := do
  let _ ← sql (.revoke tokenHash revokedAt)

end WikiBackend.SessionRepository
