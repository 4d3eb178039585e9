import WikiBackend.Services.Effects

/-! Users: the repository. -/

namespace WikiBackend

structure UserProfile where
  id : Int
  telegramId : Int
  username : Option String
  firstName : Option String
  lastName : Option String
  photoUrl : Option String
  permission : Option String
  createdAt : Instant
  lastLoginAt : Instant
  deriving DecidableEq

def UserRow.toProfile (r : UserRow) : UserProfile where
  id := r.id
  telegramId := r.telegramId
  username := r.username
  firstName := r.firstName
  lastName := r.lastName
  photoUrl := r.photoUrl
  permission := r.permission
  createdAt := r.createdAt
  lastLoginAt := r.lastLoginAt

namespace UserRepository

def upsertUser (telegramId : Int) (username firstName lastName photoUrl permission : Option PyStr) :
    Act (UserProfile × Bool) := do
  let now ← clock
  let row ← sql (.upsertUser ⟨telegramId, username, firstName, lastName, photoUrl, permission, now⟩)
  match row with
  | none => throw (.lib (.runtimeError "Failed to upsert user"))
  | some (row, created) => return (row.toProfile, created)

def getById (userId : Int) : Act (Option UserProfile) := do
  let row ← sql (.userById userId)
  return row.map (·.toProfile)

def searchByUsername (query : String) (limit : Int) : Act (List UserProfile) := do
  let rows ← sql (.usersByUsername ("%" ++ query ++ "%") limit)
  return rows.map (·.toProfile)

end UserRepository

end WikiBackend
