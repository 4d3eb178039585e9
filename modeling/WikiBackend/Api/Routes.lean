import WikiBackend.Services.Session

/-! The routes: requests after the framework's validation of their declared
constraints, and the responses of their handlers. -/

namespace WikiBackend

/-! ## Schemas -/

structure TokenRequest where
  token : String
  minLength : 1 ≤ token.length

structure SpaceCreateRequest where
  name : String
  minLength : 1 ≤ name.length
  maxLength : name.length ≤ 255

structure SearchQuery where
  q : String
  limit : Int
  minLength : 3 ≤ q.length
  maxLength : q.length ≤ 64
  limitPos : 0 < limit
  limitMax : limit ≤ 100

structure TokenUserResponse where
  telegramId : Int
  username : Option String
  createdAt : Instant
  lastLoginAt : Instant
  deriving DecidableEq

def UserProfile.toTokenUser (u : UserProfile) : TokenUserResponse :=
  ⟨u.telegramId, u.username, u.createdAt, u.lastLoginAt⟩

structure UserSearchResult where
  telegramId : Int
  username : Option String
  photoUrl : Option String
  deriving DecidableEq

def UserProfile.toSearchResult (u : UserProfile) : UserSearchResult :=
  ⟨u.telegramId, u.username, u.photoUrl⟩

inductive Request where
  /-- `POST /token` -/
  | verifyToken (body : TokenRequest)
  /-- `POST /session` -/
  | createSession (body : TokenRequest)
  /-- `GET /session` -/
  | getSession (authorization : Option String)
  /-- `POST /session/refresh` -/
  | refreshSession (authorization : Option String)
  /-- `DELETE /session` -/
  | deleteSession (authorization : Option String)
  /-- `POST /spaces` -/
  | createSpace (body : SpaceCreateRequest) (authorization : Option String)
  /-- `GET /users/search` -/
  | searchUsers (query : SearchQuery) (authorization : Option String)

inductive Response where
  | tokenVerify (created : Bool) (user : TokenUserResponse)
  | sessionCreate (authenticated : Bool) (sessionToken : String) (expiresAt : Instant)
      (user : TokenUserResponse)
  | sessionStatus (authenticated : Bool) (expiresAt : Instant) (user : TokenUserResponse)
  | sessionLogout (authenticated : Bool)
  | spaceCreate (id : UUID)
  | userSearch (users : List UserSearchResult)
  deriving DecidableEq

/-! ## Handlers -/

def extractBearerToken (authorization : Option String) : Except Exc String :=
  match authorization with
  | none => throw (appError 401 .sessionMissing)
  | some authorization =>
    if strip authorization = "" then throw (appError 401 .sessionMissing)
    else
      let (scheme, credentials) := partitionSpace authorization
      if lower scheme ≠ "bearer" ∨ strip credentials = "" then throw (appError 400 .validationError)
      else return strip credentials

namespace Routes

variable (app : App)

def verifyToken (body : TokenRequest) : Act Response := do
  let token := strip body.token
  if token = "" then throw (appError 400 .validationError)
  let (user, created) ← app.verifyToken token
  return .tokenVerify created user.toTokenUser

def createSession (body : TokenRequest) : Act Response := do
  let token := strip body.token
  if token = "" then throw (appError 400 .validationError)
  let data ← app.createSession token
  match data.sessionToken with
  | none => throw (appError 500 .internalError)
  | some sessionToken => return .sessionCreate true sessionToken data.expiresAt data.user.toTokenUser

def getSession (authorization : Option String) : Act Response := do
  let sessionToken ← fromExcept (extractBearerToken authorization)
  let data ← app.getSession sessionToken
  return .sessionStatus true data.expiresAt data.user.toTokenUser

def refreshSession (authorization : Option String) : Act Response := do
  let sessionToken ← fromExcept (extractBearerToken authorization)
  let data ← app.refreshSession sessionToken
  return .sessionStatus true data.expiresAt data.user.toTokenUser

def deleteSession (authorization : Option String) : Act Response := do
  let sessionToken ← fromExcept (extractBearerToken authorization)
  app.revokeSession sessionToken
  return .sessionLogout false

def createSpace (body : SpaceCreateRequest) (authorization : Option String) : Act Response := do
  let sessionToken ← fromExcept (extractBearerToken authorization)
  let sessionData ← app.getSession sessionToken
  let userId := sessionData.user.id
  if strip body.name = "" then throw (appError 400 .validationError)
  let spaceId ← SpaceService.createSpace body.name userId
  return .spaceCreate spaceId

def searchUsers (query : SearchQuery) (authorization : Option String) : Act Response := do
  let sessionToken ← fromExcept (extractBearerToken authorization)
  let _ ← app.getSession sessionToken
  let users ← UserService.searchUsers query.q query.limit
  return .userSearch (users.map (·.toSearchResult))

end Routes

def App.handler (app : App) : Request → Act Response
  | .verifyToken body => Routes.verifyToken app body
  | .createSession body => Routes.createSession app body
  | .getSession authorization => Routes.getSession app authorization
  | .refreshSession authorization => Routes.refreshSession app authorization
  | .deleteSession authorization => Routes.deleteSession app authorization
  | .createSpace body authorization => Routes.createSpace app body authorization
  | .searchUsers query authorization => Routes.searchUsers app query authorization

/-! ## Connections -/

/-- `get_connection` up to its `yield`: there is no pool, or `pool.acquire()` raises or returns. -/
def getConnection : Option (Except LibError Unit) → Except LibError Unit
  | none => .error (.runtimeError "Database pool is not initialized")
  | some acquired => acquired

/-- Every route depends on a connection, which it gets before its handler is called. -/
def App.endpoint (app : App) (pool : Option (Except LibError Unit)) (req : Request) :
    Act Response := do
  fromExcept (call (getConnection pool))
  app.handler req

theorem App.finishes_endpoint {app : App} {pool : Option (Except LibError Unit)} {req : Request}
    {evs : List Ev} {r : Except Exc Response} :
    Effects.Finishes (app.endpoint pool req).run evs r ↔
      (∃ e, getConnection pool = .error e ∧ evs = [] ∧ r = .error (.lib e)) ∨
      getConnection pool = .ok () ∧ Effects.Finishes (app.handler req).run evs r := by
  rw [endpoint, fromExcept, Effects.finishes_ofExcept_andThen]
  cases getConnection pool with
  | error e => simp [call, Except.mapError]
  | ok u => simp [call, Except.mapError]

/-- The application serving requests over the world it shares with them, each on a connection of
its own. -/
def App.system (app : App) :
    Effects.System Eff Eff.Answer World Request (Except Exc Response) Choice where
  body req := (app.handler req).run
  exec := World.exec app.fold

/-- The application while nothing fails outside of it. -/
def App.undisturbed (app : App) :
    Effects.System Eff Eff.Answer World Request (Except Exc Response) Choice where
  body req := (app.handler req).run
  exec := World.execUndisturbed app.fold

theorem App.body_eq (app : App) (req : Request) : app.system.body req = (app.handler req).run := rfl

end WikiBackend
