import WikiBackend.Api.Transitions
import WikiBackend.Services.Paths

/-! Which statements a request executes, and what it did before each of them. -/

namespace WikiBackend

open Effects

def Request.sessionToken? : Request → Option String
  | verifyToken _ | createSession _ => none
  | getSession authorization | refreshSession authorization | deleteSession authorization
  | createSpace _ authorization | searchUsers _ authorization =>
    (extractBearerToken authorization).toOption

def Request.onSession : Request → Bool
  | .getSession _ | .refreshSession _ | .deleteSession _ => true
  | _ => false

def Request.accessToken? : Request → Option String
  | verifyToken body | createSession body => some (strip body.token)
  | _ => none

namespace App

variable {app : App} {s : String} {evs : List Ev} {e : Eff} {q : Stmt}

/-- `Executes app req evs q`: after the events `evs` the request `req` is about to execute `q`. -/
inductive Executes (app : App) : Request → List Ev → Stmt → Prop where
  | upsertUser {req token t p now} : req.accessToken? = some token → app.Accepts t token p →
      Executes app req [clockEv t, clockEv now] (.upsertUser (p.upsertParams now))
  | insertSession {body t p now row created s t' expires u} :
      app.Accepts t (strip body.token) p → addSeconds t' app.sessionTtlSeconds = .ok expires →
      Executes app (.createSession body)
        [clockEv t, clockEv now,
          sqlEv (.upsertUser (p.upsertParams now)) (.ok (some (row, created))),
          tokenEv s, clockEv t', uuidEv u]
        (.insertSession u row.id (app.hashToken s) expires)
  | sessionByTokenHash {req s} : req.sessionToken? = some s →
      Executes app req [] (.sessionByTokenHash (app.hashToken s))
  | userById {req s rec t evs} : req.sessionToken? = some s → rec.Active t →
      Executes app req (app.selectEv s rec :: clockEv t :: evs) (.userById rec.userId)
  | updateExpiry {authorization s rec t t' expires now} :
      extractBearerToken authorization = .ok s → rec.Active t →
      addSeconds t' app.sessionTtlSeconds = .ok expires →
      Executes app (.refreshSession authorization)
        [app.selectEv s rec, clockEv t, clockEv t', clockEv now]
        (.updateExpiry (app.hashToken s) expires now)
  | revoke {authorization s rec t now} :
      extractBearerToken authorization = .ok s → rec.Active t →
      Executes app (.deleteSession authorization)
        [app.selectEv s rec, clockEv t, clockEv now] (.revoke (app.hashToken s) now)
  | usersByUsername {query authorization s rec t user} :
      extractBearerToken authorization = .ok s → rec.Active t →
      Executes app (.searchUsers query authorization)
        [app.selectEv s rec, clockEv t, userEv rec user]
        (.usersByUsername ("%" ++ query.q ++ "%") query.limit)
  | begin {body authorization s rec t user} :
      extractBearerToken authorization = .ok s → rec.Active t → strip body.name ≠ "" →
      Executes app (.createSpace body authorization)
        [app.selectEv s rec, clockEv t, userEv rec user] .begin
  | insertSpace {body authorization s rec t user} :
      extractBearerToken authorization = .ok s → rec.Active t → strip body.name ≠ "" →
      Executes app (.createSpace body authorization)
        [app.selectEv s rec, clockEv t, userEv rec user, sqlEv .begin (.ok ())]
        (.insertSpace body.name)
  | insertOwner {body authorization s rec t user spaceId} :
      extractBearerToken authorization = .ok s → rec.Active t → strip body.name ≠ "" →
      Executes app (.createSpace body authorization)
        [app.selectEv s rec, clockEv t, userEv rec user, sqlEv .begin (.ok ()),
          sqlEv (.insertSpace body.name) (.ok spaceId)]
        (.insertOwner user.id spaceId)
  | commit {body authorization s rec t user spaceId} :
      extractBearerToken authorization = .ok s → rec.Active t → strip body.name ≠ "" →
      Executes app (.createSpace body authorization)
        [app.selectEv s rec, clockEv t, userEv rec user, sqlEv .begin (.ok ()),
          sqlEv (.insertSpace body.name) (.ok spaceId),
          sqlEv (.insertOwner user.id spaceId) (.ok ())]
        .commit
  | rollback {body authorization s rec t user evs} :
      extractBearerToken authorization = .ok s → rec.Active t → strip body.name ≠ "" →
      Executes app (.createSpace body authorization)
        ([app.selectEv s rec, clockEv t, userEv rec user, sqlEv .begin (.ok ())] ++ evs) .rollback

/-! ## Who executes a write -/

theorem Executes.of_insertSession {req : Request} {id : UUID} {userId : Int} {hash : String}
    {expires : Instant} (h : app.Executes req evs (.insertSession id userId hash expires)) :
    ∃ body t p now row created s t', req = .createSession body ∧
      app.Accepts t (strip body.token) p ∧ addSeconds t' app.sessionTtlSeconds = .ok expires ∧
      evs = [clockEv t, clockEv now,
        sqlEv (.upsertUser (p.upsertParams now)) (.ok (some (row, created))),
        tokenEv s, clockEv t', uuidEv id] ∧
      userId = row.id ∧ hash = app.hashToken s := by
  cases h with
  | insertSession ha ht => exact ⟨_, _, _, _, _, _, _, _, rfl, ha, ht, rfl, rfl, rfl⟩

theorem Executes.of_upsertUser {req : Request} {p : UpsertParams}
    (h : app.Executes req evs (.upsertUser p)) :
    ∃ token t data now, req.accessToken? = some token ∧ app.Accepts t token data ∧
      evs = [clockEv t, clockEv now] ∧ p = data.upsertParams now := by
  cases h with
  | upsertUser hreq ha => exact ⟨_, _, _, _, hreq, ha, rfl, rfl⟩

theorem Executes.of_updateExpiry {req : Request} {hash : String} {expires now : Instant}
    (h : app.Executes req evs (.updateExpiry hash expires now)) :
    ∃ authorization s rec t t', req = .refreshSession authorization ∧
      extractBearerToken authorization = .ok s ∧ rec.Active t ∧
      addSeconds t' app.sessionTtlSeconds = .ok expires ∧
      evs = [app.selectEv s rec, clockEv t, clockEv t', clockEv now] ∧ hash = app.hashToken s := by
  cases h with
  | updateExpiry hs ha ht => exact ⟨_, _, _, _, _, rfl, hs, ha, ht, rfl, rfl⟩

theorem Executes.of_revoke {req : Request} {hash : String} {now : Instant}
    (h : app.Executes req evs (.revoke hash now)) :
    ∃ authorization s rec t, req = .deleteSession authorization ∧
      extractBearerToken authorization = .ok s ∧ rec.Active t ∧
      evs = [app.selectEv s rec, clockEv t, clockEv now] ∧ hash = app.hashToken s := by
  cases h with
  | revoke hs ha => exact ⟨_, _, _, _, rfl, hs, ha, rfl, rfl⟩

theorem Executes.of_sessionByTokenHash {req : Request} {hash : String}
    (h : app.Executes req evs (.sessionByTokenHash hash)) :
    ∃ s, req.sessionToken? = some s ∧ evs = [] ∧ hash = app.hashToken s := by
  cases h with
  | sessionByTokenHash hs => exact ⟨_, hs, rfl, rfl⟩

theorem Executes.of_userById {req : Request} {id : Int} (h : app.Executes req evs (.userById id)) :
    ∃ s rec t evs', req.sessionToken? = some s ∧ rec.Active t ∧
      evs = app.selectEv s rec :: clockEv t :: evs' ∧ id = rec.userId := by
  cases h with
  | userById hs ha => exact ⟨_, _, _, _, hs, ha, rfl, rfl⟩

theorem Executes.of_insertSpace {req : Request} {name : String}
    (h : app.Executes req evs (.insertSpace name)) :
    ∃ s rec t user,
      evs = [app.selectEv s rec, clockEv t, userEv rec user, sqlEv .begin (.ok ())] := by
  cases h with
  | insertSpace _ _ _ => exact ⟨_, _, _, _, rfl⟩

theorem Executes.of_insertOwner {req : Request} {userId : Int} {spaceId : UUID}
    (h : app.Executes req evs (.insertOwner userId spaceId)) :
    ∃ s rec t user name, evs = [app.selectEv s rec, clockEv t, userEv rec user,
      sqlEv .begin (.ok ()), sqlEv (.insertSpace name) (.ok spaceId)] := by
  cases h with
  | insertOwner _ _ _ => exact ⟨_, _, _, _, _, rfl⟩

theorem Executes.of_commit {req : Request} (h : app.Executes req evs .commit) :
    ∃ body authorization s rec t user spaceId, req = .createSpace body authorization ∧
      extractBearerToken authorization = .ok s ∧ rec.Active t ∧ strip body.name ≠ "" ∧
      evs = [app.selectEv s rec, clockEv t, userEv rec user, sqlEv .begin (.ok ()),
        sqlEv (.insertSpace body.name) (.ok spaceId),
        sqlEv (.insertOwner user.id spaceId) (.ok ())] := by
  cases h with
  | commit hs ha hn => exact ⟨_, _, _, _, _, _, _, rfl, hs, ha, hn, rfl⟩

/-! ## The statements of each service -/

theorem issues_verifyAccessToken {token : String}
    (h : Issues (app.verifyAccessToken token).run evs e) : e = .clock := by
  rw [verifyAccessToken, issues_ofExcept_andThen] at h
  obtain ⟨data, -, h⟩ := h
  rcases issues_perform_andThen.1 h with ⟨-, rfl⟩ | ⟨_, _, -, h⟩
  · rfl
  · exact absurd h issues_ofExcept

theorem issues_verifyToken {token : String} (h : Issues (app.verifyToken token).run evs (.sql q)) :
    ∃ t p now, app.Accepts t token p ∧ evs = [clockEv t, clockEv now] ∧
      q = .upsertUser (p.upsertParams now) := by
  rw [verifyToken, issues_andThen] at h
  rcases h with h | ⟨_, p, _, rfl, h₁, h₂⟩
  · cases issues_verifyAccessToken h
  obtain ⟨t, rfl, ha⟩ := finishes_verifyAccessToken_ok.1 h₁
  rw [issues_orInternalError, UserRepository.upsertUser, issues_perform_andThen] at h₂
  rcases h₂ with ⟨-, h₂⟩ | ⟨now, _, rfl, h₂⟩
  · cases h₂
  rcases issues_sql_andThen.1 h₂ with ⟨rfl, h₃⟩ | ⟨_ | _, _, -, h₃⟩
  · cases h₃
    exact ⟨t, p, now, ha, rfl, rfl⟩
  · exact absurd h₃ issues_throw
  · exact absurd h₃ issues_pure

theorem issues_createSession {token : String}
    (h : Issues (app.createSession token).run evs (.sql q)) :
    (∃ t p now, app.Accepts t token p ∧ evs = [clockEv t, clockEv now] ∧
      q = .upsertUser (p.upsertParams now)) ∨
    ∃ t p now row created s t' expires u, app.Accepts t token p ∧
      addSeconds t' app.sessionTtlSeconds = .ok expires ∧
      evs = [clockEv t, clockEv now,
        sqlEv (.upsertUser (p.upsertParams now)) (.ok (some (row, created))),
        tokenEv s, clockEv t', uuidEv u] ∧
      q = .insertSession u row.id (app.hashToken s) expires := by
  rw [createSession, issues_andThen] at h
  rcases h with h | ⟨_, ⟨profile, created⟩, _, rfl, h₁, h₂⟩
  · exact .inl (issues_verifyToken h)
  obtain ⟨t, p, now, row, ha, rfl, rfl⟩ := finishes_verifyToken_ok.1 h₁
  rcases issues_perform_andThen.1 h₂ with ⟨-, he⟩ | ⟨s, _, rfl, h₃⟩
  · cases he
  rcases issues_andThen.1 h₃ with h₄ | ⟨_, expires, _, rfl, hx, h₄⟩
  · rw [expiresAt, issues_perform_andThen] at h₄
    rcases h₄ with ⟨-, he⟩ | ⟨_, _, -, h₄⟩
    · cases he
    · exact absurd h₄ issues_ofExcept
  obtain ⟨t', rfl, ht⟩ := finishes_expiresAt.1 hx
  rcases issues_andThen.1 h₄ with h₅ | ⟨_, _, _, -, -, h₅⟩
  · rw [issues_orInternalError, issues_perform_andThen] at h₅
    rcases h₅ with ⟨-, he⟩ | ⟨u, _, rfl, h₅⟩
    · cases he
    rcases issues_sql_andThen.1 h₅ with ⟨rfl, he⟩ | ⟨_ | _, _, -, h₆⟩
    · cases he
      exact .inr ⟨t, p, now, row, created, s, t', expires, u, ha, ht.symm, rfl, rfl⟩
    · exact absurd h₆ issues_throw
    · exact absurd h₆ issues_pure
  · exact absurd h₅ issues_pure

theorem issues_ensureActive {rec : SessionRecord} (h : Issues (ensureActive rec).run evs e) :
    evs = [] ∧ e = .clock := by
  rw [ensureActive, issues_perform_andThen] at h
  rcases h with h | ⟨t, _, rfl, h₁⟩
  · exact h
  · rcases rec with ⟨id, userId, expires, _ | revoked⟩
    · by_cases he : expires ≤ t <;> simp [he] at h₁
    · simp at h₁

theorem issues_getSessionRecord (h : Issues (app.getSessionRecord s).run evs (.sql q)) :
    evs = [] ∧ q = .sessionByTokenHash (app.hashToken s) := by
  rw [getSessionRecord, SessionRepository.getByTokenHash, issues_sql_andThen] at h
  rcases h with ⟨rfl, h⟩ | ⟨_ | rec, _, rfl, h₁⟩
  · cases h
    exact ⟨rfl, rfl⟩
  · exact absurd h₁ issues_throw
  · rcases issues_andThen.1 h₁ with h₂ | ⟨_, _, _, -, -, h₂⟩
    · cases (issues_ensureActive h₂).2
    · exact absurd h₂ issues_pure

theorem issues_getSessionRecord_andThen {α : Type} {f : SessionRecord → Act α}
    (h : Issues (app.getSessionRecord s >>= f).run evs (.sql q)) :
    (evs = [] ∧ q = .sessionByTokenHash (app.hashToken s)) ∨
    ∃ rec t evs', rec.Active t ∧ evs = app.selectEv s rec :: clockEv t :: evs' ∧
      Issues (f rec).run evs' (.sql q) := by
  rcases issues_andThen.1 h with h | ⟨_, rec, evs', rfl, h₁, h₂⟩
  · exact .inl (issues_getSessionRecord h)
  · obtain ⟨t, rfl, ha⟩ := finishes_getSessionRecord_ok.1 h₁
    exact .inr ⟨rec, t, evs', ha, rfl, h₂⟩

theorem issues_getUser {rec : SessionRecord} (h : Issues (getUser rec).run evs e) :
    evs = [] ∧ e = .sql (.userById rec.userId) := by
  rw [getUser, UserRepository.getById, bind_assoc, issues_sql_andThen] at h
  rcases h with h | ⟨_ | row, _, rfl, h₁⟩
  · exact h
  · exact absurd h₁ issues_throw
  · exact absurd h₁ issues_pure

theorem issues_getSession (h : Issues (app.getSession s).run evs (.sql q)) :
    (evs = [] ∧ q = .sessionByTokenHash (app.hashToken s)) ∨
    ∃ rec t, rec.Active t ∧ evs = [app.selectEv s rec, clockEv t] ∧ q = .userById rec.userId := by
  rw [getSession] at h
  rcases issues_getSessionRecord_andThen h with h | ⟨rec, t, _, ha, rfl, h₂⟩
  · exact .inl h
  rcases issues_andThen.1 h₂ with h₃ | ⟨_, _, _, -, -, h₃⟩
  · obtain ⟨rfl, he⟩ := issues_getUser h₃
    cases he
    exact .inr ⟨rec, t, ha, rfl, rfl⟩
  · exact absurd h₃ issues_pure

theorem issues_refreshSession (h : Issues (app.refreshSession s).run evs (.sql q)) :
    (evs = [] ∧ q = .sessionByTokenHash (app.hashToken s)) ∨
    ∃ rec t t' expires now, rec.Active t ∧ addSeconds t' app.sessionTtlSeconds = .ok expires ∧
      ((evs = [app.selectEv s rec, clockEv t, clockEv t', clockEv now] ∧
        q = .updateExpiry (app.hashToken s) expires now) ∨
      ∃ rec', evs = [app.selectEv s rec, clockEv t, clockEv t', clockEv now,
          sqlEv (.updateExpiry (app.hashToken s) expires now) (.ok (some rec'))] ∧
        q = .userById rec.userId) := by
  rw [refreshSession] at h
  rcases issues_getSessionRecord_andThen h with h | ⟨rec, t, _, ha, rfl, h₂⟩
  · exact .inl h
  refine .inr ⟨rec, t, ?_⟩
  rcases issues_andThen.1 h₂ with h₃ | ⟨_, expires, _, rfl, hx, h₃⟩
  · rw [expiresAt, issues_perform_andThen] at h₃
    rcases h₃ with ⟨-, h₃⟩ | ⟨_, _, -, h₃⟩
    · cases h₃
    · exact absurd h₃ issues_ofExcept
  obtain ⟨t', rfl, ht⟩ := finishes_expiresAt.1 hx
  refine ⟨t', expires, ?_⟩
  rcases issues_andThen.1 h₃ with h₄ | ⟨_, updated, _, rfl, hi, h₄⟩
  · rw [issues_orInternalError, SessionRepository.updateExpiry, issues_perform_andThen] at h₄
    rcases h₄ with ⟨-, h₄⟩ | ⟨now, _, rfl, h₄⟩
    · cases h₄
    obtain ⟨rfl, he⟩ := issues_sql.1 h₄
    cases he
    exact ⟨now, ha, ht.symm, .inl ⟨rfl, rfl⟩⟩
  obtain ⟨now, rfl⟩ := finishes_extend_ok hi
  rcases updated with _ | rec'
  · exact absurd h₄ issues_throw
  · rcases issues_andThen.1 h₄ with h₅ | ⟨_, _, _, -, -, h₅⟩
    · obtain ⟨rfl, he⟩ := issues_getUser h₅
      cases he
      exact ⟨now, ha, ht.symm, .inr ⟨rec', rfl, rfl⟩⟩
    · exact absurd h₅ issues_pure

theorem issues_revokeSession (h : Issues (app.revokeSession s).run evs (.sql q)) :
    (evs = [] ∧ q = .sessionByTokenHash (app.hashToken s)) ∨
    ∃ rec t now, rec.Active t ∧ evs = [app.selectEv s rec, clockEv t, clockEv now] ∧
      q = .revoke (app.hashToken s) now := by
  rw [revokeSession] at h
  rcases issues_getSessionRecord_andThen h with h | ⟨rec, t, _, ha, rfl, h₂⟩
  · exact .inl h
  rcases issues_perform_andThen.1 h₂ with ⟨-, h₃⟩ | ⟨now, _, rfl, h₃⟩
  · cases h₃
  rw [issues_orInternalError, SessionRepository.revoke] at h₃
  rcases issues_sql_andThen.1 h₃ with ⟨rfl, h₄⟩ | ⟨_, _, -, h₄⟩
  · cases h₄
    exact .inr ⟨rec, t, now, ha, rfl, rfl⟩
  · exact absurd h₄ issues_pure

/-! ## The statements of each request -/

theorem toOption_eq_some {α : Type} {x : Except Exc α} {a : α} (h : x = .ok a) :
    x.toOption = some a := by
  rw [h]
  rfl

theorem executes_of_getSession {α : Type} {req : Request} {f : SessionData → Act α}
    (hs : req.sessionToken? = some s) (h : Issues (app.getSession s >>= f).run evs (.sql q)) :
    app.Executes req evs q ∨
    ∃ rec t user evs', rec.Active t ∧
      evs = app.selectEv s rec :: clockEv t :: userEv rec user :: evs' ∧
      Issues (f ⟨user.toProfile, rec.expiresAt, none⟩).run evs' (.sql q) := by
  rcases issues_andThen.1 h with h₁ | ⟨_, data, evs', rfl, h₁, h₂⟩
  · rcases issues_getSession h₁ with ⟨rfl, rfl⟩ | ⟨rec, t, ha, rfl, rfl⟩
    · exact .inl (.sessionByTokenHash hs)
    · exact .inl (.userById hs ha)
  · obtain ⟨rec, t, user, ha, rfl, rfl⟩ := finishes_getSession_ok.1 h₁
    exact .inr ⟨rec, t, user, evs', ha, rfl, h₂⟩

theorem executes_verifyToken {body : TokenRequest}
    (h : Issues (app.handler (.verifyToken body)).run evs (.sql q)) :
    app.Executes (.verifyToken body) evs q := by
  simp only [handler, Routes.verifyToken] at h
  by_cases hb : strip body.token = ""
  · simp only [hb, if_true] at h
    exact absurd h issues_throw_andThen
  · simp only [hb, if_false] at h
    have h₁ := issues_andThen_pure.1 h
    obtain ⟨t, p, now, ha, rfl, rfl⟩ := issues_verifyToken h₁
    exact .upsertUser rfl ha

theorem executes_createSession {body : TokenRequest}
    (h : Issues (app.handler (.createSession body)).run evs (.sql q)) :
    app.Executes (.createSession body) evs q := by
  simp only [handler, Routes.createSession] at h
  by_cases hb : strip body.token = ""
  · simp only [hb, if_true] at h
    exact absurd h issues_throw_andThen
  simp only [hb, if_false] at h
  rcases issues_andThen.1 h with h₁ | ⟨_, ⟨user, expires, _ | s⟩, _, -, -, h₁⟩
  · rcases issues_createSession h₁ with ⟨t, p, now, ha, rfl, rfl⟩ |
      ⟨t, p, now, row, created, s, t', expires, u, ha, ht, rfl, rfl⟩
    · exact .upsertUser rfl ha
    · exact .insertSession ha ht
  · exact absurd h₁ issues_throw
  · exact absurd h₁ issues_pure

theorem executes_createSpace {body : SpaceCreateRequest} {authorization : Option String}
    (h : Issues (app.handler (.createSpace body authorization)).run evs (.sql q)) :
    app.Executes (.createSpace body authorization) evs q := by
  obtain ⟨s, hs, h₁⟩ := issues_ofExcept_andThen.1 h
  have hreq : (Request.createSpace body authorization).sessionToken? = some s := toOption_eq_some hs
  rcases executes_of_getSession hreq h₁ with hx |
    ⟨rec, t, user, evs', ha, rfl, h₂⟩
  · exact hx
  by_cases hb : strip body.name = ""
  · simp only [hb, if_true] at h₂
    exact absurd h₂ issues_throw_andThen
  simp only [hb, if_false] at h₂
  rcases issues_transaction (issues_andThen_pure.1 h₂) with ⟨rfl, he⟩ |
    ⟨evs', rfl, h₃ | ⟨_, -, he⟩ | ⟨id, h₃, he⟩⟩
  · cases he
    exact .begin hs ha hb
  · rcases issues_spaceInserts h₃ with ⟨rfl, he⟩ | ⟨id, rfl, he⟩
    · cases he
      exact .insertSpace hs ha hb
    · cases he
      exact .insertOwner hs ha hb
  · cases he
    exact .rollback hs ha hb
  · cases he
    obtain rfl := finishes_spaceInserts.1 h₃
    exact .commit hs ha hb

theorem executes_searchUsers {query : SearchQuery} {authorization : Option String}
    (h : Issues (app.handler (.searchUsers query authorization)).run evs (.sql q)) :
    app.Executes (.searchUsers query authorization) evs q := by
  obtain ⟨s, hs, h₁⟩ := issues_ofExcept_andThen.1 h
  have hreq : (Request.searchUsers query authorization).sessionToken? = some s := toOption_eq_some hs
  rcases executes_of_getSession hreq h₁ with hx |
    ⟨rec, t, user, evs', ha, rfl, h₂⟩
  · exact hx
  have h₃ := issues_andThen_pure.1 h₂
  rw [UserService.searchUsers, UserRepository.searchByUsername] at h₃
  obtain ⟨rfl, he⟩ := issues_sql.1 (issues_andThen_pure.1 h₃)
  cases he
  exact .usersByUsername hs ha

theorem executes_of_issues {req : Request} (h : Issues (app.handler req).run evs (.sql q)) :
    app.Executes req evs q := by
  cases req with
  | verifyToken body => exact executes_verifyToken h
  | createSession body => exact executes_createSession h
  | getSession authorization =>
    obtain ⟨s, hs, h₁⟩ := issues_ofExcept_andThen.1 h
    have hreq : (Request.getSession authorization).sessionToken? = some s := toOption_eq_some hs
    rcases executes_of_getSession hreq h₁ with hx | ⟨_, _, _, _, -, -, h₂⟩
    · exact hx
    · exact absurd h₂ issues_pure
  | refreshSession authorization =>
    obtain ⟨s, hs, h₁⟩ := issues_ofExcept_andThen.1 h
    rcases issues_refreshSession (issues_andThen_pure.1 h₁) with ⟨rfl, rfl⟩ |
      ⟨rec, t, t', expires, now, ha, ht, ⟨rfl, rfl⟩ | ⟨rec', rfl, rfl⟩⟩
    · exact .sessionByTokenHash (toOption_eq_some hs)
    · exact .updateExpiry hs ha ht
    · exact .userById (toOption_eq_some hs) ha
  | deleteSession authorization =>
    obtain ⟨s, hs, h₁⟩ := issues_ofExcept_andThen.1 h
    rcases issues_revokeSession (issues_andThen_pure.1 h₁) with ⟨rfl, rfl⟩ |
      ⟨rec, t, now, ha, rfl, rfl⟩
    · exact .sessionByTokenHash (toOption_eq_some hs)
    · exact .revoke hs ha
  | createSpace body authorization => exact executes_createSpace h
  | searchUsers query authorization => exact executes_searchUsers h

theorem bearer_of_toOption {authorization : Option String}
    (h : (extractBearerToken authorization).toOption = some s) :
    extractBearerToken authorization = .ok s := by
  cases hx : extractBearerToken authorization with
  | error e => rw [hx] at h; cases h
  | ok s' => rw [hx] at h; cases h; rfl

theorem request_of_sessionStatus {req : Request} {flag : Bool} {expires : Instant}
    {user : TokenUserResponse}
    (h : Finishes (app.handler req).run evs (.ok (.sessionStatus flag expires user))) :
    ∃ authorization, req = .getSession authorization ∨ req = .refreshSession authorization := by
  cases req with
  | verifyToken body =>
    simp only [handler, Routes.verifyToken] at h
    by_cases hb : strip body.token = ""
    · simp only [hb, if_true] at h
      cases (finishes_throw_andThen.1 h).2
    · simp only [hb, if_false] at h
      obtain ⟨_, -, hr⟩ := finishes_andThen_pure_ok.1 h
      cases hr
  | createSession body =>
    simp only [handler, Routes.createSession] at h
    by_cases hb : strip body.token = ""
    · simp only [hb, if_true] at h
      cases (finishes_throw_andThen.1 h).2
    simp only [hb, if_false] at h
    rcases finishes_andThen.1 h with ⟨_, -, hr⟩ | ⟨_, ⟨_, _, _ | _⟩, _, -, -, h₁⟩
    · cases hr
    · cases (finishes_throw.1 h₁).2
    · cases (finishes_pure.1 h₁).2
  | getSession authorization => exact ⟨authorization, .inl rfl⟩
  | refreshSession authorization => exact ⟨authorization, .inr rfl⟩
  | deleteSession authorization =>
    rcases finishes_ofExcept_andThen.1 h with ⟨_, -, -, hr⟩ | ⟨s, hs, h₁⟩
    · cases hr
    · obtain ⟨_, -, hr⟩ := finishes_andThen_pure_ok.1 h₁
      cases hr
  | createSpace body authorization =>
    rcases finishes_ofExcept_andThen.1 h with ⟨_, -, -, hr⟩ | ⟨s, hs, h₁⟩
    · cases hr
    rcases finishes_andThen.1 h₁ with ⟨_, -, hr⟩ | ⟨_, data, _, rfl, -, h₂⟩
    · cases hr
    by_cases hb : strip body.name = ""
    · simp only [hb, if_true] at h₂
      cases (finishes_throw_andThen.1 h₂).2
    · simp only [hb, if_false] at h₂
      obtain ⟨_, -, hr⟩ := finishes_andThen_pure_ok.1 h₂
      cases hr
  | searchUsers query authorization =>
    rcases finishes_ofExcept_andThen.1 h with ⟨_, -, -, hr⟩ | ⟨s, hs, h₁⟩
    · cases hr
    rcases finishes_andThen.1 h₁ with ⟨_, -, hr⟩ | ⟨_, data, _, rfl, -, h₂⟩
    · cases hr
    · obtain ⟨_, -, hr⟩ := finishes_andThen_pure_ok.1 h₂
      cases hr

theorem path_of_sessionStatus {req : Request} {flag : Bool} {expires : Instant}
    {user : TokenUserResponse} (hreq : req.sessionToken? = some s)
    (h : Finishes (app.handler req).run evs (.ok (.sessionStatus flag expires user))) :
    ∃ rec t evs' row, rec.Active t ∧
      evs = app.selectEv s rec :: clockEv t :: (evs' ++ [userEv rec row]) ∧
      user = row.toProfile.toTokenUser := by
  obtain ⟨authorization, rfl | rfl⟩ := request_of_sessionStatus h
  · rw [handler, Routes.getSession, bearer_of_toOption hreq] at h
    obtain ⟨data, h₁, hr⟩ := finishes_andThen_pure_ok.1 h
    obtain ⟨rec, t, row, ha, rfl, rfl⟩ := finishes_getSession_ok.1 h₁
    cases hr
    exact ⟨rec, t, [], row, ha, rfl, rfl⟩
  · rw [handler, Routes.refreshSession, bearer_of_toOption hreq] at h
    obtain ⟨data, h₁, hr⟩ := finishes_andThen_pure_ok.1 h
    obtain ⟨rec, t, t', expires, now, rec', row, ha, -, rfl, rfl⟩ := finishes_refreshSession_ok h₁
    cases hr
    exact ⟨rec, t, [_, _, _], row, ha, rfl, rfl⟩

def Checked (app : App) (s : String) (evs : List Ev) : Prop :=
  ∃ rec t evs', rec.Active t ∧ evs = app.selectEv s rec :: clockEv t :: evs'

theorem Checked.append {evs' : List Ev} (h : app.Checked s evs) : app.Checked s (evs ++ evs') := by
  obtain ⟨rec, t, evs₁, ha, rfl⟩ := h
  exact ⟨rec, t, evs₁ ++ evs', ha, rfl⟩

theorem checked_of_andThen {α β : Type} {x : Act α} {f : α → Act β} {b : β}
    (hx : ∀ {evs a}, Finishes x.run evs (.ok a) → app.Checked s evs)
    (h : Finishes (x >>= f).run evs (.ok b)) : app.Checked s evs := by
  rcases finishes_andThen.1 h with ⟨_, -, hr⟩ | ⟨_, a, _, rfl, h₁, -⟩
  · cases hr
  · exact (hx h₁).append

theorem checked_of_lookup {α : Type} {f : SessionRecord → Act α} {a : α}
    (h : Finishes (app.getSessionRecord s >>= f).run evs (.ok a)) : app.Checked s evs := by
  refine checked_of_andThen (fun h₁ => ?_) h
  obtain ⟨t, rfl, ha⟩ := finishes_getSessionRecord_ok.1 h₁
  exact ⟨_, t, [], ha, rfl⟩

theorem path_of_ok {req : Request} {resp : Response} (hreq : req.sessionToken? = some s)
    (h : Finishes (app.handler req).run evs (.ok resp)) : app.Checked s evs := by
  cases req with
  | verifyToken body => cases hreq
  | createSession body => cases hreq
  | getSession authorization =>
    rw [handler, Routes.getSession, bearer_of_toOption hreq] at h
    exact checked_of_andThen checked_of_lookup h
  | refreshSession authorization =>
    rw [handler, Routes.refreshSession, bearer_of_toOption hreq] at h
    exact checked_of_andThen checked_of_lookup h
  | deleteSession authorization =>
    rw [handler, Routes.deleteSession, bearer_of_toOption hreq] at h
    exact checked_of_andThen checked_of_lookup h
  | createSpace body authorization =>
    rw [handler, Routes.createSpace, bearer_of_toOption hreq] at h
    exact checked_of_andThen checked_of_lookup h
  | searchUsers query authorization =>
    rw [handler, Routes.searchUsers, bearer_of_toOption hreq] at h
    exact checked_of_andThen checked_of_lookup h

theorem path_of_refreshed {authorization : Option String} {resp : Response}
    (hs : extractBearerToken authorization = .ok s)
    (h : Finishes (app.handler (.refreshSession authorization)).run evs (.ok resp)) :
    ∃ rec t t' expires now rec' user,
      evs = [app.selectEv s rec, clockEv t, clockEv t', clockEv now,
        sqlEv (.updateExpiry (app.hashToken s) expires now) (.ok (some rec')),
        userEv rec user] ∧
      resp = .sessionStatus true expires user.toProfile.toTokenUser := by
  rw [handler, Routes.refreshSession, hs] at h
  obtain ⟨data, h₁, hr⟩ := finishes_andThen_pure_ok.1 h
  obtain ⟨rec, t, t', expires, now, rec', user, -, -, he, rfl⟩ := finishes_refreshSession_ok h₁
  exact ⟨rec, t, t', expires, now, rec', user, he, hr⟩

theorem expired_of_getSessionRecord
    (h : Finishes (app.getSessionRecord s).run evs (.error sessionExpired)) :
    ∃ rec t, ¬rec.Active t ∧ evs = [app.selectEv s rec, clockEv t] := by
  rcases finishes_getSessionRecord.1 h with ⟨_, -, hr⟩ | ⟨-, hr⟩ | ⟨rec, t, rfl, hr⟩
  · cases hr
  · cases hr
  · refine ⟨rec, t, fun ha => ?_, rfl⟩
    rw [if_pos ha] at hr
    cases hr

theorem path_of_sessionExpired {req : Request} (hon : req.onSession)
    (hreq : req.sessionToken? = some s)
    (h : Finishes (app.handler req).run evs (.error sessionExpired)) :
    ∃ rec t, ¬rec.Active t ∧ evs = [app.selectEv s rec, clockEv t] := by
  cases req with
  | getSession authorization =>
    rw [handler, Routes.getSession, bearer_of_toOption hreq] at h
    rcases finishes_getSession (finishes_andThen_pure_error.1 h) with ⟨_, h₁, hr⟩ |
      ⟨_, _, _ | _ | _, -, -, hr⟩
    · cases hr
      exact expired_of_getSessionRecord h₁
    all_goals cases hr
  | refreshSession authorization =>
    rw [handler, Routes.refreshSession, bearer_of_toOption hreq] at h
    rcases finishes_refreshSession (finishes_andThen_pure_error.1 h) with ⟨_, h₁, hr⟩ |
      ⟨_, _, _, -, ⟨_, ht, -, hr⟩ | ⟨_, _, _, _, -, -, ⟨_, -, -, hr⟩ | ⟨-, -, hr⟩ |
        ⟨_, _ | _ | _, -, -, hr⟩⟩⟩
    · cases hr
      exact expired_of_getSessionRecord h₁
    · cases hr
      cases addSeconds_eq_error ht
    all_goals cases hr
  | deleteSession authorization =>
    rw [handler, Routes.deleteSession, bearer_of_toOption hreq] at h
    rcases finishes_revokeSession (finishes_andThen_pure_error.1 h) with ⟨_, h₁, hr⟩ |
      ⟨_, _, _, _ | _, -, -, hr⟩
    · cases hr
      exact expired_of_getSessionRecord h₁
    all_goals cases hr
  | _ => cases hon

theorem executes_of_step {w : World} {ls : List (Label Eff Eff.Answer Request)}
    {c c' : Config Eff Eff.Answer World Request (Except Exc Response)} {i : Nat}
    {x : Except LibError q.Rows} (hr : app.system.Run (.init w) ls c)
    (hs : app.system.Step c (.did i (.sql q) x) c') :
    ∃ req, .started i req ∈ ls ∧ app.Executes req (own i ls) q := by
  obtain ⟨req, hm, h⟩ := hr.issued hs
  exact ⟨req, hm, executes_of_issues h⟩

theorem clip_of_insertSession {w : World} {ls : List (Label Eff Eff.Answer Request)}
    {c c' : Config Eff Eff.Answer World Request (Except Exc Response)} {i : Nat} {id : UUID}
    {userId : Int} {hash : String} {expires : Instant} {x : Except LibError (Option SessionRecord)}
    (hr : app.system.Run (.init w) ls c)
    (hs : app.system.Step c (.did i (.sql (.insertSession id userId hash expires)) x) c') :
    Relational.clip 64 hash = hash := by
  obtain ⟨req, -, hx⟩ := executes_of_step hr hs
  obtain ⟨_, _, _, _, _, _, _, _, -, -, -, -, -, rfl⟩ := hx.of_insertSession
  exact clip_hashToken app _

theorem inserted_of_new {w : World} {ls : List (Label Eff Eff.Answer Request)}
    {c c' : Config Eff Eff.Answer World Request (Except Exc Response)} {i : Nat} {e : Eff}
    {a : e.Answer} {hash : String} {r : SessionRow} (hr : app.system.Run (.init w) ls c)
    (hs : app.system.Step c (.did i e a) c') (h₀ : c.world.db.sessionByHash hash = none)
    (hrow : c'.world.db.sessionByHash hash = some r) :
    (⟨e, a⟩ : Ev) = sqlEv (.insertSession r.id r.userId hash r.expiresAt) (.ok (some r.toRecord)) := by
  obtain ⟨hash', hev, hclip⟩ := (sessionsStep_of_trans hs.trans).inserted_of_new h₀ hrow
  cases hev
  rw [clip_of_insertSession hr hs] at hclip
  rw [hclip]

end App

end WikiBackend
