import Mathlib.Data.Set.Function
import WikiBackend.Services.Session

/-! The paths of the services: which events each of them performs, and how it ends
after them. -/

namespace WikiBackend

open Effects

abbrev clockEv (t : Instant) : Ev := ⟨.clock, t⟩
abbrev tokenEv (s : String) : Ev := ⟨.tokenUrlsafe, s⟩
abbrev uuidEv (u : UUID) : Ev := ⟨.uuid4, u⟩
abbrev sqlEv (q : Stmt) (x : Except LibError q.Rows) : Ev := ⟨.sql q, x⟩

variable {α β : Type} {evs : List Ev}

/-! ## Rules for statements -/

theorem finishes_sql_andThen {q : Stmt} {f : q.Rows → Act β} {r : Except Exc β} :
    Finishes (sql q >>= f).run evs r ↔
      (∃ e, evs = [sqlEv q (.error e)] ∧ r = .error (.lib e)) ∨
      ∃ rows evs', evs = sqlEv q (.ok rows) :: evs' ∧ Finishes (f rows).run evs' r := by
  rw [sql, bind_assoc, finishes_perform_andThen]
  constructor
  · rintro ⟨e | rows, evs', rfl, h⟩
    · obtain ⟨rfl, rfl⟩ := finishes_throw.1 (h : Finishes (throw (Exc.lib e) : Act β).run evs' r)
      exact .inl ⟨e, rfl, rfl⟩
    · exact .inr ⟨rows, evs', rfl, by simpa only [pure_bind] using h⟩
  · rintro (⟨e, rfl, rfl⟩ | ⟨rows, evs', rfl, h⟩)
    · exact ⟨.error e, [], rfl, finishes_throw.2 ⟨rfl, rfl⟩⟩
    · exact ⟨.ok rows, evs', rfl, by simpa only [pure_bind] using h⟩

theorem finishes_sql {q : Stmt} {r : Except Exc q.Rows} :
    Finishes (sql q).run evs r ↔ ∃ x, evs = [sqlEv q x] ∧ r = call x := by
  rw [← bind_pure (sql q), finishes_sql_andThen]
  constructor
  · rintro (⟨e, rfl, rfl⟩ | ⟨rows, evs', rfl, h⟩)
    · exact ⟨.error e, rfl, rfl⟩
    · obtain ⟨rfl, rfl⟩ := finishes_pure.1 h
      exact ⟨.ok rows, rfl, rfl⟩
  · rintro ⟨e | rows, rfl, rfl⟩
    · exact .inl ⟨e, rfl, rfl⟩
    · exact .inr ⟨rows, [], rfl, finishes_pure.2 ⟨rfl, rfl⟩⟩

theorem issues_sql_andThen {q : Stmt} {f : q.Rows → Act β} {e : Eff} :
    Issues (sql q >>= f).run evs e ↔ (evs = [] ∧ e = .sql q) ∨
      ∃ rows evs', evs = sqlEv q (.ok rows) :: evs' ∧ Issues (f rows).run evs' e := by
  rw [sql, bind_assoc, issues_perform_andThen]
  apply or_congr_right
  constructor
  · rintro ⟨x | rows, evs', rfl, h⟩
    · exact absurd (h : Issues (throw (Exc.lib x) : Act β).run evs' e) issues_throw
    · exact ⟨rows, evs', rfl, by simpa only [pure_bind] using h⟩
  · rintro ⟨rows, evs', rfl, h⟩
    exact ⟨.ok rows, evs', rfl, by simpa only [pure_bind] using h⟩

@[simp] theorem issues_sql {q : Stmt} {e : Eff} :
    Issues (sql q).run evs e ↔ evs = [] ∧ e = .sql q := by
  rw [← bind_pure (sql q), issues_sql_andThen]
  simp only [issues_pure, and_false, exists_false, or_false]

theorem finishes_orInternalError {x : Act α} {r : Except Exc α} :
    Finishes (orInternalError x).run evs r ↔
      (∃ a, Finishes x.run evs (.ok a) ∧ r = .ok a) ∨
      ∃ e, Finishes x.run evs (.error e) ∧ r = .error (appError 500 .internalError) := by
  rw [orInternalError, finishes_tryCatch]
  apply or_congr_right
  constructor
  · rintro ⟨evs₁, y, evs₂, rfl, h, h₂⟩
    obtain ⟨rfl, rfl⟩ := finishes_throw.1 h₂
    exact ⟨y, by rwa [List.append_nil], rfl⟩
  · rintro ⟨y, h, rfl⟩
    exact ⟨evs, y, [], by simp, h, finishes_throw.2 ⟨rfl, rfl⟩⟩

@[simp] theorem issues_orInternalError {x : Act α} {e : Eff} :
    Issues (orInternalError x).run evs e ↔ Issues x.run evs e := by
  rw [orInternalError, issues_tryCatch]
  simp only [issues_throw, and_false, exists_false, or_false]

/-! ## Authentication -/

def TokenPayload.upsertParams (p : TokenPayload) (now : Instant) : UpsertParams where
  telegramId := p.telegramId
  username := p.username
  firstName := p.firstName
  lastName := p.lastName
  photoUrl := p.photoUrl
  permission := p.permission
  now := now

namespace App

variable {app : App}

def Accepts (app : App) (t : Instant) (token : String) (p : TokenPayload) : Prop :=
  app.tokenService.verifyToken app.lib t token = .ok p

theorem finishes_verifyAccessToken {token : String} {r : Except Exc TokenPayload} :
    Finishes (app.verifyAccessToken token).run evs r ↔
      (∃ e, app.tokenService.decryptAndValidate app.lib token = .error e ∧ evs = [] ∧
        r = .error e) ∨
      ∃ t data, app.tokenService.decryptAndValidate app.lib token = .ok data ∧ evs = [clockEv t] ∧
        r = app.tokenService.checkTtl t data := by
  rw [verifyAccessToken, finishes_ofExcept_andThen]
  simp only [clock, perform, finishes_perform_andThen, finishes_ofExcept]
  grind

theorem finishes_verifyAccessToken_ok {token : String} {p : TokenPayload} :
    Finishes (app.verifyAccessToken token).run evs (.ok p) ↔
      ∃ t, evs = [clockEv t] ∧ app.Accepts t token p := by
  rw [finishes_verifyAccessToken]
  unfold Accepts TokenService.verifyToken
  constructor
  · rintro (⟨e, -, -, h⟩ | ⟨t, data, hd, rfl, h⟩)
    · cases h
    · exact ⟨t, rfl, by rw [hd]; exact h.symm⟩
  · rintro ⟨t, rfl, h⟩
    cases hd : app.tokenService.decryptAndValidate app.lib token with
    | error e => rw [hd] at h; cases h
    | ok data => rw [hd] at h; exact .inr ⟨t, data, rfl, rfl, h.symm⟩

theorem finishes_upsertUser {p : TokenPayload} {r : Except Exc (UserProfile × Bool)} :
    Finishes (UserRepository.upsertUser p.telegramId p.username p.firstName p.lastName p.photoUrl
        p.permission).run evs r ↔
      ∃ now x, evs = [clockEv now, sqlEv (.upsertUser (p.upsertParams now)) x] ∧
        r = match x with
          | .error e => .error (.lib e)
          | .ok none => .error (.lib (.runtimeError "Failed to upsert user"))
          | .ok (some (row, created)) => .ok (row.toProfile, created) := by
  rw [UserRepository.upsertUser, finishes_perform_andThen]
  constructor
  · rintro ⟨now, _, rfl, h⟩
    rcases finishes_sql_andThen.1 h with ⟨e, rfl, rfl⟩ | ⟨_ | ⟨row, created⟩, _, rfl, h₁⟩
    · exact ⟨now, .error e, rfl, rfl⟩
    · obtain ⟨rfl, rfl⟩ := finishes_throw.1 h₁
      exact ⟨now, .ok none, rfl, rfl⟩
    · obtain ⟨rfl, rfl⟩ := finishes_pure.1 h₁
      exact ⟨now, .ok (some (row, created)), rfl, rfl⟩
  · rintro ⟨now, x, rfl, rfl⟩
    refine ⟨now, _, rfl, finishes_sql_andThen.2 ?_⟩
    rcases x with e | _ | ⟨row, created⟩
    · exact .inl ⟨e, rfl, rfl⟩
    · exact .inr ⟨none, [], rfl, finishes_throw.2 ⟨rfl, rfl⟩⟩
    · exact .inr ⟨some (row, created), [], rfl, finishes_pure.2 ⟨rfl, rfl⟩⟩

theorem finishes_verifyToken {token : String} {r : Except Exc (UserProfile × Bool)}
    (h : Finishes (app.verifyToken token).run evs r) :
    (∃ e, Finishes (app.verifyAccessToken token).run evs (.error e) ∧ r = .error e) ∨
    ∃ t p now x, app.Accepts t token p ∧
      evs = [clockEv t, clockEv now, sqlEv (.upsertUser (p.upsertParams now)) x] ∧
      ((r = .error (appError 500 .internalError) ∧ ∀ row, x ≠ .ok (some row)) ∨
        ∃ row created, x = .ok (some (row, created)) ∧ r = .ok (row.toProfile, created)) := by
  rw [verifyToken, finishes_andThen] at h
  apply h.imp_right
  rintro ⟨_, p, evs₂, rfl, h, h₂⟩
  obtain ⟨t, rfl, ha⟩ := finishes_verifyAccessToken_ok.1 h
  rcases finishes_orInternalError.1 h₂ with ⟨a, hu, rfl⟩ | ⟨e, hu, rfl⟩
  · obtain ⟨now, x, rfl, hx⟩ := finishes_upsertUser.1 hu
    rcases x with e | _ | ⟨row, created⟩
    · cases hx
    · cases hx
    · cases hx
      exact ⟨t, p, now, _, ha, rfl, .inr ⟨row, created, rfl, rfl⟩⟩
  · obtain ⟨now, x, rfl, hx⟩ := finishes_upsertUser.1 hu
    refine ⟨t, p, now, x, ha, rfl, .inl ⟨rfl, ?_⟩⟩
    rintro row rfl
    cases hx

theorem finishes_verifyToken_ok {token : String} {profile : UserProfile} {created : Bool} :
    Finishes (app.verifyToken token).run evs (.ok (profile, created)) ↔
      ∃ t p now row, app.Accepts t token p ∧ profile = row.toProfile ∧
        evs = [clockEv t, clockEv now,
          sqlEv (.upsertUser (p.upsertParams now)) (.ok (some (row, created)))] := by
  constructor
  · intro h
    rcases finishes_verifyToken h with ⟨_, -, hr⟩ | ⟨t, p, now, x, ha, rfl, ⟨hr, -⟩ | ⟨row, _, rfl, hr⟩⟩
    · cases hr
    · cases hr
    · cases hr
      exact ⟨t, p, now, row, ha, rfl, rfl⟩
  · rintro ⟨t, p, now, row, ha, rfl, rfl⟩
    rw [verifyToken, finishes_andThen]
    refine .inr ⟨[clockEv t], p, _, rfl, finishes_verifyAccessToken_ok.2 ⟨t, rfl, ha⟩, ?_⟩
    exact finishes_orInternalError.2 (.inl ⟨_, finishes_upsertUser.2 ⟨now, _, rfl, rfl⟩, rfl⟩)

end App

/-! ## Sessions -/

def SessionRecord.Active (r : SessionRecord) (t : Instant) : Prop :=
  r.revokedAt = none ∧ t < r.expiresAt

instance (r : SessionRecord) (t : Instant) : Decidable (r.Active t) := by
  unfold SessionRecord.Active
  infer_instance

theorem SessionRecord.Active.mono {r : SessionRecord} {t t' : Instant} (h : r.Active t')
    (ht : t ≤ t') : r.Active t := ⟨h.1, Int.lt_of_le_of_lt ht h.2⟩

namespace App

variable {app : App} {s : String}

abbrev sessionMissing : Exc := appError 401 .sessionMissing
abbrev sessionExpired : Exc := appError 401 .sessionExpired
abbrev internalError : Exc := appError 500 .internalError

theorem hashToken_injOn {S : Set String}
    (h : S.InjOn fun s => app.lib.sha256 (encodeUtf8 s)) : S.InjOn app.hashToken :=
  fun _ hs _ ht he => h hs ht (hexdigest_injective he)

theorem finishes_ensureActive {rec : SessionRecord} {r : Except Exc Unit} :
    Finishes (ensureActive rec).run evs r ↔
      ∃ t, evs = [clockEv t] ∧ r = if rec.Active t then .ok () else .error sessionExpired := by
  rw [ensureActive, finishes_perform_andThen]
  apply exists_congr
  intro t
  rcases rec with ⟨id, userId, expires, _ | revoked⟩
  · by_cases he : expires ≤ t
    · simp [SessionRecord.Active, he, Int.not_lt.2 he]
    · simp [SessionRecord.Active, he, Int.not_le.1 he]
  · simp [SessionRecord.Active]

theorem finishes_ensureActive_andThen {rec : SessionRecord} {r : Except Exc SessionRecord} :
    Finishes (ensureActive rec >>= fun _ => pure rec).run evs r ↔
      ∃ t, evs = [clockEv t] ∧ r = if rec.Active t then .ok rec else .error sessionExpired := by
  simp only [finishes_andThen_pure, finishes_ensureActive]
  constructor
  · rintro ⟨_, ⟨t, rfl, rfl⟩, rfl⟩
    refine ⟨t, rfl, ?_⟩
    split <;> rfl
  · rintro ⟨t, rfl, rfl⟩
    refine ⟨_, ⟨t, rfl, rfl⟩, ?_⟩
    split <;> rfl

theorem finishes_getSessionRecord {r : Except Exc SessionRecord} :
    Finishes (app.getSessionRecord s).run evs r ↔
      (∃ e, evs = [sqlEv (.sessionByTokenHash (app.hashToken s)) (.error e)] ∧
        r = .error (.lib e)) ∨
      (evs = [sqlEv (.sessionByTokenHash (app.hashToken s)) (.ok none)] ∧
        r = .error sessionMissing) ∨
      ∃ rec t, evs = [sqlEv (.sessionByTokenHash (app.hashToken s)) (.ok (some rec)), clockEv t] ∧
        r = if rec.Active t then .ok rec else .error sessionExpired := by
  rw [getSessionRecord, SessionRepository.getByTokenHash, finishes_sql_andThen]
  apply or_congr_right
  constructor
  · rintro ⟨_ | rec, _, rfl, h⟩
    · obtain ⟨rfl, rfl⟩ := finishes_throw.1 h
      exact .inl ⟨rfl, rfl⟩
    · obtain ⟨t, rfl, hr⟩ := finishes_ensureActive_andThen.1 h
      exact .inr ⟨rec, t, rfl, hr⟩
  · rintro (⟨rfl, rfl⟩ | ⟨rec, t, rfl, hr⟩)
    · exact ⟨none, [], rfl, finishes_throw.2 ⟨rfl, rfl⟩⟩
    · exact ⟨some rec, [clockEv t], rfl, finishes_ensureActive_andThen.2 ⟨t, rfl, hr⟩⟩

theorem finishes_getSessionRecord_ok {rec : SessionRecord} :
    Finishes (app.getSessionRecord s).run evs (.ok rec) ↔
      ∃ t, evs = [sqlEv (.sessionByTokenHash (app.hashToken s)) (.ok (some rec)), clockEv t] ∧
        rec.Active t := by
  rw [finishes_getSessionRecord]
  constructor
  · rintro (⟨e, -, h⟩ | ⟨-, h⟩ | ⟨rec', t, rfl, h⟩)
    · cases h
    · cases h
    · split at h
      · rename_i ha
        cases h
        exact ⟨t, rfl, ha⟩
      · cases h
  · rintro ⟨t, rfl, ha⟩
    exact .inr (.inr ⟨rec, t, rfl, (if_pos ha).symm⟩)

theorem finishes_getUser {rec : SessionRecord} {r : Except Exc UserProfile} :
    Finishes (getUser rec).run evs r ↔
      ∃ x, evs = [sqlEv (.userById rec.userId) x] ∧
        r = match x with
          | .error e => .error (.lib e)
          | .ok none => .error internalError
          | .ok (some row) => .ok row.toProfile := by
  rw [getUser, UserRepository.getById, bind_assoc, finishes_sql_andThen]
  constructor
  · rintro (⟨e, rfl, rfl⟩ | ⟨_ | row, _, rfl, h⟩)
    · exact ⟨.error e, rfl, rfl⟩
    · obtain ⟨rfl, rfl⟩ := finishes_throw.1 h
      exact ⟨.ok none, rfl, rfl⟩
    · obtain ⟨rfl, rfl⟩ := finishes_pure.1 h
      exact ⟨.ok (some row), rfl, rfl⟩
  · rintro ⟨e | _ | row, rfl, rfl⟩
    · exact .inl ⟨e, rfl, rfl⟩
    · exact .inr ⟨none, [], rfl, finishes_throw.2 ⟨rfl, rfl⟩⟩
    · exact .inr ⟨some row, [], rfl, finishes_pure.2 ⟨rfl, rfl⟩⟩

theorem finishes_getUser_andThen {rec : SessionRecord} {f : UserProfile → SessionData}
    {r : Except Exc SessionData} :
    Finishes (getUser rec >>= fun user => pure (f user)).run evs r ↔
      ∃ x, evs = [sqlEv (.userById rec.userId) x] ∧
        r = match x with
          | .error e => .error (.lib e)
          | .ok none => .error internalError
          | .ok (some row) => .ok (f row.toProfile) := by
  simp only [finishes_andThen_pure, finishes_getUser]
  constructor
  · rintro ⟨_, ⟨x, rfl, rfl⟩, rfl⟩
    refine ⟨x, rfl, ?_⟩
    rcases x with e | _ | row <;> rfl
  · rintro ⟨x, rfl, rfl⟩
    refine ⟨_, ⟨x, rfl, rfl⟩, ?_⟩
    rcases x with e | _ | row <;> rfl

abbrev selectEv (app : App) (s : String) (rec : SessionRecord) : Ev :=
  sqlEv (.sessionByTokenHash (app.hashToken s)) (.ok (some rec))

abbrev userEv (rec : SessionRecord) (user : UserRow) : Ev :=
  sqlEv (.userById rec.userId) (.ok (some user))

theorem finishes_expiresAt {ttl : Int} {r : Except Exc Instant} :
    Finishes (expiresAt ttl).run evs r ↔ ∃ t, evs = [clockEv t] ∧ r = addSeconds t ttl := by
  rw [expiresAt, finishes_perform_andThen]
  simp only [finishes_ofExcept]
  constructor
  · rintro ⟨t, _, rfl, rfl, rfl⟩
    exact ⟨t, rfl, rfl⟩
  · rintro ⟨t, rfl, rfl⟩
    exact ⟨t, [], rfl, rfl, rfl⟩

theorem finishes_getSession {r : Except Exc SessionData}
    (h : Finishes (app.getSession s).run evs r) :
    (∃ e, Finishes (app.getSessionRecord s).run evs (.error e) ∧ r = .error e) ∨
    ∃ evs₁ rec y, Finishes (app.getSessionRecord s).run evs₁ (.ok rec) ∧
      evs = evs₁ ++ [sqlEv (.userById rec.userId) y] ∧
      r = match y with
        | .error e => .error (.lib e)
        | .ok none => .error internalError
        | .ok (some row) => .ok ⟨row.toProfile, rec.expiresAt, none⟩ := by
  rw [getSession, finishes_andThen] at h
  apply h.imp_right
  rintro ⟨evs₁, rec, _, rfl, h₁, h₂⟩
  obtain ⟨y, rfl, hy⟩ := finishes_getUser_andThen.1 h₂
  exact ⟨evs₁, rec, y, h₁, rfl, hy⟩

theorem finishes_revokeSession {r : Except Exc Unit}
    (h : Finishes (app.revokeSession s).run evs r) :
    (∃ e, Finishes (app.getSessionRecord s).run evs (.error e) ∧ r = .error e) ∨
    ∃ evs₁ rec now x, Finishes (app.getSessionRecord s).run evs₁ (.ok rec) ∧
      evs = evs₁ ++ [clockEv now, sqlEv (.revoke (app.hashToken s) now) x] ∧
      r = match x with
        | .error _ => .error internalError
        | .ok _ => .ok () := by
  rw [revokeSession, finishes_andThen] at h
  apply h.imp_right
  rintro ⟨evs₁, rec, _, rfl, h₁, h₂⟩
  refine ⟨evs₁, rec, ?_⟩
  obtain ⟨now, _, rfl, h₃⟩ := finishes_perform_andThen.1 h₂
  refine ⟨now, ?_⟩
  rcases finishes_orInternalError.1 h₃ with ⟨_, hu, rfl⟩ | ⟨_, hu, rfl⟩
  · rcases finishes_sql_andThen.1 hu with ⟨_, -, hr⟩ | ⟨n, _, rfl, hn⟩
    · cases hr
    · obtain ⟨rfl, -⟩ := finishes_pure.1 hn
      exact ⟨.ok n, h₁, rfl, rfl⟩
  · rcases finishes_sql_andThen.1 hu with ⟨e, rfl, -⟩ | ⟨_, _, -, hn⟩
    · exact ⟨.error e, h₁, rfl, rfl⟩
    · cases (finishes_pure.1 hn).2

theorem finishes_updateExpiry {tokenHash : String} {expires : Instant}
    {r : Except Exc (Option SessionRecord)} :
    Finishes (SessionRepository.updateExpiry tokenHash expires).run evs r ↔
      ∃ now x, evs = [clockEv now, sqlEv (.updateExpiry tokenHash expires now) x] ∧ r = call x := by
  rw [SessionRepository.updateExpiry, finishes_perform_andThen]
  constructor
  · rintro ⟨now, _, rfl, h⟩
    obtain ⟨x, rfl, rfl⟩ := finishes_sql.1 h
    exact ⟨now, x, rfl, rfl⟩
  · rintro ⟨now, x, rfl, rfl⟩
    exact ⟨now, _, rfl, finishes_sql.2 ⟨x, rfl, rfl⟩⟩

theorem finishes_extend_error {tokenHash : String} {expires : Instant} {e : Exc}
    (h : Finishes (orInternalError (SessionRepository.updateExpiry tokenHash expires)).run evs
      (.error e)) :
    ∃ e' now, evs = [clockEv now, sqlEv (.updateExpiry tokenHash expires now) (.error e')] ∧
      e = internalError := by
  rcases finishes_orInternalError.1 h with ⟨_, -, hr⟩ | ⟨_, hu, hr⟩
  · cases hr
  obtain ⟨now, x, rfl, hx⟩ := finishes_updateExpiry.1 hu
  rcases x with e' | rec
  · exact ⟨e', now, rfl, Except.error.inj hr⟩
  · cases hx

theorem finishes_extend_ok {tokenHash : String} {expires : Instant} {rec : Option SessionRecord}
    (h : Finishes (orInternalError (SessionRepository.updateExpiry tokenHash expires)).run evs
      (.ok rec)) :
    ∃ now, evs = [clockEv now, sqlEv (.updateExpiry tokenHash expires now) (.ok rec)] := by
  rcases finishes_orInternalError.1 h with ⟨_, hu, hr⟩ | ⟨_, -, hr⟩
  · cases hr
    obtain ⟨now, x, rfl, hx⟩ := finishes_updateExpiry.1 hu
    rcases x with e' | rec'
    · cases hx
    · cases hx
      exact ⟨now, rfl⟩
  · cases hr

theorem finishes_refreshSession {r : Except Exc SessionData}
    (h : Finishes (app.refreshSession s).run evs r) :
    (∃ e, Finishes (app.getSessionRecord s).run evs (.error e) ∧ r = .error e) ∨
    ∃ evs₁ rec t, Finishes (app.getSessionRecord s).run evs₁ (.ok rec) ∧
      ((∃ e, addSeconds t app.sessionTtlSeconds = .error e ∧ evs = evs₁ ++ [clockEv t] ∧
        r = .error e) ∨
      ∃ expires now x evs₂, addSeconds t app.sessionTtlSeconds = .ok expires ∧
        evs = evs₁ ++ clockEv t :: clockEv now ::
          sqlEv (.updateExpiry (app.hashToken s) expires now) x :: evs₂ ∧
        ((∃ e, x = .error e ∧ evs₂ = [] ∧ r = .error internalError) ∨
          (x = .ok none ∧ evs₂ = [] ∧ r = .error sessionMissing) ∨
          ∃ rec' y, x = .ok (some rec') ∧ evs₂ = [sqlEv (.userById rec.userId) y] ∧
            r = match y with
              | .error e => .error (.lib e)
              | .ok none => .error internalError
              | .ok (some row) => .ok ⟨row.toProfile, expires, none⟩)) := by
  rw [refreshSession, finishes_andThen] at h
  apply h.imp_right
  rintro ⟨evs₁, rec, _, rfl, h₁, h₂⟩
  refine ⟨evs₁, rec, ?_⟩
  rcases finishes_andThen.1 h₂ with ⟨e, hx, rfl⟩ | ⟨_, expires, evs₂, rfl, hx, h₃⟩
  · obtain ⟨t, rfl, ht⟩ := finishes_expiresAt.1 hx
    exact ⟨t, h₁, .inl ⟨e, ht.symm, rfl, rfl⟩⟩
  obtain ⟨t, rfl, ht⟩ := finishes_expiresAt.1 hx
  refine ⟨t, h₁, .inr ⟨expires, ?_⟩⟩
  rcases finishes_andThen.1 h₃ with ⟨e, hi, rfl⟩ | ⟨_, updated, evs₂, rfl, hi, h₄⟩
  · obtain ⟨e', now, rfl, rfl⟩ := finishes_extend_error hi
    exact ⟨now, _, [], ht.symm, rfl, .inl ⟨e', rfl, rfl, rfl⟩⟩
  obtain ⟨now, rfl⟩ := finishes_extend_ok hi
  refine ⟨now, _, evs₂, ht.symm, rfl, .inr ?_⟩
  rcases updated with _ | rec'
  · obtain ⟨rfl, rfl⟩ := finishes_throw.1 h₄
    exact .inl ⟨rfl, rfl, rfl⟩
  · obtain ⟨y, rfl, hy⟩ := finishes_getUser_andThen.1 h₄
    exact .inr ⟨rec', y, rfl, rfl, hy⟩

theorem finishes_insertSession {userId : Int} {tokenHash : String} {expires : Instant}
    {r : Except Exc SessionRecord} :
    Finishes (do
        let sessionId ← uuid4
        SessionRepository.createSession sessionId userId tokenHash expires : Act _).run evs r ↔
      ∃ u x, evs = [uuidEv u, sqlEv (.insertSession u userId tokenHash expires) x] ∧
        r = match x with
          | .error e => .error (.lib e)
          | .ok none => .error (.lib (.runtimeError "Failed to create session"))
          | .ok (some rec) => .ok rec := by
  rw [finishes_perform_andThen]
  constructor
  · rintro ⟨u, _, rfl, h⟩
    rcases finishes_sql_andThen.1 h with ⟨e, rfl, rfl⟩ | ⟨_ | rec, _, rfl, h₁⟩
    · exact ⟨u, .error e, rfl, rfl⟩
    · obtain ⟨rfl, rfl⟩ := finishes_throw.1 h₁
      exact ⟨u, .ok none, rfl, rfl⟩
    · obtain ⟨rfl, rfl⟩ := finishes_pure.1 h₁
      exact ⟨u, .ok (some rec), rfl, rfl⟩
  · rintro ⟨u, x, rfl, rfl⟩
    refine ⟨u, _, rfl, finishes_sql_andThen.2 ?_⟩
    rcases x with e | _ | rec
    · exact .inl ⟨e, rfl, rfl⟩
    · exact .inr ⟨none, [], rfl, finishes_throw.2 ⟨rfl, rfl⟩⟩
    · exact .inr ⟨some rec, [], rfl, finishes_pure.2 ⟨rfl, rfl⟩⟩

theorem finishes_openSession {userId : Int} {tokenHash : String} {expires : Instant}
    {r : Except Exc SessionRecord} :
    Finishes (orInternalError (do
        let sessionId ← uuid4
        SessionRepository.createSession sessionId userId tokenHash expires)).run evs r ↔
      ∃ u x, evs = [uuidEv u, sqlEv (.insertSession u userId tokenHash expires) x] ∧
        r = match x with
          | .ok (some rec) => .ok rec
          | _ => .error internalError := by
  simp only [finishes_orInternalError, finishes_insertSession]
  constructor
  · rintro (⟨rec, ⟨u, x, rfl, hx⟩, rfl⟩ | ⟨e, ⟨u, x, rfl, hx⟩, rfl⟩)
    · refine ⟨u, x, rfl, ?_⟩
      rcases x with e | _ | rec' <;> cases hx
      rfl
    · refine ⟨u, x, rfl, ?_⟩
      rcases x with e | _ | rec' <;> cases hx <;> rfl
  · rintro ⟨u, x, rfl, rfl⟩
    rcases x with e | _ | rec
    · exact .inr ⟨_, ⟨u, .error e, rfl, rfl⟩, rfl⟩
    · exact .inr ⟨_, ⟨u, .ok none, rfl, rfl⟩, rfl⟩
    · exact .inl ⟨rec, ⟨u, .ok (some rec), rfl, rfl⟩, rfl⟩

theorem finishes_createSession {token : String} {r : Except Exc SessionData}
    (h : Finishes (app.createSession token).run evs r) :
    (∃ e, Finishes (app.verifyToken token).run evs (.error e) ∧ r = .error e) ∨
    ∃ evs₁ profile created s t,
      Finishes (app.verifyToken token).run evs₁ (.ok (profile, created)) ∧
      ((∃ e, addSeconds t app.sessionTtlSeconds = .error e ∧
        evs = evs₁ ++ [tokenEv s, clockEv t] ∧ r = .error e) ∨
      ∃ expires u x, addSeconds t app.sessionTtlSeconds = .ok expires ∧
        evs = evs₁ ++ [tokenEv s, clockEv t, uuidEv u,
          sqlEv (.insertSession u profile.id (app.hashToken s) expires) x] ∧
        r = match x with
          | .ok (some _) => .ok ⟨profile, expires, some s⟩
          | _ => .error internalError) := by
  rw [createSession, finishes_andThen] at h
  apply h.imp_right
  rintro ⟨evs₁, ⟨profile, created⟩, _, rfl, h₁, h₂⟩
  refine ⟨evs₁, profile, created, ?_⟩
  obtain ⟨s, _, rfl, h₃⟩ := finishes_perform_andThen.1 h₂
  refine ⟨s, ?_⟩
  rcases finishes_andThen.1 h₃ with ⟨e, hx, rfl⟩ | ⟨_, expires, evs₂, rfl, hx, h₄⟩
  · obtain ⟨t, rfl, ht⟩ := finishes_expiresAt.1 hx
    exact ⟨t, h₁, .inl ⟨e, ht.symm, rfl, rfl⟩⟩
  · obtain ⟨t, rfl, ht⟩ := finishes_expiresAt.1 hx
    obtain ⟨_, hi, rfl⟩ := finishes_andThen_pure.1 h₄
    obtain ⟨u, x, rfl, rfl⟩ := finishes_openSession.1 hi
    refine ⟨t, h₁, .inr ⟨expires, u, x, ht.symm, rfl, ?_⟩⟩
    rcases x with e | _ | rec <;> rfl

theorem createSession_finishes {token s : String} {evs₁ : List Ev} {profile : UserProfile}
    {created : Bool} {t expires : Instant}
    (hv : Finishes (app.verifyToken token).run evs₁ (.ok (profile, created)))
    (ht : addSeconds t app.sessionTtlSeconds = .ok expires) (u : UUID)
    (x : Except LibError (Option SessionRecord)) :
    Finishes (app.createSession token).run
      (evs₁ ++ [tokenEv s, clockEv t, uuidEv u,
        sqlEv (.insertSession u profile.id (app.hashToken s) expires) x])
      (match x with
        | .ok (some _) => .ok ⟨profile, expires, some s⟩
        | _ => .error internalError) := by
  have hexp : Finishes (expiresAt app.sessionTtlSeconds).run [clockEv t] (.ok expires) :=
    finishes_expiresAt.2 ⟨t, rfl, ht.symm⟩
  refine finishes_andThen.2 (.inr ⟨evs₁, (profile, created), _, rfl, hv, ?_⟩)
  refine finishes_perform_andThen.2 ⟨s, _, rfl, ?_⟩
  refine finishes_andThen.2 (.inr ⟨[clockEv t], expires, _, rfl, hexp, ?_⟩)
  refine finishes_andThen_pure.2 ⟨_, finishes_openSession.2 ⟨u, x, rfl, rfl⟩, ?_⟩
  rcases x with e | _ | rec <;> rfl

/-! ## Successful sessions -/

theorem finishes_getSession_ok {data : SessionData} :
    Finishes (app.getSession s).run evs (.ok data) ↔
      ∃ rec t user, rec.Active t ∧ evs = [app.selectEv s rec, clockEv t, userEv rec user] ∧
        data = ⟨user.toProfile, rec.expiresAt, none⟩ := by
  constructor
  · intro h
    rcases finishes_getSession h with ⟨_, -, hr⟩ | ⟨_, rec, y, h₁, rfl, hr⟩
    · cases hr
    obtain ⟨t, rfl, ha⟩ := finishes_getSessionRecord_ok.1 h₁
    rcases y with _ | _ | user <;> cases hr
    exact ⟨rec, t, user, ha, rfl, rfl⟩
  · rintro ⟨rec, t, user, ha, rfl, rfl⟩
    refine finishes_andThen.2 (.inr ⟨[app.selectEv s rec, clockEv t], rec, [userEv rec user], rfl,
      finishes_getSessionRecord_ok.2 ⟨t, rfl, ha⟩, finishes_andThen.2 (.inr ?_)⟩)
    exact ⟨[userEv rec user], user.toProfile, [], rfl, finishes_getUser.2 ⟨_, rfl, rfl⟩,
      finishes_pure.2 ⟨rfl, rfl⟩⟩

theorem finishes_refreshSession_ok {data : SessionData}
    (h : Finishes (app.refreshSession s).run evs (.ok data)) :
    ∃ rec t t' expires now rec' user, rec.Active t ∧
      addSeconds t' app.sessionTtlSeconds = .ok expires ∧
      evs = [app.selectEv s rec, clockEv t, clockEv t', clockEv now,
        sqlEv (.updateExpiry (app.hashToken s) expires now) (.ok (some rec')), userEv rec user] ∧
      data = ⟨user.toProfile, expires, none⟩ := by
  rcases finishes_refreshSession h with ⟨_, -, hr⟩ | ⟨_, rec, t', h₁, ⟨_, -, -, hr⟩ |
    ⟨expires, now, _, _, ht, rfl, ⟨_, -, -, hr⟩ | ⟨-, -, hr⟩ | ⟨rec', y, rfl, rfl, hr⟩⟩⟩
  · cases hr
  · cases hr
  · cases hr
  · cases hr
  obtain ⟨t, rfl, ha⟩ := finishes_getSessionRecord_ok.1 h₁
  rcases y with _ | _ | user <;> cases hr
  exact ⟨rec, t, t', expires, now, rec', user, ha, ht, rfl, rfl⟩

end App

/-! ## Spaces -/

theorem issues_transaction {body : Act α} {e : Eff}
    (h : Issues (SpaceRepository.transaction body).run evs e) :
    (evs = [] ∧ e = .sql .begin) ∨
    ∃ evs', evs = sqlEv .begin (.ok ()) :: evs' ∧
      (Issues body.run evs' e ∨ (∃ y, Finishes body.run evs' (.error y) ∧ e = .sql .rollback) ∨
        ∃ a, Finishes body.run evs' (.ok a) ∧ e = .sql .commit) := by
  rw [SpaceRepository.transaction, issues_sql_andThen] at h
  apply h.imp_right
  rintro ⟨_, evs', rfl, h₁⟩
  refine ⟨evs', rfl, ?_⟩
  rcases issues_andThen.1 h₁ with h₂ | ⟨evs₁, a, _, rfl, h₂, h₃⟩
  · rcases issues_tryCatch.1 h₂ with hb | ⟨evs₁, y, _, rfl, hb, h₃⟩
    · exact .inl hb
    · rcases issues_sql_andThen.1 h₃ with ⟨rfl, rfl⟩ | ⟨_, _, -, h₄⟩
      · exact .inr (.inl ⟨y, by rwa [List.append_nil], rfl⟩)
      · exact absurd h₄ issues_throw
  · rcases issues_sql_andThen.1 h₃ with ⟨rfl, rfl⟩ | ⟨_, _, -, h₄⟩
    · rcases finishes_tryCatch.1 h₂ with ⟨_, hb, he⟩ | ⟨_, _, _, -, -, h₄⟩
      · cases he
        exact .inr (.inr ⟨a, by rwa [List.append_nil], rfl⟩)
      · rcases finishes_sql_andThen.1 h₄ with ⟨_, -, he⟩ | ⟨_, _, -, h₅⟩
        · cases he
        · cases (finishes_throw.1 h₅).2
    · exact absurd h₄ issues_pure

def spaceInserts (name : String) (ownerId : Int) : Act UUID := do
  let spaceId ← sql (.insertSpace name)
  sql (.insertOwner ownerId spaceId)
  return spaceId

theorem finishes_spaceInserts {name : String} {ownerId : Int} {id : UUID} :
    Finishes (spaceInserts name ownerId).run evs (.ok id) ↔
      evs = [sqlEv (.insertSpace name) (.ok id), sqlEv (.insertOwner ownerId id) (.ok ())] := by
  rw [spaceInserts, finishes_sql_andThen]
  constructor
  · rintro (⟨_, -, h⟩ | ⟨id', _, rfl, h⟩)
    · cases h
    rcases finishes_sql_andThen.1 h with ⟨_, -, he⟩ | ⟨_, _, rfl, h₁⟩
    · cases he
    · obtain ⟨rfl, he⟩ := finishes_pure.1 h₁
      cases he
      rfl
  · rintro rfl
    exact .inr ⟨id, _, rfl, finishes_sql_andThen.2 (.inr ⟨(), [], rfl, finishes_pure.2 ⟨rfl, rfl⟩⟩)⟩

theorem issues_spaceInserts {name : String} {ownerId : Int} {e : Eff}
    (h : Issues (spaceInserts name ownerId).run evs e) :
    (evs = [] ∧ e = .sql (.insertSpace name)) ∨
    ∃ id, evs = [sqlEv (.insertSpace name) (.ok id)] ∧ e = .sql (.insertOwner ownerId id) := by
  rw [spaceInserts, issues_sql_andThen] at h
  apply h.imp_right
  rintro ⟨id, _, rfl, h₁⟩
  rcases issues_sql_andThen.1 h₁ with ⟨rfl, rfl⟩ | ⟨_, _, -, h₂⟩
  · exact ⟨id, rfl, rfl⟩
  · exact absurd h₂ issues_pure

end WikiBackend
