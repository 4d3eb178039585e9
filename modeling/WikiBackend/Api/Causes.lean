import WikiBackend.Api.Connections
import WikiBackend.Api.Credentials
import WikiBackend.Api.Rejection
import WikiBackend.Sessions.Provenance
import WikiBackend.Sessions.Outcomes

/-! Which errors a request may end with, and what each of them is due to. -/

namespace WikiBackend

open Effects

def loginErrors : List ErrorResponse :=
  [errorPayload 400 .validationError, errorPayload 401 .oauthCodeInvalid,
    errorPayload 500 .internalError]

def sessionErrors : List ErrorResponse :=
  [errorPayload 400 .validationError, errorPayload 401 .sessionMissing,
    errorPayload 401 .sessionExpired, errorPayload 500 .internalError]

def Request.documented : Request → List ErrorResponse
  | .verifyToken _ | .createSession _ => loginErrors
  | .getSession _ | .refreshSession _ | .deleteSession _ | .createSpace _ _ | .searchUsers _ _ =>
    sessionErrors

def Request.expiryClock : Request → Option Nat
  | .createSession _ => some 2
  | .refreshSession _ => some 1
  | _ => none

def noRow : (q : Stmt) → q.Rows → Bool
  | .upsertUser _, none => true
  | .insertSession _ _ _ _, none => true
  | .userById _, none => true
  | _, _ => false

def failed : Ev → Bool
  | ⟨.sql _, .error _⟩ => true
  | ⟨.sql q, .ok rows⟩ => noRow q rows
  | _ => false

def Exc.internal (e : Exc) : Prop := handleException e = errorPayload 500 .internalError

instance (e : Exc) : Decidable e.internal := inferInstanceAs (Decidable (_ = _))

theorem Exc.internal_lib (e : LibError) : (Exc.lib e).internal := rfl

/-- The errors are among the responses `D`, and internal exactly after a failed statement. -/
structure Blames {α : Type} (D : List ErrorResponse) (x : Act α) : Prop where
  documented : ∀ {evs e}, Finishes x.run evs (.error e) → handleException e ∈ D
  error : ∀ {evs e}, Finishes x.run evs (.error e) → (e.internal ↔ evs.any failed)
  ok : ∀ {evs a}, Finishes x.run evs (.ok a) → evs.any failed = false

section
variable {α β : Type} {D : List ErrorResponse} {x : Act α} {f : α → Act β} {evs : List Ev}

theorem blames_pure (a : α) : Blames D (pure a : Act α) where
  documented h := by cases (finishes_pure.1 h).2
  error h := by cases (finishes_pure.1 h).2
  ok h := by
    rw [(finishes_pure.1 h).1]
    rfl

theorem blames_throw {e : Exc} (hD : handleException e ∈ D) (he : ¬e.internal) :
    Blames D (throw e : Act α) where
  documented h := by
    cases (finishes_throw.1 h).2
    exact hD
  error h := by
    obtain ⟨rfl, he'⟩ := finishes_throw.1 h
    cases he'
    simp [he]
  ok h := by cases (finishes_throw.1 h).2

theorem blames_perform {e : Eff} (he : ∀ a, failed ⟨e, a⟩ = false) : Blames D (perform e) where
  documented h := by
    obtain ⟨_, -, hr⟩ := finishes_perform.1 h
    cases hr
  error h := by
    obtain ⟨_, -, hr⟩ := finishes_perform.1 h
    cases hr
  ok h := by
    obtain ⟨a, rfl, -⟩ := finishes_perform.1 h
    simp [he]

theorem Blames.andThen (hx : Blames D x) (hf : ∀ a, Blames D (f a)) : Blames D (x >>= f) where
  documented h := by
    rcases finishes_andThen.1 h with ⟨y, hy, he⟩ | ⟨evs₁, a, evs₂, rfl, -, h₂⟩
    · cases he
      exact hx.documented hy
    · exact (hf a).documented h₂
  error h := by
    rcases finishes_andThen.1 h with ⟨y, hy, he⟩ | ⟨evs₁, a, evs₂, rfl, h₁, h₂⟩
    · cases he
      exact hx.error hy
    · rw [List.any_append, hx.ok h₁, Bool.false_or]
      exact (hf a).error h₂
  ok h := by
    rcases finishes_andThen.1 h with ⟨_, -, he⟩ | ⟨evs₁, a, evs₂, rfl, h₁, h₂⟩
    · cases he
    · rw [List.any_append, hx.ok h₁, (hf a).ok h₂]
      rfl

theorem Blames.mono {D' : List ErrorResponse} (h : Blames D x) (hD : D ⊆ D') : Blames D' x :=
  ⟨fun hx => hD (h.documented hx), h.error, h.ok⟩

abbrev Fails (x : Act α) : Prop := Blames [errorPayload 500 .internalError] x

theorem Fails.of_error (h : Fails x) {e : Exc} (hx : Finishes x.run evs (.error e)) :
    e.internal ∧ evs.any failed := by
  have hi : e.internal := List.mem_singleton.1 (h.documented hx)
  exact ⟨hi, (h.error hx).1 hi⟩

theorem fails_of (herr : ∀ {evs e}, Finishes x.run evs (.error e) → e.internal ∧ evs.any failed)
    (hok : ∀ {evs a}, Finishes x.run evs (.ok a) → evs.any failed = false) : Fails x where
  documented h := List.mem_singleton.2 (herr h).1
  error h := ⟨fun _ => (herr h).2, fun _ => (herr h).1⟩
  ok := hok

theorem Fails.login (h : Fails x) : Blames loginErrors x :=
  h.mono (by simp [loginErrors])

theorem Fails.session (h : Fails x) : Blames sessionErrors x :=
  h.mono (by simp [sessionErrors])

theorem fails_orInternalError (h : Fails x) : Fails (orInternalError x) := by
  apply fails_of
  · intro evs e hx
    rcases finishes_orInternalError.1 hx with ⟨_, -, hr⟩ | ⟨e, he, hr⟩
    · cases hr
    · cases hr
      exact ⟨rfl, (h.of_error he).2⟩
  · intro evs a hx
    rcases finishes_orInternalError.1 hx with ⟨a, ha, hr⟩ | ⟨_, -, hr⟩
    · cases hr
      exact h.ok ha
    · cases hr

theorem fails_sql_andThen {q : Stmt} {g : q.Rows → Act β}
    (h : ∀ rows, Fails (g rows) ∧ noRow q rows = false ∨
      ∃ e, e.internal ∧ g rows = throw e ∧ noRow q rows) : Fails (sql q >>= g) := by
  apply fails_of
  · intro evs e hx
    rcases finishes_sql_andThen.1 hx with ⟨e, rfl, hr⟩ | ⟨rows, evs', rfl, hg⟩
    · cases hr
      exact ⟨rfl, by simp [failed]⟩
    · rcases h rows with ⟨hf, -⟩ | ⟨e, hi, he, hn⟩
      · obtain ⟨hi, ha⟩ := hf.of_error hg
        exact ⟨hi, by rw [List.any_cons, ha, Bool.or_true]⟩
      · rw [he] at hg
        obtain ⟨rfl, hr⟩ := finishes_throw.1 hg
        cases hr
        exact ⟨hi, by simpa [failed] using hn⟩
  · intro evs a hx
    rcases finishes_sql_andThen.1 hx with ⟨e, -, hr⟩ | ⟨rows, evs', rfl, hg⟩
    · cases hr
    · rcases h rows with ⟨hf, hn⟩ | ⟨e, -, he, -⟩
      · rw [List.any_cons, hf.ok hg]
        simpa [failed] using hn
      · rw [he] at hg
        cases (finishes_throw.1 hg).2

theorem fails_sql {q : Stmt} (h : ∀ rows, noRow q rows = false) : Fails (sql q) := by
  rw [← bind_pure (sql q)]
  exact fails_sql_andThen fun rows => .inl ⟨blames_pure rows, h rows⟩

theorem fails_transaction (h : Fails x) : Fails (SpaceRepository.transaction x) := by
  refine fails_sql_andThen fun _ => .inl ⟨?_, rfl⟩
  refine Blames.andThen (fails_of ?_ ?_) fun a => fails_sql_andThen fun _ => .inl ⟨blames_pure a, rfl⟩
  · intro evs e hx
    rcases finishes_tryCatch.1 hx with ⟨_, -, hr⟩ | ⟨evs₁, y, evs₂, rfl, hy, h₂⟩
    · cases hr
    obtain ⟨hi, ha⟩ := h.of_error hy
    refine ⟨?_, by rw [List.any_append, ha, Bool.true_or]⟩
    rcases finishes_sql_andThen.1 h₂ with ⟨e', -, hr⟩ | ⟨_, _, -, h₃⟩
    · cases hr
      rfl
    · cases (finishes_throw.1 h₃).2
      exact hi
  · intro evs a hx
    rcases finishes_tryCatch.1 hx with ⟨_, ha, hr⟩ | ⟨_, _, _, -, -, h₂⟩
    · cases hr
      exact h.ok ha
    · rcases finishes_sql_andThen.1 h₂ with ⟨_, -, hr⟩ | ⟨_, _, -, h₃⟩
      · cases hr
      · cases (finishes_throw.1 h₃).2

end

/-! ## The requests -/

namespace App

variable {app : App}

theorem fails_upsertUser (p : TokenPayload) :
    Fails (UserRepository.upsertUser p.telegramId p.username p.firstName p.lastName p.photoUrl
      p.permission) := by
  refine (blames_perform fun _ => rfl).andThen fun now => fails_sql_andThen fun row => ?_
  rcases row with _ | ⟨row, created⟩
  · exact .inr ⟨_, Exc.internal_lib _, rfl, rfl⟩
  · exact .inl ⟨blames_pure _, rfl⟩

theorem fails_getUser (rec : SessionRecord) : Fails (getUser rec) := by
  rw [getUser, UserRepository.getById, bind_assoc]
  refine fails_sql_andThen fun row => ?_
  rcases row with _ | row
  · exact .inr ⟨internalError, rfl, rfl, rfl⟩
  · exact .inl ⟨blames_pure _, rfl⟩

theorem blames_verifyToken (token : String) : Blames loginErrors (app.verifyToken token) := by
  refine Blames.andThen ⟨fun h => ?_, fun h => ?_, fun h => ?_⟩ fun p =>
    (fails_orInternalError (fails_upsertUser p)).login
  · obtain ⟨rfl, -⟩ := finishes_verifyAccessToken_error h
    decide
  · have hn : ¬oauthCodeInvalid.internal := by decide
    obtain ⟨rfl, rfl | ⟨t, rfl, -⟩⟩ := finishes_verifyAccessToken_error h <;> simp [hn, failed]
  · obtain ⟨t, rfl, -⟩ := finishes_verifyAccessToken_ok.1 h
    rfl

theorem blames_getSessionRecord (s : String) :
    Blames sessionErrors (app.getSessionRecord s) where
  documented h := by
    rcases finishes_getSessionRecord.1 h with ⟨_, -, hr⟩ | ⟨-, hr⟩ | ⟨rec, t, -, hr⟩
    · cases hr
      simp [sessionErrors, handleException, unhandledExceptionHandler]
    · cases hr
      decide
    · split at hr <;> cases hr
      decide
  error h := by
    rcases finishes_getSessionRecord.1 h with ⟨_, rfl, hr⟩ | ⟨rfl, hr⟩ | ⟨rec, t, rfl, hr⟩
    · cases hr
      simp [Exc.internal_lib, failed]
    · cases hr
      have hn : ¬sessionMissing.internal := by decide
      simp [hn, failed, noRow]
    · have hn : ¬sessionExpired.internal := by decide
      split at hr <;> cases hr
      simp [hn, failed, noRow]
  ok h := by
    obtain ⟨t, rfl, -⟩ := finishes_getSessionRecord_ok.1 h
    rfl

theorem blames_extractBearerToken (authorization : Option String) :
    Blames sessionErrors (fromExcept (extractBearerToken authorization)) := by
  cases hx : extractBearerToken authorization with
  | ok s => exact blames_pure s
  | error e =>
    rcases extractBearerToken_error hx with rfl | rfl
    · exact blames_throw (by decide) (by decide)
    · exact blames_throw (by decide) (by decide)

theorem blames_getSession (s : String) : Blames sessionErrors (app.getSession s) := by
  refine (blames_getSessionRecord s).andThen fun rec => ?_
  exact (fails_getUser rec).session.andThen fun _ => blames_pure _

theorem blames_revokeSession (s : String) : Blames sessionErrors (app.revokeSession s) := by
  refine (blames_getSessionRecord s).andThen fun _ => ?_
  refine (blames_perform fun _ => rfl).andThen fun now => Fails.session (fails_orInternalError ?_)
  exact (fails_sql fun _ => rfl).andThen fun _ => blames_pure _

theorem fails_createSpace (name : String) (userId : Int) :
    Fails (SpaceService.createSpace name userId) :=
  fails_transaction ((fails_sql fun _ => rfl).andThen fun _ =>
    (fails_sql fun _ => rfl).andThen fun _ => blames_pure _)

theorem fails_searchUsers (query : String) (limit : Int) :
    Fails (UserService.searchUsers query limit) :=
  (fails_sql fun _ => rfl).andThen fun _ => blames_pure _

theorem blames_handler {req : Request} (hreq : req.expiryClock = none) :
    Blames req.documented (app.handler req) := by
  cases req with
  | verifyToken body =>
    simp only [handler, Routes.verifyToken, Request.documented]
    split
    · exact blames_throw (by decide) (by decide)
    · exact (blames_verifyToken _).andThen fun _ => blames_pure _
  | createSession body => cases hreq
  | getSession authorization =>
    refine (blames_extractBearerToken _).andThen fun s => ?_
    exact (blames_getSession s).andThen fun _ => blames_pure _
  | refreshSession authorization => cases hreq
  | deleteSession authorization =>
    refine (blames_extractBearerToken _).andThen fun s => ?_
    exact (blames_revokeSession s).andThen fun _ => blames_pure _
  | createSpace body authorization =>
    refine (blames_extractBearerToken _).andThen fun s => (blames_getSession s).andThen fun data => ?_
    by_cases hb : strip body.name = ""
    · simp only [hb, if_true]
      exact blames_throw (e := appError 400 .validationError) (by decide) (by decide)
    · simp only [hb, if_false]
      exact (fails_createSpace _ _).session.andThen fun _ => blames_pure _
  | searchUsers query authorization =>
    refine (blames_extractBearerToken _).andThen fun s => (blames_getSession s).andThen fun _ => ?_
    exact (fails_searchUsers _ _).session.andThen fun _ => blames_pure _

/-- The reading that the request computes a new expiry from is too close to the end of the
calendar, or the time to live too long. -/
def Overflows (app : App) (req : Request) (evs : List Ev) : Prop :=
  ∃ n t e, req.expiryClock = some n ∧ (evs.filterMap reading?)[n]? = some t ∧
    addSeconds t app.sessionTtlSeconds = .error e

theorem readings_of_verifyToken {token : String} {r : Except Exc (UserProfile × Bool)} {evs : List Ev}
    (h : Finishes (app.verifyToken token).run evs r) : (evs.filterMap reading?).length ≤ 2 := by
  rcases finishes_verifyToken h with ⟨e, h₁, -⟩ | ⟨t, p, now, x, -, rfl, -⟩
  · obtain ⟨-, rfl | ⟨t, rfl, -⟩⟩ := finishes_verifyAccessToken_error h₁ <;> simp [reading?]
  · simp [reading?]

structure Ends (app : App) (req : Request) (evs : List Ev) (r : Except Exc Response) : Prop where
  documented : ∀ e, r = .error e → handleException e ∈ req.documented
  internal : (∃ e, r = .error e ∧ e.internal) ↔ evs.any failed ∨ app.Overflows req evs

variable {evs : List Ev} {req : Request}

theorem Ends.of_ok {resp : Response} (hf : evs.any failed = false) (ho : ¬app.Overflows req evs) :
    app.Ends req evs (.ok resp) where
  documented _ h := by cases h
  internal := by simp [hf, ho]

theorem Ends.of_error {e : Exc} (hd : handleException e ∈ req.documented)
    (hi : e.internal ↔ evs.any failed ∨ app.Overflows req evs) : app.Ends req evs (.error e) where
  documented _ h := by
    cases h
    exact hd
  internal := by simpa using hi

theorem Ends.of_internal {e : Exc} (he : e.internal)
    (h : evs.any failed ∨ app.Overflows req evs) : app.Ends req evs (.error e) := by
  refine .of_error ?_ ⟨fun _ => h, fun _ => he⟩
  rw [he]
  cases req <;> simp [Request.documented, loginErrors, sessionErrors]

theorem overflows_of {n : Nat} {t : Instant} {e : Exc} (hn : req.expiryClock = some n)
    (ht : (evs.filterMap reading?)[n]? = some t)
    (he : addSeconds t app.sessionTtlSeconds = .error e) : app.Overflows req evs :=
  ⟨n, t, e, hn, ht, he⟩

theorem not_overflows_of {n : Nat} {t expires : Instant} (hn : req.expiryClock = some n)
    (ht : (evs.filterMap reading?)[n]? = some t)
    (hx : addSeconds t app.sessionTtlSeconds = .ok expires) : ¬app.Overflows req evs := by
  rintro ⟨n', t', e, hn', ht', hx'⟩
  cases hn.symm.trans hn'
  cases ht.symm.trans ht'
  cases hx.symm.trans hx'

theorem not_overflows_of_short {n : Nat} (hn : req.expiryClock = some n)
    (h : (evs.filterMap reading?).length ≤ n) : ¬app.Overflows req evs := by
  rintro ⟨n', t', e, hn', ht', -⟩
  cases hn.symm.trans hn'
  rw [List.getElem?_eq_none h] at ht'
  cases ht'

theorem ends_createSession {body : TokenRequest} {r : Except Exc Response}
    (h : Finishes (app.handler (.createSession body)).run evs r) :
    app.Ends (.createSession body) evs r := by
  simp only [handler, Routes.createSession] at h
  by_cases hb : strip body.token = ""
  · simp only [hb, if_true] at h
    obtain ⟨rfl, rfl⟩ := finishes_throw_andThen.1 h
    have hn : ¬(appError 400 .validationError).internal := by decide
    have ho : ¬app.Overflows (.createSession body) [] :=
      not_overflows_of_short rfl (Nat.zero_le 2)
    exact .of_error (List.mem_cons_self ..) (by simp [hn, ho])
  simp only [hb, if_false] at h
  rcases finishes_andThen.1 h with ⟨e, h₁, rfl⟩ | ⟨evs₁, data, evs₂, rfl, h₁, h₂⟩
  · rcases finishes_createSession h₁ with ⟨e', hv, he⟩ |
      ⟨evs₁, profile, created, s, t, hv, ⟨e', ht, rfl, he⟩ | ⟨expires, u, x, ht, rfl, he⟩⟩
    · cases he
      have hn : ¬app.Overflows (.createSession body) evs :=
        not_overflows_of_short rfl (readings_of_verifyToken hv)
      have hv' : Blames loginErrors (app.verifyToken (strip body.token)) := blames_verifyToken _
      exact .of_error (hv'.documented hv) (by simpa [hn] using hv'.error hv)
    · cases he
      obtain rfl := addSeconds_eq_error ht
      obtain ⟨t₀, p, now, row, -, -, rfl⟩ := finishes_verifyToken_ok.1 hv
      exact .of_internal (Exc.internal_lib _) (.inr (overflows_of rfl rfl ht))
    · have hx : e = internalError ∧ failed
          (sqlEv (.insertSession u profile.id (app.hashToken s) expires) x) := by
        rcases x with e' | _ | rec <;> cases he <;> exact ⟨rfl, rfl⟩
      obtain ⟨rfl, hx⟩ := hx
      exact .of_internal rfl (.inl (by simp [hx]))
  · rcases finishes_createSession h₁ with ⟨_, -, he⟩ |
      ⟨evs₁, profile, created, s, t, hv, ⟨_, -, -, he⟩ | ⟨expires, u, x, ht, rfl, he⟩⟩
    · cases he
    · cases he
    obtain ⟨t₀, p, now, row, -, -, rfl⟩ := finishes_verifyToken_ok.1 hv
    rcases x with e' | _ | rec <;> cases he
    obtain ⟨rfl, rfl⟩ := finishes_pure.1 h₂
    rw [List.append_nil]
    exact .of_ok (by simp [failed, noRow]) (not_overflows_of rfl rfl ht)

theorem ends_refreshSession {authorization : Option String} {r : Except Exc Response}
    (h : Finishes (app.handler (.refreshSession authorization)).run evs r) :
    app.Ends (.refreshSession authorization) evs r := by
  rcases finishes_ofExcept_andThen.1 h with ⟨e, hx, rfl, rfl⟩ | ⟨s, -, h₁⟩
  · have hb := blames_extractBearerToken authorization
    have hf : Finishes (fromExcept (extractBearerToken authorization)).run [] (.error e) :=
      finishes_ofExcept.2 ⟨rfl, hx.symm⟩
    have ho : ¬app.Overflows (.refreshSession authorization) [] :=
      not_overflows_of_short rfl (Nat.zero_le 1)
    exact .of_error (hb.documented hf) (by simpa [ho] using hb.error hf)
  obtain ⟨y, h₂, rfl⟩ := finishes_andThen_pure.1 h₁
  rcases finishes_refreshSession h₂ with ⟨e, hg, rfl⟩ | ⟨evs₁, rec, t, hg, ⟨e, ht, rfl, rfl⟩ |
    ⟨expires, now, x, evs₂, ht, rfl, ⟨e, rfl, rfl, rfl⟩ | ⟨rfl, rfl, rfl⟩ | ⟨rec', y, rfl, rfl, rfl⟩⟩⟩
  · have hb : Blames sessionErrors (app.getSessionRecord s) := blames_getSessionRecord s
    have hn : ¬app.Overflows (.refreshSession authorization) evs := by
      apply not_overflows_of_short rfl
      rcases finishes_getSessionRecord.1 hg with ⟨_, rfl, -⟩ | ⟨rfl, -⟩ | ⟨rec, t, rfl, -⟩
      · exact Nat.zero_le 1
      · exact Nat.zero_le 1
      · exact Nat.le_refl 1
    exact .of_error (hb.documented hg) (by simpa [hn] using hb.error hg)
  all_goals obtain ⟨t₀, rfl, -⟩ := finishes_getSessionRecord_ok.1 hg
  · obtain rfl := addSeconds_eq_error ht
    exact .of_internal (Exc.internal_lib _) (.inr (overflows_of rfl rfl ht))
  · exact .of_internal rfl (.inl (by simp [failed]))
  · refine .of_error (.tail _ (.head _)) ⟨fun hi => absurd hi (by decide), ?_⟩
    rintro (hf | ho)
    · simp [failed, noRow] at hf
    · exact absurd ho (not_overflows_of rfl rfl ht)
  · rcases y with e | _ | user
    · exact .of_internal (Exc.internal_lib e) (.inl (by simp [failed]))
    · exact .of_internal rfl (.inl (by simp [failed, noRow]))
    · exact .of_ok (by simp [failed, noRow]) (not_overflows_of rfl rfl ht)

theorem ends_handler {r : Except Exc Response} (h : Finishes (app.handler req).run evs r) :
    app.Ends req evs r := by
  cases hreq : req.expiryClock with
  | none =>
    have hb : Blames req.documented (app.handler req) := blames_handler hreq
    have hn : ¬app.Overflows req evs := by simp [Overflows, hreq]
    cases r with
    | ok resp => exact .of_ok (hb.ok h) hn
    | error e => exact .of_error (hb.documented h) (by simpa [hn] using hb.error h)
  | some n =>
    cases req with
    | createSession body => exact ends_createSession h
    | refreshSession authorization => exact ends_refreshSession h
    | _ => cases hreq

theorem internal_of_statusCode {x : ErrorResponse} (h : x ∈ req.documented)
    (hs : x.statusCode = 500) : x = errorPayload 500 .internalError := by
  have hl : ∀ x ∈ loginErrors, x.statusCode = 500 → x = errorPayload 500 .internalError := by
    decide
  have hss : ∀ x ∈ sessionErrors, x.statusCode = 500 → x = errorPayload 500 .internalError := by
    decide
  cases req with
  | verifyToken _ | createSession _ => exact hl x h hs
  | _ => exact hss x h hs

theorem internal_iff_of_documented {e : Exc} (h : handleException e ∈ req.documented) :
    e.internal ↔ (handleException e).statusCode = 500 := by
  refine ⟨fun hi => ?_, internal_of_statusCode h⟩
  rw [show handleException e = _ from hi]
  rfl

variable {w₀ : World} {ls : List (Label Eff Eff.Answer Request)} {i : Nat}
  {c : Config Eff Eff.Answer World Request (Except Exc Response)}

theorem noRow_of_mem {q : Stmt} {rows : q.Rows} (h : app.system.Run (.init w₀) ls c)
    (hm : .did i (.sql q) (.ok rows) ∈ ls) : noRow q rows = false := by
  obtain ⟨l₁, l₂, c₁, c₂, rfl, h₁, hst, -⟩ := h.split_mem hm
  cases q with
  | upsertUser p =>
    rcases rows with _ | row
    · exact absurd rfl (upsert_answer hst.trans)
    · rfl
  | insertSession id userId hash expires =>
    rcases rows with _ | rec
    · exact absurd rfl (insert_answer hst.trans)
    · rfl
  | userById id =>
    rcases rows with _ | row
    · exact absurd hm (user_found h i id)
    · rfl
  | _ => rfl

theorem any_failed_iff (h : app.system.Run (.init w₀) ls c) :
    (own i ls).any failed ↔ ∃ q y, .did i (.sql q) (.error y) ∈ ls := by
  rw [List.any_eq_true]
  constructor
  · rintro ⟨⟨e, a⟩, hm, hf⟩
    have hm' := mem_own.1 hm
    cases e with
    | sql q =>
      rcases a with y | rows
      · exact ⟨q, y, hm'⟩
      · have hn : noRow q rows = true := hf
        rw [noRow_of_mem h hm'] at hn
        cases hn
    | _ => cases hf
  · rintro ⟨q, y, hm⟩
    exact ⟨_, mem_own.2 hm, rfl⟩

theorem succeeds_iff {r : Except Exc Response} (h : app.system.Run (.init w₀) ls c)
    (hf : Finishes (app.handler req).run (own i ls) r) (hr : ∀ e, r = .error e → e.internal) :
    (∃ resp, r = .ok resp) ↔
      (∀ q y, .did i (.sql q) (.error y) ∉ ls) ∧ ¬app.Overflows req (own i ls) := by
  have hsql : (∀ q y, .did i (.sql q) (.error y) ∉ ls) ↔ ¬(own i ls).any failed := by
    rw [any_failed_iff h]
    push Not
    rfl
  rw [hsql, ← not_or, ← (ends_handler hf).internal]
  constructor
  · rintro ⟨resp, rfl⟩ ⟨e, he, -⟩
    cases he
  · intro hnone
    cases r with
    | ok resp => exact ⟨resp, rfl⟩
    | error e => exact absurd ⟨e, rfl, hr e rfl⟩ hnone

theorem explained_of_run {r : Except Exc Response} (h : app.system.Run (.init w₀) ls c)
    (hreq : .started i req ∈ ls) (hret : c.Returned i r) :
    (∀ e, r = .error e → handleException e ∈ req.documented) ∧
    ((∃ e, r = .error e ∧ (handleException e).statusCode = 500) ↔
      (∃ q y, .did i (.sql q) (.error y) ∈ ls) ∨ app.Overflows req (own i ls)) := by
  obtain ⟨req', hreq', hf⟩ := h.returned hret
  obtain rfl := h.started_unique hreq hreq'
  have hends := ends_handler hf
  refine ⟨hends.documented, ?_⟩
  rw [← any_failed_iff h, ← hends.internal]
  refine exists_congr fun e => and_congr_right fun he => ?_
  exact (internal_iff_of_documented (hends.documented e he)).symm

theorem internal_mem_documented (req : Request) :
    errorPayload 500 .internalError ∈ req.documented := by
  cases req <;> simp [Request.documented, loginErrors, sessionErrors]

/-- A request answers only with errors its route documents, and with an internal error exactly
when it got no connection, one of its statements raised or its new expiry is no date. -/
theorem errors_explained {ls : List (LeaseLabel Eff Eff.Answer Request)}
    {c : Leases Eff Eff.Answer World Request (Except Exc Response)} {r : Except Exc Response}
    (hw : ∀ i, w₀.txs i = none) (h : app.PooledRun w₀ ls c) (hreq : .arrived i req ∈ ls)
    (hend : c.Ended i r) :
    (∀ e, r = .error e → handleException e ∈ req.documented) ∧
    ((∃ e, r = .error e ∧ (handleException e).statusCode = 500) ↔
      c.Refused i r ∨ (∃ q y, .did i (.sql q) (.error y) ∈ ls) ∨
        app.Overflows req (own i (ls.flatMap LeaseLabel.erase))) := by
  rcases hend with ⟨req', hp⟩ | hrefused
  · obtain ⟨d, hr, hf⟩ := follow_of_pooledRun hw h
    obtain ⟨hdocumented, hinternal⟩ :=
      explained_of_run hr (LeaseLabel.mem_erase_started.2 hreq) ⟨req', hf.getElem? hp⟩
    refine ⟨hdocumented, ?_⟩
    have hserved : ¬c.Refused i r := by
      rintro ⟨req'', hp'⟩
      cases hp.symm.trans hp'
    simp only [hinternal, LeaseLabel.mem_erase_did, hserved, false_or]
  · obtain ⟨e, rfl⟩ := error_of_refused h hrefused
    refine ⟨?_, iff_of_true ⟨_, rfl, rfl⟩ (.inl hrefused)⟩
    intro e' he
    cases he
    exact internal_mem_documented req

end App

namespace Recorded

def connectionLost : LibError := .other "OperationalError"

def lostSpace : List (Label Eff Eff.Answer Request) :=
  [.started 0 (.createSpace notes authorization),
    .did 0 (.sql (.sessionByTokenHash sessionHash)) (.ok (some sessionRecord)),
    .did 0 .clock loginAt, .did 0 (.sql (.userById 1)) (.ok (some userRow)),
    .did 0 (.sql .begin) (.ok ()), .did 0 (.sql (.insertSpace "Notes")) (.error connectionLost),
    .did 0 (.sql .rollback) (.ok ())]

theorem errors_explained_lost :
    ∃ ls c, recordedApp.PooledRun sessionWorld ls c ∧ ls.flatMap LeaseLabel.erase = lostSpace ∧
      c.Ended 0 (.error (.lib connectionLost)) ∧
      (c.Refused 0 (.error (.lib connectionLost)) ∨
        (∃ q y, .did 0 (.sql q) (.error y) ∈ ls) ∨
        recordedApp.Overflows (.createSpace notes authorization) (own 0 lostSpace)) := by
  obtain ⟨d, hrun, hret⟩ : ∃ d, recordedApp.system.Run (.init sessionWorld) lostSpace d ∧
      decide (d.result? 0 = some (.error (.lib connectionLost))) :=
    System.exists_run choiceFor _ (by decide +kernel)
  obtain ⟨ls, c, hl, he, hover⟩ := App.exists_pooledRun (fun _ => rfl) hrun (by decide)
  have hend : c.Ended 0 (.error (.lib connectionLost)) :=
    .inl (hover 0 _ (Config.returned_of_result? (of_decide_eq_true hret)))
  have hreq : .arrived 0 (.createSpace notes authorization) ∈ ls :=
    LeaseLabel.mem_erase_started.1 (he ▸ List.mem_cons_self)
  have h := App.errors_explained (fun _ => rfl) hl hreq hend
  exact ⟨ls, c, hl, he, hend, he ▸ h.2.1 ⟨_, rfl, rfl⟩⟩

end Recorded

end WikiBackend
