import WikiBackend.Api.Causes
import WikiBackend.Sessions.Lifetime
import WikiBackend.Token.Agreement
import WikiBackend.Users.Profiles

/-! The issuer in front of the application. A token that it issues logs in for as long as it is
fresh, and the account gets what the token was requested with. -/

namespace WikiBackend

open Effects

structure Presents (p : UpsertParams) (row : UserRow) : Prop where
  telegramId : row.telegramId = p.telegramId
  username : ∀ s ∈ stored 255 p.username, s ∈ row.username
  firstName : ∀ s ∈ stored 255 p.firstName, s ∈ row.firstName
  lastName : ∀ s ∈ stored 255 p.lastName, s ∈ row.lastName
  photoUrl : ∀ s ∈ stored 1024 p.photoUrl, s ∈ row.photoUrl
  permission : ∀ s ∈ stored 64 p.permission, s ∈ row.permission
  lastLoginAt : row.lastLoginAt = p.now

theorem presents_insertRow (p : UpsertParams) (id : Int) : Presents p (p.insertRow id) :=
  ⟨rfl, fun _ h => h, fun _ h => h, fun _ h => h, fun _ h => h, fun _ h => h, rfl⟩

theorem mem_or_of_mem {s : String} {x : Option String} (y : Option String) (h : s ∈ x) :
    s ∈ x.or y := by
  rw [Option.mem_def.1 h]
  rfl

theorem presents_updateRow {p : UpsertParams} {r : UserRow} (h : r.telegramId = p.telegramId) :
    Presents p (p.updateRow r) where
  telegramId := h
  username _ hs := mem_or_of_mem _ hs
  firstName _ hs := mem_or_of_mem _ hs
  lastName _ hs := mem_or_of_mem _ hs
  photoUrl _ hs := mem_or_of_mem _ hs
  permission _ hs := mem_or_of_mem _ hs
  lastLoginAt := rfl

theorem UsersStep.presents {db db' : Database} {p : UpsertParams} {row : UserRow} {created : Bool}
    (h : UsersStep db db' (sqlEv (.upsertUser p) (.ok (some (row, created))))) : Presents p row := by
  cases h with
  | kept hk => cases hk
  | updated hr _ => exact presents_updateRow (Database.userByTelegramId_eq_some.1 hr).2
  | inserted _ _ => exact presents_insertRow p _

/-! ## Issued tokens decrypt to what was requested -/

section
variable {L : Library} {fold : Char → Char} {env : Environ} {app : App} {issue : IssueTokenRequest}
  {issued : Instant} {urandom : Bytes} {token : String}

theorem settings_of_getApp (h : getApp L fold env = .ok app) :
    ∃ settings, getSettings env = .ok settings ∧ app = ⟨L, .new L settings.oauthNameApplicationId
      settings.oauthNameSecretKey settings.tokenTtlSeconds, settings.sessionTtlSeconds, fold⟩ := by
  cases hset : getSettings env with
  | error e =>
    rw [getApp, getTokenService, hset] at h
    cases h
  | ok settings =>
    rw [App.getApp_eq_ok hset] at h
    exact ⟨settings, rfl, (Except.ok.inj h).symm⟩

theorem decryptAndValidate_issued (hL : L.Lawful) (hV : L.Validates)
    (happ : getApp L fold env = .ok app) (hun : SecretsUnpadded env)
    (hr : urandom.length = ivLength)
    (hjson : L.jsonLoads (issuedText L issue issued) =
      .ok (.obj (issue.modelDump (issue.createdAtOr issued))))
    (htoken : issueToken L env issued urandom issue = .ok token) :
    app.tokenService.decryptAndValidate app.lib token =
      .ok (issue.data (issue.createdAtOr issued)) := by
  obtain ⟨settings, hset, rfl⟩ := settings_of_getApp happ
  obtain ⟨ciphertext, hne, henc, hdec, htoken'⟩ := issueToken_eq_ok env issue issued hL hr
  have hkey : issuerKey L env = (TokenService.new L settings.oauthNameApplicationId
      settings.oauthNameSecretKey settings.tokenTtlSeconds).key := by
    rw [issuerKey, (issuerPrivateKey_eq_iff hset).2 hun]
    rfl
  rw [htoken] at htoken'
  cases htoken'
  rw [hkey] at hdec ⊢
  -- at some reading of the clock it is fresh
  let fresh : Instant := (issue.createdAtOr issued + settings.tokenTtlSeconds) * 1000000
  have hage : unixTime fresh - issue.createdAtOr issued ≤ settings.tokenTtlSeconds := by
    rw [unixTime, Int.mul_tdiv_cancel _ (by decide)]
    omega
  have hverify := (verifyToken_issued hL hV hr hjson hne hdec).2 ⟨rfl, hage⟩
  exact (TokenService.verifyToken_eq_ok.1 hverify).1

theorem ne_empty_of_decrypts {svc : TokenService} {data : TokenPayload} (hL : L.Lawful)
    (h : svc.decryptAndValidate L token = .ok data) : token ≠ "" := by
  rintro rfl
  obtain ⟨payload, hdec, -⟩ := TokenService.decryptAndValidate_eq_ok.1 h
  obtain ⟨raw, _, hraw, hlen, -⟩ := TokenService.decrypt_eq_ok.1 hdec
  have hempty : b64decode L "" = .ok [] := b64decode_b64encode hL.b64decodeValidate []
  rw [hempty] at hraw
  cases hraw
  exact absurd hlen (Nat.not_lt_zero _)

end

/-! ## Logins -/

namespace App

variable {app : App} {req : Request} {token : String} {evs : List Ev} {r : Except Exc Response}

theorem handler_eq_verifyToken (hreq : req.accessToken? = some token) (hb : token ≠ "") :
    ∃ f, app.handler req = app.verifyToken token >>= f := by
  cases req with
  | verifyToken body =>
    cases hreq
    simp only [handler, Routes.verifyToken, hb, if_false]
    exact ⟨_, rfl⟩
  | createSession body =>
    cases hreq
    simp only [handler, Routes.createSession, hb, if_false, createSession, bind_assoc]
    exact ⟨_, rfl⟩
  | _ => cases hreq

theorem upserts_of_handler (hreq : req.accessToken? = some token) (hb : token ≠ "")
    (h : Finishes (app.handler req).run evs r) :
    (∃ e, Finishes (app.verifyAccessToken token).run evs (.error e) ∧ r = .error e) ∨
    ∃ t p now x evs', app.Accepts t token p ∧
      evs = clockEv t :: clockEv now :: sqlEv (.upsertUser (p.upsertParams now)) x :: evs' := by
  obtain ⟨f, hf⟩ := app.handler_eq_verifyToken hreq hb
  rw [hf] at h
  rcases finishes_andThen.1 h with ⟨e, hv, rfl⟩ | ⟨evs₁, ⟨profile, created⟩, evs₂, rfl, hv, -⟩
  · rcases finishes_verifyToken hv with ⟨e', ha, he⟩ | ⟨t, p, now, x, ha, rfl, -⟩
    · cases he
      exact .inl ⟨_, ha, rfl⟩
    · exact .inr ⟨t, p, now, x, [], ha, rfl⟩
  · obtain ⟨t, p, now, row, ha, -, rfl⟩ := finishes_verifyToken_ok.1 hv
    exact .inr ⟨t, p, now, _, evs₂, ha, rfl⟩

theorem login_error {e : Exc} (hreq : req.accessToken? = some token) (hb : token ≠ "")
    (h : Finishes (app.handler req).run evs (.error e)) :
    Finishes (app.verifyAccessToken token).run evs (.error e) ∨ e.internal := by
  have verify {evs : List Ev} {e : Exc} (hv : Finishes (app.verifyToken token).run evs (.error e)) :
      Finishes (app.verifyAccessToken token).run evs (.error e) ∨ e.internal := by
    rcases finishes_verifyToken hv with ⟨_, ha, he⟩ | ⟨_, _, _, _, -, -, ⟨he, -⟩ | ⟨_, _, -, he⟩⟩ <;>
      cases he
    · exact .inl ha
    · exact .inr rfl
  cases req with
  | verifyToken body =>
    cases hreq
    simp only [handler, Routes.verifyToken, hb, if_false] at h
    obtain ⟨_ | _, hv, he⟩ := finishes_andThen_pure.1 h <;> cases he
    exact verify hv
  | createSession body =>
    cases hreq
    simp only [handler, Routes.createSession, hb, if_false] at h
    rcases finishes_andThen.1 h with ⟨_, hc, he⟩ | ⟨_, data, _, rfl, hc, hd⟩
    · cases he
      rcases finishes_createSession hc with ⟨_, hv, he⟩ |
        ⟨_, _, _, _, _, -, ⟨_, ht, -, he⟩ | ⟨_, _, _ | _ | _, -, -, he⟩⟩ <;> cases he
      · exact verify hv
      · obtain rfl := addSeconds_eq_error ht
        exact .inr (Exc.internal_lib _)
      · exact .inr rfl
      · exact .inr rfl
    · rcases data with ⟨_, _, _ | s⟩
      · cases (finishes_throw.1 hd).2
        exact .inr rfl
      · cases (finishes_pure.1 hd).2
  | _ => cases hreq

theorem shows_of_succeeds {p : UpsertParams} {t now : Instant} {resp : Response}
    {x : Except LibError (Option (UserRow × Bool))} (hreq : req.accessToken? = some token)
    (h : app.Succeeds req evs resp)
    (hevs : ∃ evs', evs = clockEv t :: clockEv now :: sqlEv (.upsertUser p) x :: evs') :
    ∃ row created, x = .ok (some (row, created)) ∧
      resp.user? = some row.toProfile.toTokenUser := by
  obtain ⟨evs', rfl⟩ := hevs
  cases h with
  | verifyToken ha => exact ⟨_, _, rfl, rfl⟩
  | createSession ha ht => exact ⟨_, _, rfl, rfl⟩

end App

/-! ## Runs -/

/-- What becomes of the login `i` with a token that was issued for `data`. -/
structure LoginOutcome (app : App) (data : TokenPayload) (req : Request)
    (ls : List (Label Eff Eff.Answer Request)) (i : Nat) (t : Instant) (r : Except Exc Response) :
    Prop where
  stale : app.tokenService.ttlSeconds < unixTime t - data.createdAt →
    own i ls = [clockEv t] ∧ r = .error oauthCodeInvalid
  fresh : unixTime t - data.createdAt ≤ app.tokenService.ttlSeconds →
    ((∃ resp, r = .ok resp) ↔
      (∀ q y, .did i (.sql q) (.error y) ∉ ls) ∧ ¬app.Overflows req (own i ls)) ∧
    ∀ resp, r = .ok resp → ∃ now row created,
      .did i (.sql (.upsertUser (data.upsertParams now))) (.ok (some (row, created))) ∈ ls ∧
      Presents (data.upsertParams now) row ∧ resp.user? = some row.toProfile.toTokenUser

namespace App

variable {L : Library} {fold : Char → Char} {env : Environ} {app : App} {issue : IssueTokenRequest}
  {issued : Instant} {urandom : Bytes} {token : String} {w₀ : World} {req : Request} {i : Nat}
  {ls : List (Label Eff Eff.Answer Request)} {r : Except Exc Response}
  {c : Config Eff Eff.Answer World Request (Except Exc Response)}

theorem tooOld_of_error {data : TokenPayload} {evs : List Ev} {e : Exc}
    (hdec : app.tokenService.decryptAndValidate app.lib token = .ok data)
    (hv : Finishes (app.verifyAccessToken token).run evs (.error e)) :
    ∃ t, evs = [clockEv t] ∧ e = oauthCodeInvalid ∧
      app.tokenService.ttlSeconds < unixTime t - data.createdAt := by
  rcases finishes_verifyAccessToken.1 hv with ⟨_, hd, -, -⟩ | ⟨t, data, hd, rfl, he⟩
  · rw [hdec] at hd
    cases hd
  · rw [hdec] at hd
    cases hd
    refine ⟨t, rfl, TokenService.checkTtl_error he.symm, Int.not_le.1 fun hle => ?_⟩
    cases he.trans (TokenService.checkTtl_eq_ok.2 ⟨rfl, hle⟩)

theorem logs_in_of_run (hL : L.Lawful) (hV : L.Validates)
    (happ : getApp L fold env = .ok app) (hun : SecretsUnpadded env)
    (hr : urandom.length = ivLength)
    (hjson : L.jsonLoads (issuedText L issue issued) =
      .ok (.obj (issue.modelDump (issue.createdAtOr issued))))
    (htoken : issueToken L env issued urandom issue = .ok token)
    (h : app.system.Run (.init w₀) ls c) (hm : .started i req ∈ ls)
    (hreq : req.accessToken? = some token) (hret : c.Returned i r) :
    ∃ t, (∃ evs, own i ls = clockEv t :: evs) ∧
      LoginOutcome app (issue.data (issue.createdAtOr issued)) req ls i t r := by
  have hdec := decryptAndValidate_issued hL hV happ hun hr hjson htoken
  have hlib : app.lib = L := by
    obtain ⟨_, -, rfl⟩ := settings_of_getApp happ
    rfl
  have hb : token ≠ "" := ne_empty_of_decrypts (hlib ▸ hL) hdec
  obtain ⟨req', hm', hf⟩ := h.returned hret
  obtain rfl := h.started_unique hm hm'
  rcases upserts_of_handler hreq hb hf with ⟨e, hv, rfl⟩ | ⟨t, p, now, x, evs', ha, hevs⟩
  · obtain ⟨t, hevs, rfl, hold⟩ := tooOld_of_error hdec hv
    exact ⟨t, ⟨[], hevs⟩, fun _ => ⟨hevs, rfl⟩, fun hfresh => absurd hold (Int.not_lt.2 hfresh)⟩
  · obtain ⟨hd, hfresh⟩ := TokenService.verifyToken_eq_ok.1 ha
    rw [hdec] at hd
    cases hd
    refine ⟨t, ⟨_, hevs⟩, fun hold => absurd hold (Int.not_lt.2 hfresh), fun _ => ⟨?_, ?_⟩⟩
    · refine succeeds_iff h hf ?_
      rintro e rfl
      rcases login_error hreq hb hf with hv | he
      · obtain ⟨t', hone, -, -⟩ := tooOld_of_error hdec hv
        rw [hevs] at hone
        cases hone
      · exact he
    · rintro resp rfl
      obtain ⟨row, created, rfl, hu⟩ := shows_of_succeeds hreq (succeeds_of_finishes hf) ⟨_, hevs⟩
      have hdid := mem_own.1 (hevs ▸ List.mem_cons_of_mem _ (.tail _ (.head _)))
      obtain ⟨l₁, l₂, c₁, c₂, -, -, hst, -⟩ := h.split_mem hdid
      exact ⟨now, row, created, hdid, (usersStep_of_trans hst.trans).presents, hu⟩

/-- A token of the issuer logs in, in every run over the pool, exactly while it is fresh and
nothing fails behind the application; and the account gets what the token was requested with. -/
theorem issued_token_logs_in {ls : List (LeaseLabel Eff Eff.Answer Request)}
    {c : Leases Eff Eff.Answer World Request (Except Exc Response)} (hL : L.Lawful)
    (hV : L.Validates) (happ : getApp L fold env = .ok app) (hun : SecretsUnpadded env)
    (hr : urandom.length = ivLength)
    (hjson : L.jsonLoads (issuedText L issue issued) =
      .ok (.obj (issue.modelDump (issue.createdAtOr issued))))
    (htoken : issueToken L env issued urandom issue = .ok token) (hw : ∀ i, w₀.txs i = none)
    (h : app.PooledRun w₀ ls c) (hm : .arrived i req ∈ ls)
    (hreq : req.accessToken? = some token) (hend : c.Ended i r) :
    (c.Refused i r ∧ own i (ls.flatMap LeaseLabel.erase) = [] ∧ ∃ e, r = .error (.lib e)) ∨
    ∃ t, (∃ evs, own i (ls.flatMap LeaseLabel.erase) = clockEv t :: evs) ∧
      LoginOutcome app (issue.data (issue.createdAtOr issued)) req (ls.flatMap LeaseLabel.erase) i
        t r := by
  rcases hend with ⟨req', hp⟩ | hrefused
  · obtain ⟨d, hrun, hf⟩ := follow_of_pooledRun hw h
    exact .inr (logs_in_of_run hL hV happ hun hr hjson htoken hrun
      (LeaseLabel.mem_erase_started.2 hm) hreq ⟨req', hf.getElem? hp⟩)
  · exact .inl ⟨hrefused, h.own_of_refused hrefused, error_of_refused h hrefused⟩

end App

namespace Recorded

def sharedApp : App := ⟨adaToken.library, adaToken.service, 3600, Char.toLower⟩

theorem getApp_shared : getApp adaToken.library Char.toLower sharedEnviron = .ok sharedApp := by
  rw [getApp, getTokenService, getSettings_shared]
  rfl

theorem aesCbcEncrypt_ada :
    adaToken.library.aesCbcEncrypt adaToken.service.key adaToken.iv
      (pkcs7Pad (encodeUtf8 adaToken.text)) = .ok adaToken.ciphertext := by
  have h16 := Nat.mod_eq_zero_of_dvd (dvd_length_pkcs7Pad (encodeUtf8 adaToken.text))
  rw [adaToken.service_key]
  simp only [Recording.library, Recording.cipher, if_neg (not_not.2 h16), and_self, if_true,
    Equiv.swap_apply_left]

theorem issueToken_ada :
    issueToken adaToken.library sharedEnviron loginAt adaToken.iv (issueRequest 1700000000) =
      .ok adaToken.token := by
  have hkey : issuerKey adaToken.library sharedEnviron = adaToken.service.key := rfl
  obtain ⟨ciphertext, -, henc, -, htoken⟩ := issueToken_eq_ok sharedEnviron
    (issueRequest 1700000000) loginAt adaToken.lawful adaToken.ivLength
  have hciphertext : adaToken.ciphertext = ciphertext :=
    Except.ok.inj (aesCbcEncrypt_ada.symm.trans henc)
  rw [htoken, ← hciphertext, hkey, adaToken.hmacSha256_eq]
  rfl

theorem decrypts_ada :
    sharedApp.tokenService.decryptAndValidate sharedApp.lib adaToken.token = .ok data₁ :=
  decryptAndValidate_issued adaToken.lawful adaToken.coerces.validates getApp_shared
    secretsUnpadded_shared adaToken.ivLength (jsonLoads_issuedText rfl) issueToken_ada

theorem adaToken_ne : adaToken.token ≠ "" :=
  ne_empty_of_decrypts adaToken.lawful decrypts_ada

def adaRequest : Request :=
  .verifyToken ⟨adaToken.token, Nat.one_le_iff_ne_zero.2 (mt String.length_eq_zero_iff.1 adaToken_ne)⟩

def adaEvents : List Ev :=
  [clockEv loginAt, clockEv loginAt,
    sqlEv (.upsertUser (data₁.upsertParams loginAt)) (.ok (some (userRow, true)))]

def adaRun : List (Label Eff Eff.Answer Request) :=
  .started 0 adaRequest :: adaEvents.map fun ev => .did 0 ev.1 ev.2

theorem finishes_adaRequest :
    Finishes (sharedApp.system.body adaRequest) adaEvents
      (.ok (.tokenVerify true userRow.toProfile.toTokenUser)) := by
  have hstrip : strip adaToken.token = adaToken.token := strip_b64encode _
  have haccepts : sharedApp.Accepts loginAt adaToken.token data₁ :=
    TokenService.verifyToken_eq_ok.2 ⟨decrypts_ada, by decide⟩
  simp only [App.body_eq, App.handler, adaRequest, Routes.verifyToken, hstrip, adaToken_ne, if_false]
  have hv : Finishes (sharedApp.verifyToken adaToken.token).run adaEvents
      (.ok (userRow.toProfile, true)) :=
    App.finishes_verifyToken_ok.2 ⟨loginAt, data₁, loginAt, userRow, haccepts, rfl, rfl⟩
  exact finishes_andThen_pure_ok.2 ⟨_, hv, rfl⟩

theorem pooled_adaRun : ∃ ls c, sharedApp.PooledRun .initial ls c ∧
    ls.flatMap LeaseLabel.erase = adaRun ∧
    c.Over 0 (.ok (.tokenVerify true userRow.toProfile.toTokenUser)) := by
  obtain ⟨w, ha, -⟩ := System.exists_answers (S := sharedApp.system) choiceFor adaEvents
    (i := 0) (w := World.initial) (P := fun _ => true) (by decide +kernel)
  have hrun := System.Run.solo (.nil (.init World.initial)) finishes_adaRequest ha
  obtain ⟨ls, c, hl, he, hover⟩ := App.exists_pooledRun (fun _ => rfl) hrun (by decide)
  exact ⟨ls, c, hl, he, hover 0 _ ⟨adaRequest, rfl⟩⟩

theorem issued_token_logs_in_ada : ∃ ls c t, sharedApp.PooledRun .initial ls c ∧
    c.Over 0 (.ok (.tokenVerify true userRow.toProfile.toTokenUser)) ∧
    (∃ evs, own 0 adaRun = clockEv t :: evs) ∧
    LoginOutcome sharedApp ((issueRequest 1700000000).data 1700000000) adaRequest adaRun 0 t
      (.ok (.tokenVerify true userRow.toProfile.toTokenUser)) := by
  obtain ⟨ls, c, hrun, he, hover⟩ := pooled_adaRun
  have hm : .arrived 0 adaRequest ∈ ls :=
    LeaseLabel.mem_erase_started.1 (he ▸ List.mem_cons_self)
  have hstrip : strip adaToken.token = adaToken.token := strip_b64encode _
  rcases App.issued_token_logs_in adaToken.lawful adaToken.coerces.validates getApp_shared
    secretsUnpadded_shared adaToken.ivLength (jsonLoads_issuedText rfl) issueToken_ada (fun _ => rfl)
    hrun hm (congrArg some hstrip) (.inl hover) with ⟨-, -, e, hr⟩ | ⟨t, hown, hlogin⟩
  · cases hr
  · rw [he] at hown hlogin
    exact ⟨ls, c, t, hrun, hover, hown, hlogin⟩

end Recorded

end WikiBackend
