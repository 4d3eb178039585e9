import WikiBackend.Api.Paths
import WikiBackend.Api.Transitions
import WikiBackend.Token.Rejection

/-! Rejected access tokens: one status and one code, and no statement executed. -/

namespace WikiBackend.App

open Effects

variable {app : App} {evs : List Ev} {token : String} {req : Request}

def Refuses (app : App) (t : Instant) (token : String) : Prop :=
  ∃ e, app.tokenService.verifyToken app.lib t token = .error e

theorem finishes_verifyAccessToken_error {e : Exc}
    (h : Finishes (app.verifyAccessToken token).run evs (.error e)) :
    e = oauthCodeInvalid ∧ (evs = [] ∨ ∃ t, evs = [clockEv t] ∧ app.Refuses t token) := by
  rcases finishes_verifyAccessToken.1 h with ⟨e', hd, rfl, he⟩ | ⟨t, data, hd, rfl, he⟩
  · cases he
    exact ⟨TokenService.decryptAndValidate_error hd, .inl rfl⟩
  · refine ⟨TokenService.checkTtl_error he.symm, .inr ⟨t, rfl, e, ?_⟩⟩
    rw [TokenService.verifyToken, hd]
    exact he.symm

theorem refuses_finishes {t : Instant} (h : app.Refuses t token) :
    ∃ evs, (evs = [] ∨ evs = [clockEv t]) ∧
      Finishes (app.verifyAccessToken token).run evs (.error oauthCodeInvalid) := by
  obtain ⟨e, h⟩ := h
  obtain rfl := TokenService.verifyToken_error h
  cases hd : app.tokenService.decryptAndValidate app.lib token with
  | error e =>
    refine ⟨[], .inl rfl, finishes_verifyAccessToken.2 (.inl ⟨e, hd, rfl, ?_⟩)⟩
    rw [TokenService.decryptAndValidate_error hd]
  | ok data =>
    rw [TokenService.verifyToken, hd] at h
    exact ⟨[clockEv t], .inr rfl, finishes_verifyAccessToken.2 (.inr ⟨t, data, hd, rfl, h.symm⟩)⟩

def Verified (app : App) (token : String) (evs : List Ev) : Prop :=
  ∃ t p evs', app.Accepts t token p ∧ evs = clockEv t :: evs'

theorem Verified.append {evs' : List Ev} (h : app.Verified token evs) :
    app.Verified token (evs ++ evs') := by
  obtain ⟨t, p, evs₁, ha, rfl⟩ := h
  exact ⟨t, p, evs₁ ++ evs', ha, rfl⟩

theorem verified_of_verifyToken {r : Except Exc (UserProfile × Bool)}
    (h : Finishes (app.verifyToken token).run evs r) :
    (∃ e, Finishes (app.verifyAccessToken token).run evs (.error e) ∧ r = .error e) ∨
      app.Verified token evs := by
  apply (finishes_verifyToken h).imp_right
  rintro ⟨t, p, now, x, ha, rfl, -⟩
  exact ⟨t, p, _, ha, rfl⟩

theorem verified_of_createSession {r : Except Exc SessionData}
    (h : Finishes (app.createSession token).run evs r) :
    (∃ e, Finishes (app.verifyAccessToken token).run evs (.error e) ∧ r = .error e) ∨
      app.Verified token evs := by
  rw [createSession, finishes_andThen] at h
  rcases h with ⟨e, h₁, rfl⟩ | ⟨evs₁, ⟨profile, created⟩, evs₂, rfl, h₁, -⟩
  · refine (verified_of_verifyToken h₁).imp_left ?_
    rintro ⟨e', h₂, he⟩
    cases he
    exact ⟨_, h₂, rfl⟩
  · obtain ⟨t, p, now, row, ha, -, rfl⟩ := finishes_verifyToken_ok.1 h₁
    exact .inr ⟨t, p, _, ha, rfl⟩

theorem verified_of_handler {r : Except Exc Response} (hreq : req.accessToken? = some token)
    (hb : token ≠ "") (h : Finishes (app.handler req).run evs r) :
    (∃ e, Finishes (app.verifyAccessToken token).run evs (.error e) ∧ r = .error e) ∨
      app.Verified token evs := by
  cases req with
  | verifyToken body =>
    cases hreq
    simp only [handler, Routes.verifyToken, hb, if_false] at h
    obtain ⟨y, h₁, rfl⟩ := finishes_andThen_pure.1 h
    refine (verified_of_verifyToken h₁).imp_left ?_
    rintro ⟨e, h₂, rfl⟩
    exact ⟨e, h₂, rfl⟩
  | createSession body =>
    cases hreq
    simp only [handler, Routes.createSession, hb, if_false] at h
    rcases finishes_andThen.1 h with ⟨e, h₁, rfl⟩ | ⟨evs₁, data, evs₂, rfl, h₁, -⟩
    · refine (verified_of_createSession h₁).imp_left ?_
      rintro ⟨e', h₂, he⟩
      cases he
      exact ⟨_, h₂, rfl⟩
    · rcases verified_of_createSession h₁ with ⟨_, -, he⟩ | hv
      · cases he
      · exact .inr hv.append
  | _ => cases hreq

theorem handler_of_error {e : Exc} (hreq : req.accessToken? = some token) (hb : token ≠ "")
    (h : Finishes (app.verifyAccessToken token).run evs (.error e)) :
    Finishes (app.handler req).run evs (.error e) := by
  have hv : Finishes (app.verifyToken token).run evs (.error e) :=
    finishes_andThen.2 (.inl ⟨e, h, rfl⟩)
  cases req with
  | verifyToken body =>
    cases hreq
    simp only [handler, Routes.verifyToken, hb, if_false]
    exact finishes_andThen.2 (.inl ⟨e, hv, rfl⟩)
  | createSession body =>
    cases hreq
    simp only [handler, Routes.createSession, hb, if_false]
    exact finishes_andThen.2 (.inl ⟨e, finishes_andThen.2 (.inl ⟨e, hv, rfl⟩), rfl⟩)
  | _ => cases hreq

theorem db_of_clock {t : Instant} {i : Nat} {w w' : World}
    (hevs : evs = [] ∨ evs = [clockEv t]) (ha : app.system.Answers i w evs w') :
    w'.db = w.db := by
  rcases hevs with rfl | rfl
  · rw [System.answers_nil.1 ha]
  · obtain ⟨m, ht, hm⟩ := System.answers_cons.1 ha
    have hw : m = { w with clock := t } := (trans_clock.1 ht).2
    rw [System.answers_nil.1 hm, hw]

theorem rejected_by_handler {r : Except Exc Response} (hreq : req.accessToken? = some token)
    (hb : token ≠ "") (h : Finishes (app.handler req).run evs r) :
    (¬app.Verified token evs → r = .error oauthCodeInvalid ∧
      (∀ q x, sqlEv q x ∉ evs) ∧ ∀ i w w', app.system.Answers i w evs w' → w'.db = w.db) ∧
    ∀ e, r = .error e → (handleException e).statusCode = 500 → app.Verified token evs := by
  rcases verified_of_handler hreq hb h with ⟨e, h₁, rfl⟩ | hv
  · obtain ⟨rfl, hevs⟩ := finishes_verifyAccessToken_error h₁
    have hclock : ∃ t, evs = [] ∨ evs = [clockEv t] := by
      rcases hevs with hnil | ⟨t, hone, -⟩
      · exact ⟨0, .inl hnil⟩
      · exact ⟨t, .inr hone⟩
    obtain ⟨t, hclock⟩ := hclock
    have hsql : ∀ q x, sqlEv q x ∉ evs := by
      rcases hclock with rfl | rfl <;> simp
    refine ⟨fun _ => ⟨rfl, hsql, fun i w w' ha => db_of_clock hclock ha⟩, ?_⟩
    intro e he h500
    cases he
    cases h500
  · exact ⟨fun hn => absurd hv hn, fun _ _ _ => hv⟩

/-- What a login with a token that fails verification ends with depends on nothing but its
connection: the one rejection, or the error of `get_connection`. Either way no statement is
executed, and an internal error has no other cause before the token is verified. -/
theorem uniform_rejection (hreq : req.accessToken? = some token) (hb : token ≠ "") :
    (∀ t, app.Refuses t token → ∃ evs, (evs = [] ∨ evs = [clockEv t]) ∧
      Finishes (app.endpoint (some (.ok ())) req).run evs (.error oauthCodeInvalid)) ∧
    (∀ pool evs r, Finishes (app.endpoint pool req).run evs r →
      ¬app.Verified token evs →
        r = .error (match getConnection pool with
          | .ok () => oauthCodeInvalid
          | .error e => .lib e) ∧
        (∀ q x, sqlEv q x ∉ evs) ∧ ∀ i w w', app.system.Answers i w evs w' → w'.db = w.db) ∧
    ∀ pool evs e, Finishes (app.endpoint pool req).run evs (.error e) →
      (handleException e).statusCode = 500 →
        (∃ e', getConnection pool = .error e') ∨ app.Verified token evs := by
  refine ⟨?_, ?_, ?_⟩
  · intro t ht
    obtain ⟨evs, hevs, h⟩ := refuses_finishes ht
    exact ⟨evs, hevs, finishes_endpoint.2 (.inr ⟨rfl, handler_of_error hreq hb h⟩)⟩
  · intro pool evs r h hn
    rcases finishes_endpoint.1 h with ⟨e, he, rfl, rfl⟩ | ⟨hok, h⟩
    · rw [he]
      exact ⟨rfl, fun q x => List.not_mem_nil, fun i w w' ha => by rw [System.answers_nil.1 ha]⟩
    · rw [hok]
      exact (rejected_by_handler hreq hb h).1 hn
  · intro pool evs e h h500
    rcases finishes_endpoint.1 h with ⟨e', he, -, -⟩ | ⟨-, h⟩
    · exact .inl ⟨e', he⟩
    · exact .inr ((rejected_by_handler hreq hb h).2 e rfl h500)

theorem uniform_rejection_short :
    ∃ evs, (evs = [] ∨ evs = [clockEv 0]) ∧
      Finishes (recordedApp.endpoint (some (.ok ())) (.createSession ⟨" x", by decide⟩)).run evs
        (.error oauthCodeInvalid) :=
  (@uniform_rejection recordedApp "x" _ (by decide +kernel) (by decide)).1 0
    ⟨oauthCodeInvalid, by decide +kernel⟩

theorem rejected_without_connection :
    ¬∀ (app : App) (req : Request) (token : String) (pool : Option (Except LibError Unit))
      (t : Instant) (evs : List Ev) (r : Except Exc Response), req.accessToken? = some token →
      token ≠ "" → app.Refuses t token → Finishes (app.endpoint pool req).run evs r →
        r = .error oauthCodeInvalid := by
  intro h
  let req : Request := .createSession ⟨" x", by decide⟩
  let acquired : Except LibError Unit := .error (.postgres .connectionError)
  have hfin : Finishes (recordedApp.endpoint (some acquired) req).run []
      (.error (.lib (.postgres .connectionError))) :=
    finishes_endpoint.2 (.inl ⟨_, rfl, rfl, rfl⟩)
  have hrefused : recordedApp.Refuses 0 "x" := ⟨oauthCodeInvalid, by decide +kernel⟩
  cases h recordedApp req "x" (some acquired) 0 [] _ (by decide +kernel) (by decide) hrefused hfin

end WikiBackend.App
