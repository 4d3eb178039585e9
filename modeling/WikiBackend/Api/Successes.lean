import WikiBackend.Api.Paths

/-! What a request has done when it succeeds, and what it answers then. -/

namespace WikiBackend

open Effects

namespace App

variable {app : App} {s : String} {evs : List Ev} {req : Request} {resp : Response}

/-- `Succeeds app req evs resp`: the request `req` may answer `resp` after the events `evs`. -/
inductive Succeeds (app : App) : Request → List Ev → Response → Prop where
  | verifyToken {body t p now row created} : app.Accepts t (strip body.token) p →
      Succeeds app (.verifyToken body)
        [clockEv t, clockEv now, sqlEv (.upsertUser (p.upsertParams now)) (.ok (some (row, created)))]
        (.tokenVerify created row.toProfile.toTokenUser)
  | createSession {body t p now row created s t' expires u rec} :
      app.Accepts t (strip body.token) p → addSeconds t' app.sessionTtlSeconds = .ok expires →
      Succeeds app (.createSession body)
        [clockEv t, clockEv now,
          sqlEv (.upsertUser (p.upsertParams now)) (.ok (some (row, created))),
          tokenEv s, clockEv t', uuidEv u,
          sqlEv (.insertSession u row.id (app.hashToken s) expires) (.ok (some rec))]
        (.sessionCreate true s expires row.toProfile.toTokenUser)
  | getSession {authorization s rec t user} : extractBearerToken authorization = .ok s →
      rec.Active t →
      Succeeds app (.getSession authorization) [app.selectEv s rec, clockEv t, userEv rec user]
        (.sessionStatus true rec.expiresAt user.toProfile.toTokenUser)
  | refreshSession {authorization s rec t t' expires now rec' user} :
      extractBearerToken authorization = .ok s → rec.Active t →
      addSeconds t' app.sessionTtlSeconds = .ok expires →
      Succeeds app (.refreshSession authorization)
        [app.selectEv s rec, clockEv t, clockEv t', clockEv now,
          sqlEv (.updateExpiry (app.hashToken s) expires now) (.ok (some rec')), userEv rec user]
        (.sessionStatus true expires user.toProfile.toTokenUser)
  | deleteSession {authorization s rec t now n} : extractBearerToken authorization = .ok s →
      rec.Active t →
      Succeeds app (.deleteSession authorization)
        [app.selectEv s rec, clockEv t, clockEv now, sqlEv (.revoke (app.hashToken s) now) (.ok n)]
        (.sessionLogout false)
  | createSpace {body authorization s rec t user spaceId} :
      extractBearerToken authorization = .ok s → rec.Active t → strip body.name ≠ "" →
      Succeeds app (.createSpace body authorization)
        [app.selectEv s rec, clockEv t, userEv rec user, sqlEv .begin (.ok ()),
          sqlEv (.insertSpace body.name) (.ok spaceId),
          sqlEv (.insertOwner user.id spaceId) (.ok ()), sqlEv .commit (.ok ())]
        (.spaceCreate spaceId)
  | searchUsers {query authorization s rec t user rows} :
      extractBearerToken authorization = .ok s → rec.Active t →
      Succeeds app (.searchUsers query authorization)
        [app.selectEv s rec, clockEv t, userEv rec user,
          sqlEv (.usersByUsername ("%" ++ query.q ++ "%") query.limit) (.ok rows)]
        (.userSearch (rows.map (·.toProfile.toSearchResult)))

theorem finishes_transaction_ok {α : Type} {x : Act α} {a : α}
    (h : Finishes (SpaceRepository.transaction x).run evs (.ok a)) :
    ∃ evs', evs = sqlEv .begin (.ok ()) :: (evs' ++ [sqlEv .commit (.ok ())]) ∧
      Finishes x.run evs' (.ok a) := by
  rcases finishes_sql_andThen.1 h with ⟨_, -, hr⟩ | ⟨_, evs₁, rfl, h₁⟩
  · cases hr
  rcases finishes_andThen.1 h₁ with ⟨_, -, hr⟩ | ⟨evs₂, b, evs₃, rfl, h₂, h₃⟩
  · cases hr
  rcases finishes_tryCatch.1 h₂ with ⟨_, hx, hr⟩ | ⟨_, _, _, -, -, h₄⟩
  · cases hr
    rcases finishes_sql_andThen.1 h₃ with ⟨_, -, hr⟩ | ⟨_, _, rfl, h₅⟩
    · cases hr
    · obtain ⟨rfl, hr⟩ := finishes_pure.1 h₅
      cases hr
      exact ⟨evs₂, rfl, hx⟩
  · rcases finishes_sql_andThen.1 h₄ with ⟨_, -, hr⟩ | ⟨_, _, -, h₅⟩
    · cases hr
    · cases (finishes_throw.1 h₅).2

theorem succeeds_of_lookup {α : Type} {f : SessionData → Act α} {a : α}
    (h : Finishes (app.getSession s >>= f).run evs (.ok a)) :
    ∃ rec t user evs', rec.Active t ∧
      evs = app.selectEv s rec :: clockEv t :: userEv rec user :: evs' ∧
      Finishes (f ⟨user.toProfile, rec.expiresAt, none⟩).run evs' (.ok a) := by
  rcases finishes_andThen.1 h with ⟨_, -, hr⟩ | ⟨_, data, evs', rfl, h₁, h₂⟩
  · cases hr
  · obtain ⟨rec, t, user, ha, rfl, rfl⟩ := finishes_getSession_ok.1 h₁
    exact ⟨rec, t, user, evs', ha, rfl, h₂⟩

theorem succeeds_of_finishes (h : Finishes (app.handler req).run evs (.ok resp)) :
    app.Succeeds req evs resp := by
  cases req with
  | verifyToken body =>
    simp only [handler, Routes.verifyToken] at h
    by_cases hb : strip body.token = ""
    · simp only [hb, if_true] at h
      cases (finishes_throw_andThen.1 h).2
    simp only [hb, if_false] at h
    obtain ⟨⟨profile, created⟩, h₁, rfl⟩ := finishes_andThen_pure_ok.1 h
    obtain ⟨t, p, now, row, ha, rfl, rfl⟩ := finishes_verifyToken_ok.1 h₁
    exact .verifyToken ha
  | createSession body =>
    simp only [handler, Routes.createSession] at h
    by_cases hb : strip body.token = ""
    · simp only [hb, if_true] at h
      cases (finishes_throw_andThen.1 h).2
    simp only [hb, if_false] at h
    rcases finishes_andThen.1 h with ⟨_, -, hr⟩ | ⟨evs₁, data, evs₂, rfl, h₁, h₂⟩
    · cases hr
    rcases finishes_createSession h₁ with ⟨_, -, he⟩ |
      ⟨evs₁, profile, created, s, t', hv, ⟨_, -, -, he⟩ | ⟨expires, u, _ | _ | rec, ht, rfl, he⟩⟩ <;>
      cases he
    obtain ⟨rfl, hr⟩ := finishes_pure.1 h₂
    cases hr
    obtain ⟨t, p, now, row, ha, rfl, rfl⟩ := finishes_verifyToken_ok.1 hv
    rw [List.append_nil]
    exact .createSession ha ht
  | getSession authorization =>
    rcases finishes_ofExcept_andThen.1 h with ⟨_, -, -, hr⟩ | ⟨s, hs, h₁⟩
    · cases hr
    obtain ⟨rec, t, user, _, ha, rfl, h₂⟩ := succeeds_of_lookup h₁
    obtain ⟨rfl, hr⟩ := finishes_pure.1 h₂
    cases hr
    exact .getSession hs ha
  | refreshSession authorization =>
    rcases finishes_ofExcept_andThen.1 h with ⟨_, -, -, hr⟩ | ⟨s, hs, h₁⟩
    · cases hr
    obtain ⟨data, h₂, rfl⟩ := finishes_andThen_pure_ok.1 h₁
    obtain ⟨rec, t, t', expires, now, rec', user, ha, ht, rfl, rfl⟩ := finishes_refreshSession_ok h₂
    exact .refreshSession hs ha ht
  | deleteSession authorization =>
    rcases finishes_ofExcept_andThen.1 h with ⟨_, -, -, hr⟩ | ⟨s, hs, h₁⟩
    · cases hr
    obtain ⟨_, h₂, rfl⟩ := finishes_andThen_pure_ok.1 h₁
    rcases finishes_revokeSession h₂ with ⟨_, -, hr⟩ | ⟨_, rec, now, _ | n, hg, rfl, hr⟩
    · cases hr
    · cases hr
    · obtain ⟨t, rfl, ha⟩ := finishes_getSessionRecord_ok.1 hg
      exact .deleteSession hs ha
  | createSpace body authorization =>
    rcases finishes_ofExcept_andThen.1 h with ⟨_, -, -, hr⟩ | ⟨s, hs, h₁⟩
    · cases hr
    obtain ⟨rec, t, user, evs', ha, rfl, h₂⟩ := succeeds_of_lookup h₁
    by_cases hb : strip body.name = ""
    · simp only [hb, if_true] at h₂
      cases (finishes_throw_andThen.1 h₂).2
    simp only [hb, if_false] at h₂
    obtain ⟨id, h₃, rfl⟩ := finishes_andThen_pure_ok.1 h₂
    obtain ⟨evs₂, rfl, h₄⟩ := finishes_transaction_ok h₃
    obtain rfl := finishes_spaceInserts.1 h₄
    exact .createSpace hs ha hb
  | searchUsers query authorization =>
    rcases finishes_ofExcept_andThen.1 h with ⟨_, -, -, hr⟩ | ⟨s, hs, h₁⟩
    · cases hr
    obtain ⟨rec, t, user, evs', ha, rfl, h₂⟩ := succeeds_of_lookup h₁
    obtain ⟨profiles, h₃, rfl⟩ := finishes_andThen_pure_ok.1 h₂
    obtain ⟨rows, h₄, rfl⟩ := finishes_andThen_pure_ok.1 h₃
    rcases finishes_sql_andThen.1 (bind_pure (sql _) ▸ h₄) with ⟨_, -, hr⟩ | ⟨rows', _, rfl, h₅⟩
    · cases hr
    · obtain ⟨rfl, hr⟩ := finishes_pure.1 h₅
      cases hr
      rw [List.map_map]
      exact .searchUsers hs ha

end App

end WikiBackend
