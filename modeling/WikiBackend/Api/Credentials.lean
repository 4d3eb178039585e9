import WikiBackend.Api.Transitions
import WikiBackend.Api.Validation

/-! Requests without a usable session. The credentials alone decide what the route answers, but
the framework answers a request that violates its declared constraints before it calls the
route. -/

namespace WikiBackend

open Effects

namespace App

/-- Why the session token is refused from now on, if it is. -/
def sessionError (app : App) (w : World) (s : String) : Option Exc :=
  match w.db.sessionByHash (app.hashToken s) with
  | none => some sessionMissing
  | some r => if r.revokedAt.isSome ∨ r.expiresAt ≤ w.clock then some sessionExpired else none

def credentialsError (app : App) (w : World) (authorization : Option String) : Option Exc :=
  match extractBearerToken authorization with
  | .error e => some e
  | .ok s => app.sessionError w s

variable {app : App} {w w' : World} {i : Nat} {s : String} {e : Exc} {evs : List Ev}

theorem extractBearerToken_error {authorization : Option String}
    (h : extractBearerToken authorization = .error e) :
    e = sessionMissing ∨ e = appError 400 .validationError := by
  unfold extractBearerToken at h
  split at h
  · cases h
    exact .inl rfl
  · dsimp only at h
    split_ifs at h
    · cases h
      exact .inl rfl
    · cases h
      exact .inr rfl
    · cases h

theorem sessionError_cases (h : app.sessionError w s = some e) :
    e = sessionMissing ∨ e = sessionExpired := by
  unfold sessionError at h
  split at h
  · cases h
    exact .inl rfl
  · split at h <;> cases h
    exact .inr rfl

theorem credentialsError_cases {authorization : Option String}
    (h : app.credentialsError w authorization = some e) :
    e = sessionMissing ∨ e = sessionExpired ∨ e = appError 400 .validationError := by
  unfold credentialsError at h
  cases hs : extractBearerToken authorization with
  | error z =>
    rw [hs] at h
    cases h
    rcases extractBearerToken_error hs with rfl | rfl
    · exact .inl rfl
    · exact .inr (.inr rfl)
  | ok s =>
    rw [hs] at h
    rcases sessionError_cases h with rfl | rfl
    · exact .inl rfl
    · exact .inr (.inl rfl)

/-! ## The session check -/

theorem answers_sessionByTokenHash {h : String} {x : Except LibError (Option SessionRecord)}
    (ha : app.undisturbed.Answers i w (sqlEv (.sessionByTokenHash h) x :: evs) w') :
    x = .ok ((w.db.sessionByHash h).map (·.toRecord)) ∧ app.undisturbed.Answers i w evs w' := by
  obtain ⟨m, ht, ha⟩ := System.answers_cons.1 ha
  obtain ⟨_, -, hx⟩ := trans_undisturbed_sql.1 ht
  cases hx
  exact ⟨rfl, ha⟩

theorem notActive_of_sessionError {r : SessionRow} {t : Instant}
    (hr : w.db.sessionByHash (app.hashToken s) = some r) (h : app.sessionError w s = some e)
    (ht : w.clock ≤ t) : e = sessionExpired ∧ ¬r.toRecord.Active t := by
  simp only [sessionError, hr] at h
  split at h
  · rename_i hbad
    cases h
    refine ⟨rfl, ?_⟩
    rintro ⟨hrev, hlt⟩
    rcases hbad with hsome | hexp
    · rw [show r.revokedAt = none from hrev] at hsome
      cases hsome
    · exact absurd (Int.lt_of_le_of_lt ht hlt) (Int.not_lt.2 hexp)
  · cases h

theorem getSessionRecord_refused {r : Except Exc SessionRecord} {evs' : List Ev}
    (h : app.sessionError w s = some e) (hf : Finishes (app.getSessionRecord s).run evs r)
    (ha : app.undisturbed.Answers i w (evs ++ evs') w') : r = .error e := by
  rcases finishes_getSessionRecord.1 hf with ⟨y, rfl, rfl⟩ | ⟨rfl, rfl⟩ | ⟨rec, t, rfl, rfl⟩
  · obtain ⟨hx, -⟩ := answers_sessionByTokenHash ha
    cases hx
  · obtain ⟨hx, -⟩ := answers_sessionByTokenHash ha
    cases hr : w.db.sessionByHash (app.hashToken s) with
    | some row =>
      rw [hr] at hx
      cases hx
    | none =>
      rw [sessionError, hr] at h
      cases h
      rfl
  · obtain ⟨hx, ha₁⟩ := answers_sessionByTokenHash ha
    cases hr : w.db.sessionByHash (app.hashToken s) with
    | none =>
      rw [hr] at hx
      cases hx
    | some row =>
      rw [hr] at hx
      cases hx
      obtain ⟨m, ht, -⟩ := System.answers_cons.1 ha₁
      obtain ⟨rfl, hn⟩ := notActive_of_sessionError hr h (trans_undisturbed_clock.1 ht).1
      rw [if_neg hn]

theorem exists_getSessionRecord_refused (i : Nat) (h : app.sessionError w s = some e) :
    ∃ evs w', Finishes (app.getSessionRecord s).run evs (.error e) ∧
      app.undisturbed.Answers i w evs w' := by
  have hselect : app.undisturbed.Trans w i (.sql (.sessionByTokenHash (app.hashToken s)))
      (.ok ((w.db.sessionByHash (app.hashToken s)).map (·.toRecord))) w :=
    trans_undisturbed_sql.2 ⟨⟨0, 0, []⟩, nofun, rfl⟩
  cases hr : w.db.sessionByHash (app.hashToken s) with
  | none =>
    rw [hr] at hselect
    rw [sessionError, hr] at h
    cases h
    exact ⟨_, _, finishes_getSessionRecord.2 (.inr (.inl ⟨rfl, rfl⟩)), .cons hselect (.nil _)⟩
  | some row =>
    rw [hr] at hselect
    obtain ⟨rfl, hn⟩ := notActive_of_sessionError hr h (Int.le_refl _)
    have hclock : app.undisturbed.Trans w i .clock w.clock { w with clock := w.clock } :=
      trans_undisturbed_clock.2 ⟨Int.le_refl _, rfl⟩
    refine ⟨_, _, finishes_getSessionRecord.2 (.inr (.inr ⟨row.toRecord, w.clock, rfl, ?_⟩)),
      .cons hselect (.cons hclock (.nil _))⟩
    rw [if_neg hn]

/-! ## Routes that begin with it -/

variable {α : Type} {authorization : Option String} {f : SessionData → Act α}

def withSession (app : App) (authorization : Option String) (f : SessionData → Act α) : Act α := do
  let s ← fromExcept (extractBearerToken authorization)
  let data ← app.getSession s
  f data

theorem withSession_refused {r : Except Exc α} (h : app.credentialsError w authorization = some e)
    (hf : Finishes (app.withSession authorization f).run evs r)
    (ha : app.undisturbed.Answers i w evs w') : r = .error e := by
  unfold credentialsError at h
  rcases finishes_ofExcept_andThen.1 hf with ⟨z, hz, -, rfl⟩ | ⟨s, hs, hf₁⟩
  · rw [hz] at h
    cases h
    rfl
  rw [hs] at h
  -- the lookup ends in an error, so that nothing comes after it
  have hlookup {evs₁ evs₂ : List Ev} {x : Except Exc SessionRecord} (hevs : evs = evs₁ ++ evs₂)
      (hx : Finishes (app.getSessionRecord s).run evs₁ x) : x = .error e :=
    getSessionRecord_refused h hx (hevs ▸ ha)
  rcases finishes_andThen.1 hf₁ with ⟨y, hy, rfl⟩ | ⟨evs₁, data, evs₂, rfl, hd, -⟩
  · rcases finishes_getSession hy with ⟨z, hz, hr⟩ | ⟨evs₁, rec, _, hok, rfl, -⟩
    · have hz := hlookup (List.append_nil evs).symm hz
      cases hz
      cases hr
      rfl
    · cases hlookup rfl hok
  · rcases finishes_getSession hd with ⟨z, -, hr⟩ | ⟨evs₃, rec, _, hok, rfl, -⟩
    · cases hr
    · cases hlookup (List.append_assoc _ _ _) hok

theorem exists_withSession_refused (i : Nat) (f : SessionData → Act α)
    (h : app.credentialsError w authorization = some e) :
    ∃ evs w', Finishes (app.withSession authorization f).run evs (.error e) ∧
      app.undisturbed.Answers i w evs w' := by
  unfold credentialsError at h
  cases hs : extractBearerToken authorization with
  | error z =>
    rw [hs] at h
    cases h
    exact ⟨[], w, finishes_ofExcept_andThen.2 (.inl ⟨_, hs, rfl, rfl⟩), .nil w⟩
  | ok s =>
    rw [hs] at h
    obtain ⟨evs, w', hf, ha⟩ := exists_getSessionRecord_refused i h
    have hd : Finishes (app.getSession s).run evs (.error e) :=
      finishes_andThen.2 (.inl ⟨e, hf, rfl⟩)
    have hrest : Finishes (app.getSession s >>= f).run evs (.error e) :=
      finishes_andThen.2 (.inl ⟨e, hd, rfl⟩)
    exact ⟨evs, w', finishes_ofExcept_andThen.2 (.inr ⟨s, hs, hrest⟩), ha⟩

theorem handler_eq_withSession {raw : RawRequest} {req : Request}
    (h : raw.validate app.lib = .ok req) :
    ∃ f, app.handler req = app.withSession raw.authorization f := by
  rcases RawRequest.validate_ok h with ⟨body, rfl⟩ | ⟨query, rfl⟩
  · exact ⟨_, rfl⟩
  · exact ⟨_, rfl⟩

/-! ## Responses -/

theorem responds_iff {raw : RawRequest} {r : Except ErrorResponse Response} (i : Nat)
    (h : app.credentialsError w raw.authorization = some e) :
    app.Responds w i raw r ↔
      raw.WellFormed app.lib ∧ r = .error (handleException e) ∨
      ¬raw.WellFormed app.lib ∧ r = .error validationExceptionHandler := by
  by_cases hwf : raw.WellFormed app.lib
  · obtain ⟨req, hreq⟩ := hwf
    obtain ⟨f, hf⟩ := handler_eq_withSession hreq
    have hwf : raw.WellFormed app.lib := ⟨req, hreq⟩
    simp only [Responds, finishes_serve_ok hreq, hf, hwf, true_and, not_true_eq_false, false_and,
      or_false]
    constructor
    · rintro ⟨evs, w', ⟨x, hx, rfl⟩, ha⟩
      rw [withSession_refused h hx ha]
      rfl
    · rintro rfl
      obtain ⟨evs, w', hx, ha⟩ := exists_withSession_refused i f h
      exact ⟨evs, w', ⟨_, hx, rfl⟩, ha⟩
  · simp only [Responds, finishes_serve_error hwf, hwf, false_and, not_false_eq_true, true_and,
      false_or]
    constructor
    · rintro ⟨_, _, ⟨-, rfl⟩, -⟩
      rfl
    · rintro rfl
      exact ⟨[], w, ⟨rfl, rfl⟩, .nil w⟩

/-- Refused credentials decide the responses to the requests that meet the declared constraints,
whatever else is in them, and have no part in the responses to those that do not. -/
theorem credentials_decide {authorization : Option String} (i : Nat)
    (h : app.credentialsError w authorization = some e) :
    (e = sessionMissing ∨ e = sessionExpired ∨ e = appError 400 .validationError) ∧
    (∀ raw, raw.authorization = authorization → ∀ r, app.Responds w i raw r ↔
      raw.WellFormed app.lib ∧ r = .error (handleException e) ∨
      ¬raw.WellFormed app.lib ∧ r = .error validationExceptionHandler) ∧
    ∀ raw₁ raw₂ r₁ r₂, raw₁.authorization = authorization → raw₂.authorization = authorization →
      (raw₁.WellFormed app.lib ↔ raw₂.WellFormed app.lib) →
      app.Responds w i raw₁ r₁ → app.Responds w i raw₂ r₂ → r₁ = r₂ := by
  have hone : ∀ raw, raw.authorization = authorization → ∀ r, app.Responds w i raw r ↔
      raw.WellFormed app.lib ∧ r = .error (handleException e) ∨
      ¬raw.WellFormed app.lib ∧ r = .error validationExceptionHandler :=
    fun raw ha r => responds_iff i (ha ▸ h)
  refine ⟨credentialsError_cases h, hone, ?_⟩
  intro raw₁ raw₂ r₁ r₂ ha₁ ha₂ hwf h₁ h₂
  rcases (hone raw₁ ha₁ r₁).1 h₁ with ⟨hw₁, rfl⟩ | ⟨hw₁, rfl⟩
  · rcases (hone raw₂ ha₂ r₂).1 h₂ with ⟨-, rfl⟩ | ⟨hw₂, -⟩
    · rfl
    · exact absurd (hwf.1 hw₁) hw₂
  · rcases (hone raw₂ ha₂ r₂).1 h₂ with ⟨hw₂, -⟩ | ⟨-, rfl⟩
    · exact absurd (hwf.2 hw₂) hw₁
    · rfl

end App

namespace Recorded

def unauthorized (name : String) : RawRequest := .createSpace (.json (.obj [("name", .str name)])) none

theorem credentials_decide_missing :
    recordedApp.credentialsError World.initial none = some App.sessionMissing ∧
    recordedApp.Responds World.initial 0 (unauthorized "Notes")
      (.error (handleException App.sessionMissing)) ∧
    recordedApp.Responds World.initial 0 (unauthorized " ")
      (.error (handleException App.sessionMissing)) ∧
    recordedApp.Responds World.initial 0 (unauthorized "") (.error validationExceptionHandler) := by
  have herr : recordedApp.credentialsError World.initial none = some App.sessionMissing := rfl
  have hresponds := (App.credentials_decide 0 herr).2.1
  refine ⟨herr, ?_, ?_, ?_⟩
  · exact (hresponds (unauthorized "Notes") rfl _).2 (.inl ⟨⟨_, rfl⟩, rfl⟩)
  · exact (hresponds (unauthorized " ") rfl _).2 (.inl ⟨⟨_, rfl⟩, rfl⟩)
  · exact (hresponds (unauthorized "") rfl _).2 (.inr ⟨nofun, rfl⟩)

theorem empty_name_answered_first :
    ¬∀ (app : App) (w : World) (i : Nat) (authorization : Option String) (e : Exc)
      (body₁ body₂ : RawBody) (r₁ r₂ : Except ErrorResponse Response),
      app.credentialsError w authorization = some e →
      app.Responds w i (.createSpace body₁ authorization) r₁ →
      app.Responds w i (.createSpace body₂ authorization) r₂ →
      r₁ = r₂ ∧ r₁ = .error (handleException e) := by
  intro h
  have herr : recordedApp.credentialsError World.initial none = some App.sessionMissing := rfl
  have hnotes : recordedApp.Responds World.initial 0 (unauthorized "Notes")
      (.error (handleException App.sessionMissing)) :=
    (App.responds_iff 0 herr).2 (.inl ⟨⟨_, rfl⟩, rfl⟩)
  have hempty : recordedApp.Responds World.initial 0 (unauthorized "")
      (.error validationExceptionHandler) :=
    (App.responds_iff 0 herr).2 (.inr ⟨nofun, rfl⟩)
  exact absurd (h _ _ _ _ _ _ _ _ _ herr hnotes hempty).1 (by decide)

end Recorded

end WikiBackend
