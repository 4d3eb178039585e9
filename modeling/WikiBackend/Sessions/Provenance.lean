import WikiBackend.Api.Paths
import WikiBackend.Sessions.Operations

/-! Where a session row comes from. The record of a run ties each row to the
insert that made it, the insert to the request's login, and the login to a user. -/

namespace WikiBackend.App

open Effects

variable {app : App} {w₀ : World} {ls l₁ l₂ : List (Label Eff Eff.Answer Request)}
  {c : Config Eff Eff.Answer World Request (Except Exc Response)} {i j : Nat} {s : String}

def Uses (ls : List (Label Eff Eff.Answer Request)) (i : Nat) (s : String) : Prop :=
  (∃ req, .started i req ∈ ls ∧ req.sessionToken? = some s) ∨ .did i .tokenUrlsafe s ∈ ls

theorem Uses.mono (h : Uses l₁ i s) : Uses (l₁ ++ l₂) i s := by
  rcases h with ⟨req, hm, hs⟩ | hm
  · exact .inl ⟨req, List.mem_append_left _ hm, hs⟩
  · exact .inr (List.mem_append_left _ hm)

/-! ## Generated tokens -/

theorem mem_tokens_of_did (h : app.system.Run (.init w₀) ls c) (hm : .did i .tokenUrlsafe s ∈ ls) :
    s ∈ c.world.tokens := by
  obtain ⟨l₁, l₂, c₁, c₂, rfl, -, hs, h₂⟩ := h.split_mem hm
  have hc₂ : s ∈ c₂.world.tokens := by
    rw [(trans_tokenUrlsafe.1 hs.trans).2]
    exact List.mem_cons_self
  exact (evolves_of_run h₂).tokens s hc₂

theorem not_generated_before (h : app.system.Run (.init w₀) (l₁ ++ .did i .tokenUrlsafe s :: l₂) c) :
    .did j .tokenUrlsafe s ∉ l₁ := by
  intro hm
  obtain ⟨c₁, c₂, h₁, hs, -⟩ := h.split
  have hnew : s ∉ c₁.world.tokens := (trans_tokenUrlsafe.1 hs.trans).1
  exact hnew (mem_tokens_of_did h₁ hm)

theorem generator_unique (h : app.system.Run (.init w₀) ls c) (hi : .did i .tokenUrlsafe s ∈ ls)
    (hj : .did j .tokenUrlsafe s ∈ ls) : i = j := by
  rcases eq_or_before hi hj with he | ⟨l₁, l₂, rfl, hm⟩ | ⟨l₁, l₂, rfl, hm⟩
  · cases he
    rfl
  · exact absurd hm (not_generated_before h)
  · exact absurd hm (not_generated_before h)

/-! ## Inserted rows -/

theorem inserted_of_row (h : app.system.Run (.init w₀) ls c) (h₀ : w₀.db.sessions = [])
    {hash : String} {r : SessionRow} (hr : c.world.db.sessionByHash hash = some r) :
    ∃ j expires x, .did j (.sql (.insertSession r.id r.userId hash expires)) (.ok x) ∈ ls := by
  induction h generalizing r with
  | nil => simp [Config.init, Database.sessionByHash, h₀] at hr
  | @snoc c₁ c₂ ls l h₁ hs ih =>
    -- a row that was there before the step came from an earlier insert
    have old {r'} (hr' : c₁.world.db.sessionByHash hash = some r') (he : r'.Evolves r) :
        ∃ j expires x,
          .did j (.sql (.insertSession r.id r.userId hash expires)) (.ok x) ∈ ls ++ [l] := by
      obtain ⟨j, expires, x, hm⟩ := ih hr'
      rw [← he.id, ← he.userId] at hm
      exact ⟨j, expires, x, List.mem_append_left _ hm⟩
    rcases hs.world with hw | ⟨i, e, a, rfl, ht⟩
    · exact old (hw ▸ hr) (.refl r)
    · have hst := sessionsStep_of_trans ht
      cases hr₁ : c₁.world.db.sessionByHash hash with
      | some r' =>
        obtain ⟨r'', hr'', he⟩ := hst.sessionByHash hr₁
        cases hr.symm.trans hr''
        exact old hr₁ he
      | none =>
        cases inserted_of_new h₁ hs hr₁ hr
        exact ⟨i, _, _, List.mem_append_right _ (List.mem_singleton.2 rfl)⟩

theorem login_of_row (h : app.system.Run (.init w₀) ls c) (h₀ : w₀.db.sessions = [])
    (hinj : Set.InjOn app.hashToken {s | ∃ i, Uses ls i s}) (hs : ∃ i, Uses ls i s) {r : SessionRow}
    (hr : c.world.db.sessionByHash (app.hashToken s) = some r) :
    ∃ j body t p u, .started j (.createSession body) ∈ ls ∧ .did j .tokenUrlsafe s ∈ ls ∧
      .did j .clock t ∈ ls ∧ app.Accepts t (strip body.token) p ∧
      c.world.db.userById r.userId = some u ∧ u.telegramId = p.telegramId := by
  obtain ⟨j, expires, x, hm⟩ := inserted_of_row h h₀ hr
  obtain ⟨l₁, l₂, c₁, c₂, rfl, h₁, hst, h₂⟩ := h.split_mem hm
  obtain ⟨req, hreq, hx⟩ := executes_of_step h₁ hst
  obtain ⟨body, t, p, now, row, created, s', t', rfl, ha, -, ho, hid, hh⟩ := hx.of_insertSession
  have hmem {e : Eff} {a : e.Answer} (h : (⟨e, a⟩ : Ev) ∈ own j l₁) : .did j e a ∈ l₁ := mem_own.1 h
  have htok : .did j .tokenUrlsafe s' ∈ l₁ := hmem (by simp [ho])
  obtain rfl : s = s' :=
    hinj hs ⟨j, .inr (List.mem_append_left _ htok)⟩ hh
  -- the user stands in the table since the upsert of this request
  have hup : .did j (.sql (.upsertUser (p.upsertParams now))) (.ok (some (row, created))) ∈ l₁ :=
    hmem (by simp [ho])
  obtain ⟨u, hu, htg⟩ : ∃ u, c.world.db.userById row.id = some u ∧ u.telegramId = p.telegramId := by
    obtain ⟨l₃, l₄, c₃, c₄, rfl, -, hst', h₄⟩ := h₁.split_mem hup
    obtain ⟨hm', htg⟩ := (usersStep_of_trans hst'.trans).stored
    have hrow : c₄.world.db.userById row.id = some row := Database.userById_eq_some.2 ⟨hm', rfl⟩
    have hlater := evolves_of_run (h₄.append (hst.single.append h₂))
    obtain ⟨u, hu, he⟩ := hlater.users hrow
    exact ⟨u, hu, he.trans htg⟩
  exact ⟨j, body, t, p, u, List.mem_append_left _ hreq, List.mem_append_left _ htok,
    List.mem_append_left _ (hmem (by simp [ho])), ha, hid ▸ hu, htg⟩

theorem user_found (h : app.system.Run (.init w₀) ls c) (i : Nat) (id : Int) :
    .did i (.sql (.userById id)) (.ok none) ∉ ls := by
  intro hm
  obtain ⟨l₁, l₂, c₁, c₂, rfl, h₁, hst, -⟩ := h.split_mem hm
  obtain ⟨req, -, hx⟩ := executes_of_step h₁ hst
  obtain ⟨s, rec, t, evs', -, -, ho, rfl⟩ := hx.of_userById
  obtain ⟨l₃, l₄, rfl, -, -⟩ := own_eq_append_cons [] ho
  obtain ⟨c₃, c₄, -, hsel, h₄⟩ := h₁.split
  -- the foreign key gave the selected row a user, and users are not deleted
  obtain ⟨hrec, hw⟩ := trans_sessionByTokenHash hsel.trans
  obtain ⟨r, hr, rfl⟩ := Option.map_eq_some_iff.1 hrec.symm
  obtain ⟨u, hu⟩ := Database.userById_of_session (Database.sessionByHash_eq_some.1 hr).1
  rw [← hw] at hu
  obtain ⟨u', hu', -⟩ := (evolves_of_run h₄).users hu
  have hnone : none = c₁.world.db.userById r.userId := (trans_userById hst.trans).1
  cases hnone.trans hu'

theorem uses_of_changed {e : Eff} {a : e.Answer} {S : Set String}
    {c' : Config Eff Eff.Answer World Request (Except Exc Response)}
    (h : app.system.Run (.init w₀) ls c) (hst : app.system.Step c (.did i e a) c')
    (hinj : S.InjOn app.hashToken) (hS : ∀ j s, Uses ls j s → s ∈ S) (hs : s ∈ S)
    (hc : c'.world.db.sessionByHash (app.hashToken s) ≠
      c.world.db.sessionByHash (app.hashToken s)) : Uses ls i s := by
  have hss : SessionsStep c.world.db c'.world.db ⟨e, a⟩ := sessionsStep_of_trans hst.trans
  have same {s'} (hu : Uses ls i s') (hh : app.hashToken s = app.hashToken s') : Uses ls i s := by
    rwa [hinj hs (hS i s' hu) hh]
  rcases hss.hash_of_changed hc with ⟨_, _, hash, _, _, he, hclip⟩ | ⟨_, _, _, he⟩ | ⟨_, _, he⟩
  · cases he
    rw [clip_of_insertSession h hst] at hclip
    subst hclip
    obtain ⟨req, hreq, hx⟩ := executes_of_step h hst
    obtain ⟨_, _, _, _, _, _, s', _, -, -, -, ho, -, hh⟩ := hx.of_insertSession
    exact same (.inr (mem_own.1 (by rw [ho]; simp))) hh
  · cases he
    obtain ⟨req, hreq, hx⟩ := executes_of_step h hst
    obtain ⟨_, s', _, _, _, rfl, hb, -, -, -, hh⟩ := hx.of_updateExpiry
    exact same (.inl ⟨_, hreq, toOption_eq_some hb⟩) hh
  · cases he
    obtain ⟨req, hreq, hx⟩ := executes_of_step h hst
    obtain ⟨_, s', _, _, rfl, hb, -, -, hh⟩ := hx.of_revoke
    exact same (.inl ⟨_, hreq, toOption_eq_some hb⟩) hh

theorem login_of_sessionStatus (h : app.system.Run (.init w₀) ls c) (h₀ : w₀.db.sessions = [])
    (hinj : Set.InjOn app.hashToken {s | ∃ i, Uses ls i s}) {req : Request} {flag : Bool}
    {expires : Instant} {user : TokenUserResponse} (hreq : .started i req ∈ ls)
    (hs : req.sessionToken? = some s)
    (hret : c.Returned i (.ok (.sessionStatus flag expires user))) :
    ∃ l₁ x l₂ j body t p,
      ls = l₁ ++ .did i (.sql (.sessionByTokenHash (app.hashToken s))) x :: l₂ ∧
      .started j (.createSession body) ∈ l₁ ∧ .did j .tokenUrlsafe s ∈ l₁ ∧ .did j .clock t ∈ l₁ ∧
      app.Accepts t (strip body.token) p ∧ p.telegramId = user.telegramId := by
  obtain ⟨req', hreq', hf⟩ := h.returned hret
  obtain rfl := h.started_unique hreq hreq'
  obtain ⟨rec, t₁, evs', row, -, ho, rfl⟩ := path_of_sessionStatus hs hf
  obtain ⟨l₁, l₂, rfl, -, ho₂⟩ := own_eq_append_cons [] ho
  obtain ⟨l₃, l₄, rfl, -, -⟩ := own_eq_append_cons (clockEv t₁ :: evs') ho₂
  obtain ⟨c₁, c₂, h₁, hsel, h₂⟩ := h.split
  -- the request was running before its select
  obtain ⟨req', hstart, -⟩ := executes_of_step h₁ hsel
  obtain rfl := h.started_unique hreq (List.mem_append_left _ hstart)
  have hinj' : Set.InjOn app.hashToken {s | ∃ i, Uses l₁ i s} :=
    hinj.mono fun _ hu => hu.imp fun _ => Uses.mono
  obtain ⟨hrec, hw⟩ := trans_sessionByTokenHash hsel.trans
  obtain ⟨r, hr, rfl⟩ := Option.map_eq_some_iff.1 hrec.symm
  obtain ⟨j, body, t', p, u, hb, htok, hclk, ha, hu, htg⟩ :=
    login_of_row h₁ h₀ hinj' ⟨i, .inl ⟨req, hstart, hs⟩⟩ hr
  -- the profile is that user's, as the lookup after the select found it
  obtain ⟨c₃, c₄, h₃, husr, -⟩ := h₂.split
  rw [← hw] at hu
  obtain ⟨u', hu', htg'⟩ := (evolves_of_run h₃).users hu
  have hrow : some row = c₃.world.db.userById r.userId := (trans_userById husr.trans).1
  cases hrow.trans hu'
  have hp : p.telegramId = row.telegramId := htg.symm.trans htg'.symm
  exact ⟨l₁, _, _, j, body, t', p, rfl, hb, htok, hclk, ha, hp⟩

/-- Where sessions come from, over every run of concurrent requests. A status for a session
token reports the user whose access token opened it; requests write to the row of their own
token only; and a session is never without its user. -/
theorem identity_provenance (h : app.system.Run (.init w₀) ls c) (h₀ : w₀.db.sessions = [])
    (hinj : Set.InjOn (fun s => app.lib.sha256 (encodeUtf8 s)) {s | ∃ i, Uses ls i s}) :
    (∀ {i req s flag expires user}, .started i req ∈ ls → req.sessionToken? = some s →
      c.Returned i (.ok (.sessionStatus flag expires user)) →
      ∃ l₁ x l₂ j body t p,
        ls = l₁ ++ .did i (.sql (.sessionByTokenHash (app.hashToken s))) x :: l₂ ∧
        .started j (.createSession body) ∈ l₁ ∧ .did j .tokenUrlsafe s ∈ l₁ ∧
        (∀ j', .did j' .tokenUrlsafe s ∈ ls → j' = j) ∧ .did j .clock t ∈ l₁ ∧
        app.Accepts t (strip body.token) p ∧ p.telegramId = user.telegramId) ∧
    (∀ {l₁ l₂ i e a c₁ c₂ s}, ls = l₁ ++ .did i e a :: l₂ → app.system.Run (.init w₀) l₁ c₁ →
      app.system.Step c₁ (.did i e a) c₂ → app.system.Run c₂ l₂ c → (∃ j, Uses ls j s) →
      c₂.world.db.sessionByHash (app.hashToken s) ≠ c₁.world.db.sessionByHash (app.hashToken s) →
      Uses l₁ i s) ∧
    ∀ i id, .did i (.sql (.userById id)) (.ok none) ∉ ls := by
  have hinj := hashToken_injOn hinj
  refine ⟨?_, ?_, user_found h⟩
  · intro i req s flag expires user hreq hs hret
    obtain ⟨l₁, x, l₂, j, body, t, p, rfl, hb, htok, hrest⟩ :=
      login_of_sessionStatus h h₀ hinj hreq hs hret
    exact ⟨l₁, x, l₂, j, body, t, p, rfl, hb, htok,
      fun j' hj' => generator_unique h hj' (List.mem_append_left _ htok), hrest⟩
  · rintro l₁ l₂ i e a c₁ c₂ s rfl h₁ hst - hs hc
    exact uses_of_changed h₁ hst hinj (fun j s hu => ⟨j, hu.mono⟩) hs hc

end WikiBackend.App

namespace WikiBackend.Recorded

open Effects

def lookupEvents : List Ev :=
  [recordedApp.selectEv sessionToken sessionRecord, clockEv loginAt,
    App.userEv sessionRecord userRow]

theorem finishes_lookupRequest :
    Finishes (recordedApp.system.body (.getSession authorization)) lookupEvents
      (.ok (.sessionStatus true expiresAt userRow.toProfile.toTokenUser)) := by
  rw [App.body_eq]
  refine finishes_ofExcept_andThen.2 (.inr ⟨sessionToken, bearer_authorization, ?_⟩)
  exact finishes_andThen_pure.2 ⟨.ok ⟨userRow.toProfile, expiresAt, none⟩,
    App.finishes_getSession_ok.2 ⟨_, _, _, by decide, rfl, rfl⟩, rfl⟩

def loginThenLookup : List (Label Eff Eff.Answer Request) :=
  loginRun ++ .started 1 (.getSession authorization) ::
    lookupEvents.map fun ev => .did 1 ev.1 ev.2

theorem run_loginThenLookup : ∃ c, recordedApp.system.Run (.init World.initial) loginThenLookup c ∧
    c.Returned 1 (.ok (.sessionStatus true expiresAt userRow.toProfile.toTokenUser)) := by
  obtain ⟨c, hrun, hc, hw⟩ : ∃ c, recordedApp.system.Run (.init World.initial) loginRun c ∧
      c.procs.length = 1 ∧
      (recordedApp.system.answered choiceFor 1 c.world lookupEvents).isSome :=
    run_login (P := fun w => (recordedApp.system.answered choiceFor 1 w lookupEvents).isSome)
      (by decide +kernel)
  obtain ⟨w, hw⟩ := Option.isSome_iff_exists.1 hw
  have ha := System.answers_of_answered hw
  rw [← hc] at ha
  have h := hrun.solo finishes_lookupRequest ha
  rw [hc] at h
  exact ⟨_, h, .getSession authorization, hc ▸ List.getElem?_concat_length⟩

theorem uses_loginThenLookup {i : Nat} {s : String} (h : App.Uses loginThenLookup i s) :
    s = sessionToken := by
  rcases h with ⟨req, hm, hs⟩ | hm
  · simp only [loginThenLookup, loginRun, loginEvents, lookupEvents, List.map_cons, List.map_nil,
      List.cons_append, List.nil_append, List.mem_cons, List.not_mem_nil, reduceCtorEq,
      Label.started.injEq, false_or, or_false] at hm
    rcases hm with ⟨-, rfl⟩ | ⟨-, rfl⟩
    · cases hs
    · rw [Request.sessionToken?, bearer_authorization] at hs
      exact (Option.some.inj hs).symm
  · have hm : i = 0 ∧ s = sessionToken := by
      simpa [loginThenLookup, loginRun, loginEvents, lookupEvents] using hm
    exact hm.2

theorem identity_provenance_lookup :
    ∃ l₁ x l₂ j body t p,
      loginThenLookup =
        l₁ ++ .did 1 (.sql (.sessionByTokenHash (recordedApp.hashToken sessionToken))) x :: l₂ ∧
      .started j (.createSession body) ∈ l₁ ∧ .did j .tokenUrlsafe sessionToken ∈ l₁ ∧
      (∀ j', .did j' .tokenUrlsafe sessionToken ∈ loginThenLookup → j' = j) ∧
      .did j .clock t ∈ l₁ ∧ recordedApp.Accepts t (strip body.token) p ∧ p.telegramId = 42 := by
  obtain ⟨c, hrun, hret⟩ := run_loginThenLookup
  have hinj : Set.InjOn (fun s => recordedApp.lib.sha256 (encodeUtf8 s))
      {s | ∃ i, App.Uses loginThenLookup i s} := by
    rintro s ⟨i, hs⟩ s' ⟨i', hs'⟩ -
    rw [uses_loginThenLookup hs, uses_loginThenLookup hs']
  have hreq : .started 1 (.getSession authorization) ∈ loginThenLookup :=
    List.mem_append_right _ List.mem_cons_self
  exact (App.identity_provenance hrun rfl hinj).1 hreq (App.toOption_eq_some bearer_authorization)
    hret

end WikiBackend.Recorded
