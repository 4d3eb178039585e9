import WikiBackend.Sessions.Refresh

/-! When a session is logged out only once. A logout checks the session's row and revokes it
later, by its hash alone: another logout may have revoked it in between. -/

namespace WikiBackend.App

open Effects

variable {app : App} {w₀ : World} {ls l₁ l₂ : List (Label Eff Eff.Answer Request)}
  {l : Label Eff Eff.Answer Request}
  {c c₁ c₂ : Config Eff Eff.Answer World Request (Except Exc Response)} {i j : Nat} {s h : String}
  {rec : SessionRecord} {r : SessionRow} {t now : Instant} {n : Nat} {evs : List Ev}
  {authorization : Option String}

/-! ## The paths of a logout -/

theorem finishes_logout (hs : extractBearerToken authorization = .ok s) (ha : rec.Active t) (n : Nat) :
    Finishes (app.handler (.deleteSession authorization)).run
      [app.selectEv s rec, clockEv t, clockEv now,
        sqlEv (.revoke (app.hashToken s) now) (.ok n)] (.ok (.sessionLogout false)) := by
  simp only [handler, Routes.deleteSession, hs]
  refine finishes_andThen_pure_ok.2 ⟨(), ?_, rfl⟩
  have hrec : Finishes (app.getSessionRecord s).run [app.selectEv s rec, clockEv t] (.ok rec) :=
    finishes_getSessionRecord_ok.2 ⟨t, rfl, ha⟩
  refine finishes_andThen.2 (.inr ⟨_, rec, _, rfl, hrec, ?_⟩)
  refine finishes_perform_andThen.2 ⟨now, _, rfl, finishes_orInternalError.2 (.inl ⟨(), ?_, rfl⟩)⟩
  exact finishes_sql_andThen.2 (.inr ⟨n, [], rfl, finishes_pure.2 ⟨rfl, rfl⟩⟩)

theorem path_of_logout {resp : Response} (hs : extractBearerToken authorization = .ok s)
    (h : Finishes (app.handler (.deleteSession authorization)).run evs (.ok resp)) :
    ∃ rec t now n, evs = [app.selectEv s rec, clockEv t, clockEv now,
      sqlEv (.revoke (app.hashToken s) now) (.ok n)] := by
  rw [handler, Routes.deleteSession, hs] at h
  obtain ⟨_, h₁, -⟩ := finishes_andThen_pure_ok.1 h
  rcases finishes_revokeSession h₁ with ⟨_, -, hr⟩ | ⟨_, rec, now, _ | n, hrec, rfl, hr⟩
  · cases hr
  · cases hr
  · obtain ⟨t, rfl, -⟩ := finishes_getSessionRecord_ok.1 hrec
    exact ⟨rec, t, now, n, rfl⟩

theorem error_of_logout {e : Exc} (hs : extractBearerToken authorization = .ok s)
    (h : Finishes (app.handler (.deleteSession authorization)).run evs (.error e))
    (hdb : ∀ q e', sqlEv q (.error e') ∉ evs) (hfound : app.selectEv s rec ∈ evs) :
    e = sessionExpired := by
  rw [handler, Routes.deleteSession, hs] at h
  rcases finishes_revokeSession (finishes_andThen_pure_error.1 h) with ⟨_, hrec, hr⟩ |
    ⟨_, _, _, e' | n, -, rfl, hr⟩
  · cases hr
    rcases finishes_getSessionRecord.1 hrec with ⟨e', rfl, -⟩ | ⟨rfl, -⟩ | ⟨rec', t, -, hr⟩
    · exact absurd List.mem_cons_self (hdb _ e')
    · cases List.mem_singleton.1 hfound
    · split at hr
      · cases hr
      · exact Except.error.inj hr
  · exact absurd (List.mem_append_right _ (List.mem_cons_of_mem _ List.mem_cons_self)) (hdb _ e')
  · cases hr

/-! ## Logouts of an unrevoked session -/

def revoker? (h : String) : Label Eff Eff.Answer Request → Option Nat
  | .did i (.sql (.revoke h' _)) (.ok _) => if h' = h then some i else none
  | _ => none

/-- A revoke is executed on a row whose record, brought up to date, is not revoked yet. -/
def FindsUnrevoked (h : String) (ls : List (Label Eff Eff.Answer Request))
    (l : Label Eff Eff.Answer Request) : Prop :=
  ∀ i ∈ revoker? h l, ∃ rec ∈ current h i ls, rec.revokedAt = none

instance : Decidable (FindsUnrevoked h ls l) := by
  unfold FindsUnrevoked
  infer_instance

theorem eq_of_revoker (hi : i ∈ revoker? h l) :
    ∃ now n, l = .did i (.sql (.revoke h now)) (.ok n) := by
  unfold revoker? at hi
  split at hi
  · split at hi
    · rename_i hh
      subst hh
      cases hi
      exact ⟨_, _, rfl⟩
    · cases hi
  · cases hi

def Logout (app : App) (s : String) (ls : List (Label Eff Eff.Answer Request))
    (c : Config Eff Eff.Answer World Request (Except Exc Response)) (i : Nat)
    (x : Except Exc Response) : Prop :=
  ∃ authorization s', .started i (.deleteSession authorization) ∈ ls ∧
    extractBearerToken authorization = .ok s' ∧ app.hashToken s' = app.hashToken s ∧
    c.Returned i x

/-- At most one logout succeeds, every other one that finds the session is rejected as expired,
and the revocation keeps the time of the successful one. -/
structure LogsOutOnce (app : App) (w₀ : World) (s : String)
    (ls : List (Label Eff Eff.Answer Request))
    (c : Config Eff Eff.Answer World Request (Except Exc Response)) : Prop where
  once : ∀ {i j resp resp'}, Logout app s ls c i (.ok resp) → Logout app s ls c j (.ok resp') → i = j
  others : ∀ {j e rec}, Logout app s ls c j (.error e) →
    (∀ q e', sqlEv q (.error e') ∉ own j ls) → app.selectEv s rec ∈ own j ls → e = sessionExpired
  stamped : ∀ {i resp}, Logout app s ls c i (.ok resp) → ∃ now n r,
    .did i (.sql (.revoke (app.hashToken s) now)) (.ok n) ∈ ls ∧
      c.world.db.sessionByHash (app.hashToken s) = some r ∧ r.revokedAt = some now
  stays : ∀ {l₁ l₂ l₃ c₁ c₂ r t}, ls = l₁ ++ (l₂ ++ l₃) → app.system.Run (.init w₀) l₁ c₁ →
    app.system.Run c₁ l₂ c₂ → app.system.Run c₂ l₃ c →
    c₁.world.db.sessionByHash (app.hashToken s) = some r → r.revokedAt = some t →
    ∃ r', c₂.world.db.sessionByHash (app.hashToken s) = some r' ∧ r'.revokedAt = some t

/-! ## What the stored revocation is -/

theorem revokedAt_of_step (hst : app.system.Step c l c₁)
    (hrow : c.world.db.sessionByHash h = some r) :
    ∃ r', c₁.world.db.sessionByHash h = some r' ∧ (r'.revokedAt = r.revokedAt ∨
      ∃ i now n, l = .did i (.sql (.revoke h now)) (.ok n) ∧ r'.revokedAt = some now) := by
  rcases hst.world with hw | ⟨i, e, a, rfl, ht⟩
  · exact ⟨r, hw ▸ hrow, .inl rfl⟩
  · obtain ⟨r', hr', hc⟩ := (sessionsStep_of_trans ht).revokedAt hrow
    refine ⟨r', hr', hc.imp_right ?_⟩
    rintro ⟨now, n, hev, hrev⟩
    cases hev
    exact ⟨i, now, n, rfl, hrev⟩

theorem revoke_of_revoked {r' : SessionRow} (h₂ : app.system.Run c₁ l₂ c)
    (hrow : c₁.world.db.sessionByHash h = some r) (hn : r.revokedAt = none)
    (hrow' : c.world.db.sessionByHash h = some r') (hs : r'.revokedAt.isSome) :
    ∃ i now n, .did i (.sql (.revoke h now)) (.ok n) ∈ l₂ := by
  induction h₂ generalizing r' with
  | nil =>
    rw [hrow] at hrow'
    cases hrow'
    rw [hn] at hs
    cases hs
  | @snoc c₂ c₃ l₂ l h₂ hst ih =>
    obtain ⟨r₂, hrow₂, -⟩ := (evolves_of_run h₂).sessions hrow
    obtain ⟨r₃, hrow₃, hc⟩ := revokedAt_of_step hst hrow₂
    rw [hrow'] at hrow₃
    cases hrow₃
    rcases hc with he | ⟨i, now, n, rfl, -⟩
    · rw [he] at hs
      obtain ⟨i, now, n, hm⟩ := ih hrow₂ hs
      exact ⟨i, now, n, List.mem_append_left _ hm⟩
    · exact ⟨i, now, n, List.mem_append_right _ (List.mem_singleton.2 rfl)⟩

/-! ## An unrevoked row is revoked once -/

theorem unrevoked_of_step (hr : app.system.Run (.init w₀) ls c)
    (hg : FindsUnrevoked h ls (.did i (.sql (.revoke h now)) (.ok n)))
    (hrow : c.world.db.sessionByHash h = some r) : r.revokedAt = none := by
  obtain ⟨rec, hc, hn⟩ := hg i (if_pos rfl)
  obtain ⟨r', hrow', rfl⟩ := row_of_current hr hc
  rw [hrow] at hrow'
  cases hrow'
  exact hn

theorem revokedAt_keeps (hr : app.system.Run (.init w₀) ls c) (hst : app.system.Step c l c₁)
    (hg : FindsUnrevoked h ls l) (hrow : c.world.db.sessionByHash h = some r)
    (ht : r.revokedAt = some t) :
    ∃ r', c₁.world.db.sessionByHash h = some r' ∧ r'.revokedAt = some t := by
  obtain ⟨r', hrow', hc⟩ := revokedAt_of_step hst hrow
  refine ⟨r', hrow', ?_⟩
  rcases hc with he | ⟨i, now, n, rfl, -⟩
  · exact he.trans ht
  · rw [unrevoked_of_step hr hg hrow] at ht
    cases ht

theorem revokedAt_of_run {l₃ : List (Label Eff Eff.Answer Request)}
    (hr : app.system.RunUnder (fun ls _ l => FindsUnrevoked h ls l) (.init w₀)
      (l₁ ++ (l₂ ++ l₃)) c)
    (h₁ : app.system.Run (.init w₀) l₁ c₁) (h₂ : app.system.Run c₁ l₂ c₂)
    (hrow : c₁.world.db.sessionByHash h = some r) (ht : r.revokedAt = some t) :
    ∃ r', c₂.world.db.sessionByHash h = some r' ∧ r'.revokedAt = some t := by
  refine hr.later (Q := fun w => ∃ r', w.db.sessionByHash h = some r' ∧ r'.revokedAt = some t) ?_
    h₁ h₂ ⟨r, hrow, ht⟩
  intro ls c l c' hr hst hg hq
  obtain ⟨r₁, hrow₁, ht₁⟩ := hq
  exact revokedAt_keeps hr.run hst hg hrow₁ ht₁

theorem row_of_revoked (hr : app.system.Run (.init w₀) ls c)
    (hst : app.system.Step c (.did i (.sql (.revoke h now)) (.ok n)) c₁) :
    ∃ r, c₁.world.db.sessionByHash h = some r ∧ r.revokedAt = some now := by
  obtain ⟨r, hrow⟩ := row_of_revoke hr hst
  refine ⟨Database.setRevoked now r, ?_, rfl⟩
  rw [Database.sessionByHash_setRevoked (trans_revoke hst.trans), hrow, Option.map_some, if_pos rfl]

theorem Logout.revoke {resp : Response} (hr : app.system.Run (.init w₀) ls c)
    (hl : Logout app s ls c i (.ok resp)) :
    ∃ now n, .did i (.sql (.revoke (app.hashToken s) now)) (.ok n) ∈ ls := by
  obtain ⟨authorization, s', hm, hs, hh, hret⟩ := hl
  obtain ⟨req, hm', hf⟩ := hr.returned hret
  obtain rfl := hr.started_unique hm hm'
  obtain ⟨rec, t, now, n, ho⟩ := path_of_logout hs hf
  rw [hh] at ho
  exact ⟨now, n, mem_own.1 (by simp [ho])⟩

theorem revoke_unique {now' : Instant} {n' : Nat}
    (hr : app.system.RunUnder (fun ls _ l => FindsUnrevoked h ls l) (.init w₀) ls c)
    (hi : .did i (.sql (.revoke h now)) (.ok n) ∈ ls)
    (hj : .did j (.sql (.revoke h now')) (.ok n') ∈ ls) : i = j := by
  have hfirst {l₁ l₂ : List (Label Eff Eff.Answer Request)} {i j now now' n n'}
      (hls : ls = l₁ ++ .did i (.sql (.revoke h now)) (.ok n) :: l₂)
      (hm : .did j (.sql (.revoke h now')) (.ok n') ∈ l₁) : False := by
    rw [hls] at hr
    obtain ⟨c₁, c₂, h₁, hst, hg, -⟩ := hr.split
    obtain ⟨r, hrow, hrev⟩ := revoked_of_mem h₁.run hm
    rw [unrevoked_of_step h₁.run hg hrow] at hrev
    cases hrev
  rcases eq_or_before hi hj with he | ⟨l₁, l₂, hls, hm⟩ | ⟨l₁, l₂, hls, hm⟩
  · cases he
    rfl
  · exact absurd hm (hfirst hls)
  · exact absurd hm (hfirst hls)

theorem logsOutOnce_of_unrevoked
    (hr : app.system.RunUnder (fun ls _ l => FindsUnrevoked (app.hashToken s) ls l) (.init w₀) ls c) :
    LogsOutOnce app w₀ s ls c := by
  constructor
  · intro i j resp resp' hi hj
    obtain ⟨now, n, hmi⟩ := hi.revoke hr.run
    obtain ⟨now', n', hmj⟩ := hj.revoke hr.run
    exact revoke_unique hr hmi hmj
  · rintro j e rec ⟨authorization, s', hm, hs, hh, hret⟩ hdb hfound
    obtain ⟨req, hm', hf⟩ := hr.run.returned hret
    obtain rfl := hr.run.started_unique hm hm'
    rw [selectEv, ← hh] at hfound
    exact error_of_logout hs hf hdb hfound
  · intro i resp hl
    obtain ⟨now, n, hm⟩ := hl.revoke hr.run
    obtain ⟨l₁, l₂, c₁, c₂, rfl, h₁, hst, h₂⟩ := hr.run.split_mem hm
    obtain ⟨r, hrow, ht⟩ := row_of_revoked h₁ hst
    have hlabels := hr
    rw [List.append_cons, ← List.append_nil l₂] at hlabels
    obtain ⟨r', hrow', ht'⟩ := revokedAt_of_run hlabels (h₁.append hst.single) h₂ hrow ht
    exact ⟨now, n, r', hm, hrow', ht'⟩
  · rintro l₁ l₂ l₃ c₁ c₂ r t rfl h₁ h₂ - hrow ht
    exact revokedAt_of_run hr h₁ h₂ hrow ht

/-! ## A session that is logged out once was found unrevoked -/

theorem logout_of_revoke (hr : app.system.Run (.init w₀) ls c)
    (hm : .did i (.sql (.revoke (app.hashToken s) now)) (.ok n) ∈ ls) :
    Logout app s ls c i (.ok (.sessionLogout false)) := by
  obtain ⟨l₁, l₂, c₁, c₂, rfl, h₁, hst, -⟩ := hr.split_mem hm
  obtain ⟨req, hstart, hx⟩ := executes_of_step h₁ hst
  obtain ⟨authorization, s', rec, t, rfl, hs, ha, ho, hh⟩ := hx.of_revoke
  have hstart' := List.mem_append_left
    (.did i (.sql (.revoke (app.hashToken s) now)) (.ok n) :: l₂) hstart
  refine ⟨authorization, s', hstart', hs, hh.symm, ?_⟩
  obtain ⟨p, hp⟩ := hr.procs_of_mem hstart'
  obtain ⟨-, hf⟩ := hr.follows hp
  rw [List.append_cons, own_append, follows_append] at hf
  obtain ⟨m, hf₁, hf₂⟩ := hf
  -- what the request has performed up to its revoke is the whole of it
  have hown : own i (l₁ ++ [.did i (.sql (.revoke (app.hashToken s) now)) (.ok n)]) =
      [app.selectEv s' rec, clockEv t, clockEv now,
        sqlEv (.revoke (app.hashToken s') now) (.ok n)] := by
    rw [own_append, ho, ← hh]
    simp [own]
  rw [hown] at hf₁
  obtain rfl := hf₁.unique (finishes_logout hs ha n)
  generalize own i l₂ = evs at hf₂
  cases hf₂
  exact ⟨_, hp⟩

theorem current_of_append (hc : (current h i l₁).isSome)
    (hn : ∀ x, .did i (.sql (.sessionByTokenHash h)) x ∉ l₂) : (current h i (l₁ ++ l₂)).isSome := by
  rw [current, List.foldl_append]
  change (l₂.foldl (currentStep h i) (current h i l₁)).isSome
  generalize current h i l₁ = acc at hc
  induction l₂ generalizing acc with
  | nil => exact hc
  | cons l l₂ ih =>
    refine ih (fun x hx => hn x (List.mem_cons_of_mem _ hx)) (currentStep h i acc l) ?_
    unfold currentStep
    split
    · rename_i j h' x
      split
      · rename_i hjh
        obtain ⟨rfl, rfl⟩ := hjh
        exact absurd List.mem_cons_self (hn (.ok x))
      · exact hc
    · split
      · rwa [Option.isSome_map]
      · exact hc
    · split
      · rwa [Option.isSome_map]
      · exact hc
    · exact hc

theorem unrevoked_of_logsOutOnce (hr : app.system.Run (.init w₀) ls c)
    (ho : LogsOutOnce app w₀ s ls c) (hls : ls = l₁ ++ l :: l₂) :
    FindsUnrevoked (app.hashToken s) l₁ l := by
  intro i hi
  obtain ⟨now, n, rfl⟩ := eq_of_revoker hi
  subst hls
  obtain ⟨c₁, c₁', h₁, hst, h₂⟩ := hr.split
  obtain ⟨req, -, hx⟩ := executes_of_step h₁ hst
  obtain ⟨_, s', rec, t, -, -, ha, hown, hh⟩ := hx.of_revoke
  obtain ⟨l₃, l₄, rfl, -, hown₄⟩ := own_eq_append_cons [] hown
  obtain ⟨c₂, c₃, h₃, hsel, h₄⟩ := h₁.split
  rw [← hh] at hsel
  -- the record that the request has selected is kept up to date
  have hcur : (current (app.hashToken s) i
      (l₃ ++ .did i (.sql (.sessionByTokenHash (app.hashToken s'))) (.ok (some rec)) :: l₄)).isSome := by
    rw [List.append_cons]
    apply current_of_append
    · rw [current, List.foldl_append]
      simp [currentStep, hh]
    · intro x hx
      have hmem := mem_own.2 hx
      simp [hown₄] at hmem
  obtain ⟨rec', hrec'⟩ := Option.isSome_iff_exists.1 hcur
  refine ⟨rec', hrec', ?_⟩
  obtain ⟨r', hrow', rfl⟩ := row_of_current h₁ hrec'
  by_contra hne
  obtain ⟨hrec, hw⟩ := trans_sessionByTokenHash hsel.trans
  obtain ⟨r, hrow, rfl⟩ := Option.map_eq_some_iff.1 hrec.symm
  rw [← hw] at hrow
  -- a revoke was executed in between, and its request has succeeded too
  obtain ⟨j, now', n', hm⟩ := revoke_of_revoked h₄ hrow ha.1 hrow' (Option.isSome_iff_ne_none.2 hne)
  have hi := logout_of_revoke hr (List.mem_append_right _ List.mem_cons_self)
  have hj := logout_of_revoke hr
    (List.mem_append_left _ (List.mem_append_right _ (List.mem_cons_of_mem _ hm)))
  obtain rfl := ho.once hi hj
  have hmem := mem_own.2 hm
  simp [hown₄] at hmem

/-- A session is logged out only once in a run exactly if every revoke is executed on a row that
no other logout has revoked since the request selected it. -/
theorem logs_out_once_iff (hr : app.system.Run (.init w₀) ls c) :
    LogsOutOnce app w₀ s ls c ↔ app.system.RunUnder
      (fun ls _ l => FindsUnrevoked (app.hashToken s) ls l) (.init w₀) ls c := by
  constructor
  · intro ho
    apply hr.under
    intro l₁ l l₂ hls
    exact unrevoked_of_logsOutOnce hr ho hls
  · exact logsOutOnce_of_unrevoked

end WikiBackend.App

namespace WikiBackend.Recorded

open Effects

def twoLogouts : List (Label Eff Eff.Answer Request) :=
  [.started 0 (.deleteSession authorization), .started 1 (.deleteSession authorization),
    .did 0 (.sql (.sessionByTokenHash sessionHash)) (.ok (some sessionRecord)),
    .did 0 .clock loginAt, .did 0 .clock loginAt,
    .did 1 (.sql (.sessionByTokenHash sessionHash)) (.ok (some sessionRecord)),
    .did 1 .clock loginAt, .did 1 .clock (loginAt + 1000000),
    .did 0 (.sql (.revoke sessionHash loginAt)) (.ok 1),
    .did 1 (.sql (.revoke sessionHash (loginAt + 1000000))) (.ok 1)]

def lateLogout : List (Label Eff Eff.Answer Request) :=
  [.started 0 (.deleteSession authorization), .started 1 (.deleteSession authorization),
    .did 0 (.sql (.sessionByTokenHash sessionHash)) (.ok (some sessionRecord)),
    .did 0 .clock loginAt, .did 0 .clock loginAt,
    .did 0 (.sql (.revoke sessionHash loginAt)) (.ok 1),
    .did 1 (.sql (.sessionByTokenHash sessionHash))
      (.ok (some { sessionRecord with revokedAt := some loginAt })),
    .did 1 .clock loginAt]

theorem logs_out_once_iff_late :
    ∃ c, App.LogsOutOnce recordedApp sessionWorld sessionToken lateLogout c ∧
      c.Returned 0 (.ok (.sessionLogout false)) ∧ c.Returned 1 (.error App.sessionExpired) := by
  obtain ⟨c, hrun, hret⟩ : ∃ c, recordedApp.system.RunUnder
      (fun ls _ l => App.FindsUnrevoked (recordedApp.hashToken sessionToken) ls l)
      (.init sessionWorld) lateLogout c ∧
      decide (c.result? 0 = some (.ok (.sessionLogout false)) ∧
        c.result? 1 = some (.error App.sessionExpired)) :=
    System.exists_runUnder choiceFor _ (by decide +kernel)
  obtain ⟨h₀, h₁⟩ := of_decide_eq_true hret
  exact ⟨c, (App.logs_out_once_iff hrun.run).2 hrun, Config.returned_of_result? h₀,
    Config.returned_of_result? h₁⟩

theorem logout_twice :
    ¬∀ (app : App) (w₀ : World) (s : String) (ls : List (Label Eff Eff.Answer Request))
      (c : Config Eff Eff.Answer World Request (Except Exc Response)),
      app.system.Run (.init w₀) ls c → App.LogsOutOnce app w₀ s ls c := by
  intro h
  obtain ⟨c, hrun, hret⟩ : ∃ c, recordedApp.system.Run (.init sessionWorld) twoLogouts c ∧
      decide (c.result? 0 = some (.ok (.sessionLogout false)) ∧
        c.result? 1 = some (.ok (.sessionLogout false))) :=
    System.exists_run choiceFor _ (by decide +kernel)
  obtain ⟨h₀, h₁⟩ := of_decide_eq_true hret
  have honce := h recordedApp sessionWorld sessionToken _ c hrun
  have hlogout {i : Nat} (hm : .started i (.deleteSession authorization) ∈ twoLogouts)
      (hr : c.result? i = some (.ok (.sessionLogout false))) :
      App.Logout recordedApp sessionToken twoLogouts c i (.ok (.sessionLogout false)) :=
    ⟨authorization, sessionToken, hm, bearer_authorization, rfl, Config.returned_of_result? hr⟩
  have h₀₁ : (0 : Nat) = 1 := honce.once (hlogout List.mem_cons_self h₀)
    (hlogout (List.mem_cons_of_mem _ List.mem_cons_self) h₁)
  cases h₀₁

end WikiBackend.Recorded
