import WikiBackend.Api.Causes
import WikiBackend.Api.Successes
import WikiBackend.Sessions.Expiry
import WikiBackend.Sessions.Provenance

/-! The session rows as folds of the record of a run. Whatever requests write to a session in
whatever order, a request that presents its token is judged by the writes before its lookup. -/

namespace WikiBackend

open Effects

def recordStep (h : String) (rec : Option SessionRecord) : Ev → Option SessionRecord
  | ⟨.sql (.insertSession id userId h' expires), .ok _⟩ =>
    rec.or (if Relational.clip 64 h' = h then some ⟨id, userId, expires, none⟩ else none)
  | ⟨.sql (.updateExpiry h' expires _), .ok _⟩ =>
    if h' = h then rec.map fun r => { r with expiresAt := expires } else rec
  | ⟨.sql (.revoke h' now), .ok _⟩ =>
    if h' = h then rec.map fun r => { r with revokedAt := some now } else rec
  | _ => rec

theorem recordStep_of_not_writes {h : String} {rec : Option SessionRecord} {ev : Ev}
    (hw : writesSessions ev = false) : recordStep h rec ev = rec := by
  unfold recordStep
  split
  all_goals first | rfl | cases hw

def Database.recordByHash (db : Database) (h : String) : Option SessionRecord :=
  (db.sessionByHash h).map (·.toRecord)

theorem SessionsStep.recordByHash {db db' : Database} {ev : Ev} (hs : SessionsStep db db' ev)
    (h : String) : db'.recordByHash h = recordStep h (db.recordByHash h) ev := by
  unfold Database.recordByHash
  cases hs with
  | kept hw ht => rw [recordStep_of_not_writes hw, Database.sessionByHash_congr ht]
  | @inserted id userId h' expires now ht =>
    rw [Database.sessionByHash_insert ht, recordStep, Option.map_or]
    congr 1
    by_cases hh : Relational.clip 64 h' = h
    · rw [if_pos hh, if_pos hh]
      rfl
    · rw [if_neg hh, if_neg hh]
      rfl
  | @extended h' expires now ht =>
    rw [Database.sessionByHash_setExpiry ht, recordStep]
    by_cases hh : h' = h
    · simp only [hh, if_true, Option.map_map]
      rfl
    · simp only [hh, Ne.symm hh, if_false, Option.map_id']
  | @revoked h' now ht =>
    rw [Database.sessionByHash_setRevoked ht, recordStep]
    by_cases hh : h' = h
    · simp only [hh, if_true, Option.map_map]
      rfl
    · simp only [hh, Ne.symm hh, if_false, Option.map_id']

def lateErrors : List ErrorResponse :=
  [errorPayload 400 .validationError, errorPayload 500 .internalError]

theorem Fails.late {α : Type} {x : Act α} (h : Fails x) : Blames lateErrors x :=
  h.mono (by simp [lateErrors])

namespace App

variable {app : App} {w₀ : World} {ls l₁ l₂ : List (Label Eff Eff.Answer Request)}
  {c c₁ c₂ : Config Eff Eff.Answer World Request (Except Exc Response)} {i j : Nat} {s h : String}
  {req : Request} {r : Except Exc Response} {evs : List Ev} {t : Instant}

def recordAfter (app : App) (w₀ : World) (s : String) (ls : List (Label Eff Eff.Answer Request)) :
    Option SessionRecord :=
  (events ls).foldl (recordStep (app.hashToken s)) (w₀.db.recordByHash (app.hashToken s))

theorem recordByHash_of_run (hr : app.system.Run (.init w₀) ls c) :
    c.world.db.recordByHash (app.hashToken s) = app.recordAfter w₀ s ls :=
  hr.view (v := fun w => w.db.recordByHash (app.hashToken s))
    fun ht => (sessionsStep_of_trans ht).recordByHash _

/-! ## After the activity check -/

/-- No error of the activity check, unless the row is gone when its expiry is updated. -/
def Late (evs : List Ev) (r : Except Exc Response) : Prop :=
  (r ≠ .error sessionMissing ∧ r ≠ .error sessionExpired) ∨
    ∃ h expires now, sqlEv (.updateExpiry h expires now) (.ok none) ∈ evs

theorem late_of_blames {x : Act Response} (h : Blames lateErrors x) (hf : Finishes x.run evs r) :
    Late evs r := by
  refine .inl ⟨?_, ?_⟩
  · rintro rfl
    exact absurd (h.documented hf) (by decide)
  · rintro rfl
    exact absurd (h.documented hf) (by decide)

theorem judged_of_handler (hs : req.sessionToken? = some s)
    (hf : Finishes (app.handler req).run evs r) :
    (∃ e, Finishes (app.getSessionRecord s).run evs (.error e) ∧ r = .error e) ∨
    ∃ rec t evs', rec.Active t ∧ evs = app.selectEv s rec :: clockEv t :: evs' ∧ Late evs' r := by
  -- a handler that is a lookup and a rest, whose errors come late
  have rest {f : SessionRecord → Act Response} (h : ∀ rec evs, Finishes (f rec).run evs r → Late evs r)
      (hx : Finishes (app.getSessionRecord s >>= f).run evs r) :
      (∃ e, Finishes (app.getSessionRecord s).run evs (.error e) ∧ r = .error e) ∨
      ∃ rec t evs', rec.Active t ∧ evs = app.selectEv s rec :: clockEv t :: evs' ∧ Late evs' r := by
    rcases finishes_andThen.1 hx with hx | ⟨_, rec, evs', rfl, h₁, h₂⟩
    · exact .inl hx
    · obtain ⟨t, rfl, ha⟩ := finishes_getSessionRecord_ok.1 h₁
      exact .inr ⟨rec, t, evs', ha, rfl, h rec evs' h₂⟩
  cases req with
  | verifyToken body => cases hs
  | createSession body => cases hs
  | getSession authorization =>
    rw [handler, Routes.getSession, bearer_of_toOption hs] at hf
    change Finishes (app.getSession s >>= _).run evs r at hf
    rw [getSession, bind_assoc] at hf
    refine rest (fun rec evs h => late_of_blames ?_ h) hf
    exact ((fails_getUser rec).late.andThen fun _ => blames_pure _).andThen fun _ => blames_pure _
  | refreshSession authorization =>
    rw [handler, Routes.refreshSession, bearer_of_toOption hs] at hf
    obtain ⟨y, hy, rfl⟩ := finishes_andThen_pure.1 hf
    rcases finishes_refreshSession hy with ⟨e, hg, rfl⟩ | ⟨evs₁, rec, t, hg, ⟨e, hx, rfl, rfl⟩ |
      ⟨expires, now, x, evs₂, -, rfl, hrest⟩⟩
    · exact .inl ⟨e, hg, rfl⟩
    all_goals
      obtain ⟨t₀, rfl, ha⟩ := finishes_getSessionRecord_ok.1 hg
      refine .inr ⟨rec, t₀, _, ha, rfl, ?_⟩
    · obtain rfl := addSeconds_eq_error hx
      exact .inl ⟨fun h => (by cases h), fun h => by cases h⟩
    · rcases hrest with ⟨e, rfl, rfl, rfl⟩ | ⟨rfl, rfl, rfl⟩ | ⟨rec', _ | _ | user, rfl, rfl, rfl⟩
      · exact .inl ⟨fun h => (by cases h), fun h => by cases h⟩
      · exact .inr ⟨_, expires, now, .tail _ (.tail _ (.head _))⟩
      all_goals exact .inl ⟨fun h => (by cases h), fun h => by cases h⟩
  | deleteSession authorization =>
    rw [handler, Routes.deleteSession, bearer_of_toOption hs] at hf
    change Finishes (app.revokeSession s >>= _).run evs r at hf
    rw [revokeSession, bind_assoc] at hf
    refine rest (fun rec evs h => late_of_blames ?_ h) hf
    refine Blames.andThen ?_ fun _ => blames_pure _
    refine (blames_perform fun _ => rfl).andThen fun now => Fails.late (fails_orInternalError ?_)
    exact (fails_sql fun _ => rfl).andThen fun _ => blames_pure _
  | createSpace body authorization =>
    rw [handler, Routes.createSpace, bearer_of_toOption hs] at hf
    change Finishes (app.getSession s >>= _).run evs r at hf
    rw [getSession, bind_assoc] at hf
    refine rest (fun rec evs h => late_of_blames ?_ h) hf
    refine ((fails_getUser rec).late.andThen fun _ => blames_pure _).andThen fun data => ?_
    by_cases hb : strip body.name = ""
    · simp only [hb, if_true]
      exact blames_throw (e := appError 400 .validationError) (by decide) (by decide)
    · simp only [hb, if_false]
      exact (fails_createSpace _ _).late.andThen fun _ => blames_pure _
  | searchUsers query authorization =>
    rw [handler, Routes.searchUsers, bearer_of_toOption hs] at hf
    change Finishes (app.getSession s >>= _).run evs r at hf
    rw [getSession, bind_assoc] at hf
    refine rest (fun rec evs h => late_of_blames ?_ h) hf
    refine ((fails_getUser rec).late.andThen fun _ => blames_pure _).andThen fun data => ?_
    exact (fails_searchUsers _ _).late.andThen fun _ => blames_pure _

/-! ## Verdicts -/

theorem extended_some (hr : app.system.Run (.init w₀) ls c) {expires now : Instant} :
    .did i (.sql (.updateExpiry h expires now)) (.ok none) ∉ ls := by
  intro hm
  obtain ⟨l₁, l₂, c₁, c₂, rfl, h₁, hst, -⟩ := hr.split_mem hm
  obtain ⟨row, hrow, -⟩ := row_of_extended h₁ hst
  obtain ⟨hnone, hset⟩ := trans_updateExpiry hst.trans
  rw [Database.sessionByHash_setExpiry hset, Option.map_eq_none_iff.1 hnone.symm] at hrow
  cases hrow

inductive Verdict (app : App) (w₀ : World) (s : String) (i : Nat)
    (ls : List (Label Eff Eff.Answer Request)) (r : Except Exc Response) : Prop where
  | unavailable {l₁ l₂ : List (Label Eff Eff.Answer Request)} {e : LibError} :
      ls = l₁ ++ .did i (.sql (.sessionByTokenHash (app.hashToken s))) (.error e) :: l₂ →
      r = .error (.lib e) → Verdict app w₀ s i ls r
  | missing {l₁ l₂ : List (Label Eff Eff.Answer Request)} :
      ls = l₁ ++ .did i (.sql (.sessionByTokenHash (app.hashToken s))) (.ok none) :: l₂ →
      app.recordAfter w₀ s l₁ = none → r = .error sessionMissing → Verdict app w₀ s i ls r
  | expired {l₁ l₂ : List (Label Eff Eff.Answer Request)} {rec : SessionRecord} {t : Instant} :
      ls = l₁ ++ .did i (.sql (.sessionByTokenHash (app.hashToken s))) (.ok (some rec)) :: l₂ →
      app.recordAfter w₀ s l₁ = some rec → own i l₂ = [clockEv t] → ¬rec.Active t →
      r = .error sessionExpired → Verdict app w₀ s i ls r
  | passed {l₁ l₂ : List (Label Eff Eff.Answer Request)} {rec : SessionRecord} {t : Instant}
      {evs : List Ev} :
      ls = l₁ ++ .did i (.sql (.sessionByTokenHash (app.hashToken s))) (.ok (some rec)) :: l₂ →
      app.recordAfter w₀ s l₁ = some rec → own i l₂ = clockEv t :: evs → rec.Active t →
      r ≠ .error sessionMissing → r ≠ .error sessionExpired → Verdict app w₀ s i ls r

theorem recordAfter_of_selected {rec : Option SessionRecord}
    (hr : app.system.Run (.init w₀)
      (l₁ ++ .did i (.sql (.sessionByTokenHash (app.hashToken s))) (.ok rec) :: l₂) c) :
    app.recordAfter w₀ s l₁ = rec := by
  obtain ⟨c₁, c₂, h₁, hst, -⟩ := hr.split
  rw [← recordByHash_of_run h₁]
  exact (trans_sessionByTokenHash hst.trans).1.symm

theorem verdict_of_returned (hr : app.system.Run (.init w₀) ls c) (hm : .started i req ∈ ls)
    (hs : req.sessionToken? = some s) (hret : c.Returned i r) : Verdict app w₀ s i ls r := by
  obtain ⟨req', hm', hf⟩ := hr.returned hret
  obtain rfl := hr.started_unique hm hm'
  rcases judged_of_handler hs hf with ⟨e, hg, rfl⟩ | ⟨rec, t, evs', ha, ho, hlate⟩
  · rcases finishes_getSessionRecord.1 hg with ⟨e', ho, he⟩ | ⟨ho, he⟩ | ⟨rec, t, ho, he⟩
    · cases he
      obtain ⟨l₁, l₂, hls, -, -⟩ := own_eq_append_cons [] ho
      exact .unavailable hls rfl
    · cases he
      obtain ⟨l₁, l₂, rfl, -, -⟩ := own_eq_append_cons [] ho
      exact .missing rfl (recordAfter_of_selected hr) rfl
    · obtain ⟨l₁, l₂, rfl, -, ho₂⟩ := own_eq_append_cons [] ho
      split at he <;> cases he
      rename_i ha
      exact .expired rfl (recordAfter_of_selected hr) ho₂ ha rfl
  · have hnot : ∀ h expires now, sqlEv (.updateExpiry h expires now) (.ok none) ∉ evs' := by
      intro h expires now hmem
      have hmem' : sqlEv (.updateExpiry h expires now) (.ok none) ∈ own i ls := by
        rw [ho]
        exact .tail _ (.tail _ hmem)
      exact extended_some hr (mem_own.1 hmem')
    rcases hlate with ⟨hmiss, hexp⟩ | ⟨h, expires, now, hmem⟩
    · obtain ⟨l₁, l₂, rfl, -, ho₂⟩ := own_eq_append_cons [] ho
      exact .passed rfl (recordAfter_of_selected hr) ho₂ ha hmiss hexp
    · exact absurd hmem (hnot h expires now)

/-- The session rows are what the executed writes make of them in the order of their execution,
and every request that presents a session token is judged by the writes before its lookup and by
its next reading of the clock. -/
theorem session_verdicts (hr : app.system.Run (.init w₀) ls c) :
    (∀ s, c.world.db.recordByHash (app.hashToken s) = app.recordAfter w₀ s ls) ∧
    ∀ {i req s r}, .started i req ∈ ls → req.sessionToken? = some s → c.Returned i r →
      Verdict app w₀ s i ls r :=
  ⟨fun _ => recordByHash_of_run hr, fun hm hs hret => verdict_of_returned hr hm hs hret⟩

/-! ## Where an expiry comes from -/

/-- A login or a refresh gave the session the expiry `expires`, one time to live after its
reading `t` of the clock. -/
def Granted (app : App) (h : String) (expires t : Instant)
    (ls : List (Label Eff Eff.Answer Request)) : Prop :=
  expires = t + app.sessionTtlSeconds * 1000000 ∧ ∃ j, .did j .clock t ∈ ls ∧
    ((∃ id userId x, .did j (.sql (.insertSession id userId h expires)) (.ok x) ∈ ls) ∨
      ∃ now x, .did j (.sql (.updateExpiry h expires now)) (.ok x) ∈ ls)

variable {expires : Instant}

theorem Granted.mono (hg : app.Granted h expires t l₁) : app.Granted h expires t (l₁ ++ l₂) := by
  obtain ⟨he, j, hm, hw⟩ := hg
  refine ⟨he, j, List.mem_append_left _ hm, hw.imp ?_ ?_⟩
  · rintro ⟨id, userId, x, hx⟩
    exact ⟨id, userId, x, List.mem_append_left _ hx⟩
  · rintro ⟨now, x, hx⟩
    exact ⟨now, x, List.mem_append_left _ hx⟩

theorem granted_of_run {row : SessionRow} (hr : app.system.Run (.init w₀) ls c)
    (hrow : c.world.db.sessionByHash h = some row) :
    (∃ row₀, w₀.db.sessionByHash h = some row₀ ∧ row.expiresAt = row₀.expiresAt) ∨
      ∃ t, app.Granted h row.expiresAt t ls := by
  induction hr generalizing row with
  | nil => exact .inl ⟨row, hrow, rfl⟩
  | @snoc c₁ c₂ ls l hr hst ih =>
    have last {l : Label Eff Eff.Answer Request} : l ∈ ls ++ [l] :=
      List.mem_append_right _ (List.mem_singleton.2 rfl)
    cases hrow₁ : c₁.world.db.sessionByHash h with
    | some row₁ =>
      obtain ⟨row', hrow', hc⟩ := expiresAt_of_step hst hrow₁
      rw [hrow] at hrow'
      cases hrow'
      rcases hc with he | ⟨i, now, x, rfl⟩
      · rw [he]
        exact (ih hrow₁).imp_right fun ⟨t, hg⟩ => ⟨t, hg.mono⟩
      · obtain ⟨_, _, _, t', ho, -, -, he⟩ := path_of_extended hr hst
        have hm : .did i .clock t' ∈ ls := mem_own.1 (by simp [ho])
        exact .inr ⟨t', he, i, List.mem_append_left _ hm, .inr ⟨now, x, last⟩⟩
    | none =>
      rcases hst.world with hw | ⟨i, e, a, rfl, ht⟩
      · rw [hw, hrow₁] at hrow
        cases hrow
      · have hev := inserted_of_new hr hst hrow₁ hrow
        cases hev
        obtain ⟨req, -, hx⟩ := executes_of_step hr hst
        obtain ⟨_, _, _, _, _, _, _, t', -, -, hx, ho, -, -⟩ := hx.of_insertSession
        have hm : .did i .clock t' ∈ ls := mem_own.1 (by simp [ho])
        exact .inr ⟨t', addSeconds_eq_ok hx, i, List.mem_append_left _ hm,
          .inl ⟨_, _, _, last⟩⟩

/-- A request is accepted with a session token only if it reads the clock within one time to live
after the reading of a login or a refresh that wrote the expiry of the session before, unless the
session still has the expiry that it had at the start. -/
theorem accepted_within_ttl {resp : Response} (hr : app.system.Run (.init w₀) ls c)
    (hm : .started i req ∈ ls) (hs : req.sessionToken? = some s) (hret : c.Returned i (.ok resp)) :
    ∃ l₁ l₂ rec t evs,
      ls = l₁ ++ .did i (.sql (.sessionByTokenHash (app.hashToken s))) (.ok (some rec)) :: l₂ ∧
      own i l₂ = clockEv t :: evs ∧
      ((∃ row₀, w₀.db.sessionByHash (app.hashToken s) = some row₀ ∧ t < row₀.expiresAt) ∨
        ∃ t', app.Granted (app.hashToken s) rec.expiresAt t' l₁ ∧
          t < t' + app.sessionTtlSeconds * 1000000) := by
  obtain ⟨req', hm', hf⟩ := hr.returned hret
  obtain rfl := hr.started_unique hm hm'
  obtain ⟨rec, t, evs, ha, ho⟩ := path_of_ok hs hf
  obtain ⟨l₁, l₂, rfl, -, ho₂⟩ := own_eq_append_cons [] ho
  refine ⟨l₁, l₂, rec, t, evs, rfl, ho₂, ?_⟩
  obtain ⟨c₁, c₂, h₁, hst, -⟩ := hr.split
  obtain ⟨hrec, -⟩ := trans_sessionByTokenHash hst.trans
  obtain ⟨row, hrow, rfl⟩ := Option.map_eq_some_iff.1 hrec.symm
  rcases granted_of_run h₁ hrow with ⟨row₀, hrow₀, he⟩ | ⟨t', hg⟩
  · exact .inl ⟨row₀, hrow₀, he ▸ ha.2⟩
  · exact .inr ⟨t', hg, hg.1 ▸ ha.2⟩

/-! ## Issued tokens -/

theorem row_of_run {row : SessionRow} (hr : app.system.Run c₁ ls c₂)
    (hrow : c₁.world.db.sessionByHash h = some row) :
    ∃ row', c₂.world.db.sessionByHash h = some row' ∧
      (row'.revokedAt = row.revokedAt ∨
        ∃ j now n, .did j (.sql (.revoke h now)) (.ok n) ∈ ls) ∧
      (row'.expiresAt = row.expiresAt ∨
        ∃ j now x, .did j (.sql (.updateExpiry h row'.expiresAt now)) (.ok x) ∈ ls) := by
  induction hr with
  | nil => exact ⟨row, hrow, .inl rfl, .inl rfl⟩
  | @snoc c c' ls l _ hst ih =>
    obtain ⟨row₁, hrow₁, hrev, hexp⟩ := ih
    have old {l' : Label Eff Eff.Answer Request} (hm : l' ∈ ls) : l' ∈ ls ++ [l] :=
      List.mem_append_left _ hm
    rcases hst.world with hw | ⟨i, e, a, rfl, ht⟩
    · refine ⟨row₁, hw ▸ hrow₁, hrev.imp_right ?_, hexp.imp_right ?_⟩
      · exact fun ⟨j, now, n, hm⟩ => ⟨j, now, n, old hm⟩
      · exact fun ⟨j, now, x, hm⟩ => ⟨j, now, x, old hm⟩
    · have hs := sessionsStep_of_trans ht
      obtain ⟨row', hrow', hc⟩ := hs.expiresAt hrow₁
      obtain ⟨row₂, hrow₂, hc'⟩ := hs.revokedAt hrow₁
      cases hrow'.symm.trans hrow₂
      refine ⟨row', hrow', ?_, ?_⟩
      · rcases hc' with he | ⟨now, n, hev, -⟩
        · rw [he]
          exact hrev.imp_right fun ⟨j, now, n, hm⟩ => ⟨j, now, n, old hm⟩
        · cases hev
          exact .inr ⟨i, now, n, List.mem_append_right _ (List.mem_singleton.2 rfl)⟩
      · rcases hc with he | ⟨now, x, hev⟩
        · rw [he]
          exact hexp.imp_right fun ⟨j, now, x, hm⟩ => ⟨j, now, x, old hm⟩
        · cases hev
          exact .inr ⟨i, now, x, List.mem_append_right _ (List.mem_singleton.2 rfl)⟩

theorem selected_of_run {row : SessionRow} {x : Option SessionRecord}
    (hr : app.system.Run c₁ ls c₂)
    (hst : app.system.Step c₂ (.did j (.sql (.sessionByTokenHash h)) (.ok x)) c)
    (hrow : c₁.world.db.sessionByHash h = some row) (hrev : row.revokedAt = none)
    (hkept : ∀ k now n, .did k (.sql (.revoke h now)) (.ok n) ∉ ls) :
    ∃ row' : SessionRow, x = some row'.toRecord ∧ row'.userId = row.userId ∧
      row'.revokedAt = none ∧ (row'.expiresAt = row.expiresAt ∨
        ∃ k now y, .did k (.sql (.updateExpiry h row'.expiresAt now)) (.ok y) ∈ ls) := by
  obtain ⟨row', hrow', hr', hx'⟩ := row_of_run hr hrow
  obtain ⟨row'', hrow'', hev⟩ := (evolves_of_run hr).sessions hrow
  cases hrow'.symm.trans hrow''
  refine ⟨row', ?_, hev.userId, ?_, hx'⟩
  · rw [(trans_sessionByTokenHash hst.trans).1, hrow']
    rfl
  · refine (hr'.resolve_right ?_).trans hrev
    rintro ⟨k, now, n, hmem⟩
    exact hkept k now n hmem

theorem row_of_created {flag : Bool} {user : TokenUserResponse} (hr : app.system.Run (.init w₀) ls c)
    (hret : c.Returned i (.ok (.sessionCreate flag s expires user))) :
    ∃ l₁ l₂ c₁ row u, ls = l₁ ++ l₂ ∧ app.system.Run (.init w₀) l₁ c₁ ∧ app.system.Run c₁ l₂ c ∧
      c₁.world.db.sessionByHash (app.hashToken s) = some row ∧ row.expiresAt = expires ∧
      row.revokedAt = none ∧ c₁.world.db.userById row.userId = some u ∧
      u.telegramId = user.telegramId := by
  obtain ⟨req, -, hf⟩ := hr.returned hret
  have hsuc := succeeds_of_finishes hf
  generalize ho : own i ls = evs at hsuc
  cases hsuc with
  | @createSession _ _ _ _ row created _ t' _ u rec =>
    obtain ⟨l₁, l₂, rfl, ho₁, -⟩ := own_eq_append_cons [_, _, _, _, _, _] ho
    obtain ⟨c₁, c₂, h₁, hst, h₂⟩ := hr.split
    obtain ⟨-, now, hset⟩ := trans_insertSession hst.trans
    have hrow := (Database.sessionByHash_of_insert hset).2
    -- the upsert of the request stored the user
    have hup : .did i (.sql (.upsertUser _)) (.ok (some (row, created))) ∈ l₁ :=
      mem_own.1 (by rw [ho₁]; exact .tail _ (.tail _ (.head _)))
    obtain ⟨l₃, l₄, c₃, c₄, rfl, -, hst', h₄⟩ := h₁.split_mem hup
    obtain ⟨hmem, -⟩ := (usersStep_of_trans hst'.trans).stored
    have hrow₄ : c₄.world.db.userById row.id = some row := Database.userById_eq_some.2 ⟨hmem, rfl⟩
    obtain ⟨user, hu, he⟩ := (evolves_of_run (h₄.append hst.single)).users hrow₄
    exact ⟨_, l₂, c₂, _, user, List.append_cons .., h₁.append hst.single, h₂, hrow, rfl, rfl, hu, he⟩

/-- The token that a login returned is accepted by every later lookup that reads the clock before
the expiries written to its session, as long as no logout of it was executed and no statement of
the lookup raises; and the lookup returns the user of the login. -/
theorem issued_token_works {flag : Bool} {user : TokenUserResponse} {authorization : Option String}
    (h₁ : app.system.Run (.init w₀) l₁ c₁) (h₂ : app.system.Run c₁ l₂ c)
    (hlogin : c₁.Returned i (.ok (.sessionCreate flag s expires user)))
    (hm : .started j (.getSession authorization) ∈ l₂) (hs : extractBearerToken authorization = .ok s)
    (hret : c.Returned j r) (hok : ∀ q e, .did j (.sql q) (.error e) ∉ l₂)
    (hkept : ∀ k now n, .did k (.sql (.revoke (app.hashToken s) now)) (.ok n) ∉ l₁ ++ l₂)
    (hclock : ∀ t, .did j .clock t ∈ l₂ → t < expires ∧ ∀ k x now y,
      .did k (.sql (.updateExpiry (app.hashToken s) x now)) (.ok y) ∈ l₁ ++ l₂ → t < x) :
    ∃ expires' user', r = .ok (.sessionStatus true expires' user') ∧
      user'.telegramId = user.telegramId := by
  have hr := h₁.append h₂
  obtain ⟨req, hm', hf⟩ := hr.returned hret
  obtain rfl := hr.started_unique (List.mem_append_right _ hm) hm'
  rw [own_append, h₁.own_nil_of_started h₂ hm, List.nil_append] at hf
  rw [body_eq, handler, Routes.getSession, hs] at hf
  obtain ⟨y, hy, rfl⟩ := finishes_andThen_pure.1 hf
  -- the row that the lookup selects
  obtain ⟨l₃, l₄, c₃, row, u, rfl, -, h₄, hrow, hexp, hrev, hu, htg⟩ := row_of_created h₁ hlogin
  have hsel {x : Option SessionRecord} {evs : List Ev}
      (ho : own j l₂ = sqlEv (.sessionByTokenHash (app.hashToken s)) (.ok x) :: evs) :
      ∃ row' : SessionRow, x = some row'.toRecord ∧ row'.userId = row.userId ∧
        ∀ t, .did j .clock t ∈ l₂ → row'.toRecord.Active t := by
    obtain ⟨l₅, l₆, rfl, -, -⟩ := own_eq_append_cons [] ho
    obtain ⟨c₅, c₆, h₅, hst, -⟩ := h₂.split
    have later {l : Label Eff Eff.Answer Request} (hl : l ∈ l₄ ++ l₅) :
        l ∈ (l₃ ++ l₄) ++ (l₅ ++ .did j (.sql (.sessionByTokenHash (app.hashToken s))) (.ok x) :: l₆) := by
      rw [List.append_assoc, ← List.append_assoc l₄]
      exact List.mem_append_right _ (List.mem_append_left _ hl)
    obtain ⟨row', hx, hid, hrev', hexp'⟩ := selected_of_run (h₄.append h₅) hst hrow hrev
      fun k now n hmem => hkept k now n (later hmem)
    refine ⟨row', hx, hid, fun t ht => ⟨hrev', ?_⟩⟩
    obtain ⟨hlt, hup⟩ := hclock t ht
    rcases hexp' with he | ⟨k, now, y, hmem⟩
    · exact lt_of_lt_of_eq hlt (he.trans hexp).symm
    · exact hup k _ now y (later hmem)
  have noError {q : Stmt} {e : LibError} (hmem : sqlEv q (.error e) ∈ own j l₂) : False :=
    hok q e (mem_own.1 hmem)
  generalize ho : own j l₂ = evs at hy noError hsel
  rcases finishes_getSession hy with ⟨e, hg, rfl⟩ | ⟨evs₁, rec, y, hg, rfl, rfl⟩
  · rcases finishes_getSessionRecord.1 hg with ⟨e', rfl, -⟩ | ⟨rfl, -⟩ | ⟨rec, t, rfl, he⟩
    · exact (noError (.head _)).elim
    · obtain ⟨_, hx, -⟩ := hsel rfl
      cases hx
    · obtain ⟨row', hx, -, hact⟩ := hsel rfl
      cases hx
      have hread : .did j .clock t ∈ l₂ := mem_own.1 (by rw [ho]; exact .tail _ (.head _))
      rw [if_pos (hact t hread)] at he
      cases he
  · obtain ⟨t, rfl, -⟩ := finishes_getSessionRecord_ok.1 hg
    obtain ⟨row', hx, hid, -⟩ := hsel rfl
    cases hx
    rcases y with e | _ | user'
    · exact (noError (.tail _ (.tail _ (.head _)))).elim
    · have hmem : .did j (.sql (.userById row'.toRecord.userId)) (.ok none) ∈ l₂ :=
        mem_own.1 (by rw [ho]; exact .tail _ (.tail _ (.head _)))
      exact absurd (List.mem_append_right _ hmem) (user_found hr j _)
    · -- the user has been there since the login
      obtain ⟨l₅, l₆, rfl, -, -⟩ := own_eq_append_cons [_, _] ho
      obtain ⟨c₅, c₆, h₅, hst, -⟩ := h₂.split
      obtain ⟨u', hu', htg'⟩ := (evolves_of_run (h₄.append h₅)).users hu
      have huser := (trans_userById hst.trans).1
      change some user' = c₅.world.db.userById row'.userId at huser
      rw [hid, hu'] at huser
      cases huser
      exact ⟨_, _, rfl, htg'.trans htg⟩

end App

namespace Recorded

theorem mem_loginThenLookup : .started 1 (.getSession authorization) ∈ loginThenLookup :=
  List.mem_append_right _ List.mem_cons_self

theorem session_verdicts_lookup :
    App.Verdict recordedApp World.initial sessionToken 1 loginThenLookup
      (.ok (.sessionStatus true expiresAt userRow.toProfile.toTokenUser)) := by
  obtain ⟨c, hrun, hret⟩ := run_loginThenLookup
  exact (App.session_verdicts hrun).2 mem_loginThenLookup (App.toOption_eq_some bearer_authorization)
    hret

theorem accepted_within_ttl_lookup :
    ∃ l₁ l₂ rec t evs, loginThenLookup = l₁ ++
        .did 1 (.sql (.sessionByTokenHash (recordedApp.hashToken sessionToken))) (.ok (some rec)) :: l₂ ∧
      own 1 l₂ = clockEv t :: evs ∧
      ((∃ row₀, World.initial.db.sessionByHash (recordedApp.hashToken sessionToken) = some row₀ ∧
          t < row₀.expiresAt) ∨
        ∃ t', recordedApp.Granted (recordedApp.hashToken sessionToken) rec.expiresAt t' l₁ ∧
          t < t' + 3600 * 1000000) := by
  obtain ⟨c, hrun, hret⟩ := run_loginThenLookup
  exact App.accepted_within_ttl hrun mem_loginThenLookup
    (App.toOption_eq_some bearer_authorization) hret

def lookupRun : List (Label Eff Eff.Answer Request) :=
  .started 1 (.getSession authorization) :: lookupEvents.map fun ev => .did 1 ev.1 ev.2

theorem runs_loginThenLookup : ∃ c₁ c, recordedApp.system.Run (.init World.initial) loginRun c₁ ∧
    c₁.Returned 0 (.ok (.sessionCreate true sessionToken expiresAt userRow.toProfile.toTokenUser)) ∧
    recordedApp.system.Run c₁ lookupRun c ∧
    c.Returned 1 (.ok (.sessionStatus true expiresAt userRow.toProfile.toTokenUser)) := by
  obtain ⟨w, ha, hw⟩ : ∃ w, recordedApp.system.Answers 0 World.initial
      (loginEvents (.ok (some sessionRecord))) w ∧
      (recordedApp.system.answered choiceFor 1 w lookupEvents).isSome :=
    System.exists_answers choiceFor _
      (P := fun w => (recordedApp.system.answered choiceFor 1 w lookupEvents).isSome)
      (by decide +kernel)
  obtain ⟨w', hw'⟩ := Option.isSome_iff_exists.1 hw
  -- the pool after the login, and then after the lookup
  let c₁ : Config Eff Eff.Answer World Request (Except Exc Response) := ⟨w, [(loginRequest, .ret
    (.ok (.sessionCreate true sessionToken expiresAt userRow.toProfile.toTokenUser)))]⟩
  have h₁ : recordedApp.system.Run (.init World.initial) loginRun c₁ :=
    System.Run.solo (.nil (.init World.initial)) finishes_loginRequest ha
  have h₂ := System.Run.solo (.nil c₁) finishes_lookupRequest (System.answers_of_answered hw')
  exact ⟨c₁, _, h₁, ⟨loginRequest, rfl⟩, h₂, ⟨.getSession authorization, rfl⟩⟩

theorem issued_token_works_lookup :
    ∃ c : Config Eff Eff.Answer World Request (Except Exc Response),
      c.Returned 1 (.ok (.sessionStatus true expiresAt userRow.toProfile.toTokenUser)) ∧
      ∃ expires' user', (.ok (.sessionStatus true expiresAt userRow.toProfile.toTokenUser) :
          Except Exc Response) = .ok (.sessionStatus true expires' user') ∧
        user'.telegramId = userRow.telegramId := by
  obtain ⟨c₁, c, h₁, hlogin, h₂, hret⟩ := runs_loginThenLookup
  refine ⟨c, hret, App.issued_token_works h₁ h₂ hlogin List.mem_cons_self bearer_authorization hret
    ?_ ?_ ?_⟩
  · intro q e hm
    simp only [lookupRun, lookupEvents, List.map_cons, List.map_nil, List.mem_cons, reduceCtorEq,
      List.not_mem_nil, false_or, or_false] at hm
    rcases hm with h | h | h <;> cases h
  · intro k now n hm
    simp [lookupRun, lookupEvents, loginRun, loginEvents] at hm
  · intro t hm
    have ht : t = loginAt := by simpa [lookupRun, lookupEvents] using hm
    subst ht
    refine ⟨by decide, fun k x now y hx => ?_⟩
    simp [lookupRun, lookupEvents, loginRun, loginEvents] at hx

end Recorded

end WikiBackend
