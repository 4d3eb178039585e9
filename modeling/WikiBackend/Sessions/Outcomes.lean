import WikiBackend.Sessions.Operations

/-! What an operation of the session service, run alone to its end, may come to: its
result, and what it does to the sessions table. -/

namespace WikiBackend

open Effects

structure Done where
  op : Operation
  events : List Ev
  result : Except Exc (Option SessionData)

def Operation.sessionToken? : Operation → Option String
  | .createSession _ => none
  | .getSession s | .refreshSession s | .revokeSession s => some s

theorem Operation.createSession_of_none {op : Operation} (h : op.sessionToken? = none) :
    ∃ token, op = .createSession token := by
  cases op with
  | createSession token => exact ⟨token, rfl⟩
  | _ => cases h

def reading? : Ev → Option Instant
  | ⟨.clock, t⟩ => some t
  | _ => none

namespace Done

def readings (d : Done) : List Instant := d.events.filterMap reading?

def Succeeded (d : Done) : Prop := ∃ data, d.result = .ok data

/-- No statement of an operation on a session fails, and its clock stays in the range of the
time to live. A login may fail in any way. -/
def Undisturbed (d : Done) (ttlSeconds : Int) : Prop :=
  d.op.sessionToken?.isSome → (∀ q e, sqlEv q (.error e) ∉ d.events) ∧
    ∀ t ∈ d.readings, ∃ expires, addSeconds t ttlSeconds = .ok expires

end Done

def App.Performs (app : App) (w : World) (d : Done) (w' : World) : Prop :=
  Finishes (app.operation d.op).run d.events d.result ∧ ∃ i, app.system.Answers i w d.events w'

namespace App

variable {app : App} {w w' : World} {i : Nat} {d : Done} {s : String} {evs : List Ev}

/-! ## The outcomes of an operation -/

inductive Outcome (app : App) (db db' : Database) (s : String) (d : Done) : Prop where
  | missing : db.sessionByHash (app.hashToken s) = none → db'.sessions = db.sessions →
      d.result = .error sessionMissing → Outcome app db db' s d
  | expired {r : SessionRow} {t : Instant} : db.sessionByHash (app.hashToken s) = some r →
      d.readings.head? = some t → ¬r.toRecord.Active t → db'.sessions = db.sessions →
      d.result = .error sessionExpired → Outcome app db db' s d
  | found {r : SessionRow} {t : Instant} : db.sessionByHash (app.hashToken s) = some r →
      d.readings.head? = some t → r.toRecord.Active t → d.op = .getSession s →
      db'.sessions = db.sessions → d.Succeeded → Outcome app db db' s d
  | refreshed {r : SessionRow} {t t' expires now : Instant} :
      db.sessionByHash (app.hashToken s) = some r → d.readings.head? = some t →
      r.toRecord.Active t → d.op = .refreshSession s → d.readings[1]? = some t' →
      addSeconds t' app.sessionTtlSeconds = .ok expires →
      db'.sessions = Keyed.modify (·.tokenHash) (app.hashToken s)
        (Database.setExpiry expires now) db.sessions → d.Succeeded → Outcome app db db' s d
  | revoked {r : SessionRow} {t now : Instant} : db.sessionByHash (app.hashToken s) = some r →
      d.readings.head? = some t → r.toRecord.Active t → d.op = .revokeSession s →
      db'.sessions = Keyed.modify (·.tokenHash) (app.hashToken s)
        (Database.setRevoked now) db.sessions → d.Succeeded → Outcome app db db' s d

theorem getSessionRecord_cases {r : Except Exc SessionRecord}
    (hf : Finishes (app.getSessionRecord s).run evs r) (ha : app.system.Answers i w evs w')
    (hdb : ∀ q e, sqlEv q (.error e) ∉ evs) :
    w'.db = w.db ∧
    ((w.db.sessionByHash (app.hashToken s) = none ∧ r = .error sessionMissing) ∨
      ∃ row t, w.db.sessionByHash (app.hashToken s) = some row ∧
        evs = [app.selectEv s row.toRecord, clockEv t] ∧
        r = if row.toRecord.Active t then .ok row.toRecord else .error sessionExpired) := by
  rcases finishes_getSessionRecord.1 hf with ⟨e, rfl, -⟩ | ⟨rfl, rfl⟩ | ⟨rec, t, rfl, rfl⟩
  · exact absurd List.mem_cons_self (hdb _ e)
  · obtain ⟨m, ht, hm⟩ := System.answers_cons.1 ha
    obtain ⟨hrec, rfl⟩ := trans_sessionByTokenHash ht
    obtain rfl := System.answers_nil.1 hm
    have hrow := Option.map_eq_none_iff.1 hrec.symm
    exact ⟨rfl, .inl ⟨hrow, rfl⟩⟩
  · obtain ⟨m, ht, hm⟩ := System.answers_cons.1 ha
    obtain ⟨hrec, rfl⟩ := trans_sessionByTokenHash ht
    obtain ⟨m', ht', hm'⟩ := System.answers_cons.1 hm
    obtain ⟨-, rfl⟩ := trans_clock.1 ht'
    obtain rfl := System.answers_nil.1 hm'
    obtain ⟨row, hrow, rfl⟩ := Option.map_eq_some_iff.1 hrec.symm
    exact ⟨rfl, .inr ⟨row, t, hrow, rfl, rfl⟩⟩

theorem getSessionRecord_ok_cases {rec : SessionRecord} {evs' : List Ev}
    (hf : Finishes (app.getSessionRecord s).run evs (.ok rec))
    (ha : app.system.Answers i w (evs ++ evs') w') (hdb : ∀ q e, sqlEv q (.error e) ∉ evs ++ evs') :
    ∃ m row t, app.system.Answers i m evs' w' ∧ m.db = w.db ∧
      w.db.sessionByHash (app.hashToken s) = some row ∧
      evs = [app.selectEv s rec, clockEv t] ∧ rec = row.toRecord ∧ rec.Active t := by
  obtain ⟨m, hm, hm'⟩ := System.answers_append.1 ha
  have hdb' : ∀ q e, sqlEv q (.error e) ∉ evs := by
    intro q e hq
    exact hdb q e (List.mem_append_left _ hq)
  obtain ⟨hw, ⟨-, hr⟩ | ⟨row, t, hrow, hevs, hr⟩⟩ := getSessionRecord_cases hf hm hdb'
  · cases hr
  by_cases hact : row.toRecord.Active t
  · rw [if_pos hact] at hr
    cases hr
    exact ⟨m, row, t, hm', hw, hrow, hevs, rfl, hact⟩
  · rw [if_neg hact] at hr
    cases hr

theorem outcome_of_rejected {e : Exc} (hf : Finishes (app.getSessionRecord s).run d.events (.error e))
    (hr : d.result = .error e) (ha : app.system.Answers i w d.events w')
    (hdb : ∀ q e, sqlEv q (.error e) ∉ d.events) : Outcome app w.db w'.db s d := by
  obtain ⟨hw, hcases⟩ := getSessionRecord_cases hf ha hdb
  have hkept : w'.db.sessions = w.db.sessions := by rw [hw]
  obtain ⟨hrow, he⟩ | ⟨row, t, hrow, hevs, he⟩ := hcases
  · cases he
    exact .missing hrow hkept hr
  have hread : d.readings.head? = some t := by
    rw [Done.readings, hevs]
    rfl
  by_cases hact : row.toRecord.Active t
  · rw [if_pos hact] at he
    cases he
  · rw [if_neg hact] at he
    cases he
    exact .expired hrow hread hact hkept hr

theorem user_of_row {m m' : World} {h : String} {row : SessionRow} {y : Option UserRow}
    (hr : w.db.sessionByHash h = some row) (hu : m.db.users = w.db.users)
    (ht : app.system.Trans m i (.sql (.userById row.userId)) (.ok y) m') : ∃ user, y = some user := by
  have hmem : row ∈ w.db.sessions := (Database.sessionByHash_eq_some.1 hr).1
  obtain ⟨user, hl⟩ := Database.userById_of_session hmem
  have hy : y = m.db.userById row.userId := (trans_userById ht).1
  refine ⟨user, ?_⟩
  rw [hy, Database.userById, hu]
  exact hl

theorem getSession_outcome {r : Except Exc SessionData} (hop : d.op = .getSession s)
    (hf : Finishes (app.getSession s).run d.events r) (hr : d.result = r.map some)
    (ha : app.system.Answers i w d.events w') (hdb : ∀ q e, sqlEv q (.error e) ∉ d.events) :
    Outcome app w.db w'.db s d := by
  rcases finishes_getSession hf with ⟨e, hl, rfl⟩ | ⟨evs₁, rec, y, hl, hevs, rfl⟩
  · exact outcome_of_rejected hl hr ha hdb
  rw [hevs] at ha hdb
  obtain ⟨m, row, t, h₂, hm, hrow, rfl, rfl, hact⟩ := getSessionRecord_ok_cases hl ha hdb
  obtain ⟨m', ht, hm'⟩ := System.answers_cons.1 h₂
  obtain rfl := System.answers_nil.1 hm'
  have hread : d.readings.head? = some t := by
    rw [Done.readings, hevs]
    rfl
  rcases y with e | y
  · exact absurd (List.mem_append_right _ List.mem_cons_self) (hdb _ e)
  obtain ⟨user, rfl⟩ := user_of_row hrow (by rw [hm]) ht
  have hkept : w'.db.sessions = w.db.sessions := by
    rw [(trans_userById ht).2, hm]
  exact .found hrow hread hact hop hkept ⟨_, hr⟩

theorem revokeSession_outcome {r : Except Exc Unit} (hop : d.op = .revokeSession s)
    (hf : Finishes (app.revokeSession s).run d.events r) (hr : d.result = r.map fun _ => none)
    (ha : app.system.Answers i w d.events w') (hdb : ∀ q e, sqlEv q (.error e) ∉ d.events) :
    Outcome app w.db w'.db s d := by
  rcases finishes_revokeSession hf with ⟨e, hl, rfl⟩ | ⟨evs₁, rec, now, x, hl, hevs, rfl⟩
  · exact outcome_of_rejected hl hr ha hdb
  rw [hevs] at ha hdb
  obtain ⟨m, row, t, h₂, hm, hrow, rfl, rfl, hact⟩ := getSessionRecord_ok_cases hl ha hdb
  obtain ⟨_, hc, h₃⟩ := System.answers_cons.1 h₂
  obtain ⟨-, rfl⟩ := trans_clock.1 hc
  obtain ⟨m', ht, hm'⟩ := System.answers_cons.1 h₃
  obtain rfl := System.answers_nil.1 hm'
  have hread : d.readings.head? = some t := by
    rw [Done.readings, hevs]
    rfl
  rcases x with e | n
  · exact absurd (by simp) (hdb (.revoke (app.hashToken s) now) e)
  have hset : w'.db.sessions = Keyed.modify (·.tokenHash) (app.hashToken s)
      (Database.setRevoked now) w.db.sessions := by
    rw [trans_revoke ht, hm]
  exact .revoked hrow hread hact hop hset ⟨_, hr⟩

theorem refreshSession_outcome {r : Except Exc SessionData} (hop : d.op = .refreshSession s)
    (hf : Finishes (app.refreshSession s).run d.events r) (hr : d.result = r.map some)
    (ha : app.system.Answers i w d.events w') (hdb : ∀ q e, sqlEv q (.error e) ∉ d.events)
    (hrange : ∀ t ∈ d.readings, ∃ expires, addSeconds t app.sessionTtlSeconds = .ok expires) :
    Outcome app w.db w'.db s d := by
  rcases finishes_refreshSession hf with ⟨e, hl, rfl⟩ | ⟨evs₁, rec, t', hl, ⟨e, he, hevs, -⟩ |
    ⟨expires, now, x, evs₂, he, hevs, hrest⟩⟩
  · exact outcome_of_rejected hl hr ha hdb
  · have hmem : t' ∈ d.readings := by
      rw [Done.readings, hevs, List.filterMap_append]
      exact List.mem_append_right _ List.mem_cons_self
    obtain ⟨expires, he'⟩ := hrange t' hmem
    cases he.symm.trans he'
  rw [hevs] at ha hdb
  obtain ⟨m, row, t, h₂, hm, hrow, rfl, rfl, hact⟩ := getSessionRecord_ok_cases hl ha hdb
  obtain ⟨_, hc, h₃⟩ := System.answers_cons.1 h₂
  obtain ⟨-, rfl⟩ := trans_clock.1 hc
  obtain ⟨_, hc', h₄⟩ := System.answers_cons.1 h₃
  obtain ⟨-, rfl⟩ := trans_clock.1 hc'
  obtain ⟨m₁, hup, h₅⟩ := System.answers_cons.1 h₄
  have hus : m₁.db.users = w.db.users := by
    rw [(usersStep_of_trans hup).eq_of_not_writes rfl, hm]
  have hread : d.readings.head? = some t := by
    rw [Done.readings, hevs]
    rfl
  have hread' : d.readings[1]? = some t' := by
    rw [Done.readings, hevs]
    rfl
  rcases hrest with ⟨e, rfl, -, -⟩ | ⟨rfl, -, -⟩ | ⟨rec', y, rfl, rfl, rfl⟩
  · exact absurd (by simp) (hdb (.updateExpiry (app.hashToken s) expires now) e)
  · -- the row is still there when its expiry is updated
    have hnone := (trans_updateExpiry hup).1
    simp [hm, hrow] at hnone
  · obtain ⟨m₂, ht, hm₂⟩ := System.answers_cons.1 h₅
    obtain rfl := System.answers_nil.1 hm₂
    rcases y with e | y
    · exact absurd (by simp) (hdb (.userById row.toRecord.userId) e)
    obtain ⟨user, rfl⟩ := user_of_row hrow hus ht
    have hset : w'.db.sessions = Keyed.modify (·.tokenHash) (app.hashToken s)
        (Database.setExpiry expires now) w.db.sessions := by
      rw [(trans_userById ht).2, (trans_updateExpiry hup).2, hm]
    exact .refreshed hrow hread hact hop hread' he hset ⟨_, hr⟩

theorem outcome_of_performs (h : app.Performs w d w') (hs : d.op.sessionToken? = some s)
    (hu : d.Undisturbed app.sessionTtlSeconds) : Outcome app w.db w'.db s d := by
  obtain ⟨hf, i, ha⟩ := h
  obtain ⟨hdb, hrange⟩ := hu (by rw [hs]; rfl)
  cases hop : d.op with
  | createSession token => rw [hop] at hs; cases hs
  | getSession s' =>
    rw [hop] at hs hf
    cases hs
    obtain ⟨y, hg, hr⟩ := finishes_andThen_pure.1 hf
    exact getSession_outcome hop hg hr ha hdb
  | refreshSession s' =>
    rw [hop] at hs hf
    cases hs
    obtain ⟨y, hg, hr⟩ := finishes_andThen_pure.1 hf
    exact refreshSession_outcome hop hg hr ha hdb hrange
  | revokeSession s' =>
    rw [hop] at hs hf
    cases hs
    obtain ⟨y, hg, hr⟩ := finishes_andThen_pure.1 hf
    exact revokeSession_outcome hop hg hr ha hdb

theorem createSession_outcome {token : String} {r : Except Exc SessionData}
    (hf : Finishes (app.createSession token).run d.events r) (hr : d.result = r.map some)
    (ha : app.system.Answers i w d.events w') :
    (w'.db.sessions = w.db.sessions ∧ ∃ e, d.result = .error e) ∨
    ∃ data s t expires id userId now, d.result = .ok (some data) ∧ data.sessionToken = some s ∧
      tokenEv s ∈ d.events ∧ d.readings[2]? = some t ∧
      addSeconds t app.sessionTtlSeconds = .ok expires ∧
      w'.db.sessions =
        w.db.sessions ++ [⟨id, userId, app.hashToken s, expires, none, now, now⟩] := by
  cases r with
  | error e =>
    refine .inl ⟨sessions_of_answers ha fun ev hev => ?_, e, hr⟩
    rcases createSession_error hf ha with hq | ⟨evs₁, p, row, created, evs₂, hevs, h₁, h₂⟩
    · exact (hq ev hev).2
    · rw [hevs] at hev
      rcases List.mem_append.1 hev with hev | hev
      · exact (h₁ ev hev).2
      · rcases List.mem_cons.1 hev with rfl | hev
        · rfl
        · exact (h₂ ev hev).2
  | ok data =>
    right
    rcases finishes_createSession hf with ⟨_, -, he⟩ | ⟨_, profile, created, s, t, hv, ⟨_, -, -, he⟩ |
      ⟨expires, u, _ | _ | rec, hx, hevs, he⟩⟩ <;> cases he
    obtain ⟨t₁, p, now, row, -, rfl, rfl⟩ := finishes_verifyToken_ok.1 hv
    rw [hevs, List.append_cons, List.append_cons, List.append_cons] at ha
    obtain ⟨m, h₁, h₂⟩ := System.answers_append.1 ha
    obtain ⟨m', ht, hm'⟩ := System.answers_cons.1 h₂
    obtain rfl := System.answers_nil.1 hm'
    have hm : m.db.sessions = w.db.sessions := sessions_of_answers h₁ (by simp [writesSessions])
    obtain ⟨-, inserted, hs⟩ := trans_insertSession ht
    rw [hm] at hs
    refine ⟨_, s, t, expires, u, _, inserted, hr, rfl, ?_, ?_, hx, hs⟩
    · simp [hevs]
    · rw [Done.readings, hevs]
      rfl

end App

end WikiBackend
