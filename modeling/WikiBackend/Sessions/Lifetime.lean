import WikiBackend.Db.Domains
import WikiBackend.Effects.Amid
import WikiBackend.Sessions.Outcomes

/-! The time to live that the settings give to sessions. A new session can be used at the reading
of the clock at which it was made exactly where its time to live is positive and ends in range. -/

namespace WikiBackend

open Effects

/-! ## Lookups that the server answers -/

def ofLookup : Ev → Bool
  | ⟨.clock, _⟩ | ⟨.sql (.sessionByTokenHash _), _⟩ | ⟨.sql (.userById _), _⟩
  | ⟨.sql (.updateExpiry _ _ _), _⟩ => true
  | _ => false

namespace App

variable {app : App} {w w' : World} {i : Nat} {s : String} {evs : List Ev} {now : Instant}

theorem ofLookup_getSessionRecord {r : Except Exc SessionRecord}
    (h : Finishes (app.getSessionRecord s).run evs r) : ∀ ev ∈ evs, ofLookup ev = true := by
  rcases finishes_getSessionRecord.1 h with ⟨e, rfl, -⟩ | ⟨rfl, -⟩ | ⟨rec, t, rfl, -⟩ <;>
    simp [ofLookup]

theorem ofLookup_getSession {r : Except Exc SessionData}
    (h : Finishes (app.getSession s).run evs r) : ∀ ev ∈ evs, ofLookup ev = true := by
  rcases finishes_getSession h with ⟨_, hl, -⟩ | ⟨evs₁, rec, y, hl, rfl, -⟩
  · exact ofLookup_getSessionRecord hl
  · rw [List.forall_mem_append]
    exact ⟨ofLookup_getSessionRecord hl, by simp [ofLookup]⟩

theorem ofLookup_refreshSession {r : Except Exc SessionData}
    (h : Finishes (app.refreshSession s).run evs r) : ∀ ev ∈ evs, ofLookup ev = true := by
  rcases finishes_refreshSession h with ⟨_, hl, -⟩ | ⟨evs₁, rec, t, hl, ⟨_, -, rfl, -⟩ |
    ⟨expires, now, x, evs₂, -, rfl, hrest⟩⟩
  · exact ofLookup_getSessionRecord hl
  · rw [List.forall_mem_append]
    exact ⟨ofLookup_getSessionRecord hl, by simp [ofLookup]⟩
  · rw [List.forall_mem_append]
    refine ⟨ofLookup_getSessionRecord hl, ?_⟩
    rcases hrest with ⟨_, -, rfl, -⟩ | ⟨-, rfl, -⟩ | ⟨_, y, -, rfl, -⟩ <;> simp [ofLookup]

theorem ok_of_ofLookup {q : Stmt} {x : Except LibError q.Rows} (hq : ofLookup (sqlEv q x) = true)
    (ht : app.undisturbed.Trans w i (.sql q) x w') : ∃ rows, x = .ok rows := by
  obtain ⟨choice, -, h⟩ := trans_undisturbed_sql.1 ht
  cases q with
  | sessionByTokenHash _ => exact ⟨_, (congrArg Prod.fst h).symm⟩
  | userById _ => exact ⟨_, (congrArg Prod.fst h).symm⟩
  | updateExpiry h' expires now =>
    have hx : (w.db.updateExpiry h' expires now).1 = x := congrArg Prod.fst h
    exact ⟨_, hx.symm.trans (Database.updateExpiry_ok w.db h' expires now)⟩
  | _ => cases hq

theorem no_error_of_ofLookup (ha : app.undisturbed.Answers i w evs w')
    (h : ∀ ev ∈ evs, ofLookup ev = true) : ∀ q e, sqlEv q (.error e) ∉ evs := by
  induction ha with
  | nil => exact fun _ _ => List.not_mem_nil
  | cons ht _ ih =>
    rw [List.forall_mem_cons] at h
    intro q e hm
    rcases List.mem_cons.1 hm with he | hm
    · cases he
      obtain ⟨_, hok⟩ := ok_of_ofLookup h.1 ht
      cases hok
    · exact ih h.2 q e hm

theorem answers_of_undisturbed (ha : app.undisturbed.Answers i w evs w') :
    app.system.Answers i w evs w' := by
  induction ha with
  | nil => exact .nil _
  | cons ht _ ih => exact .cons (trans_of_undisturbed ht) ih

/-! ## Calls at one reading of the clock -/

def ReadsOnly (now : Instant) (evs : List Ev) : Prop := ∀ t ∈ evs.filterMap reading?, t = now

structure SucceedsAt {α : Type} (app : App) (now : Instant) (w : World) (x : Act α) : Prop where
  always : ∀ {i evs r w'}, Finishes x.run evs r → app.undisturbed.Answers i w evs w' →
    ReadsOnly now evs → ∃ a, r = .ok a
  once : w.clock ≤ now → ∀ i, ∃ evs a w', Finishes x.run evs (.ok a) ∧
    app.undisturbed.Answers i w evs w' ∧ ReadsOnly now evs

theorem succeeded_of_outcome {d : Done} {row : SessionRow}
    (hrow : w.db.sessionByHash (app.hashToken s) = some row) (hact : row.toRecord.Active now)
    (hread : ReadsOnly now d.events) (h : Outcome app w.db w'.db s d) : d.Succeeded := by
  cases h with
  | missing hnone => cases hrow.symm.trans hnone
  | @expired row' t hrow' ht hexp =>
    cases hrow.symm.trans hrow'
    rw [hread t (List.mem_of_mem_head? ht)] at hexp
    exact absurd hact hexp
  | found _ _ _ _ _ hs => exact hs
  | refreshed _ _ _ _ _ _ _ hs => exact hs
  | revoked _ _ _ _ _ hs => exact hs

theorem ok_of_succeeded {d : Done} {r : Except Exc SessionData} (hr : d.result = r.map some)
    (h : d.Succeeded) : ∃ data, r = .ok data := by
  obtain ⟨data, hd⟩ := h
  cases r with
  | error e => cases hr.symm.trans hd
  | ok data => exact ⟨data, rfl⟩

variable {row : SessionRow} {user : UserRow}

theorem answers_of_execute {q : Stmt} {x : Except LibError q.Rows}
    (hq : ∀ name, q ≠ .insertSpace name) (h : q.execute app.fold ⟨0, 0, []⟩ i w = (x, w')) :
    app.undisturbed.Trans w i (.sql q) x w' :=
  trans_undisturbed_sql.2 ⟨⟨0, 0, []⟩, fun name he => absurd he (hq name), h⟩

theorem answers_select (hrow : w.db.sessionByHash (app.hashToken s) = some row) :
    app.undisturbed.Trans w i (.sql (.sessionByTokenHash (app.hashToken s)))
      (.ok (some row.toRecord)) w := by
  refine answers_of_execute ?_ ?_
  · intro name h
    cases h
  · rw [Stmt.execute, hrow, Option.map_some]

theorem answers_userById {id : Int} (hu : w.db.userById id = some user) :
    app.undisturbed.Trans w i (.sql (.userById id)) (.ok (some user)) w := by
  refine answers_of_execute ?_ ?_
  · intro name h
    cases h
  · rw [Stmt.execute, hu]

theorem answers_updateExpiry (expires t : Instant)
    (hrow : w.db.sessionByHash (app.hashToken s) = some row) :
    ∃ w', app.undisturbed.Trans w i (.sql (.updateExpiry (app.hashToken s) expires t))
      (.ok (some (Database.setExpiry expires t row).toRecord)) w' ∧ w'.db.users = w.db.users := by
  have hok := Database.updateExpiry_ok w.db (app.hashToken s) expires t
  rw [hrow, Option.map_some] at hok
  have ht : app.undisturbed.Trans w i (.sql (.updateExpiry (app.hashToken s) expires t))
      (.ok (some (Database.setExpiry expires t row).toRecord))
      (w.onDb (w.db.updateExpiry (app.hashToken s) expires t)).2 := by
    refine answers_of_execute ?_ ?_
    · intro name h
      cases h
    · rw [Stmt.execute, World.onDb, hok]
  exact ⟨_, ht, (usersStep_of_trans (trans_of_undisturbed ht)).eq_of_not_writes rfl⟩

theorem answers_clock (h : w.clock ≤ now) :
    app.undisturbed.Trans w i .clock now { w with clock := now } :=
  trans_undisturbed_clock.2 ⟨h, rfl⟩

theorem succeedsAt_getSession (hrow : w.db.sessionByHash (app.hashToken s) = some row)
    (hact : row.toRecord.Active now) : app.SucceedsAt now w (app.getSession s) where
  always {i evs r w'} hf ha hread := by
    let d : Done := ⟨.getSession s, evs, r.map some⟩
    have hdb := no_error_of_ofLookup ha (ofLookup_getSession hf)
    have hout := getSession_outcome (d := d) rfl hf rfl (answers_of_undisturbed ha) hdb
    exact ok_of_succeeded (d := d) rfl (succeeded_of_outcome hrow hact hread hout)
  once hclock i := by
    obtain ⟨user, hu⟩ := Database.userById_of_session (Database.sessionByHash_eq_some.1 hrow).1
    have ha : app.undisturbed.Answers i w
        [app.selectEv s row.toRecord, clockEv now, userEv row.toRecord user]
        { w with clock := now } :=
      .cons (answers_select hrow) (.cons (answers_clock hclock) (.cons (answers_userById hu) (.nil _)))
    refine ⟨_, _, _, finishes_getSession_ok.2 ⟨row.toRecord, now, user, hact, rfl, rfl⟩, ha, ?_⟩
    simp [ReadsOnly, reading?]

theorem refreshSession_finishes {rec rec' : SessionRecord} {t t' now expires : Instant}
    (hact : rec.Active t) (ht : addSeconds t' app.sessionTtlSeconds = .ok expires)
    (user : UserRow) :
    Finishes (app.refreshSession s).run
      [app.selectEv s rec, clockEv t, clockEv t', clockEv now,
        sqlEv (.updateExpiry (app.hashToken s) expires now) (.ok (some rec')), userEv rec user]
      (.ok ⟨user.toProfile, expires, none⟩) := by
  refine finishes_andThen.2 (.inr ⟨[app.selectEv s rec, clockEv t], rec, _, rfl,
    finishes_getSessionRecord_ok.2 ⟨t, rfl, hact⟩, ?_⟩)
  refine finishes_andThen.2 (.inr ⟨[clockEv t'], expires, _, rfl,
    finishes_expiresAt.2 ⟨t', rfl, ht.symm⟩, ?_⟩)
  refine finishes_andThen.2 (.inr ⟨[clockEv now, sqlEv (.updateExpiry (app.hashToken s) expires now)
    (.ok (some rec'))], some rec', _, rfl, ?_, ?_⟩)
  · exact finishes_orInternalError.2 (.inl ⟨_, finishes_updateExpiry.2 ⟨now, _, rfl, rfl⟩, rfl⟩)
  · exact finishes_getUser_andThen.2 ⟨.ok (some user), rfl, rfl⟩

theorem succeedsAt_refreshSession {expires : Instant}
    (hrow : w.db.sessionByHash (app.hashToken s) = some row) (hact : row.toRecord.Active now)
    (httl : addSeconds now app.sessionTtlSeconds = .ok expires) :
    app.SucceedsAt now w (app.refreshSession s) where
  always {i evs r w'} hf ha hread := by
    let d : Done := ⟨.refreshSession s, evs, r.map some⟩
    have hdb := no_error_of_ofLookup ha (ofLookup_refreshSession hf)
    have hrange : ∀ t ∈ d.readings, ∃ expires, addSeconds t app.sessionTtlSeconds = .ok expires :=
      fun t ht => ⟨expires, hread t ht ▸ httl⟩
    have hout := refreshSession_outcome (d := d) rfl hf rfl (answers_of_undisturbed ha) hdb hrange
    exact ok_of_succeeded (d := d) rfl (succeeded_of_outcome hrow hact hread hout)
  once hclock i := by
    obtain ⟨user, hu⟩ := Database.userById_of_session (Database.sessionByHash_eq_some.1 hrow).1
    have hle : ({ w with clock := now } : World).clock ≤ now := Int.le_refl now
    obtain ⟨w', hup, hus⟩ := answers_updateExpiry expires now (w := { w with clock := now })
      (i := i) hrow
    have hu' : w'.db.userById row.toRecord.userId = some user := by
      rw [Database.userById, hus]
      exact hu
    have ha : app.undisturbed.Answers i w
        [app.selectEv s row.toRecord, clockEv now, clockEv now, clockEv now,
          sqlEv (.updateExpiry (app.hashToken s) expires now)
            (.ok (some (Database.setExpiry expires now row).toRecord)),
          userEv row.toRecord user] w' :=
      .cons (answers_select hrow) (.cons (answers_clock hclock) (.cons (answers_clock hle)
        (.cons (answers_clock hle) (.cons hup (.cons (answers_userById hu') (.nil _))))))
    refine ⟨_, _, _, refreshSession_finishes hact httl user, ha, ?_⟩
    simp [ReadsOnly, reading?]

/-! ## Logins -/

/-- A login whose token verifies and whose statements do not fail, among other requests. The last
time it read the clock, for the expiry of its session, it was `now`. -/
structure LogsIn (app : App) (now : Instant) (w : World) (token : String) (evs : List Ev)
    (r : Except Exc SessionData) (w' : World) : Prop where
  finishes : Finishes (app.createSession token).run evs r
  amid : ∃ i, app.system.Amid i w evs w'
  verifies : ∃ t p, (evs.filterMap reading?).head? = some t ∧ app.Accepts t token p
  statements : ∀ q e, sqlEv q (.error e) ∉ evs
  reading : (evs.filterMap reading?).getLast? = some now

variable {token : String} {r : Except Exc SessionData}

theorem LogsIn.verified (h : app.LogsIn now w token evs r w') {e : Exc} :
    ¬Finishes (app.verifyToken token).run evs (.error e) := by
  intro hf
  obtain ⟨t₀, p₀, ht₀, hacc⟩ := h.verifies
  obtain ⟨i, ha⟩ := h.amid
  rcases finishes_verifyToken hf with ⟨_, hv, -⟩ | ⟨t, p, t', x, -, rfl, ⟨-, hx⟩ | ⟨_, _, -, hr⟩⟩
  · rcases finishes_verifyAccessToken.1 hv with ⟨_, -, rfl, -⟩ | ⟨t, data, hd, rfl, hr⟩
    · cases ht₀
    · cases ht₀
      rw [Accepts, TokenService.verifyToken, hd] at hacc
      cases hr.trans hacc
  · rcases x with e' | _ | row
    · exact h.statements (.upsertUser (p.upsertParams t')) e' (by simp)
    · obtain ⟨m, m', ht⟩ := ha.trans_of_mem (e := .sql (.upsertUser (p.upsertParams t')))
        (a := .ok none) (by simp)
      exact upsert_answer ht rfl
    · exact hx row rfl
  · cases hr

theorem last_reading {evs' : List Ev} {t : Instant} (hread : evs'.filterMap reading? = [t])
    (h : ((evs ++ evs').filterMap reading?).getLast? = some now) : t = now := by
  rw [List.filterMap_append, hread, List.getLast?_concat] at h
  exact Option.some.inj h

theorem LogsIn.cases (h : app.LogsIn now w token evs r w') :
    (∃ e, addSeconds now app.sessionTtlSeconds = .error e ∧ r = .error e) ∨
    ∃ profile s expires row, addSeconds now app.sessionTtlSeconds = .ok expires ∧
      r = .ok ⟨profile, expires, some s⟩ ∧ w'.db.sessionByHash (app.hashToken s) = some row ∧
      row.toRecord.expiresAt = expires ∧ row.toRecord.revokedAt = none := by
  obtain ⟨i, ha⟩ := h.amid
  have hlast := h.reading
  rcases finishes_createSession h.finishes with ⟨e, hv, -⟩ | ⟨evs₁, profile, created, s, t, hv,
    ⟨e, ht, hevs, hr⟩ | ⟨expires, u, x, ht, hevs, hr⟩⟩
  · exact absurd hv h.verified
  · have hnow : t = now := last_reading rfl (hevs ▸ hlast)
    exact .inl ⟨e, hnow ▸ ht, hr⟩
  · have hnow : t = now := last_reading rfl (hevs ▸ hlast)
    rcases x with e' | _ | rec
    · exact absurd (by simp [hevs]) (h.statements (.insertSession u profile.id (app.hashToken s) expires) e')
    · obtain ⟨m, m', hins⟩ := ha.trans_of_mem
        (e := .sql (.insertSession u profile.id (app.hashToken s) expires)) (a := .ok none)
        (by simp [hevs])
      exact absurd rfl (insert_answer hins)
    · rw [hevs, List.append_cons, List.append_cons, List.append_cons] at ha
      obtain ⟨m, hins⟩ := ha.last
      obtain ⟨-, inserted, hs⟩ := trans_insertSession hins
      exact .inr ⟨profile, s, expires, _, hnow ▸ ht, hr, (Database.sessionByHash_of_insert hs).2,
        rfl, rfl⟩

/-- The session of a login can be used at once: its expiry was computed and lies ahead, and with
its token a lookup and a refresh succeed at the same reading of the clock. -/
def Usable (app : App) (now : Instant) (r : Except Exc SessionData) (w' : World) : Prop :=
  ∃ data s, r = .ok data ∧ data.sessionToken = some s ∧
    addSeconds now app.sessionTtlSeconds = .ok data.expiresAt ∧ now < data.expiresAt ∧
    app.SucceedsAt now w' (app.getSession s) ∧ app.SucceedsAt now w' (app.refreshSession s)

theorem addSeconds_of_le {ttl : Int} (hmin : datetimeMin ≤ now) (hpos : 0 < ttl)
    (hmax : now + ttl * 1000000 ≤ datetimeMax) : addSeconds now ttl = .ok (now + ttl * 1000000) := by
  have hstep : 0 ≤ ttl * 1000000 := Int.mul_nonneg (Int.le_of_lt hpos) (by decide)
  have hspan : ttl * 1000000 ≤ datetimeMax - datetimeMin :=
    Int.le_sub_left_of_add_le (Int.le_trans (Int.add_le_add_right hmin _) hmax)
  have hdays : ¬(ttl.fdiv 86400).natAbs > 999999999 := by
    rw [Int.fdiv_eq_ediv_of_nonneg _ (by decide)]
    simp only [datetimeMin, datetimeMax] at hspan
    omega
  rw [addSeconds, if_neg hdays]
  exact if_pos ⟨Int.le_trans hmin (Int.le_add_of_nonneg_right hstep), hmax⟩

theorem le_of_addSeconds {ttl t : Int} (h : addSeconds now ttl = .ok t) : t ≤ datetimeMax := by
  rw [addSeconds] at h
  split at h
  · cases h
  · simp only at h
    split at h
    · next hrange =>
      cases h
      exact hrange.2
    · cases h

theorem getApp_eq_ok {L : Library} {fold : Char → Char} {env : Environ} {settings : Settings}
    (hset : getSettings env = .ok settings) :
    getApp L fold env = .ok ⟨L, .new L settings.oauthNameApplicationId settings.oauthNameSecretKey
      settings.tokenTtlSeconds, settings.sessionTtlSeconds, fold⟩ := by
  rw [getApp, getTokenService, hset]
  rfl

/-- Settings that are accepted yield usable sessions exactly where the time to live is positive
and does not lead past the last year. -/
theorem usable_iff {L : Library} {fold : Char → Char} {env : Environ} {settings : Settings}
    (hset : getSettings env = .ok settings) (happ : getApp L fold env = .ok app)
    (hmin : datetimeMin ≤ now) (h : app.LogsIn now w token evs r w') :
    app.Usable now r w' ↔ 0 < settings.sessionTtlSeconds ∧
      now + settings.sessionTtlSeconds * 1000000 ≤ datetimeMax := by
  have httl : app.sessionTtlSeconds = settings.sessionTtlSeconds := by
    rw [getApp_eq_ok hset] at happ
    cases happ
    rfl
  rw [← httl]
  constructor
  · rintro ⟨data, s, -, -, hadd, hlt, -, -⟩
    have hle := le_of_addSeconds hadd
    rw [addSeconds_eq_ok hadd] at hlt hle
    have hstep : 0 < app.sessionTtlSeconds * 1000000 := by
      apply Int.lt_of_add_lt_add_left (a := now)
      rwa [Int.add_zero]
    exact ⟨Int.pos_of_mul_pos_left hstep (by decide), hle⟩
  · rintro ⟨hpos, hmax⟩
    have hadd := addSeconds_of_le hmin hpos hmax
    rcases h.cases with ⟨e, he, -⟩ | ⟨profile, s, expires, row, he, rfl, hrow, hexp, hrev⟩
    · cases he.symm.trans hadd
    · cases he.symm.trans hadd
      have hlt : now < now + app.sessionTtlSeconds * 1000000 :=
        Int.lt_add_of_pos_right now (Int.mul_pos hpos (by decide))
      have hact : row.toRecord.Active now := ⟨hrev, hexp.symm ▸ hlt⟩
      exact ⟨_, s, rfl, rfl, hadd, hlt, succeedsAt_getSession hrow hact,
        succeedsAt_refreshSession hrow hact hadd⟩

end App

/-! ## Recorded logins under other settings -/

namespace Recorded

def ttlEnviron (ttl : String) : Environ := fun name =>
  if name = "TOKEN_TTL_SECONDS" then some "300"
  else if name = "SESSION_TTL_SECONDS" then some ttl
  else environ name

def ttlSettings (ttl : Int) : Settings := ⟨"local-app", "local-secret", 300, ttl, ["*"]⟩

def ttlApp (ttl : Int) : App := { recordedApp with sessionTtlSeconds := ttl }

theorem getApp_ttl {ttl : String} {n : Int} (h : getSettings (ttlEnviron ttl) = .ok (ttlSettings n)) :
    getApp recordedLibrary Char.toLower (ttlEnviron ttl) = .ok (ttlApp n) := App.getApp_eq_ok h

def ttlEvents : List Ev :=
  [clockEv loginAt, clockEv loginAt,
    sqlEv (.upsertUser (data₁.upsertParams loginAt)) (.ok (some (userRow, true))),
    tokenEv sessionToken, clockEv loginAt]

def ttlInsert (expires : Instant) : List Ev :=
  [uuidEv 1,
    sqlEv (.insertSession 1 userRow.id sessionHash expires) (.ok (some ⟨1, userRow.id, expires, none⟩))]

theorem finishes_verify_ttl (ttl : Int) :
    Finishes ((ttlApp ttl).verifyToken token₁).run
      [clockEv loginAt, clockEv loginAt,
        sqlEv (.upsertUser (data₁.upsertParams loginAt)) (.ok (some (userRow, true)))]
      (.ok (userRow.toProfile, true)) :=
  App.finishes_verifyToken_ok.2 ⟨loginAt, data₁, loginAt, userRow, accepts₁, rfl, rfl⟩

theorem logsIn_ttl {ttl expires : Int} {w' : World}
    (hadd : addSeconds loginAt ttl = .ok expires)
    (ha : (ttlApp ttl).system.Answers 0 .initial (ttlEvents ++ ttlInsert expires) w') :
    (ttlApp ttl).LogsIn loginAt .initial token₁ (ttlEvents ++ ttlInsert expires)
      (.ok ⟨userRow.toProfile, expires, some sessionToken⟩) w' where
  finishes := App.createSession_finishes (finishes_verify_ttl ttl) hadd 1 _
  amid := ⟨0, ha.amid⟩
  verifies := ⟨loginAt, data₁, rfl, accepts₁⟩
  statements q e hm := by
    simp only [ttlEvents, ttlInsert, List.cons_append, List.nil_append, List.mem_cons,
      List.not_mem_nil, or_false] at hm
    rcases hm with hm | hm | hm | hm | hm | hm | hm <;> cases hm
  reading := rfl

theorem logsIn_ttl_error {ttl : Int} {e : Exc} {w' : World}
    (hadd : addSeconds loginAt ttl = .error e)
    (ha : (ttlApp ttl).system.Answers 0 .initial ttlEvents w') :
    (ttlApp ttl).LogsIn loginAt .initial token₁ ttlEvents (.error e) w' where
  finishes := by
    have hexp : Finishes (App.expiresAt ttl).run [clockEv loginAt] (.error e) :=
      App.finishes_expiresAt.2 ⟨loginAt, rfl, hadd.symm⟩
    refine finishes_andThen.2 (.inr ⟨_, _, _, rfl, finishes_verify_ttl ttl, ?_⟩)
    refine finishes_perform_andThen.2 ⟨sessionToken, _, rfl, ?_⟩
    exact finishes_andThen.2 (.inl ⟨e, hexp, rfl⟩)
  amid := ⟨0, ha.amid⟩
  verifies := ⟨loginAt, data₁, rfl, accepts₁⟩
  statements q e' hm := by
    simp only [ttlEvents, List.mem_cons, List.not_mem_nil, or_false] at hm
    rcases hm with hm | hm | hm | hm | hm <;> cases hm
  reading := rfl

end Recorded

open Recorded in
theorem usable_iff_hour : ∃ w', (ttlApp 3600).Usable loginAt
    (.ok ⟨userRow.toProfile, loginAt + 3600 * 1000000, some sessionToken⟩) w' := by
  obtain ⟨w', ha, -⟩ := System.exists_answers (S := (ttlApp 3600).system) (P := fun _ => true)
    (i := 0) (w := .initial) choiceFor (ttlEvents ++ ttlInsert (loginAt + 3600 * 1000000))
    (by decide +kernel)
  have hset : getSettings (ttlEnviron "3600") = .ok (ttlSettings 3600) := by decide +kernel
  exact ⟨w', (App.usable_iff hset (getApp_ttl hset) (by decide) (logsIn_ttl rfl ha)).2 ⟨by decide, by decide⟩⟩

open Recorded in
theorem accepted_settings_unusable :
    (getApp recordedLibrary Char.toLower (ttlEnviron "0") = .ok (ttlApp 0) ∧
      ∃ evs r w', (ttlApp 0).LogsIn loginAt .initial token₁ evs r w' ∧
        ¬(ttlApp 0).Usable loginAt r w') ∧
    (getApp recordedLibrary Char.toLower (ttlEnviron "999999999999") = .ok (ttlApp 999999999999) ∧
      ∃ evs w', (ttlApp 999999999999).LogsIn loginAt .initial token₁ evs
          (.error (.lib .overflowError)) w' ∧
        w'.db.users = [userRow] ∧
        ¬(ttlApp 999999999999).Usable loginAt (.error (.lib .overflowError)) w') := by
  refine ⟨⟨getApp_ttl (by decide +kernel), ?_⟩, ⟨getApp_ttl (by decide +kernel), ?_⟩⟩
  · obtain ⟨w', ha, -⟩ := System.exists_answers (S := (ttlApp 0).system) (P := fun _ => true)
      (i := 0) (w := .initial) choiceFor (ttlEvents ++ ttlInsert loginAt) (by decide +kernel)
    refine ⟨_, _, w', logsIn_ttl rfl ha, ?_⟩
    rintro ⟨_, _, hr, -, -, hlt, -, -⟩
    cases hr
    exact absurd hlt (Int.lt_irrefl _)
  · obtain ⟨w', ha, hw⟩ := System.exists_answers (S := (ttlApp 999999999999).system)
      (P := fun w => w.db.users = [userRow]) (i := 0) (w := .initial) choiceFor ttlEvents
      (by decide +kernel)
    have hadd : addSeconds loginAt 999999999999 = .error (.lib .overflowError) := by decide +kernel
    refine ⟨_, w', logsIn_ttl_error hadd ha, of_decide_eq_true hw, ?_⟩
    rintro ⟨_, _, hr, -⟩
    cases hr

end WikiBackend
