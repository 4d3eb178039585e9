import WikiBackend.Api.Routes
import WikiBackend.Db.Laws
import WikiBackend.Services.Paths

/-! What one answered operation does to the world: which rows each kind of event
may write, and what a query returns. -/

namespace WikiBackend

open Effects Relational

namespace App

variable {app : App} {w w' : World} {i : Nat} {e : Eff} {a : e.Answer} {q : Stmt}

theorem trans_clock {t : Instant} :
    app.system.Trans w i .clock t w' ↔ w.clock ≤ t ∧ w' = { w with clock := t } := by
  constructor
  · rintro ⟨ch, h⟩
    cases ch <;> simp only [system, World.exec] at h <;> try cases h
    split at h <;> cases h
    rename_i hle
    exact ⟨hle, rfl⟩
  · rintro ⟨hle, rfl⟩
    exact ⟨.reading t, by simp only [system, World.exec, if_pos hle]⟩

theorem trans_tokenUrlsafe {s : String} :
    app.system.Trans w i .tokenUrlsafe s w' ↔
      s ∉ w.tokens ∧ w' = { w with tokens := s :: w.tokens } := by
  constructor
  · rintro ⟨ch, h⟩
    cases ch <;> simp only [system, World.exec] at h <;> try cases h
    split at h <;> cases h
    rename_i hs
    exact ⟨hs, rfl⟩
  · rintro ⟨hs, rfl⟩
    exact ⟨.token s, by simp only [system, World.exec, if_neg hs]⟩

theorem trans_uuid4 {u : UUID} : app.system.Trans w i .uuid4 u w' ↔ w' = w := by
  constructor
  · rintro ⟨ch, h⟩
    cases ch <;> simp only [system, World.exec] at h <;> cases h
    rfl
  · rintro rfl
    exact ⟨.uuid u, rfl⟩

theorem trans_sql {x : Except LibError q.Rows} :
    app.system.Trans w i (.sql q) x w' ↔
      (∃ s, q.execute app.fold s i w = (x, w')) ∨ ∃ y, x = .error y ∧ w' = q.fail i w := by
  constructor
  · rintro ⟨ch, h⟩
    cases ch with
    | execute s => exact .inl ⟨s, Option.some.inj h⟩
    | fail y =>
      cases h
      exact .inr ⟨y, rfl, rfl⟩
    | _ => cases h
  · rintro (⟨s, h⟩ | ⟨y, rfl, rfl⟩)
    · exact ⟨.execute s, by simp only [system, World.exec, h]⟩
    · exact ⟨.fail y, rfl⟩

/-! ## Undisturbed operations -/

theorem trans_undisturbed_sql {x : Except LibError q.Rows} :
    app.undisturbed.Trans w i (.sql q) x w' ↔
      ∃ s, (∀ name, q = .insertSpace name → s.uuid ∉ w.db.spaces.map (·.id)) ∧
        q.execute app.fold s i w = (x, w') := by
  constructor
  · rintro ⟨ch, h⟩
    cases ch with
    | execute s =>
      cases q with
      | insertSpace name =>
        simp only [undisturbed, World.execUndisturbed] at h
        split at h
        · cases h
        · rename_i hs
          exact ⟨s, fun _ _ => hs, Option.some.inj h⟩
      | _ => exact ⟨s, nofun, Option.some.inj h⟩
    | _ => cases q <;> cases h
  · rintro ⟨s, hs, h⟩
    refine ⟨.execute s, ?_⟩
    cases q with
    | insertSpace name =>
      simp only [undisturbed, World.execUndisturbed]
      rw [if_neg (hs name rfl)]
      exact congrArg some h
    | _ => exact congrArg some h

theorem trans_of_undisturbed (h : app.undisturbed.Trans w i e a w') :
    app.system.Trans w i e a w' := by
  obtain ⟨ch, h⟩ := h
  refine ⟨ch, ?_⟩
  simp only [undisturbed, World.execUndisturbed] at h
  split at h
  · cases h
  · split at h
    · cases h
    · exact h
  · exact h

theorem trans_undisturbed_clock {t : Instant} :
    app.undisturbed.Trans w i .clock t w' ↔ w.clock ≤ t ∧ w' = { w with clock := t } := by
  refine ⟨fun h => trans_clock.1 (trans_of_undisturbed h), ?_⟩
  rintro ⟨hle, rfl⟩
  exact ⟨.reading t, by simp only [undisturbed, World.execUndisturbed, World.exec, if_pos hle]⟩

/-! ## Queries -/

theorem trans_sessionByTokenHash {h : String} {rec : Option SessionRecord}
    (ht : app.system.Trans w i (.sql (.sessionByTokenHash h)) (.ok rec) w') :
    rec = (w.db.sessionByHash h).map (·.toRecord) ∧ w' = w := by
  rcases trans_sql.1 ht with ⟨s, hx⟩ | ⟨_, hx, -⟩
  · cases hx
    exact ⟨rfl, rfl⟩
  · cases hx

theorem trans_userById {id : Int} {user : Option UserRow}
    (ht : app.system.Trans w i (.sql (.userById id)) (.ok user) w') :
    user = w.db.userById id ∧ w' = w := by
  rcases trans_sql.1 ht with ⟨s, hx⟩ | ⟨_, hx, -⟩
  · cases hx
    exact ⟨rfl, rfl⟩
  · cases hx

end App

/-! ## Writes -/

def writesUsers : Ev → Bool
  | ⟨.sql (.upsertUser _), .ok _⟩ => true
  | _ => false

def writesSessions : Ev → Bool
  | ⟨.sql (.insertSession _ _ _ _), .ok _⟩ => true
  | ⟨.sql (.updateExpiry _ _ _), .ok _⟩ => true
  | ⟨.sql (.revoke _ _), .ok _⟩ => true
  | _ => false

inductive UsersStep (db db' : Database) : Ev → Prop where
  | kept {ev : Ev} : writesUsers ev = false → db'.users = db.users → UsersStep db db' ev
  | updated {p : UpsertParams} {r : UserRow} : db.userByTelegramId p.telegramId = some r →
      db'.users = Keyed.modify (·.telegramId) p.telegramId p.updateRow db.users →
      UsersStep db db' (sqlEv (.upsertUser p) (.ok (some (p.updateRow r, false))))
  | inserted {p : UpsertParams} : db.userByTelegramId p.telegramId = none →
      db'.users = db.users ++ [p.insertRow (db.usersIdSeq + 1)] →
      UsersStep db db'
        (sqlEv (.upsertUser p) (.ok (some (p.insertRow (db.usersIdSeq + 1), true))))

inductive SessionsStep (db db' : Database) : Ev → Prop where
  | kept {ev : Ev} : writesSessions ev = false → db'.sessions = db.sessions → SessionsStep db db' ev
  | inserted {id : UUID} {userId : Int} {h : String} {expires now : Instant} :
      db'.sessions = db.sessions ++ [⟨id, userId, clip 64 h, expires, none, now, now⟩] →
      SessionsStep db db'
        (sqlEv (.insertSession id userId h expires) (.ok (some ⟨id, userId, expires, none⟩)))
  | extended {h : String} {expires now : Instant} :
      db'.sessions =
        Keyed.modify (·.tokenHash) h (Database.setExpiry expires now) db.sessions →
      SessionsStep db db' (sqlEv (.updateExpiry h expires now)
        (.ok ((db.sessionByHash h).map fun r => (Database.setExpiry expires now r).toRecord)))
  | revoked {h : String} {now : Instant} :
      db'.sessions = Keyed.modify (·.tokenHash) h (Database.setRevoked now) db.sessions →
      SessionsStep db db' (sqlEv (.revoke h now) (.ok (db.sessionByHash h).toList.length))

variable {db db' : Database} {ev : Ev}

theorem UsersStep.userById {id : Int} {u : UserRow} (h : UsersStep db db' ev)
    (hu : db.userById id = some u) :
    ∃ u', db'.userById id = some u' ∧ u'.telegramId = u.telegramId := by
  cases h with
  | kept _ ht => exact ⟨u, by rw [Database.userById, ht]; exact hu, rfl⟩
  | updated _ ht =>
    refine ⟨_, by rw [Database.userById_update ht, hu]; rfl, ?_⟩
    dsimp only
    split <;> rfl
  | inserted _ ht => exact ⟨u, by rw [Database.userById_insert ht, hu]; rfl, rfl⟩

theorem UsersStep.stored {p : UpsertParams} {row : UserRow} {created : Bool}
    (h : UsersStep db db' (sqlEv (.upsertUser p) (.ok (some (row, created))))) :
    row ∈ db'.users ∧ row.telegramId = p.telegramId := by
  cases h with
  | kept hk => cases hk
  | updated hr ht =>
    obtain ⟨hm, hk⟩ := Database.userByTelegramId_eq_some.1 hr
    rw [ht]
    exact ⟨Keyed.mem_modify.2 ⟨_, hm, (if_pos hk).symm⟩, hk⟩
  | inserted _ ht =>
    rw [ht]
    exact ⟨List.mem_append_right _ (List.mem_singleton.2 rfl), rfl⟩

structure SessionRow.Evolves (r r' : SessionRow) : Prop where
  id : r'.id = r.id
  userId : r'.userId = r.userId
  revokedAt : r.revokedAt.isSome → r'.revokedAt.isSome

theorem SessionRow.Evolves.refl (r : SessionRow) : r.Evolves r := ⟨rfl, rfl, fun h => h⟩

theorem SessionRow.Evolves.trans {r r' r'' : SessionRow} (h : r.Evolves r') (h' : r'.Evolves r'') :
    r.Evolves r'' :=
  ⟨h'.id.trans h.id, h'.userId.trans h.userId, fun hr => h'.revokedAt (h.revokedAt hr)⟩

theorem SessionsStep.sessionByHash {h : String} {r : SessionRow} (hs : SessionsStep db db' ev)
    (hr : db.sessionByHash h = some r) : ∃ r', db'.sessionByHash h = some r' ∧ r.Evolves r' := by
  cases hs with
  | kept _ ht => exact ⟨r, by rw [Database.sessionByHash_congr ht, hr], .refl r⟩
  | inserted ht => exact ⟨r, by rw [Database.sessionByHash_insert ht, hr]; rfl, .refl r⟩
  | extended ht =>
    refine ⟨_, by rw [Database.sessionByHash_setExpiry ht, hr]; rfl, ?_⟩
    dsimp only
    split
    · exact ⟨rfl, rfl, id⟩
    · exact .refl r
  | revoked ht =>
    refine ⟨_, by rw [Database.sessionByHash_setRevoked ht, hr]; rfl, ?_⟩
    dsimp only
    split
    · exact ⟨rfl, rfl, fun _ => rfl⟩
    · exact .refl r

theorem SessionsStep.expiresAt {db db' : Database} {ev : Ev} {h : String} {r : SessionRow}
    (hs : SessionsStep db db' ev) (hr : db.sessionByHash h = some r) :
    ∃ r', db'.sessionByHash h = some r' ∧ (r'.expiresAt = r.expiresAt ∨
      ∃ now x, ev = sqlEv (.updateExpiry h r'.expiresAt now) (.ok x)) := by
  cases hs with
  | kept _ ht => exact ⟨r, (Database.sessionByHash_congr ht).trans hr, .inl rfl⟩
  | inserted ht => exact ⟨r, by rw [Database.sessionByHash_insert ht, hr]; rfl, .inl rfl⟩
  | @extended h' expires now ht =>
    rw [Database.sessionByHash_setExpiry ht, hr, Option.map_some]
    by_cases hh : h = h'
    · subst hh
      rw [if_pos rfl]
      exact ⟨_, rfl, .inr ⟨now, _, rfl⟩⟩
    · rw [if_neg hh]
      exact ⟨r, rfl, .inl rfl⟩
  | revoked ht =>
    refine ⟨_, by rw [Database.sessionByHash_setRevoked ht, hr]; rfl, .inl ?_⟩
    dsimp only
    split <;> rfl

theorem SessionsStep.revokedAt {h : String} {r : SessionRow} (hs : SessionsStep db db' ev)
    (hr : db.sessionByHash h = some r) :
    ∃ r', db'.sessionByHash h = some r' ∧ (r'.revokedAt = r.revokedAt ∨
      ∃ now n, ev = sqlEv (.revoke h now) (.ok n) ∧ r'.revokedAt = some now) := by
  cases hs with
  | kept _ ht => exact ⟨r, (Database.sessionByHash_congr ht).trans hr, .inl rfl⟩
  | inserted ht => exact ⟨r, by rw [Database.sessionByHash_insert ht, hr]; rfl, .inl rfl⟩
  | extended ht =>
    refine ⟨_, by rw [Database.sessionByHash_setExpiry ht, hr]; rfl, .inl ?_⟩
    dsimp only
    split <;> rfl
  | @revoked h' now ht =>
    rw [Database.sessionByHash_setRevoked ht, hr, Option.map_some]
    by_cases hh : h = h'
    · subst hh
      rw [if_pos rfl]
      exact ⟨_, rfl, .inr ⟨now, _, rfl, rfl⟩⟩
    · rw [if_neg hh]
      exact ⟨r, rfl, .inl rfl⟩

theorem SessionsStep.inserted_of_new {h : String} {r : SessionRow} (hs : SessionsStep db db' ev)
    (h₀ : db.sessionByHash h = none) (hr : db'.sessionByHash h = some r) :
    ∃ h', ev = sqlEv (.insertSession r.id r.userId h' r.expiresAt) (.ok (some r.toRecord)) ∧
      clip 64 h' = h := by
  cases hs with
  | kept _ ht => rw [Database.sessionByHash_congr ht, h₀] at hr; cases hr
  | extended ht => rw [Database.sessionByHash_setExpiry ht, h₀] at hr; cases hr
  | revoked ht => rw [Database.sessionByHash_setRevoked ht, h₀] at hr; cases hr
  | inserted ht =>
    rw [Database.sessionByHash_insert ht, h₀, Option.none_or] at hr
    split at hr
    · rename_i hh
      cases hr
      exact ⟨_, rfl, hh⟩
    · cases hr

theorem SessionsStep.hash_of_changed {h : String} (hs : SessionsStep db db' ev)
    (hc : db'.sessionByHash h ≠ db.sessionByHash h) :
    (∃ id userId h' expires x, ev = sqlEv (.insertSession id userId h' expires) (.ok x) ∧
      clip 64 h' = h) ∨
    (∃ expires now x, ev = sqlEv (.updateExpiry h expires now) (.ok x)) ∨
    ∃ now x, ev = sqlEv (.revoke h now) (.ok x) := by
  cases hs with
  | kept _ ht => exact absurd (Database.sessionByHash_congr ht) hc
  | @inserted _ _ h' _ _ ht =>
    by_cases hh : clip 64 h' = h
    · exact .inl ⟨_, _, _, _, _, rfl, hh⟩
    · refine absurd ?_ hc
      rw [Database.sessionByHash_insert ht, if_neg hh, Option.or_none]
  | @extended h' _ _ ht =>
    by_cases hh : h = h'
    · subst hh
      exact .inr (.inl ⟨_, _, _, rfl⟩)
    · refine absurd ?_ hc
      simp only [Database.sessionByHash_setExpiry ht, if_neg hh, Option.map_id']
  | @revoked h' _ ht =>
    by_cases hh : h = h'
    · subst hh
      exact .inr (.inr ⟨_, _, rfl⟩)
    · refine absurd ?_ hc
      simp only [Database.sessionByHash_setRevoked ht, if_neg hh, Option.map_id']

/-- What no operation undoes. -/
structure World.Evolves (w w' : World) : Prop where
  clock : w.clock ≤ w'.clock
  tokens : ∀ s ∈ w.tokens, s ∈ w'.tokens
  users : ∀ {id u}, w.db.userById id = some u →
    ∃ u', w'.db.userById id = some u' ∧ u'.telegramId = u.telegramId
  sessions : ∀ {h r}, w.db.sessionByHash h = some r →
    ∃ r', w'.db.sessionByHash h = some r' ∧ r.Evolves r'

instance : Std.Refl World.Evolves where
  refl _ := ⟨Int.le_refl _, fun _ => id, fun {_ u} h => ⟨u, h, rfl⟩, fun {_ r} h => ⟨r, h, .refl r⟩⟩

instance : IsTrans World World.Evolves where
  trans w w' w'' h h' := by
    refine ⟨Int.le_trans h.clock h'.clock, fun s hs => h'.tokens s (h.tokens s hs), ?_, ?_⟩
    · intro id u hu
      obtain ⟨u', hu', he⟩ := h.users hu
      obtain ⟨u'', hu'', he'⟩ := h'.users hu'
      exact ⟨u'', hu'', he'.trans he⟩
    · intro hash r hr
      obtain ⟨r', hr', he⟩ := h.sessions hr
      obtain ⟨r'', hr'', he'⟩ := h'.sessions hr'
      exact ⟨r'', hr'', he.trans he'⟩

namespace World

variable {w w' : World} {i : Nat}

theorem onDb_eq {α : Type} {x : Except LibError α} {r : Except LibError α × Database}
    (h : w.onDb r = (x, w')) :
    r = (x, w'.db) ∧ w'.clock = w.clock ∧ w'.tokens = w.tokens ∧ w'.txs = w.txs := by
  cases h
  exact ⟨rfl, rfl, rfl, rfl⟩

structure SameLogins (w w' : World) : Prop where
  users : w'.db.users = w.db.users
  sessions : w'.db.sessions = w.db.sessions
  clock : w'.clock = w.clock
  tokens : w'.tokens = w.tokens

theorem insert_keeps {α : Type} {rows : Tx} {result : α} {x : Except LibError α}
    (h : w.insert i rows result = (x, w')) : w.SameLogins w' := by
  unfold insert at h
  split at h
  · split at h <;> cases h <;> exact ⟨rfl, rfl, rfl, rfl⟩
  · obtain ⟨h, hc, hk, -⟩ := onDb_eq h
    rcases Database.store_cases h with ⟨-, ht⟩ | ⟨_, -, ht⟩
    · exact ⟨by rw [ht]; rfl, by rw [ht]; rfl, hc, hk⟩
    · exact ⟨by rw [ht], by rw [ht], hc, hk⟩

theorem commit_keeps {x : Except LibError Unit} (h : w.commit i = (x, w')) : w.SameLogins w' := by
  unfold commit at h
  split at h
  · obtain ⟨h, hc, hk, -⟩ := onDb_eq h
    rcases Database.store_cases h with ⟨-, ht⟩ | ⟨_, -, ht⟩
    · exact ⟨by rw [ht]; rfl, by rw [ht]; rfl, hc, hk⟩
    · exact ⟨by rw [ht], by rw [ht], hc, hk⟩
  · cases h
    exact ⟨rfl, rfl, rfl, rfl⟩

theorem fail_db {q : Stmt} : (q.fail i w).db = w.db := by
  cases q <;> rfl

theorem execute_insertSpace {fold : Char → Char} {s : ServerChoice} {name : String}
    {x : Except LibError UUID} (h : Stmt.execute fold s i w (.insertSpace name) = (x, w')) :
    (∃ e, x = .error e ∧ w' = w) ∨
      w.insert i ⟨[⟨s.uuid, clip 255 name, none, none⟩], []⟩ s.uuid = (x, w') := by
  simp only [Stmt.execute] at h
  split at h
  · cases h
    exact .inl ⟨_, rfl, rfl⟩
  · exact .inr h

theorem execute_insertSpace_keeps {fold : Char → Char} {s : ServerChoice} {name : String}
    {x : Except LibError UUID} (h : Stmt.execute fold s i w (.insertSpace name) = (x, w')) :
    w.SameLogins w' := by
  rcases execute_insertSpace h with ⟨_, -, rfl⟩ | hi
  · exact ⟨rfl, rfl, rfl, rfl⟩
  · exact insert_keeps hi

theorem execute_clock {fold : Char → Char} {s : ServerChoice} {q : Stmt}
    {x : Except LibError q.Rows} (h : q.execute fold s i w = (x, w')) :
    w'.clock = w.clock ∧ w'.tokens = w.tokens := by
  cases q with
  | upsertUser | insertSession | updateExpiry | revoke =>
    obtain ⟨-, hc, ht, -⟩ := onDb_eq h
    exact ⟨hc, ht⟩
  | insertSpace name => exact ⟨(execute_insertSpace_keeps h).clock, (execute_insertSpace_keeps h).tokens⟩
  | insertOwner userId spaceId => exact ⟨(insert_keeps h).clock, (insert_keeps h).tokens⟩
  | commit => exact ⟨(commit_keeps h).clock, (commit_keeps h).tokens⟩
  | _ =>
    cases h
    exact ⟨rfl, rfl⟩

end World

namespace App

variable {app : App} {w w' : World} {i : Nat} {e : Eff} {a : e.Answer} {q : Stmt}

theorem bindable_of_trans {p : UpsertParams} {rows : Option (UserRow × Bool)}
    (h : app.system.Trans w i (.sql (.upsertUser p)) (.ok rows) w') : p.bindable := by
  rcases trans_sql.1 h with ⟨s, hx⟩ | ⟨_, hx, -⟩
  · exact Database.bindable_of_upsertUser (World.onDb_eq hx).1
  · cases hx

theorem usersStep_of_execute {fold : Char → Char} {s : ServerChoice} {x : Except LibError q.Rows}
    (h : q.execute fold s i w = (x, w')) : UsersStep w.db w'.db (sqlEv q x) := by
  cases q with
  | upsertUser p =>
    obtain ⟨hu, -⟩ := World.onDb_eq h
    rcases Database.upsertUser_cases hu with ⟨_, rfl, ht | ht⟩ | ⟨r, hr, rfl, ht⟩ | ⟨hr, rfl, ht⟩
    · exact .kept rfl (by rw [ht])
    · exact .kept rfl (by rw [ht]; rfl)
    · exact .updated hr (congrArg Tables.users ht)
    · exact .inserted hr (congrArg Tables.users ht)
  | insertSession id userId tokenHash expires =>
    obtain ⟨hi, -⟩ := World.onDb_eq h
    rcases Database.insertSession_cases hi with ⟨_, -, ht⟩ | ⟨-, ht⟩
    · exact .kept rfl (by rw [ht])
    · exact .kept rfl (by rw [ht])
  | updateExpiry tokenHash expires now =>
    obtain ⟨hu, -⟩ := World.onDb_eq h
    rcases Database.updateExpiry_cases hu with ⟨_, -, ht⟩ | ⟨-, ht⟩
    · exact .kept rfl (by rw [ht])
    · exact .kept rfl (by rw [ht])
  | revoke tokenHash now =>
    obtain ⟨hu, -⟩ := World.onDb_eq h
    rcases Database.revoke_cases hu with ⟨_, -, ht⟩ | ⟨-, ht⟩
    · exact .kept rfl (by rw [ht])
    · exact .kept rfl (by rw [ht])
  | insertSpace name => exact .kept rfl (World.execute_insertSpace_keeps h).users
  | insertOwner userId spaceId => exact .kept rfl (World.insert_keeps h).users
  | commit => exact .kept rfl (World.commit_keeps h).users
  | _ =>
    cases h
    exact .kept rfl rfl

theorem sessionsStep_of_execute {fold : Char → Char} {s : ServerChoice}
    {x : Except LibError q.Rows} (h : q.execute fold s i w = (x, w')) :
    SessionsStep w.db w'.db (sqlEv q x) := by
  cases q with
  | upsertUser p =>
    obtain ⟨hu, -⟩ := World.onDb_eq h
    rcases Database.upsertUser_cases hu with ⟨_, -, ht | ht⟩ | ⟨_, -, -, ht⟩ | ⟨-, -, ht⟩
    · exact .kept rfl (by rw [ht])
    · exact .kept rfl (by rw [ht]; rfl)
    · exact .kept rfl (by rw [ht]; rfl)
    · exact .kept rfl (by rw [ht]; rfl)
  | insertSession id userId tokenHash expires =>
    obtain ⟨hi, -⟩ := World.onDb_eq h
    rcases Database.insertSession_cases hi with ⟨_, rfl, ht⟩ | ⟨rfl, ht⟩
    · exact .kept rfl (by rw [ht])
    · exact .inserted (congrArg Tables.sessions ht)
  | updateExpiry tokenHash expires now =>
    obtain ⟨hu, -⟩ := World.onDb_eq h
    rcases Database.updateExpiry_cases hu with ⟨_, rfl, ht⟩ | ⟨rfl, ht⟩
    · exact .kept rfl (by rw [ht])
    · exact .extended (congrArg Tables.sessions ht)
  | revoke tokenHash now =>
    obtain ⟨hu, -⟩ := World.onDb_eq h
    rcases Database.revoke_cases hu with ⟨_, rfl, ht⟩ | ⟨rfl, ht⟩
    · exact .kept rfl (by rw [ht])
    · exact .revoked (congrArg Tables.sessions ht)
  | insertSpace name => exact .kept rfl (World.execute_insertSpace_keeps h).sessions
  | insertOwner userId spaceId => exact .kept rfl (World.insert_keeps h).sessions
  | commit => exact .kept rfl (World.commit_keeps h).sessions
  | _ =>
    cases h
    exact .kept rfl rfl

theorem usersStep_of_trans (h : app.system.Trans w i e a w') : UsersStep w.db w'.db ⟨e, a⟩ := by
  cases e with
  | clock =>
    obtain ⟨-, rfl⟩ := trans_clock.1 h
    exact .kept rfl rfl
  | tokenUrlsafe =>
    obtain ⟨-, rfl⟩ := trans_tokenUrlsafe.1 h
    exact .kept rfl rfl
  | uuid4 =>
    obtain rfl := trans_uuid4.1 h
    exact .kept rfl rfl
  | sql q =>
    rcases trans_sql.1 h with ⟨s, hx⟩ | ⟨y, rfl, rfl⟩
    · exact usersStep_of_execute hx
    · exact .kept (by cases q <;> rfl) (by rw [World.fail_db])

theorem sessionsStep_of_trans (h : app.system.Trans w i e a w') :
    SessionsStep w.db w'.db ⟨e, a⟩ := by
  cases e with
  | clock =>
    obtain ⟨-, rfl⟩ := trans_clock.1 h
    exact .kept rfl rfl
  | tokenUrlsafe =>
    obtain ⟨-, rfl⟩ := trans_tokenUrlsafe.1 h
    exact .kept rfl rfl
  | uuid4 =>
    obtain rfl := trans_uuid4.1 h
    exact .kept rfl rfl
  | sql q =>
    rcases trans_sql.1 h with ⟨s, hx⟩ | ⟨y, rfl, rfl⟩
    · exact sessionsStep_of_execute hx
    · exact .kept (by cases q <;> rfl) (by rw [World.fail_db])

/-! ## Successful writes of sessions -/

theorem clip_hashToken (app : App) (s : String) : clip 64 (app.hashToken s) = app.hashToken s :=
  clip_eq_self (space_notMem_hexdigest _)

theorem trans_insertSession {id : UUID} {userId : Int} {s : String} {expires : Instant}
    {rec : Option SessionRecord}
    (ht : app.system.Trans w i (.sql (.insertSession id userId (app.hashToken s) expires))
      (.ok rec) w') :
    rec = some ⟨id, userId, expires, none⟩ ∧ ∃ now, w'.db.sessions =
      w.db.sessions ++ [⟨id, userId, app.hashToken s, expires, none, now, now⟩] := by
  cases sessionsStep_of_trans ht with
  | kept hw => cases hw
  | inserted hs =>
    rw [clip_hashToken] at hs
    exact ⟨rfl, _, hs⟩

theorem trans_updateExpiry {h : String} {expires now : Instant} {rec : Option SessionRecord}
    (ht : app.system.Trans w i (.sql (.updateExpiry h expires now)) (.ok rec) w') :
    rec = (w.db.sessionByHash h).map (fun r => (Database.setExpiry expires now r).toRecord) ∧
      w'.db.sessions =
        Keyed.modify (·.tokenHash) h (Database.setExpiry expires now) w.db.sessions := by
  have hs := sessionsStep_of_trans ht
  generalize hx : (Except.ok rec : Except LibError (Option SessionRecord)) = x at hs
  cases hs with
  | kept hw =>
    subst hx
    cases hw
  | extended hs => exact ⟨Except.ok.inj hx, hs⟩

theorem trans_revoke {h : String} {now : Instant} {n : Nat}
    (ht : app.system.Trans w i (.sql (.revoke h now)) (.ok n) w') :
    w'.db.sessions = Keyed.modify (·.tokenHash) h (Database.setRevoked now) w.db.sessions := by
  have hs := sessionsStep_of_trans ht
  generalize hx : (Except.ok n : Except LibError Nat) = x at hs
  cases hs with
  | kept hw =>
    subst hx
    cases hw
  | revoked hs => exact hs

theorem sql_clock {x : Except LibError q.Rows} (h : app.system.Trans w i (.sql q) x w') :
    w'.clock = w.clock ∧ w'.tokens = w.tokens := by
  rcases trans_sql.1 h with ⟨s, hx⟩ | ⟨y, rfl, rfl⟩
  · exact World.execute_clock hx
  · cases q <;> exact ⟨rfl, rfl⟩

theorem evolves_of_trans (h : app.system.Trans w i e a w') : w.Evolves w' := by
  have hct : w.clock ≤ w'.clock ∧ ∀ s ∈ w.tokens, s ∈ w'.tokens := by
    cases e with
    | clock =>
      obtain ⟨hle, rfl⟩ := trans_clock.1 h
      exact ⟨hle, fun _ => id⟩
    | tokenUrlsafe =>
      obtain ⟨-, rfl⟩ := trans_tokenUrlsafe.1 h
      exact ⟨Int.le_refl _, fun _ => List.mem_cons_of_mem _⟩
    | uuid4 =>
      obtain rfl := trans_uuid4.1 h
      exact ⟨Int.le_refl _, fun _ => id⟩
    | sql q =>
      obtain ⟨hc, ht⟩ := sql_clock h
      exact ⟨Int.le_of_eq hc.symm, fun _ hs => ht ▸ hs⟩
  exact ⟨hct.1, hct.2, (usersStep_of_trans h).userById, (sessionsStep_of_trans h).sessionByHash⟩

theorem evolves_of_run {c c' : Config Eff Eff.Answer World Request (Except Exc Response)}
    {ls : List (Label Eff Eff.Answer Request)} (h : app.system.Run c ls c') :
    c.world.Evolves c'.world :=
  h.evolves evolves_of_trans

theorem clock_of_mem {c c' : Config Eff Eff.Answer World Request (Except Exc Response)}
    {ls : List (Label Eff Eff.Answer Request)} {t : Instant} (h : app.system.Run c ls c')
    (hm : .did i .clock t ∈ ls) : c.world.clock ≤ t ∧ t ≤ c'.world.clock := by
  obtain ⟨l₁, l₂, c₁, c₂, rfl, h₁, hs, h₂⟩ := h.split_mem hm
  obtain ⟨hle, hw⟩ := trans_clock.1 hs.trans
  have hlow := (evolves_of_run h₁).clock
  have hhigh := (evolves_of_run h₂).clock
  rw [hw] at hhigh
  exact ⟨Int.le_trans hlow hle, hhigh⟩

end App

end WikiBackend
