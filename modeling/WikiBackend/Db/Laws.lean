import WikiBackend.Db.Statements

/-! Everything a statement can do to the database, one lemma for each. -/

namespace WikiBackend.Database

variable {db db' : Database}

theorem store_ok {α : Type} {t : Tables} {rows : α} (h : t.Constraints) :
    db.store t rows = (.ok rows, ⟨t, h⟩) := by
  rw [store, Tables.enforce, dif_pos h]

theorem store_error {α : Type} {t : Tables} {rows : α} (h : ¬t.Constraints) :
    db.store t rows = (.error (.postgres .integrityConstraintViolation), db) := by
  rw [store, Tables.enforce, dif_neg h]

theorem store_cases {α : Type} {t : Tables} {rows : α} {x : Except LibError α}
    (h : db.store t rows = (x, db')) :
    (x = .ok rows ∧ db'.toTables = t) ∨ ∃ e, x = .error e ∧ db' = db := by
  by_cases hc : t.Constraints
  · rw [store_ok hc] at h
    cases h
    exact .inl ⟨rfl, rfl⟩
  · rw [store_error hc] at h
    cases h
    exact .inr ⟨_, rfl, rfl⟩

theorem upsertUser_cases {p : UpsertParams} {x : Except LibError (Option (UserRow × Bool))}
    (h : db.upsertUser p = (x, db')) :
    (∃ e, x = .error e ∧ (db' = db ∨ db' = db.nextUserId)) ∨
    (∃ r, db.userByTelegramId p.telegramId = some r ∧ x = .ok (some (p.updateRow r, false)) ∧
      db'.toTables = { db.nextUserId.toTables with
        users := Keyed.modify (·.telegramId) p.telegramId p.updateRow db.users }) ∨
    (db.userByTelegramId p.telegramId = none ∧
      x = .ok (some (p.insertRow (db.usersIdSeq + 1), true)) ∧
      db'.toTables = { db.nextUserId.toTables with
        users := db.users ++ [p.insertRow (db.usersIdSeq + 1)] }) := by
  unfold upsertUser at h
  split at h
  · cases h
    exact .inl ⟨_, rfl, .inl rfl⟩
  · split at h
    · cases h
      exact .inl ⟨_, rfl, .inl rfl⟩
    · simp only at h
      split at h
      · cases h
        exact .inl ⟨_, rfl, .inr rfl⟩
      · split at h
        · rename_i r hr
          rcases store_cases h with ⟨rfl, ht⟩ | ⟨e, rfl, rfl⟩
          · exact .inr (.inl ⟨r, hr, rfl, ht⟩)
          · exact .inl ⟨e, rfl, .inr rfl⟩
        · rename_i hr
          rcases store_cases h with ⟨rfl, ht⟩ | ⟨e, rfl, rfl⟩
          · exact .inr (.inr ⟨hr, rfl, ht⟩)
          · exact .inl ⟨e, rfl, .inr rfl⟩

theorem bindable_of_upsertUser {p : UpsertParams} {rows : Option (UserRow × Bool)}
    (h : db.upsertUser p = (.ok rows, db')) : p.bindable := by
  by_contra hb
  rw [upsertUser, if_pos (by simp [hb])] at h
  cases h

theorem insertSession_cases {now : Instant} {id : UUID} {userId : Int} {tokenHash : String}
    {expiresAt : Instant} {x : Except LibError (Option SessionRecord)}
    (h : db.insertSession now id userId tokenHash expiresAt = (x, db')) :
    (∃ e, x = .error e ∧ db' = db) ∨
    (x = .ok (some ⟨id, userId, expiresAt, none⟩) ∧
      db'.toTables = { db.toTables with
        sessions := db.sessions ++
          [⟨id, userId, Relational.clip 64 tokenHash, expiresAt, none, now, now⟩] }) := by
  unfold insertSession at h
  split at h
  · cases h
    exact .inl ⟨_, rfl, rfl⟩
  · rcases store_cases h with ⟨rfl, ht⟩ | ⟨e, rfl, rfl⟩
    · exact .inr ⟨rfl, ht⟩
    · exact .inl ⟨e, rfl, rfl⟩

def setExpiry (expiresAt now : Instant) (r : SessionRow) : SessionRow :=
  { r with expiresAt := expiresAt, updatedAt := now }

def setRevoked (revokedAt : Instant) (r : SessionRow) : SessionRow :=
  { r with revokedAt := some revokedAt, updatedAt := revokedAt }

theorem updateExpiry_cases {tokenHash : String} {expiresAt now : Instant}
    {x : Except LibError (Option SessionRecord)}
    (h : db.updateExpiry tokenHash expiresAt now = (x, db')) :
    (∃ e, x = .error e ∧ db' = db) ∨
    (x = .ok ((db.sessionByHash tokenHash).map fun r => (setExpiry expiresAt now r).toRecord) ∧
      db'.toTables = { db.toTables with
        sessions := Keyed.modify (·.tokenHash) tokenHash (setExpiry expiresAt now) db.sessions }) := by
  rcases store_cases h with ⟨rfl, ht⟩ | ⟨e, rfl, rfl⟩
  · exact .inr ⟨rfl, ht⟩
  · exact .inl ⟨e, rfl, rfl⟩

theorem revoke_cases {tokenHash : String} {revokedAt : Instant} {x : Except LibError Nat}
    (h : db.revoke tokenHash revokedAt = (x, db')) :
    (∃ e, x = .error e ∧ db' = db) ∨
    (x = .ok (db.sessionByHash tokenHash).toList.length ∧
      db'.toTables = { db.toTables with
        sessions := Keyed.modify (·.tokenHash) tokenHash (setRevoked revokedAt) db.sessions }) := by
  rcases store_cases h with ⟨rfl, ht⟩ | ⟨e, rfl, rfl⟩
  · exact .inr ⟨rfl, ht⟩
  · exact .inl ⟨e, rfl, rfl⟩

/-! ## Lookups after a statement -/

theorem sessionByHash_congr {h : String} (hs : db'.sessions = db.sessions) :
    db'.sessionByHash h = db.sessionByHash h := by
  rw [sessionByHash, hs, sessionByHash]

theorem sessionByHash_setExpiry {h h' : String} {expiresAt now : Instant}
    (hs : db'.sessions = Keyed.modify (·.tokenHash) h (setExpiry expiresAt now) db.sessions) :
    db'.sessionByHash h' =
      (db.sessionByHash h').map fun r => if h' = h then setExpiry expiresAt now r else r := by
  rw [sessionByHash, hs]
  exact Keyed.lookup_modify fun _ => rfl

theorem sessionByHash_setRevoked {h h' : String} {revokedAt : Instant}
    (hs : db'.sessions = Keyed.modify (·.tokenHash) h (setRevoked revokedAt) db.sessions) :
    db'.sessionByHash h' =
      (db.sessionByHash h').map fun r => if h' = h then setRevoked revokedAt r else r := by
  rw [sessionByHash, hs]
  exact Keyed.lookup_modify fun _ => rfl

theorem sessionByHash_insert {h' : String} {r : SessionRow} (hs : db'.sessions = db.sessions ++ [r]) :
    db'.sessionByHash h' =
      (db.sessionByHash h').or (if r.tokenHash = h' then some r else none) := by
  rw [sessionByHash, hs]
  exact Keyed.lookup_append.trans (congrArg _ Keyed.lookup_cons)

theorem sessionByHash_of_insert {r : SessionRow} (hs : db'.sessions = db.sessions ++ [r]) :
    db.sessionByHash r.tokenHash = none ∧ db'.sessionByHash r.tokenHash = some r := by
  have hr : r ∈ db'.sessions := by simp [hs]
  refine ⟨?_, sessionByHash_eq_some.2 ⟨hr, rfl⟩⟩
  have hn := db'.constraints.sessionsTokenHash
  rw [hs, List.map_append, List.nodup_append] at hn
  apply Keyed.lookup_eq_none.2
  intro s hs he
  exact hn.2.2 _ (List.mem_map_of_mem hs) _ (by simp) he

theorem userById_update {p : UpsertParams} {id : Int}
    (hu : db'.users = Keyed.modify (·.telegramId) p.telegramId p.updateRow db.users) :
    db'.userById id =
      (db.userById id).map fun u => if u.telegramId = p.telegramId then p.updateRow u else u := by
  have hid : ∀ u : UserRow, (if u.telegramId = p.telegramId then p.updateRow u else u).id = u.id := by
    intro u
    split <;> rfl
  rw [userById, hu]
  simp only [Keyed.modify, Keyed.lookup, userById, List.find?_map, Function.comp_def, hid]

theorem userById_insert {u : UserRow} {id : Int} (hu : db'.users = db.users ++ [u]) :
    db'.userById id = (db.userById id).or (if u.id = id then some u else none) := by
  rw [userById, hu]
  exact Keyed.lookup_append.trans (congrArg _ Keyed.lookup_cons)

theorem userByTelegramId_update {p : UpsertParams} {telegramId : Int}
    (hu : db'.users = Keyed.modify (·.telegramId) p.telegramId p.updateRow db.users) :
    db'.userByTelegramId telegramId =
      (db.userByTelegramId telegramId).map fun u =>
        if telegramId = p.telegramId then p.updateRow u else u := by
  rw [userByTelegramId, hu]
  exact Keyed.lookup_modify fun _ => rfl

theorem userByTelegramId_insert {p : UpsertParams} {id telegramId : Int}
    (hu : db'.users = db.users ++ [p.insertRow id]) :
    db'.userByTelegramId telegramId = (db.userByTelegramId telegramId).or
      (if p.telegramId = telegramId then some (p.insertRow id) else none) := by
  rw [userByTelegramId, hu]
  exact Keyed.lookup_append.trans (congrArg _ Keyed.lookup_cons)

end WikiBackend.Database
