import WikiBackend.Db.Mirror
import WikiBackend.Db.Reversible
import WikiBackend.Sessions.Provenance
import WikiBackend.Spaces.Ledger

/-! The API on the migrated schema. Whatever the requests do, in whatever order, the migrated
tables take every write that took effect, and hold the same rows. -/

namespace WikiBackend

open Effects Relational Alembic

/-- The write that an event carries out on a connection with the open transaction `tx`. A
transaction is one write, at its commit. -/
def writeOf (tx : Option Tx) : Ev → Option Write
  | ⟨.sql (.upsertUser p), .ok _⟩ => some (.upsertUser p)
  | ⟨.sql (.insertSession id userId tokenHash expiresAt), .ok _⟩ =>
    some (.createSession id userId tokenHash expiresAt)
  | ⟨.sql (.updateExpiry tokenHash expiresAt now), .ok _⟩ =>
    some (.updateExpiry tokenHash expiresAt now)
  | ⟨.sql (.revoke tokenHash revokedAt), .ok _⟩ => some (.revoke tokenHash revokedAt)
  | ⟨.sql .commit, .ok _⟩ =>
    match tx with
    | some ⟨[space], [owner]⟩ => some (.createSpace space.id space.name owner.userId)
    | _ => none
  | _ => none

def writesFrom (past : List (Label Eff Eff.Answer Request)) :
    List (Label Eff Eff.Answer Request) → List Write
  | [] => []
  | .started i req :: ls => writesFrom (past ++ [.started i req]) ls
  | .did i e a :: ls =>
    (writeOf ((own i past).foldl txStep none) ⟨e, a⟩).toList ++
      writesFrom (past ++ [.did i e a]) ls

def writes (ls : List (Label Eff Eff.Answer Request)) : List Write := writesFrom [] ls

theorem writesFrom_append (past ls ls' : List (Label Eff Eff.Answer Request)) :
    writesFrom past (ls ++ ls') = writesFrom past ls ++ writesFrom (past ++ ls) ls' := by
  induction ls generalizing past with
  | nil => simp [writesFrom]
  | cons l ls ih =>
    cases l with
    | started i req => simp [writesFrom, ih]
    | did i e a => simp [writesFrom, ih]

theorem writes_snoc_did (ls : List (Label Eff Eff.Answer Request)) (i : Nat) (e : Eff)
    (a : e.Answer) :
    writes (ls ++ [.did i e a]) =
      writes ls ++ (writeOf ((own i ls).foldl txStep none) ⟨e, a⟩).toList := by
  simp [writes, writesFrom_append, writesFrom]

theorem writes_snoc_started (ls : List (Label Eff Eff.Answer Request)) (i : Nat) (req : Request) :
    writes (ls ++ [.started i req]) = writes ls := by
  simp [writes, writesFrom_append, writesFrom]

namespace Alembic

def Move.write? : Move → Option Write
  | .write _ w => some w
  | _ => none

/-- A database at the head revision, reached by these moves, that has the rows of the tables. -/
structure Hosts (moves : List Move) (st : State) (db : Database) : Prop where
  run : Run moves st
  revision : st.revision = .createSpaces
  mirrors : Mirrors db st.store
  usersIdSeq : 0 ≤ db.usersIdSeq

variable {moves : List Move} {st : State} {db db' : Database} {m : Moment} {wr : Write}

theorem Hosts.keep (h : Hosts moves st db) (hrows : db'.toRows = db.toRows)
    (hseq : db.usersIdSeq ≤ db'.usersIdSeq) : Hosts moves st db' :=
  ⟨h.run, h.revision, ⟨h.mirrors.catalog, h.mirrors.rows.trans hrows.symm⟩,
    h.usersIdSeq.trans hseq⟩

theorem Hosts.write {α : Type} {r : α} (h : Hosts moves st db)
    (hc : Coincide ((.ok r : Except LibError α), db') (wr.execute m st.store))
    (hseq : db.usersIdSeq ≤ db'.usersIdSeq) :
    ∃ st', Hosts (moves ++ [.write m wr]) st' db' := by
  cases hx : wr.execute m st.store with
  | error e =>
    rw [hx] at hc
    exact hc.elim
  | ok store =>
    rw [hx] at hc
    have hstep : (Move.write m wr).step st = .ok ⟨st.revision, store⟩ := by
      rw [Move.step, hx]
    refine ⟨_, h.run.snoc hstep ?_, h.revision, hc, h.usersIdSeq.trans hseq⟩
    rw [h.revision]
    decide

end Alembic

namespace App

variable {app : App} {w w' w₀ : World} {i : Nat} {q : Stmt} {moves : List Move} {st : State}
  {ls : List (Label Eff Eff.Answer Request)}
  {c c' : Config Eff Eff.Answer World Request (Except Exc Response)}

theorem toRows_congr {db db' : Database} (hu : db'.users = db.users)
    (hs : db'.sessions = db.sessions) (hp : db'.spaces = db.spaces)
    (hm : db'.memberships = db.memberships) : db'.toRows = db.toRows := by
  funext t
  cases t
  · rfl
  · exact congrArg (List.map _) hu
  · exact congrArg (List.map _) hs
  · exact congrArg (List.map _) hp
  · exact congrArg (List.map _) hm

def Follow (moves : List Move) (tx : Option Tx) (ev : Ev) (db : Database) : Prop :=
  ∃ ms st, ms.map Move.write? = (writeOf tx ev).toList.map some ∧ Hosts (moves ++ ms) st db

theorem Follow.keep {tx : Option Tx} {ev : Ev} (h : Hosts moves st w.db)
    (hev : writeOf tx ev = none) (hrows : w'.db.toRows = w.db.toRows)
    (hseq : w.db.usersIdSeq ≤ w'.db.usersIdSeq) : Follow moves tx ev w'.db := by
  refine ⟨[], st, ?_, ?_⟩
  · rw [hev]
    rfl
  · rw [List.append_nil]
    exact h.keep hrows hseq

theorem Follow.single {tx : Option Tx} {x : Except LibError q.Rows} {wr : Write} {m : Moment}
    (h : Hosts moves st w.db) (hok : ∀ r, writeOf tx (sqlEv q (.ok r)) = some wr)
    (herror : ∀ e, writeOf tx (sqlEv q (.error e)) = none)
    (hc : Coincide (x, w'.db) (wr.execute m st.store)) (hk : KeepsOnError w.db (x, w'.db))
    (hseq : w.db.usersIdSeq ≤ w'.db.usersIdSeq) : Follow moves tx (sqlEv q x) w'.db := by
  cases x with
  | error e => exact .keep h (herror e) (hk e rfl) hseq
  | ok r =>
    obtain ⟨st', h'⟩ := h.write hc hseq
    refine ⟨[.write m wr], st', ?_, h'⟩
    rw [hok]
    rfl

theorem users_of_unwritten {db db' : Database} {ev : Ev} (h : UsersStep db db' ev)
    (hev : writesUsers ev = false) : db'.users = db.users := by
  cases h with
  | kept _ hu => exact hu
  | updated => cases hev
  | inserted => cases hev

theorem sessions_of_unwritten {db db' : Database} {ev : Ev} (h : SessionsStep db db' ev)
    (hev : writesSessions ev = false) : db'.sessions = db.sessions := by
  cases h with
  | kept _ hs => exact hs
  | inserted => cases hev
  | extended => cases hev
  | revoked => cases hev

theorem Follow.unwritten {tx : Option Tx} {s : ServerChoice} {fold : Char → Char}
    {x : Except LibError q.Rows} (h : Hosts moves st w.db) (hx : q.execute fold s i w = (x, w'))
    (hev : writeOf tx (sqlEv q x) = none) (hu : writesUsers (sqlEv q x) = false)
    (hs : writesSessions (sqlEv q x) = false) (hp : w'.db.spaces = w.db.spaces)
    (hm : w'.db.memberships = w.db.memberships) : Follow moves tx (sqlEv q x) w'.db :=
  .keep h hev (toRows_congr (users_of_unwritten (usersStep_of_execute hx) hu)
    (sessions_of_unwritten (sessionsStep_of_execute hx) hs) hp hm) (usersIdSeq_le_execute hx)

theorem storable_of_insertSpace {name : String} {id : UUID} (h : app.system.Run (.init w₀) ls c)
    (hm : .did i (.sql (.insertSpace name)) (.ok id) ∈ ls) : storable 255 name := by
  obtain ⟨l₁, l₂, c₁, c₂, -, -, hst, -⟩ := h.split_mem hm
  rcases trans_sql.1 hst.trans with ⟨s, hx⟩ | ⟨_, hx, -⟩
  · by_contra hs
    rw [Stmt.execute, if_pos (by simpa [storable, and_comm, imp_iff_not_or] using hs)] at hx
    cases hx
  · cases hx

theorem follow_of_commit {s : ServerChoice} {x : Except LibError Unit}
    (h : app.system.Run (.init w₀) ls c) (hh : Hosts moves st c.world.db)
    (hst : app.system.Step c (.did i (.sql .commit) x) c')
    (hx : Stmt.execute app.fold s i c.world .commit = (x, c'.world)) :
    Follow moves ((own i ls).foldl txStep none) (sqlEv .commit x) c'.world.db := by
  obtain ⟨req, hreq, he⟩ := executes_of_step h hst
  obtain ⟨body, authorization, token, rec, t, user, spaceId, rfl, -, -, -, ho⟩ := he.of_commit
  let tx : Tx :=
    ⟨[⟨spaceId, Relational.clip 255 body.name, none, none⟩], [⟨user.id, spaceId, "owner"⟩]⟩
  have htx : c.world.txs i = some tx := by
    rw [txs_of_run h i, ho]
    rfl
  have hmem : .did i (.sql (.insertSpace body.name)) (.ok spaceId) ∈ ls :=
    mem_own.1 (by simp [ho])
  have hs : storable 255 body.name := storable_of_insertSpace h hmem
  have hdb : c.world.db.store (c.world.db.withTx tx) () = (x, c'.world.db) := by
    rw [Stmt.execute, World.commit, htx] at hx
    exact (World.onDb_eq hx).1
  have hc : Coincide (x, c'.world.db)
      ((Write.createSpace spaceId body.name user.id).execute ⟨0, 0⟩ st.store) := by
    have hcoincide := coincide_createSpace hh.mirrors ⟨0, 0⟩ spaceId body.name user.id
    rwa [if_pos hs, hdb] at hcoincide
  refine .single hh (fun r => ?_) (fun e => rfl) hc ?_ (usersIdSeq_le_execute hx)
  · rw [ho]
    exact congrArg (fun name => some (Write.createSpace spaceId name user.id))
      (Relational.clip_of_length_le body.maxLength)
  · rw [← hdb]
    exact keepsOnError_store

theorem follow_of_execute {s : ServerChoice} {x : Except LibError q.Rows}
    (h : app.system.Run (.init w₀) ls c) (hh : Hosts moves st c.world.db)
    (hst : app.system.Step c (.did i (.sql q) x) c')
    (hx : q.execute app.fold s i c.world = (x, c'.world)) :
    Follow moves ((own i ls).foldl txStep none) (sqlEv q x) c'.world.db := by
  have hseq := usersIdSeq_le_execute hx
  cases q with
  | upsertUser p =>
    obtain ⟨hdb, -⟩ := World.onDb_eq hx
    have hc := coincide_upsertUser hh.mirrors ⟨0, c.world.db.usersIdSeq + 1⟩ p hh.usersIdSeq rfl
    have hk : KeepsOnError c.world.db (c.world.db.upsertUser p) := keepsOnError_upsertUser
    rw [hdb] at hc hk
    exact .single hh (fun _ => rfl) (fun _ => rfl) hc hk hseq
  | insertSession id userId tokenHash expiresAt =>
    obtain ⟨hdb, -⟩ := World.onDb_eq hx
    have hc := coincide_insertSession hh.mirrors ⟨s.now, 0⟩ id userId tokenHash expiresAt
    have hk : KeepsOnError c.world.db
        (c.world.db.insertSession s.now id userId tokenHash expiresAt) :=
      keepsOnError_insertSession id userId tokenHash expiresAt
    rw [hdb] at hc hk
    exact .single hh (fun _ => rfl) (fun _ => rfl) hc hk hseq
  | updateExpiry tokenHash expiresAt now =>
    obtain ⟨hdb, -⟩ := World.onDb_eq hx
    have hc := coincide_updateExpiry hh.mirrors ⟨0, 0⟩ tokenHash expiresAt now
    have hk : KeepsOnError c.world.db (c.world.db.updateExpiry tokenHash expiresAt now) :=
      keepsOnError_store
    rw [hdb] at hc hk
    exact .single hh (fun _ => rfl) (fun _ => rfl) hc hk hseq
  | revoke tokenHash revokedAt =>
    obtain ⟨hdb, -⟩ := World.onDb_eq hx
    have hc := coincide_revoke hh.mirrors ⟨0, 0⟩ tokenHash revokedAt
    have hk : KeepsOnError c.world.db (c.world.db.revoke tokenHash revokedAt) := keepsOnError_store
    rw [hdb] at hc hk
    exact .single hh (fun _ => rfl) (fun _ => rfl) hc hk hseq
  | commit => exact follow_of_commit h hh hst hx
  | userById | usersByUsername | sessionByTokenHash | begin | insertSpace | insertOwner | rollback =>
    obtain ⟨hp, hm⟩ := spaces_of_other h hst rfl
    exact .unwritten hh hx rfl rfl rfl hp hm

theorem follow_of_step {e : Eff} {a : e.Answer} (h : app.system.Run (.init w₀) ls c)
    (hh : Hosts moves st c.world.db) (hst : app.system.Step c (.did i e a) c') :
    Follow moves ((own i ls).foldl txStep none) ⟨e, a⟩ c'.world.db := by
  cases e with
  | clock =>
    obtain ⟨-, hw⟩ := trans_clock.1 hst.trans
    exact .keep hh rfl (by rw [hw]) (by rw [hw])
  | tokenUrlsafe =>
    obtain ⟨-, hw⟩ := trans_tokenUrlsafe.1 hst.trans
    exact .keep hh rfl (by rw [hw]) (by rw [hw])
  | uuid4 =>
    have hw := trans_uuid4.1 hst.trans
    exact .keep hh rfl (by rw [hw]) (by rw [hw])
  | sql q =>
    rcases trans_sql.1 hst.trans with ⟨s, hx⟩ | ⟨y, rfl, hw⟩
    · exact follow_of_execute h hh hst hx
    · exact .keep hh (by cases q <;> rfl) (by rw [hw, World.fail_db]) (by rw [hw, World.fail_db])

/-- The migrated database takes the writes of the API, which then finds its rows in it. -/
theorem migrated_run (h : app.system.Run (.init w₀) ls c) (hh : Hosts moves st w₀.db) :
    ∃ ms st', ms.map Move.write? = (writes ls).map some ∧ Hosts (moves ++ ms) st' c.world.db := by
  induction h with
  | nil => exact ⟨[], st, rfl, by rwa [List.append_nil]⟩
  | @snoc c c' ls l h hst ih =>
    obtain ⟨ms, st', hms, hh'⟩ := ih
    cases l with
    | started i req =>
      rw [writes_snoc_started]
      cases hst
      exact ⟨ms, st', hms, hh'⟩
    | did i e a =>
      obtain ⟨ms', st'', hms', hh''⟩ := follow_of_step h hh' hst
      refine ⟨ms ++ ms', st'', ?_, ?_⟩
      · rw [writes_snoc_did, List.map_append, List.map_append, hms, hms']
      · rwa [List.append_assoc] at hh''

end App

theorem hosts_migrated (now : Instant) :
    ∃ st, Hosts [.upgrade now, .upgrade now, .upgrade now] st .empty := by
  obtain ⟨live, h⟩ := Revision.exists_migrated now .createSpaces
  have hm := mirrors_migrated h
  have hscripts : Revision.createSpaces.path.flatMap Revision.upgrade =
      Revision.createUsersTable.path.flatMap Revision.upgrade ++
        (Revision.addLastLoginAt.upgrade ++
          (Revision.createSessionsTable.upgrade ++ Revision.createSpaces.upgrade)) := rfl
  rw [hscripts] at h
  obtain ⟨users, h₂, h⟩ := run_append.1 h
  obtain ⟨logins, h₃, h⟩ := run_append.1 h
  obtain ⟨sessions, h₄, h₅⟩ := run_append.1 h
  have step {r r' : Revision} {db db' : LiveStore} (hr : r.next = some r')
      (h : run now r'.upgrade db = .ok db') : (Move.upgrade now).step ⟨r, db⟩ = .ok ⟨r', db'⟩ := by
    simp only [Move.step, hr, migrate, h]
  have hrun : Run [.upgrade now, .upgrade now, .upgrade now] ⟨.createSpaces, live⟩ := by
    refine (((Run.start h₂).snoc (step rfl h₃) ?_).snoc (step rfl h₄) ?_).snoc (step rfl h₅) ?_
    all_goals
      intro h
      cases h
  exact ⟨_, hrun, rfl, hm, Int.le_refl 0⟩

namespace Recorded

theorem migrated_run_lookup : ∃ c ms st, ms.map Move.write? = (writes loginThenLookup).map some ∧
    recordedApp.system.Run (.init World.initial) loginThenLookup c ∧
    Hosts ([.upgrade 0, .upgrade 0, .upgrade 0] ++ ms) st c.world.db := by
  obtain ⟨c, hrun, -⟩ := run_loginThenLookup
  obtain ⟨st, hst⟩ := hosts_migrated 0
  obtain ⟨ms, st', hms, h⟩ := App.migrated_run hrun hst
  exact ⟨c, ms, st', hms, hrun, h⟩

example : (writes loginThenLookup).length = 2 := by decide +kernel

end Recorded

end WikiBackend
