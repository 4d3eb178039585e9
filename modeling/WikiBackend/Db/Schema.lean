import WikiBackend.Core.Clock
import WikiBackend.Relational.Keyed

/-! The tables at the head revision. A `Database` carries the proof of the
constraints that the server enforces at the end of every statement. -/

namespace WikiBackend

abbrev UUID := BitVec 128

structure UserRow where
  id : Int
  telegramId : Int
  username : Option String
  firstName : Option String
  lastName : Option String
  photoUrl : Option String
  permission : Option String
  createdAt : Instant
  updatedAt : Instant
  lastLoginAt : Instant
  deriving DecidableEq

structure SessionRow where
  id : UUID
  userId : Int
  tokenHash : String
  expiresAt : Instant
  revokedAt : Option Instant
  createdAt : Instant
  updatedAt : Instant
  deriving DecidableEq

structure SpaceRow where
  id : UUID
  name : String
  deletedAt : Option Instant
  deleteScheduledAt : Option Instant
  deriving DecidableEq

structure MembershipRow where
  userId : Int
  spaceId : UUID
  role : String
  deriving DecidableEq

structure Tables where
  users : List UserRow
  usersIdSeq : Int
  sessions : List SessionRow
  spaces : List SpaceRow
  memberships : List MembershipRow

structure Tables.Constraints (t : Tables) : Prop where
  usersId : (t.users.map (·.id)).Nodup
  usersTelegramId : (t.users.map (·.telegramId)).Nodup
  sessionsId : (t.sessions.map (·.id)).Nodup
  sessionsTokenHash : (t.sessions.map (·.tokenHash)).Nodup
  sessionsUserId : ∀ r ∈ t.sessions, ∃ u ∈ t.users, u.id = r.userId
  spacesId : (t.spaces.map (·.id)).Nodup
  membershipsId : (t.memberships.map fun m => (m.userId, m.spaceId)).Nodup
  membershipsUserId : ∀ m ∈ t.memberships, ∃ u ∈ t.users, u.id = m.userId
  membershipsSpaceId : ∀ m ∈ t.memberships, ∃ s ∈ t.spaces, s.id = m.spaceId

instance (t : Tables) : Decidable t.Constraints :=
  decidable_of_iff
    ((t.users.map (·.id)).Nodup ∧ (t.users.map (·.telegramId)).Nodup ∧
      (t.sessions.map (·.id)).Nodup ∧ (t.sessions.map (·.tokenHash)).Nodup ∧
      (∀ r ∈ t.sessions, ∃ u ∈ t.users, u.id = r.userId) ∧ (t.spaces.map (·.id)).Nodup ∧
      (t.memberships.map fun m => (m.userId, m.spaceId)).Nodup ∧
      (∀ m ∈ t.memberships, ∃ u ∈ t.users, u.id = m.userId) ∧
      ∀ m ∈ t.memberships, ∃ s ∈ t.spaces, s.id = m.spaceId)
    ⟨fun ⟨a, b, c, d, e, f, g, h, i⟩ => ⟨a, b, c, d, e, f, g, h, i⟩,
      fun ⟨a, b, c, d, e, f, g, h, i⟩ => ⟨a, b, c, d, e, f, g, h, i⟩⟩

structure Database extends Tables where
  constraints : toTables.Constraints

def Tables.enforce (t : Tables) : Except LibError Database :=
  if h : t.Constraints then .ok ⟨t, h⟩
  else .error (.postgres .integrityConstraintViolation)

def Database.empty : Database where
  users := []
  usersIdSeq := 0
  sessions := []
  spaces := []
  memberships := []
  constraints := by decide

def Database.ofUser (u : UserRow) : Database where
  users := [u]
  usersIdSeq := u.id
  sessions := []
  spaces := []
  memberships := []
  constraints := by constructor <;> simp

namespace Database

def userById (db : Database) (id : Int) : Option UserRow := Keyed.lookup (·.id) id db.users

def userByTelegramId (db : Database) (telegramId : Int) : Option UserRow :=
  Keyed.lookup (·.telegramId) telegramId db.users

def sessionByHash (db : Database) (tokenHash : String) : Option SessionRow :=
  Keyed.lookup (·.tokenHash) tokenHash db.sessions

variable {db : Database} {u : UserRow} {r : SessionRow}

theorem userById_eq_some {id : Int} : db.userById id = some u ↔ u ∈ db.users ∧ u.id = id :=
  Keyed.lookup_eq_some_iff db.constraints.usersId

theorem userByTelegramId_eq_some {telegramId : Int} :
    db.userByTelegramId telegramId = some u ↔ u ∈ db.users ∧ u.telegramId = telegramId :=
  Keyed.lookup_eq_some_iff db.constraints.usersTelegramId

theorem sessionByHash_eq_some {h : String} :
    db.sessionByHash h = some r ↔ r ∈ db.sessions ∧ r.tokenHash = h :=
  Keyed.lookup_eq_some_iff db.constraints.sessionsTokenHash

theorem userById_of_session (h : r ∈ db.sessions) : ∃ u, db.userById r.userId = some u := by
  obtain ⟨u, hu, hid⟩ := db.constraints.sessionsUserId r h
  exact ⟨u, userById_eq_some.2 ⟨hu, hid⟩⟩

end Database

end WikiBackend
