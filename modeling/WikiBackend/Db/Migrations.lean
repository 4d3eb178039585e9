import WikiBackend.Db.Statements
import WikiBackend.Relational.Check
import WikiBackend.Relational.Writes

/-! The revisions of the schema with their migration scripts, and the writes of the application at
any of them. -/

namespace WikiBackend.Alembic

open Relational

inductive TableName where
  | tmp
  | users
  | sessions
  | spaces
  | spaceMemberships
  deriving DecidableEq

inductive ColumnName where
  | id
  | telegramId
  | username
  | firstName
  | lastName
  | photoUrl
  | permission
  | createdAt
  | updatedAt
  | lastLoginAt
  | userId
  | tokenHash
  | expiresAt
  | revokedAt
  | name
  | deletedAt
  | deleteScheduledAt
  | spaceId
  | role
  deriving DecidableEq

/-- Constraints and indexes; those with the suffixes of the server are not named by the scripts. -/
inductive ObjectName where
  | tmpPkey
  | usersPkey
  | uqUsersTelegramId
  | sessionsPkey
  | sessionsUserIdFkey
  | sessionsTokenHashKey
  | ixSessionsUserId
  | ixSessionsExpiresAt
  | ixSessionsRevokedAt
  | ixSessionsTokenHash
  | spacesPkey
  | spaceMembershipsPkey
  | spaceMembershipsSpaceIdFkey
  | spaceMembershipsUserIdFkey
  deriving DecidableEq

abbrev Statement := Op TableName ColumnName ObjectName

abbrev SchemaCatalog := Catalog TableName ColumnName ObjectName

abbrev LiveStore := Store TableName ColumnName ObjectName

/-! ## Scripts -/

namespace CreateTmpTable

def upgrade : List Statement :=
  [.createTable .tmp [⟨.id, .integer, false, some .nextval⟩] [(.tmpPkey, .primaryKey [.id])]]

def downgrade : List Statement := [.dropTable .tmp]

end CreateTmpTable

namespace CreateUsersTable

def upgrade : List Statement :=
  [.createTable .users
    [⟨.id, .integer, false, some .nextval⟩,
      ⟨.telegramId, .bigint, false, none⟩,
      ⟨.username, .varchar 255, false, none⟩,
      ⟨.firstName, .varchar 255, true, none⟩,
      ⟨.lastName, .varchar 255, true, none⟩,
      ⟨.photoUrl, .varchar 1024, true, none⟩,
      ⟨.permission, .varchar 64, true, none⟩,
      ⟨.createdAt, .timestamptz, false, some .now⟩,
      ⟨.updatedAt, .timestamptz, false, some .now⟩]
    [(.usersPkey, .primaryKey [.id]), (.uqUsersTelegramId, .unique [.telegramId])]]

def downgrade : List Statement := [.dropTable .users]

end CreateUsersTable

namespace AddLastLoginAt

def upgrade : List Statement :=
  [.addColumn .users ⟨.lastLoginAt, .timestamptz, false, some .now⟩,
    .alterNullable .users .username true]

def downgrade : List Statement :=
  [.alterNullable .users .username false, .dropColumn .users .lastLoginAt]

end AddLastLoginAt

namespace CreateSessionsTable

def upgrade : List Statement :=
  [.createTable .sessions
    [⟨.id, .uuid, false, none⟩,
      ⟨.userId, .bigint, false, none⟩,
      ⟨.tokenHash, .varchar 64, false, none⟩,
      ⟨.expiresAt, .timestamptz, false, none⟩,
      ⟨.revokedAt, .timestamptz, true, none⟩,
      ⟨.createdAt, .timestamptz, false, some .now⟩,
      ⟨.updatedAt, .timestamptz, false, some .now⟩]
    [(.sessionsPkey, .primaryKey [.id]),
      (.sessionsTokenHashKey, .unique [.tokenHash]),
      (.sessionsUserIdFkey, .foreignKey .userId .users .id)],
    .createIndex .ixSessionsUserId .sessions [.userId] false,
    .createIndex .ixSessionsExpiresAt .sessions [.expiresAt] false,
    .createIndex .ixSessionsRevokedAt .sessions [.revokedAt] false]

def downgrade : List Statement :=
  [.dropIndex .ixSessionsRevokedAt .sessions,
    .dropIndex .ixSessionsExpiresAt .sessions,
    .dropIndex .ixSessionsUserId .sessions,
    .dropTable .sessions]

end CreateSessionsTable

namespace CreateSpaces

def upgrade : List Statement :=
  [.createTable .spaces
    [⟨.id, .uuid, false, none⟩,
      ⟨.name, .varchar 255, false, none⟩,
      ⟨.deletedAt, .timestamptz, true, none⟩,
      ⟨.deleteScheduledAt, .timestamptz, true, none⟩]
    [(.spacesPkey, .primaryKey [.id])],
    .createTable .spaceMemberships
      [⟨.userId, .integer, false, none⟩,
        ⟨.spaceId, .uuid, false, none⟩,
        ⟨.role, .varchar 64, false, none⟩]
      [(.spaceMembershipsSpaceIdFkey, .foreignKey .spaceId .spaces .id),
        (.spaceMembershipsUserIdFkey, .foreignKey .userId .users .id),
        (.spaceMembershipsPkey, .primaryKey [.userId, .spaceId])],
    .alterType .sessions .userId .integer,
    .dropIndex .ixSessionsExpiresAt .sessions,
    .dropIndex .ixSessionsRevokedAt .sessions,
    .dropConstraint .sessionsTokenHashKey .sessions,
    .createIndex .ixSessionsTokenHash .sessions [.tokenHash] true]

def downgrade : List Statement :=
  [.dropIndex .ixSessionsTokenHash .sessions,
    .createConstraint .sessionsTokenHashKey .sessions (.unique [.tokenHash]),
    .createIndex .ixSessionsRevokedAt .sessions [.revokedAt] false,
    .createIndex .ixSessionsExpiresAt .sessions [.expiresAt] false,
    .alterType .sessions .userId .bigint,
    .dropTable .spaceMemberships,
    .dropTable .spaces]

end CreateSpaces

/-! ## Revisions -/

inductive Revision where
  | createTmpTable
  | createUsersTable
  | addLastLoginAt
  | createSessionsTable
  | createSpaces
  deriving DecidableEq

namespace Revision

def downRevision : Revision → Option Revision
  | .createTmpTable => none
  | .createUsersTable => some .createTmpTable
  | .addLastLoginAt => some .createUsersTable
  | .createSessionsTable => some .addLastLoginAt
  | .createSpaces => some .createSessionsTable

def upgrade : Revision → List Statement
  | .createTmpTable => CreateTmpTable.upgrade
  | .createUsersTable => CreateUsersTable.upgrade
  | .addLastLoginAt => AddLastLoginAt.upgrade
  | .createSessionsTable => CreateSessionsTable.upgrade
  | .createSpaces => CreateSpaces.upgrade

def downgrade : Revision → List Statement
  | .createTmpTable => CreateTmpTable.downgrade
  | .createUsersTable => CreateUsersTable.downgrade
  | .addLastLoginAt => AddLastLoginAt.downgrade
  | .createSessionsTable => CreateSessionsTable.downgrade
  | .createSpaces => CreateSpaces.downgrade

end Revision

/-! ## Writes of the application -/

def textValue : Option String → Value
  | some s => .text s
  | none => .null

def paramValue (s : Option PyStr) : Value := textValue (s.bind (·.text?))

def coalesce (v v' : Value) : Value := if v = .null then v' else v

inductive Write where
  | upsertUser (p : UpsertParams)
  | createSession (id : UUID) (userId : Int) (tokenHash : String) (expiresAt : Instant)
  | updateExpiry (tokenHash : String) (expiresAt now : Instant)
  | revoke (tokenHash : String) (revokedAt : Instant)
  | createSpace (spaceId : UUID) (name : String) (ownerId : Int)

namespace Write

def upsertValues (p : UpsertParams) : List (ColumnName × Value) :=
  [(.telegramId, .int p.telegramId),
    (.username, paramValue p.username),
    (.firstName, paramValue p.firstName),
    (.lastName, paramValue p.lastName),
    (.photoUrl, paramValue p.photoUrl),
    (.permission, paramValue p.permission),
    (.createdAt, .time p.now),
    (.updatedAt, .time p.now),
    (.lastLoginAt, .time p.now)]

def upsertSet (excluded r : Row ColumnName) : List (ColumnName × Value) :=
  [(.username, coalesce (excluded .username) (r .username)),
    (.firstName, coalesce (excluded .firstName) (r .firstName)),
    (.lastName, coalesce (excluded .lastName) (r .lastName)),
    (.photoUrl, coalesce (excluded .photoUrl) (r .photoUrl)),
    (.permission, coalesce (excluded .permission) (r .permission)),
    (.updatedAt, excluded .updatedAt),
    (.lastLoginAt, excluded .lastLoginAt)]

def execute (m : Moment) (db : LiveStore) : Write → Except Fault LiveStore
  | .upsertUser p =>
    if p.texts.all encodable then db.upsert m .users .telegramId (upsertValues p) upsertSet
    else .error .rows
  | .createSession id userId tokenHash expiresAt =>
    db.insert m .sessions
      [(.id, .uuid id), (.userId, .int userId), (.tokenHash, .text tokenHash),
        (.expiresAt, .time expiresAt)]
  | .updateExpiry tokenHash expiresAt now =>
    db.updateWhere .sessions .tokenHash (.text tokenHash)
      [(.expiresAt, .time expiresAt), (.updatedAt, .time now)]
  | .revoke tokenHash revokedAt =>
    db.updateWhere .sessions .tokenHash (.text tokenHash)
      [(.revokedAt, .time revokedAt), (.updatedAt, .time revokedAt)]
  | .createSpace spaceId name ownerId =>
    match db.insert m .spaces [(.id, .uuid spaceId), (.name, .text name)] with
    | .ok db =>
      db.insert m .spaceMemberships
        [(.userId, .int ownerId), (.spaceId, .uuid spaceId), (.role, .text "owner")]
    | .error e => .error e

end Write

end WikiBackend.Alembic
