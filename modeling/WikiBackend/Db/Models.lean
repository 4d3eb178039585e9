import WikiBackend.Db.Reversible

/-! The models of the ORM. A migrated database is the one they describe exactly at the head
revision. -/

namespace WikiBackend.Alembic

open Relational

/-! ## Models

What `create_all` executes for each model: columns in their order, then the indexes. Constraints
without a name have the one that the migrations give them. -/

namespace Models

def tmp : List Statement :=
  [.createTable .tmp [⟨.id, .integer, false, some .nextval⟩] [(.tmpPkey, .primaryKey [.id])]]

def user : List Statement :=
  [.createTable .users
    [⟨.id, .integer, false, some .nextval⟩,
      ⟨.telegramId, .bigint, false, none⟩,
      ⟨.username, .varchar 255, true, none⟩,
      ⟨.firstName, .varchar 255, true, none⟩,
      ⟨.lastName, .varchar 255, true, none⟩,
      ⟨.photoUrl, .varchar 1024, true, none⟩,
      ⟨.permission, .varchar 64, true, none⟩,
      ⟨.createdAt, .timestamptz, false, some .now⟩,
      ⟨.updatedAt, .timestamptz, false, some .now⟩,
      ⟨.lastLoginAt, .timestamptz, false, some .now⟩]
    [(.usersPkey, .primaryKey [.id]), (.uqUsersTelegramId, .unique [.telegramId])]]

def session : List Statement :=
  [.createTable .sessions
    [⟨.id, .uuid, false, none⟩,
      ⟨.userId, .integer, false, none⟩,
      ⟨.tokenHash, .varchar 64, false, none⟩,
      ⟨.expiresAt, .timestamptz, false, none⟩,
      ⟨.revokedAt, .timestamptz, true, none⟩,
      ⟨.createdAt, .timestamptz, false, some .now⟩,
      ⟨.updatedAt, .timestamptz, false, some .now⟩]
    [(.sessionsPkey, .primaryKey [.id]), (.sessionsUserIdFkey, .foreignKey .userId .users .id)],
    .createIndex .ixSessionsUserId .sessions [.userId] false,
    .createIndex .ixSessionsTokenHash .sessions [.tokenHash] true]

def space : List Statement :=
  [.createTable .spaces
    [⟨.id, .uuid, false, none⟩,
      ⟨.name, .varchar 255, false, none⟩,
      ⟨.deletedAt, .timestamptz, true, none⟩,
      ⟨.deleteScheduledAt, .timestamptz, true, none⟩]
    [(.spacesPkey, .primaryKey [.id])]]

def spaceMembership : List Statement :=
  [.createTable .spaceMemberships
    [⟨.userId, .integer, false, none⟩,
      ⟨.spaceId, .uuid, false, none⟩,
      ⟨.role, .varchar 64, false, none⟩]
    [(.spaceMembershipsPkey, .primaryKey [.userId, .spaceId]),
      (.spaceMembershipsUserIdFkey, .foreignKey .userId .users .id),
      (.spaceMembershipsSpaceIdFkey, .foreignKey .spaceId .spaces .id)]]

/-- `Base.metadata.create_all` -/
def createAll : List Statement := tmp ++ user ++ session ++ space ++ spaceMembership

end Models

/-! ## The models and the migrations -/

theorem check_createAll :
    check Models.createAll (∅ : SchemaCatalog) {.unique .sessions [.tokenHash]} =
      some Revision.createSpaces.catalog := by
  decide +kernel

theorem exists_createAll (now : Instant) : ∃ db : LiveStore, run now Models.createAll .empty = .ok db := by
  have hempty : ∀ q ∈ ({.unique .sessions [.tokenHash]} : Finset (Requirement TableName ColumnName)),
      q.Holds (Store.empty : LiveStore).rows := by
    intro q hq
    rw [Finset.mem_singleton.1 hq]
    exact List.nodup_nil
  have hcheck : check Models.createAll (Store.empty : LiveStore).catalog _ = some _ := check_createAll
  obtain ⟨db, hrun, -⟩ := run_of_check now hcheck hempty
  exact ⟨db, hrun⟩

theorem catalog_eq_head_iff {r : Revision} :
    r.catalog = Revision.createSpaces.catalog ↔ r = .createSpaces := by
  cases r <;> decide +kernel

variable {ls : List Move} {st : State} {now : Instant} {db : LiveStore}

/-- However a database was migrated up and down and written to, it has the tables, columns,
constraints and indexes of the models exactly if it is at the head revision. -/
theorem models_match_iff (h : Run ls st) (hdb : run now Models.createAll .empty = .ok db) :
    st.store.catalog = db.catalog ↔ st.revision = .createSpaces := by
  have hmodels : db.catalog = Revision.createSpaces.catalog := by
    have hrun : alterAll Models.createAll ∅ = .ok db.catalog := alterAll_of_run hdb
    rw [alterAll_of_check check_createAll] at hrun
    exact (Except.ok.inj hrun).symm
  rw [(settled_of_run h).catalog, hmodels, catalog_eq_head_iff]

namespace Recorded

theorem models_match_iff_lively : ∃ st db, Run lively st ∧ run 0 Models.createAll .empty = .ok db ∧
    (st.store.catalog = db.catalog ↔ st.revision = .createSpaces) := by
  obtain ⟨st, h⟩ := exists_run lively (by decide +kernel)
  obtain ⟨db, hdb⟩ := exists_createAll 0
  exact ⟨st, db, h, hdb, models_match_iff h hdb⟩

end Recorded

end WikiBackend.Alembic
