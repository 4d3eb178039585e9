import WikiBackend.Db.Migrations

/-! The chain of revisions, and what the check says about the scripts between them. -/

namespace WikiBackend.Alembic

open Relational

/-! ## The chain of revisions -/

namespace Revision

def all : List Revision :=
  [.createTmpTable, .createUsersTable, .addLastLoginAt, .createSessionsTable, .createSpaces]

def next (r : Revision) : Option Revision := all.find? fun r' => r'.downRevision = some r

def path : Revision → List Revision
  | .createTmpTable => [.createTmpTable]
  | .createUsersTable => [.createTmpTable, .createUsersTable]
  | .addLastLoginAt => [.createTmpTable, .createUsersTable, .addLastLoginAt]
  | .createSessionsTable =>
    [.createTmpTable, .createUsersTable, .addLastLoginAt, .createSessionsTable]
  | .createSpaces => all

def above (r : Revision) : List Revision := all.drop r.path.length

def below (r : Revision) : List Revision := (r.path.drop 2).reverse

def catalog (r : Revision) : SchemaCatalog :=
  match alterAll (r.path.flatMap upgrade) ∅ with
  | .ok s => s
  | .error _ => ∅

end Revision

/-! ## The scripts on the catalog -/

variable {r r' : Revision} {rs : List Revision}

theorem Revision.of_above (h : r.above = r' :: rs) : r.next = some r' ∧ rs = r'.above := by
  cases r <;> cases h <;> exact ⟨rfl, rfl⟩

theorem Revision.of_below (h : r.below = r' :: rs) :
    r' = r ∧ ∃ r₁, r.downRevision = some r₁ ∧ r₁ ≠ .createTmpTable ∧ rs = r₁.below := by
  cases r <;> cases h <;> exact ⟨rfl, _, rfl, by decide, rfl⟩

theorem Revision.of_below_nil (h : r.below = []) (hr : r ≠ .createTmpTable) :
    r = .createUsersTable := by
  cases r with
  | createTmpTable => exact absurd rfl hr
  | createUsersTable => rfl
  | _ => cases h

theorem Revision.downRevision_of_next (h : r.next = some r') : r'.downRevision = some r := by
  cases r <;> cases h <;> rfl

def named : Requirement TableName ColumnName := .notNull .users .username

/-- What the downgrade of the revision relies on. -/
def Revision.needs (r : Revision) : Finset (Requirement TableName ColumnName) :=
  if r = .addLastLoginAt then insert named r.catalog.requirements else r.catalog.requirements

theorem upgrade_spec (h : r.next = some r') :
    check r'.upgrade r.catalog r.catalog.requirements = some r'.catalog ∧
      ∀ op ∈ r'.upgrade, op.Spares r.catalog r'.catalog := by
  cases r <;> cases h <;> decide +kernel

theorem downgrade_spec (h : r.downRevision = some r') :
    (r' ≠ .createTmpTable → check r.downgrade r.catalog r.needs = some r'.catalog) ∧
      ∀ op ∈ r.downgrade, op.Spares r.catalog r'.catalog := by
  cases r <;> cases h <;> decide +kernel

theorem check_upgrade (h : r.next = some r') :
    check r'.upgrade r.catalog r.catalog.requirements = some r'.catalog := (upgrade_spec h).1

theorem check_downgrade (h : r.downRevision = some r') (hr : r' ≠ .createTmpTable) :
    check r.downgrade r.catalog r.needs = some r'.catalog := (downgrade_spec h).1 hr

theorem spares_upgrade (h : r.next = some r') :
    ∀ op ∈ r'.upgrade, op.Spares r.catalog r'.catalog := (upgrade_spec h).2

theorem spares_downgrade (h : r.downRevision = some r') :
    ∀ op ∈ r.downgrade, op.Spares r.catalog r'.catalog := (downgrade_spec h).2

/-- The statement leaves the users there, with their ids and names, and the hashes of tokens. -/
def Gentle (op : Statement) : Prop :=
  !op.clears .users ∧ !op.sets .users .telegramId ∧ !op.sets .users .username ∧
    !op.sets .sessions .tokenHash

instance (op : Statement) : Decidable (Gentle op) := by
  unfold Gentle
  infer_instance

theorem gentle_upgrade (h : r.next = some r') (hr : r ≠ .createTmpTable) :
    ∀ op ∈ r'.upgrade, Gentle op := by
  cases r with
  | createTmpTable => exact absurd rfl hr
  | _ => cases h <;> decide

theorem gentle_downgrade (h : r.downRevision = some r') (hr : r' ≠ .createTmpTable) :
    ∀ op ∈ r.downgrade, Gentle op := by
  cases r with
  | createUsersTable =>
    cases h
    exact absurd rfl hr
  | _ => cases h <;> decide

theorem mem_requirements_telegramId (hr : r ≠ .createTmpTable) :
    .unique .users [.telegramId] ∈ r.catalog.requirements := by
  cases r with
  | createTmpTable => exact absurd rfl hr
  | _ => decide +kernel

theorem tokenHash_unique (r : Revision) :
    r.catalog.HasColumn .sessions .tokenHash (fun _ => true) →
      .unique .sessions [.tokenHash] ∈ r.catalog.requirements := by
  cases r <;> decide +kernel

end WikiBackend.Alembic
