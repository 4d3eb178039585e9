import WikiBackend.Db.Laws
import WikiBackend.Db.Revisions

/-! The tables of the model are those of the head revision. Their constraints are the keys and
references that the migrations leave, and the writes on them are those on the migrated store. -/

namespace WikiBackend

open Relational Alembic

/-! ## Rows -/

def UserRow.toRow (u : UserRow) : Row ColumnName
  | .id => .int u.id
  | .telegramId => .int u.telegramId
  | .username => textValue u.username
  | .firstName => textValue u.firstName
  | .lastName => textValue u.lastName
  | .photoUrl => textValue u.photoUrl
  | .permission => textValue u.permission
  | .createdAt => .time u.createdAt
  | .updatedAt => .time u.updatedAt
  | .lastLoginAt => .time u.lastLoginAt
  | _ => .null

def timeValue : Option Instant → Value
  | some t => .time t
  | none => .null

def SessionRow.toRow (r : SessionRow) : Row ColumnName
  | .id => .uuid r.id
  | .userId => .int r.userId
  | .tokenHash => .text r.tokenHash
  | .expiresAt => .time r.expiresAt
  | .revokedAt => timeValue r.revokedAt
  | .createdAt => .time r.createdAt
  | .updatedAt => .time r.updatedAt
  | _ => .null

def SpaceRow.toRow (s : SpaceRow) : Row ColumnName
  | .id => .uuid s.id
  | .name => .text s.name
  | .deletedAt => timeValue s.deletedAt
  | .deleteScheduledAt => timeValue s.deleteScheduledAt
  | _ => .null

def MembershipRow.toRow (m : MembershipRow) : Row ColumnName
  | .userId => .int m.userId
  | .spaceId => .uuid m.spaceId
  | .role => .text m.role
  | _ => .null

def Tables.toRows (t : Tables) : Rows TableName ColumnName
  | .tmp => []
  | .users => t.users.map (·.toRow)
  | .sessions => t.sessions.map (·.toRow)
  | .spaces => t.spaces.map (·.toRow)
  | .spaceMemberships => t.memberships.map (·.toRow)

abbrev head : SchemaCatalog := Revision.createSpaces.catalog

structure Mirrors (db : Database) (live : LiveStore) : Prop where
  catalog : live.catalog = head
  rows : live.rows = db.toRows

/-! ## The head catalog -/

theorem head_keys : head.requirements.filter (fun q => q.isKey) =
    {.unique .tmp [.id], .unique .users [.id], .unique .users [.telegramId],
      .unique .sessions [.id], .unique .sessions [.tokenHash],
      .references .sessions .userId .users .id, .unique .spaces [.id],
      .unique .spaceMemberships [.userId, .spaceId],
      .references .spaceMemberships .userId .users .id,
      .references .spaceMemberships .spaceId .spaces .id} := by
  decide +kernel

theorem head_rowRequirements :
    head.rowRequirements .users =
      {.typed .users .id .integer, .notNull .users .id, .typed .users .telegramId .bigint,
        .notNull .users .telegramId, .typed .users .username (.varchar 255),
        .typed .users .firstName (.varchar 255), .typed .users .lastName (.varchar 255),
        .typed .users .photoUrl (.varchar 1024), .typed .users .permission (.varchar 64),
        .typed .users .createdAt .timestamptz, .notNull .users .createdAt,
        .typed .users .updatedAt .timestamptz, .notNull .users .updatedAt,
        .typed .users .lastLoginAt .timestamptz, .notNull .users .lastLoginAt} ∧
    head.rowRequirements .sessions =
      {.typed .sessions .id .uuid, .notNull .sessions .id, .typed .sessions .userId .integer,
        .notNull .sessions .userId, .typed .sessions .tokenHash (.varchar 64),
        .notNull .sessions .tokenHash, .typed .sessions .expiresAt .timestamptz,
        .notNull .sessions .expiresAt, .typed .sessions .revokedAt .timestamptz,
        .typed .sessions .createdAt .timestamptz, .notNull .sessions .createdAt,
        .typed .sessions .updatedAt .timestamptz, .notNull .sessions .updatedAt} ∧
    head.rowRequirements .spaces =
      {.typed .spaces .id .uuid, .notNull .spaces .id, .typed .spaces .name (.varchar 255),
        .notNull .spaces .name, .typed .spaces .deletedAt .timestamptz,
        .typed .spaces .deleteScheduledAt .timestamptz} ∧
    head.rowRequirements .spaceMemberships =
      {.typed .spaceMemberships .userId .integer, .notNull .spaceMemberships .userId,
        .typed .spaceMemberships .spaceId .uuid, .notNull .spaceMemberships .spaceId,
        .typed .spaceMemberships .role (.varchar 64), .notNull .spaceMemberships .role} := by
  decide +kernel

def written : List TableName := [.users, .sessions, .spaces, .spaceMemberships]

def columns : TableName → List ColumnName
  | .tmp => [.id]
  | .users =>
    [.id, .telegramId, .username, .firstName, .lastName, .photoUrl, .permission, .createdAt,
      .updatedAt, .lastLoginAt]
  | .sessions => [.id, .userId, .tokenHash, .expiresAt, .revokedAt, .createdAt, .updatedAt]
  | .spaces => [.id, .name, .deletedAt, .deleteScheduledAt]
  | .spaceMemberships => [.userId, .spaceId, .role]

theorem head_columns : ∀ t ∈ written, ∀ c ∈ columns t, head.HasColumn t c fun _ => true := by
  decide +kernel

def stamped : TableName → List ColumnName
  | .users => [.createdAt, .updatedAt, .lastLoginAt]
  | .sessions => [.createdAt, .updatedAt]
  | _ => []

def names : List ColumnName :=
  [.id, .telegramId, .username, .firstName, .lastName, .photoUrl, .permission, .createdAt,
    .updatedAt, .lastLoginAt, .userId, .tokenHash, .expiresAt, .revokedAt, .name, .deletedAt,
    .deleteScheduledAt, .spaceId, .role]

theorem mem_names (c : ColumnName) : c ∈ names := by
  cases c <;> decide

theorem head_defaults : ∀ t ∈ written, ∀ c ∈ names,
    (head.HasColumn t c (·.default = some .now) ↔ c ∈ stamped t) ∧
      (head.HasColumn t c (·.default = some .nextval) ↔ t = .users ∧ c = .id) := by
  decide +kernel

theorem defaults_eq (m : Moment) {t : TableName} (ht : t ∈ written) (c : ColumnName) :
    head.defaults m t c =
      if c ∈ stamped t then .time m.now
      else if t = .users ∧ c = .id then .int m.nextval else .null := by
  obtain ⟨hnow, hnext⟩ := head_defaults t ht c (mem_names c)
  simp only [Catalog.defaults, hnow, hnext, Moment.value]

def width : TableName → ColumnName → Option Nat
  | .users, .username | .users, .firstName | .users, .lastName | .spaces, .name => some 255
  | .users, .photoUrl => some 1024
  | .users, .permission | .sessions, .tokenHash | .spaceMemberships, .role => some 64
  | _, _ => none

theorem head_lengths : ∀ t ∈ written, ∀ c ∈ names,
    head.lengths t c = (width t c).elim ∅ fun n => {n} := by
  decide +kernel

theorem cast_text {t : TableName} {c : ColumnName} {n : Nat} (ht : t ∈ written)
    (hw : width t c = some n) (s : String) : head.cast t c (.text s) = .text (clip n s) := by
  rw [Catalog.cast, head_lengths t ht c (mem_names c), hw, Option.elim_some,
    if_neg (Finset.singleton_ne_empty n), Finset.sup_singleton, id]

theorem cast_textValue {t : TableName} {c : ColumnName} {n : Nat} (ht : t ∈ written)
    (hw : width t c = some n) (s : Option String) :
    head.cast t c (textValue s) = textValue (s.map (clip n)) := by
  cases s with
  | none => rfl
  | some s => exact cast_text ht hw s

/-! ## The constraints are those of the catalog -/

theorem int_injective : Function.Injective Value.int := fun _ _ => Value.int.inj

theorem uuid_injective : Function.Injective Value.uuid := fun _ _ => Value.uuid.inj

theorem text_injective : Function.Injective Value.text := fun _ _ => Value.text.inj

namespace Tables

variable {t : Tables}

theorem holds_int {α : Type} {row : α → Row ColumnName} {as : List α} {c : ColumnName}
    {key : α → Int} (h : ∀ a, row a c = .int (key a)) :
    (Requirement.keys [c] (as.map row)).Nodup ↔ (as.map key).Nodup :=
  Requirement.nodup_keys_single int_injective (fun _ h => by cases h) h

theorem holds_uuid {α : Type} {row : α → Row ColumnName} {as : List α} {c : ColumnName}
    {key : α → UUID} (h : ∀ a, row a c = .uuid (key a)) :
    (Requirement.keys [c] (as.map row)).Nodup ↔ (as.map key).Nodup :=
  Requirement.nodup_keys_single uuid_injective (fun _ h => by cases h) h

theorem holds_membership {ms : List MembershipRow} :
    (Requirement.keys [.userId, .spaceId] (ms.map (·.toRow))).Nodup ↔
      (ms.map fun m => (m.userId, m.spaceId)).Nodup := by
  have hinj : Function.Injective fun k : Int × UUID => [Value.int k.1, .uuid k.2] := by
    rintro ⟨n, u⟩ ⟨n', u'⟩ h
    cases h
    rfl
  exact Requirement.nodup_keys_map hinj (fun k hk => by simp at hk) fun _ => rfl

theorem constraints_iff :
    t.Constraints ↔ ∀ q ∈ head.requirements, q.isKey → q.Holds t.toRows := by
  have hkeys : (∀ q ∈ head.requirements, q.isKey → q.Holds t.toRows) ↔
      ∀ q ∈ head.requirements.filter (fun q => q.isKey), q.Holds t.toRows := by
    simp only [Finset.mem_filter, and_imp]
  have hsession : (∀ r ∈ t.sessions.map (·.toRow), r .userId = .null ∨
      ∃ r' ∈ t.users.map (·.toRow), r' .id = r .userId) ↔
      ∀ r ∈ t.sessions, ∃ u ∈ t.users, u.id = r.userId :=
    Requirement.references_map int_injective (fun _ h => by cases h) (fun _ => rfl) fun _ => rfl
  have hmember : (∀ r ∈ t.memberships.map (·.toRow), r .userId = .null ∨
      ∃ r' ∈ t.users.map (·.toRow), r' .id = r .userId) ↔
      ∀ m ∈ t.memberships, ∃ u ∈ t.users, u.id = m.userId :=
    Requirement.references_map int_injective (fun _ h => by cases h) (fun _ => rfl) fun _ => rfl
  have hspace : (∀ r ∈ t.memberships.map (·.toRow), r .spaceId = .null ∨
      ∃ r' ∈ t.spaces.map (·.toRow), r' .id = r .spaceId) ↔
      ∀ m ∈ t.memberships, ∃ s ∈ t.spaces, s.id = m.spaceId :=
    Requirement.references_map uuid_injective (fun _ h => by cases h) (fun _ => rfl) fun _ => rfl
  have htoken : (Requirement.keys [.tokenHash] (t.sessions.map (·.toRow))).Nodup ↔
      (t.sessions.map (·.tokenHash)).Nodup :=
    Requirement.nodup_keys_single text_injective (fun _ h => by cases h) fun _ => rfl
  have huser : (Requirement.keys [.id] (t.users.map (·.toRow))).Nodup ↔
      (t.users.map (·.id)).Nodup := holds_int fun _ => rfl
  have htelegram : (Requirement.keys [.telegramId] (t.users.map (·.toRow))).Nodup ↔
      (t.users.map (·.telegramId)).Nodup := holds_int fun _ => rfl
  have hsessionId : (Requirement.keys [.id] (t.sessions.map (·.toRow))).Nodup ↔
      (t.sessions.map (·.id)).Nodup := holds_uuid fun _ => rfl
  have hspaceId : (Requirement.keys [.id] (t.spaces.map (·.toRow))).Nodup ↔
      (t.spaces.map (·.id)).Nodup := holds_uuid fun _ => rfl
  rw [hkeys, head_keys]
  simp only [Finset.forall_mem_insert, Finset.mem_singleton, forall_eq, Requirement.Holds, toRows]
  rw [huser, htelegram, hsessionId, htoken, hsession, hspaceId, holds_membership, hmember, hspace]
  constructor
  · exact fun h => ⟨List.nodup_nil, h.usersId, h.usersTelegramId, h.sessionsId, h.sessionsTokenHash,
      h.sessionsUserId, h.spacesId, h.membershipsId, h.membershipsUserId, h.membershipsSpaceId⟩
  · rintro ⟨-, h₁, h₂, h₃, h₄, h₅, h₆, h₇, h₈, h₉⟩
    exact ⟨h₁, h₂, h₃, h₄, h₅, h₆, h₇, h₈, h₉⟩

end Tables

/-! ## Rows that the columns admit -/

def held (n : Nat) (s : Option String) : Bool := s.all fun s => s.length ≤ n && !hasNul s

theorem admits_textValue {n : Nat} {s : Option String} :
    (ColType.varchar n).admits (textValue s) = held n s := by
  cases s <;> rfl

def storable (n : Nat) (s : Option PyStr) : Bool := fits n s && bindable s

theorem hasNul_clip {n : Nat} {s : String} : hasNul (clip n s) = hasNul s := by
  have hmem : '\x00' ∈ (clip n s).toList ↔ '\x00' ∈ s.toList := mem_clip (by decide)
  rw [Bool.eq_iff_iff, hasNul, hasNul, List.contains_iff_mem, List.contains_iff_mem, hmem]

theorem held_stored {n : Nat} {s : Option PyStr} (h : encodable s) :
    held n (stored n s) = storable n s := by
  cases s with
  | none => rfl
  | some s =>
    cases s with
    | text s =>
      have hnul := hasNul_clip (n := n) (s := s)
      simp only [held, stored, storable, fits, bindable, PyStr.text?, Option.bind_some,
        Option.map_some, Option.all_some, Option.any_some, hnul]
    | surrogates _ _ _ => cases h

theorem admits_time (t : Instant) : ColType.timestamptz.admits (.time t) = true := rfl

theorem admits_timeValue (t : Option Instant) :
    ColType.timestamptz.admits (timeValue t) = true := by
  cases t <;> rfl

theorem admits_uuid (u : UUID) : ColType.uuid.admits (.uuid u) = true := rfl

theorem admitsRow_user {u : UserRow} : head.AdmitsRow .users u.toRow ↔
    ColType.integer.admits (.int u.id) ∧ ColType.bigint.admits (.int u.telegramId) ∧
      held 255 u.username ∧ held 255 u.firstName ∧ held 255 u.lastName ∧
      held 1024 u.photoUrl ∧ held 64 u.permission := by
  rw [Catalog.admitsRow_iff, head_rowRequirements.1]
  simp only [Finset.forall_mem_insert, Finset.mem_singleton, forall_eq, Requirement.HoldsOfRow,
    UserRow.toRow, forall_const, admits_textValue, admits_time, ne_eq, reduceCtorEq,
    not_false_eq_true, true_and, and_true]

theorem admitsRow_session {r : SessionRow} : head.AdmitsRow .sessions r.toRow ↔
    ColType.integer.admits (.int r.userId) ∧ held 64 r.tokenHash := by
  have htext : (ColType.varchar 64).admits (.text r.tokenHash) = held 64 r.tokenHash :=
    admits_textValue (s := some r.tokenHash)
  rw [Catalog.admitsRow_iff, head_rowRequirements.2.1]
  simp only [Finset.forall_mem_insert, Finset.mem_singleton, forall_eq, Requirement.HoldsOfRow,
    SessionRow.toRow, forall_const, htext, admits_time, admits_timeValue, admits_uuid, ne_eq,
    reduceCtorEq, not_false_eq_true, true_and, and_true]

/-! ## Writes -/

/-- Both statements succeed and the rows are the same again, or both fail. -/
def Coincide {α : Type} (x : Except LibError α × Database) (y : Except Fault LiveStore) : Prop :=
  match x.1, y with
  | .ok _, .ok live => Mirrors x.2 live
  | .error _, .error _ => True
  | _, _ => False

section
variable {db : Database} {live : LiveStore} {t : Tables} {table : TableName}
  {rs : List (Row ColumnName)}

theorem Mirrors.admitsRow (hm : Mirrors db live) : ∀ table, ∀ r ∈ live.rows table,
    head.AdmitsRow table r := by
  have hv := live.valid
  rw [hm.catalog, Catalog.valid_iff] at hv
  exact hv.2

theorem Mirrors.unique_telegramId (hm : Mirrors db live) :
    .unique .users [.telegramId] ∈ live.catalog.requirements := by
  have h : ∀ r : Revision, r ≠ .createTmpTable → live.catalog = r.catalog →
      .unique .users [.telegramId] ∈ live.catalog.requirements := by
    intro r hr hc
    rw [hc]
    exact mem_requirements_telegramId hr
  exact h .createSpaces (by decide) hm.catalog

theorem coincide_store {α : Type} {x : α} (hm : Mirrors db live) (db₀ : Database)
    (hrows : Function.update live.rows table rs = t.toRows)
    (hfit : t.Constraints → ∀ r ∈ rs, head.AdmitsRow table r) :
    Coincide (db₀.store t x) (live.setRows table rs) := by
  have hvalid : live.catalog.Valid (Function.update live.rows table rs) ↔ t.Constraints := by
    rw [hm.catalog, Catalog.valid_iff, hrows, ← Tables.constraints_iff, and_iff_left_iff_imp]
    intro hc table' r hr
    rw [← hrows] at hr
    by_cases ht : table' = table
    · subst ht
      rw [Function.update_self] at hr
      exact hfit hc r hr
    · rw [Function.update_of_ne ht] at hr
      exact hm.admitsRow table' r hr
  unfold Store.setRows
  by_cases hc : t.Constraints
  · rw [Database.store_ok hc, dif_pos (hvalid.2 hc)]
    exact ⟨hm.catalog, hrows⟩
  · rw [Database.store_error hc, dif_neg (hc ∘ hvalid.1)]
    trivial

theorem coincide_error {α : Type} {e : LibError} {y : Except Fault LiveStore} (db₀ : Database)
    (hy : ∃ e, y = .error e) : Coincide ((.error e, db₀) : Except LibError α × Database) y := by
  obtain ⟨e', rfl⟩ := hy
  trivial

theorem not_constraints_of_coincide {α : Type} {x : α} {e : Fault}
    (h : Coincide (db.store t x) (.error e)) : ¬t.Constraints := by
  intro hc
  rw [Database.store_ok hc] at h
  exact h

theorem mirrors_of_coincide {α : Type} {x : α} (h : Coincide (db.store t x) (.ok live)) :
    ∃ db' : Database, db'.toTables = t ∧ Mirrors db' live := by
  by_cases hc : t.Constraints
  · rw [Database.store_ok hc] at h
    exact ⟨⟨t, hc⟩, rfl, h⟩
  · rw [Database.store_error hc] at h
    exact h.elim

theorem hasColumns_head (hm : Mirrors db live) {named : List (ColumnName × Value)}
    (cs : List ColumnName) (hcs : named.map (·.1) = cs)
    (ht : table ∈ written) (h : ∀ c ∈ cs, c ∈ columns table) :
    live.catalog.HasColumns table named := by
  rw [hm.catalog]
  intro x hx
  exact head_columns table ht x.1 (h x.1 (hcs ▸ List.mem_map_of_mem hx))

theorem map_session {sets : List (ColumnName × Value)} {f : SessionRow → SessionRow} {h : String}
    (hm : Mirrors db live)
    (hf : ∀ r, assign (live.catalog.castAll .sessions sets) r.toRow = (f r).toRow) :
    (live.rows .sessions).map (fun r =>
        if (r .tokenHash).sqlEq (.text h) then assign (live.catalog.castAll .sessions sets) r
        else r) =
      (Keyed.modify (·.tokenHash) h f db.sessions).map (·.toRow) := by
  rw [hm.rows, Tables.toRows, Keyed.modify, List.map_map, List.map_map]
  apply List.map_congr_left
  intro r _
  have heq : (r.toRow .tokenHash).sqlEq (.text h) = decide (r.tokenHash = h) := by
    simp [Value.sqlEq, SessionRow.toRow]
  simp only [Function.comp_apply, heq, decide_eq_true_eq]
  split
  · exact hf r
  · rfl

theorem update_sessions {ss : List SessionRow} (hm : Mirrors db live) :
    Function.update live.rows .sessions (ss.map (·.toRow)) =
      { db.toTables with sessions := ss }.toRows := by
  rw [hm.rows]
  funext table
  cases table <;> rfl

theorem coincide_setSession {sets : List (ColumnName × Value)} {f : SessionRow → SessionRow}
    {h : String} {α : Type} {x : α} (hm : Mirrors db live)
    (hcols : live.catalog.HasColumns .sessions ((.tokenHash, .text h) :: sets))
    (hf : ∀ r, assign (live.catalog.castAll .sessions sets) r.toRow = (f r).toRow)
    (hkey : ∀ r, (f r).userId = r.userId ∧ (f r).tokenHash = r.tokenHash) :
    Coincide (db.store { db.toTables with
        sessions := Keyed.modify (·.tokenHash) h f db.sessions } x)
      (live.updateWhere .sessions .tokenHash (.text h) sets) := by
  rw [Store.updateWhere, if_pos hcols, map_session hm hf]
  refine coincide_store hm db (update_sessions hm) fun _ => List.forall_mem_map.2 fun r hr => ?_
  obtain ⟨r', hr', rfl⟩ := Keyed.mem_modify.1 hr
  have hold : head.AdmitsRow .sessions r'.toRow := by
    apply hm.admitsRow .sessions
    rw [hm.rows]
    exact List.mem_map_of_mem hr'
  split
  · rw [admitsRow_session] at hold ⊢
    rwa [(hkey r').1, (hkey r').2]
  · exact hold

theorem coincide_updateExpiry (hm : Mirrors db live) (m : Moment) (h : String)
    (expiresAt now : Instant) :
    Coincide (db.updateExpiry h expiresAt now)
      ((Write.updateExpiry h expiresAt now).execute m live) := by
  refine coincide_setSession hm (hasColumns_head hm [.tokenHash, .expiresAt, .updatedAt] rfl
    (by decide) (by decide)) (fun r => ?_) fun r => ⟨rfl, rfl⟩
  funext c
  cases c <;> rfl

theorem coincide_revoke (hm : Mirrors db live) (m : Moment) (h : String) (revokedAt : Instant) :
    Coincide (db.revoke h revokedAt) ((Write.revoke h revokedAt).execute m live) := by
  refine coincide_setSession hm (hasColumns_head hm [.tokenHash, .revokedAt, .updatedAt] rfl
    (by decide) (by decide)) (fun r => ?_) fun r => ⟨rfl, rfl⟩
  funext c
  cases c <;> rfl

/-! Inserts: the named columns, and the defaults of the others. -/

theorem append_error (hm : Mirrors db live) {r : Row ColumnName} (ha : ¬head.AdmitsRow table r) :
    ∃ e, live.setRows table (live.rows table ++ [r]) = .error e := by
  refine ⟨.rows, dif_neg fun hv => ha ?_⟩
  rw [hm.catalog, Catalog.valid_iff] at hv
  apply hv.2
  rw [Function.update_self]
  exact List.mem_append_right _ (List.mem_singleton_self _)

theorem newRow_session (m : Moment) (id : UUID) (userId : Int) (tokenHash : String)
    (expiresAt : Instant) :
    head.newRow m .sessions [(.id, .uuid id), (.userId, .int userId), (.tokenHash, .text tokenHash),
        (.expiresAt, .time expiresAt)] =
      (SessionRow.mk id userId (clip 64 tokenHash) expiresAt none m.now m.now).toRow := by
  have hhash : head.cast .sessions .tokenHash (.text tokenHash) = .text (clip 64 tokenHash) :=
    cast_text (by decide) rfl tokenHash
  funext c
  simp only [Catalog.newRow, assign, defaults_eq m (t := .sessions) (by decide), Catalog.castAll,
    List.map_cons, List.map_nil, hhash]
  cases c <;> rfl

theorem newRow_user (m : Moment) (p : UpsertParams) :
    head.newRow m .users (Write.upsertValues p) = (p.insertRow m.nextval).toRow := by
  have htext {c : ColumnName} {n : Nat} (hw : width .users c = some n) (s : Option PyStr) :
      head.cast .users c (paramValue s) = textValue (stored n s) :=
    cast_textValue (by decide) hw _
  funext c
  simp only [Catalog.newRow, assign, defaults_eq m (t := .users) (by decide), Catalog.castAll,
    Write.upsertValues, List.map_cons, List.map_nil, htext (c := .username) rfl,
    htext (c := .firstName) rfl, htext (c := .lastName) rfl, htext (c := .photoUrl) rfl,
    htext (c := .permission) rfl]
  cases c <;> rfl

theorem integer_of_user (hm : Mirrors db live) {n : Int} (h : ∃ u ∈ db.users, u.id = n) :
    ColType.integer.admits (.int n) := by
  obtain ⟨u, hu, rfl⟩ := h
  refine (admitsRow_user.1 (hm.admitsRow .users u.toRow ?_)).1
  rw [hm.rows]
  exact List.mem_map_of_mem hu

theorem coincide_insertSession (hm : Mirrors db live) (m : Moment) (id : UUID) (userId : Int)
    (tokenHash : String) (expiresAt : Instant) :
    Coincide (db.insertSession m.now id userId tokenHash expiresAt)
      ((Write.createSession id userId tokenHash expiresAt).execute m live) := by
  have hcols : live.catalog.HasColumns .sessions [(.id, .uuid id), (.userId, .int userId),
      (.tokenHash, .text tokenHash), (.expiresAt, .time expiresAt)] :=
    hasColumns_head hm [.id, .userId, .tokenHash, .expiresAt] rfl (by decide) (by decide)
  have hrow := newRow_session m id userId tokenHash expiresAt
  rw [Write.execute, Store.insert, if_pos hcols, hm.catalog, hrow, Database.insertSession]
  have hheld : held 64 (some (clip 64 tokenHash)) = storable 64 tokenHash :=
    held_stored (s := some tokenHash) rfl
  by_cases hs : storable 64 tokenHash
  · rw [if_neg (by simpa [storable, and_comm] using hs)]
    refine coincide_store hm db ?_ fun hc => ?_
    · have hrows : live.rows .sessions = db.sessions.map (·.toRow) := by rw [hm.rows, Tables.toRows]
      rw [hrows, ← List.map_singleton, ← List.map_append]
      exact update_sessions hm
    · refine List.forall_mem_append.2 ⟨hm.admitsRow .sessions, List.forall_mem_singleton.2 ?_⟩
      refine admitsRow_session.2 ⟨integer_of_user hm ?_, hheld ▸ hs⟩
      exact hc.sessionsUserId _ (List.mem_append_right _ (List.mem_singleton_self _))
  · rw [if_pos (by simpa [storable, and_comm, imp_iff_not_or] using hs)]
    refine coincide_error db (append_error hm fun ha => hs ?_)
    rw [← hheld]
    exact (admitsRow_session.1 ha).2

/-! ## The upsert -/

theorem admitsRow_insertRow {p : UpsertParams} {id : Int} (he : p.texts.all encodable) :
    head.AdmitsRow .users (p.insertRow id).toRow ↔
      ColType.integer.admits (.int id) ∧ p.bindable ∧ p.fits := by
  simp only [UpsertParams.texts, List.all_cons, List.all_nil, Bool.and_eq_true, Bool.and_true] at he
  obtain ⟨h₁, h₂, h₃, h₄, h₅⟩ := he
  rw [admitsRow_user]
  simp only [UpsertParams.insertRow, UpsertParams.bindable, UpsertParams.fits, UpsertParams.texts,
    held_stored h₁, held_stored h₂, held_stored h₃, held_stored h₄, held_stored h₅, storable,
    ColType.admits, List.all_cons, List.all_nil, Bool.and_eq_true, Bool.and_true]
  tauto

theorem held_or {n : Nat} {x y : Option String} (hx : held n x) (hy : held n y) :
    held n (x.or y) := by
  cases x with
  | none => exact hy
  | some s => exact hx

theorem admitsRow_updateRow {p : UpsertParams} {u : UserRow} {id : Int}
    (hp : head.AdmitsRow .users (p.insertRow id).toRow) (hu : head.AdmitsRow .users u.toRow) :
    head.AdmitsRow .users (p.updateRow u).toRow := by
  rw [admitsRow_user] at hp hu ⊢
  obtain ⟨-, -, hp₁, hp₂, hp₃, hp₄, hp₅⟩ := hp
  obtain ⟨hid, htid, hu₁, hu₂, hu₃, hu₄, hu₅⟩ := hu
  exact ⟨hid, htid, held_or hp₁ hu₁, held_or hp₂ hu₂, held_or hp₃ hu₃, held_or hp₄ hu₄,
    held_or hp₅ hu₅⟩

theorem update_users {us : List UserRow} {t : Tables} (hm : Mirrors db live)
    (ht : t.sessions = db.sessions ∧ t.spaces = db.spaces ∧ t.memberships = db.memberships)
    (hu : t.users = us) :
    Function.update live.rows .users (us.map (·.toRow)) = t.toRows := by
  rw [hm.rows]
  funext table
  cases table <;> simp [Tables.toRows, ht, hu]

theorem cast_coalesce {c : ColumnName} {n : Nat} {x : Option PyStr} {y : Option String}
    (hw : width .users c = some n) (hy : held n y) :
    head.cast .users c (coalesce (textValue (stored n x)) (textValue y)) =
      textValue ((stored n x).or y) := by
  have hor : coalesce (textValue (stored n x)) (textValue y) = textValue ((stored n x).or y) := by
    cases stored n x <;> rfl
  have hclip (z : Option String) (hz : z.map (clip n) = z) :
      head.cast .users c (textValue z) = textValue z := by
    rw [cast_textValue (by decide) hw, hz]
  rw [hor]
  apply hclip
  cases hx : stored n x with
  | none =>
    cases y with
    | none => rfl
    | some s =>
      simp only [held, Option.all_some, Bool.and_eq_true, decide_eq_true_eq] at hy
      exact congrArg some (clip_of_length_le hy.1)
  | some s =>
    obtain ⟨s', -, rfl⟩ := Option.map_eq_some_iff.1 hx
    exact congrArg some clip_clip

theorem assign_upsertSet (p : UpsertParams) (id : Int) {u : UserRow}
    (hu : head.AdmitsRow .users u.toRow) :
    assign (head.castAll .users (Write.upsertSet (p.insertRow id).toRow u.toRow)) u.toRow =
      (p.updateRow u).toRow := by
  obtain ⟨-, -, hu₁, hu₂, hu₃, hu₄, hu₅⟩ := admitsRow_user.1 hu
  funext c
  cases c with
  | username => exact cast_coalesce rfl hu₁
  | firstName => exact cast_coalesce rfl hu₂
  | lastName => exact cast_coalesce rfl hu₃
  | photoUrl => exact cast_coalesce rfl hu₄
  | permission => exact cast_coalesce rfl hu₅
  | _ => rfl

theorem sqlEq_telegramId (p : UpsertParams) (id : Int) (u : UserRow) :
    (u.toRow .telegramId).sqlEq ((p.insertRow id).toRow .telegramId) =
      decide (u.telegramId = p.telegramId) := by
  simp [Value.sqlEq, UserRow.toRow, UpsertParams.insertRow]

theorem admitsRow_of_mem (hm : Mirrors db live) {u : UserRow} (hu : u ∈ db.users) :
    head.AdmitsRow .users u.toRow := by
  apply hm.admitsRow .users
  rw [hm.rows]
  exact List.mem_map_of_mem hu

theorem map_users (hm : Mirrors db live) (p : UpsertParams) (id : Int) :
    (live.rows .users).map (fun r =>
        if (r .telegramId).sqlEq ((p.insertRow id).toRow .telegramId) then
          assign (head.castAll .users (Write.upsertSet (p.insertRow id).toRow r)) r
        else r) =
      (Keyed.modify (·.telegramId) p.telegramId p.updateRow db.users).map (·.toRow) := by
  rw [hm.rows, Tables.toRows, Keyed.modify, List.map_map, List.map_map]
  apply List.map_congr_left
  intro u hu
  simp only [Function.comp_apply, sqlEq_telegramId, decide_eq_true_eq]
  split
  · exact assign_upsertSet p id (admitsRow_of_mem hm hu)
  · rfl

theorem found_iff (hm : Mirrors db live) (p : UpsertParams) (id : Int) :
    (∃ r ∈ live.rows .users, (r .telegramId).sqlEq ((p.insertRow id).toRow .telegramId)) ↔
      ∃ u, db.userByTelegramId p.telegramId = some u := by
  simp only [hm.rows, Tables.toRows, List.mem_map, exists_exists_and_eq_and, sqlEq_telegramId,
    decide_eq_true_eq, Database.userByTelegramId_eq_some]

theorem coincide_updateUser {α : Type} {x : α} {p : UpsertParams} {id : Int} (hm : Mirrors db live)
    (ha : head.AdmitsRow .users (p.insertRow id).toRow) :
    Coincide
      (db.nextUserId.store { db.nextUserId.toTables with
        users := Keyed.modify (·.telegramId) p.telegramId p.updateRow db.users } x)
      (live.setRows .users
        ((Keyed.modify (·.telegramId) p.telegramId p.updateRow db.users).map (·.toRow))) := by
  refine coincide_store hm _ (update_users hm ⟨rfl, rfl, rfl⟩ rfl) fun _ => ?_
  rw [List.forall_mem_map]
  intro u' hu'
  obtain ⟨u, hu, rfl⟩ := Keyed.mem_modify.1 hu'
  split
  · exact admitsRow_updateRow ha (admitsRow_of_mem hm hu)
  · exact admitsRow_of_mem hm hu

theorem coincide_insertUser {α : Type} {x : α} {u : UserRow} (hm : Mirrors db live)
    (ha : head.AdmitsRow .users u.toRow) :
    Coincide
      (db.nextUserId.store { db.nextUserId.toTables with users := db.users ++ [u] } x)
      (live.setRows .users (live.rows .users ++ [u.toRow])) := by
  have hrows : live.rows .users ++ [u.toRow] = (db.users ++ [u]).map (·.toRow) := by
    rw [List.map_append, List.map_singleton, hm.rows, Tables.toRows]
  rw [hrows]
  refine coincide_store hm _ (update_users hm ⟨rfl, rfl, rfl⟩ rfl) fun _ => ?_
  rw [List.map_append, List.forall_mem_append, List.forall_mem_map]
  exact ⟨fun u hu => admitsRow_of_mem hm hu, List.forall_mem_singleton.2 ha⟩

theorem encodable_of_bindable {p : UpsertParams} (h : p.bindable) : p.texts.all encodable := by
  rw [UpsertParams.bindable, Bool.and_eq_true, List.all_eq_true] at h
  rw [List.all_eq_true]
  intro s hs
  have hb := h.2 s hs
  cases s with
  | none => rfl
  | some s =>
    cases s with
    | text _ => rfl
    | surrogates _ _ _ => cases hb

theorem upsertUser_error {p : UpsertParams}
    (h : ¬(p.bindable ∧ ¬2147483647 ≤ db.usersIdSeq ∧ p.fits)) :
    ∃ e db', db.upsertUser p = (.error e, db') := by
  rw [Database.upsertUser]
  split
  · exact ⟨_, _, rfl⟩
  · next hb =>
    split
    · exact ⟨_, _, rfl⟩
    · next hs =>
      simp only
      split
      · exact ⟨_, _, rfl⟩
      · next hf => exact absurd ⟨by simpa using hb, hs, by simpa using hf⟩ h

theorem coincide_upsertUser (hm : Mirrors db live) (m : Moment) (p : UpsertParams)
    (hseq : 0 ≤ db.usersIdSeq) (hnext : m.nextval = db.usersIdSeq + 1) :
    Coincide (db.upsertUser p) ((Write.upsertUser p).execute m live) := by
  have hcols : live.catalog.HasColumns .users (Write.upsertValues p) ∧
      .unique .users [.telegramId] ∈ live.catalog.requirements := by
    refine ⟨hasColumns_head hm [.telegramId, .username, .firstName, .lastName, .photoUrl,
      .permission, .createdAt, .updatedAt, .lastLoginAt] rfl (by decide)
      fun _ => List.mem_cons_of_mem _, hm.unique_telegramId⟩
  have hid : ColType.integer.admits (.int m.nextval) ↔ ¬2147483647 ≤ db.usersIdSeq := by
    simp only [ColType.admits, Bool.and_eq_true, decide_eq_true_eq]
    omega
  have hnew : live.catalog.newRow m .users (Write.upsertValues p) =
      (p.insertRow m.nextval).toRow := by
    rw [hm.catalog]
    exact newRow_user m p
  simp only [Write.execute, Store.upsert, hnew]
  by_cases he : p.texts.all encodable
  swap
  · have hb : ¬p.bindable := fun hb => he (encodable_of_bindable hb)
    obtain ⟨e, db', hx⟩ : ∃ e db', db.upsertUser p = (.error e, db') :=
      upsertUser_error fun h => hb h.1
    rw [if_neg he, hx]
    exact coincide_error db' ⟨_, rfl⟩
  rw [if_pos he, if_pos hcols, hm.catalog]
  by_cases ha : head.AdmitsRow .users (p.insertRow m.nextval).toRow
  · obtain ⟨hint, hb, hf⟩ := (admitsRow_insertRow he).1 ha
    rw [if_pos ha, Database.upsertUser, if_neg (by simp [hb]), if_neg (hid.1 hint)]
    simp only
    rw [if_neg (by simp [hf])]
    split
    · next u hu =>
      rw [if_pos ((found_iff hm p m.nextval).2 ⟨u, hu⟩), map_users hm]
      exact coincide_updateUser hm ha
    · next hu =>
      have hnone : ¬∃ u, db.userByTelegramId p.telegramId = some u := by
        rintro ⟨u, h⟩
        exact Option.some_ne_none u (h.symm.trans hu)
      rw [if_neg (hnone ∘ (found_iff hm p m.nextval).1)]
      rw [hnext] at ha ⊢
      exact coincide_insertUser hm ha
  · have hchecks : ¬(p.bindable ∧ ¬2147483647 ≤ db.usersIdSeq ∧ p.fits) := by
      rintro ⟨hb, hs, hf⟩
      exact ha ((admitsRow_insertRow he).2 ⟨hid.2 hs, hb, hf⟩)
    obtain ⟨e, db', hx⟩ := upsertUser_error hchecks
    rw [if_neg ha, hx]
    exact coincide_error db' ⟨_, rfl⟩

/-! ## A space with its owner -/

theorem admitsRow_space {s : SpaceRow} : head.AdmitsRow .spaces s.toRow ↔ held 255 s.name := by
  have htext : (ColType.varchar 255).admits (.text s.name) = held 255 s.name :=
    admits_textValue (s := some s.name)
  rw [Catalog.admitsRow_iff, head_rowRequirements.2.2.1]
  simp only [Finset.forall_mem_insert, Finset.mem_singleton, forall_eq, Requirement.HoldsOfRow,
    SpaceRow.toRow, forall_const, htext, admits_timeValue, admits_uuid, ne_eq, reduceCtorEq,
    not_false_eq_true, true_and, and_true]

theorem admitsRow_membership {r : MembershipRow} : head.AdmitsRow .spaceMemberships r.toRow ↔
    ColType.integer.admits (.int r.userId) ∧ held 64 r.role := by
  have htext : (ColType.varchar 64).admits (.text r.role) = held 64 r.role :=
    admits_textValue (s := some r.role)
  rw [Catalog.admitsRow_iff, head_rowRequirements.2.2.2]
  simp only [Finset.forall_mem_insert, Finset.mem_singleton, forall_eq, Requirement.HoldsOfRow,
    MembershipRow.toRow, forall_const, htext, admits_uuid, ne_eq, reduceCtorEq, not_false_eq_true,
    true_and, and_true]

theorem newRow_space (m : Moment) (id : UUID) (name : String) :
    head.newRow m .spaces [(.id, .uuid id), (.name, .text name)] =
      (SpaceRow.mk id (clip 255 name) none none).toRow := by
  have hname : head.cast .spaces .name (.text name) = .text (clip 255 name) :=
    cast_text (by decide) rfl name
  funext c
  simp only [Catalog.newRow, assign, defaults_eq m (t := .spaces) (by decide), Catalog.castAll,
    List.map_cons, List.map_nil, hname]
  cases c <;> rfl

theorem newRow_membership (m : Moment) (userId : Int) (spaceId : UUID) (role : String) :
    head.newRow m .spaceMemberships [(.userId, .int userId), (.spaceId, .uuid spaceId),
        (.role, .text role)] = (MembershipRow.mk userId spaceId (clip 64 role)).toRow := by
  have hrole : head.cast .spaceMemberships .role (.text role) = .text (clip 64 role) :=
    cast_text (by decide) rfl role
  funext c
  simp only [Catalog.newRow, assign, defaults_eq m (t := .spaceMemberships) (by decide),
    Catalog.castAll, List.map_cons, List.map_nil, hrole]
  cases c <;> rfl

theorem coincide_insertSpace (hm : Mirrors db live) (m : Moment) (id : UUID) (name : String) :
    Coincide
      (if storable 255 name then db.store (db.withTx ⟨[⟨id, clip 255 name, none, none⟩], []⟩) ()
        else (.error (.postgres .dataError), db))
      (live.insert m .spaces [(.id, .uuid id), (.name, .text name)]) := by
  have hcols : live.catalog.HasColumns .spaces [(.id, .uuid id), (.name, .text name)] :=
    hasColumns_head hm [.id, .name] rfl (by decide) (by decide)
  have hheld : held 255 (some (clip 255 name)) = storable 255 name :=
    held_stored (s := some name) rfl
  rw [Store.insert, if_pos hcols, hm.catalog, newRow_space]
  split
  · next hs =>
    rw [← hheld] at hs
    refine coincide_store hm db ?_ fun _ => ?_
    · rw [hm.rows]
      funext table
      cases table <;> simp [Tables.toRows, Tables.withTx]
    · exact List.forall_mem_append.2 ⟨hm.admitsRow .spaces,
        List.forall_mem_singleton.2 (admitsRow_space.2 hs)⟩
  · next hs =>
    refine coincide_error db (append_error hm fun ha => hs ?_)
    have hrow := admitsRow_space.1 ha
    rw [← hheld]
    exact hrow

theorem coincide_insertOwner (hm : Mirrors db live) (db₀ : Database) (m : Moment) (ownerId : Int)
    (spaceId : UUID) :
    Coincide (db₀.store (db.withTx ⟨[], [⟨ownerId, spaceId, "owner"⟩]⟩) ())
      (live.insert m .spaceMemberships
        [(.userId, .int ownerId), (.spaceId, .uuid spaceId), (.role, .text "owner")]) := by
  have hcols : live.catalog.HasColumns .spaceMemberships
      [(.userId, .int ownerId), (.spaceId, .uuid spaceId), (.role, .text "owner")] :=
    hasColumns_head hm [.userId, .spaceId, .role] rfl (by decide) (by decide)
  have hrole : held 64 (some "owner") := by decide
  have hkept : clip 64 "owner" = "owner" := clip_of_length_le (by decide)
  rw [Store.insert, if_pos hcols, hm.catalog, newRow_membership, hkept]
  refine coincide_store hm db₀ ?_ fun hc => ?_
  · rw [hm.rows]
    funext table
    cases table <;> simp [Tables.toRows, Tables.withTx]
  · refine List.forall_mem_append.2 ⟨hm.admitsRow .spaceMemberships,
      List.forall_mem_singleton.2 (admitsRow_membership.2 ⟨integer_of_user hm ?_, hrole⟩)⟩
    exact hc.membershipsUserId _ (List.mem_append_right _ (List.mem_singleton_self _))

theorem constraints_space {s : SpaceRow} {r : MembershipRow}
    (h : (db.withTx ⟨[s], [r]⟩).Constraints) : (db.withTx ⟨[s], []⟩).Constraints := by
  have hms : (db.withTx ⟨[s], []⟩).memberships = db.memberships := List.append_nil _
  refine ⟨h.usersId, h.usersTelegramId, h.sessionsId, h.sessionsTokenHash, h.sessionsUserId,
    h.spacesId, ?_, ?_, ?_⟩
  · rw [hms]
    exact db.constraints.membershipsId
  · rw [hms]
    exact db.constraints.membershipsUserId
  · intro r' hr'
    exact h.membershipsSpaceId r' (List.mem_append_left _ (hms ▸ hr'))

theorem coincide_createSpace (hm : Mirrors db live) (m : Moment) (id : UUID) (name : String)
    (ownerId : Int) :
    Coincide
      (if storable 255 name then
        db.store (db.withTx ⟨[⟨id, clip 255 name, none, none⟩], [⟨ownerId, id, "owner"⟩]⟩) ()
        else (.error (.postgres .dataError), db))
      ((Write.createSpace id name ownerId).execute m live) := by
  have hspace := coincide_insertSpace hm m id name
  simp only [Write.execute]
  by_cases hs : storable 255 name
  · rw [if_pos hs] at hspace ⊢
    cases hx : live.insert m .spaces [(.id, .uuid id), (.name, .text name)] with
    | error e =>
      rw [hx] at hspace
      rw [Database.store_error (not_constraints_of_coincide hspace ∘ constraints_space)]
      exact coincide_error db ⟨e, rfl⟩
    | ok live₁ =>
      rw [hx] at hspace
      obtain ⟨db₁, htables, hm₁⟩ := mirrors_of_coincide hspace
      have hboth : db₁.withTx ⟨[], [⟨ownerId, id, "owner"⟩]⟩ =
          db.withTx ⟨[⟨id, clip 255 name, none, none⟩], [⟨ownerId, id, "owner"⟩]⟩ := by
        rw [htables]
        simp only [Tables.withTx, List.append_nil]
      rw [← hboth]
      exact coincide_insertOwner hm₁ db m ownerId id
  · rw [if_neg hs] at hspace ⊢
    cases hx : live.insert m .spaces [(.id, .uuid id), (.name, .text name)] with
    | error e => exact coincide_error db ⟨e, rfl⟩
    | ok live₁ =>
      rw [hx] at hspace
      exact hspace.elim

end

end WikiBackend
