import WikiBackend.Db.Revisions

/-! Migrating a live database up and down. Every step succeeds and keeps what it should, except that
the login times cannot be taken back while some user has no username. -/

namespace WikiBackend.Alembic

open Relational

/-! ## Runs -/

structure State where
  revision : Revision
  store : LiveStore

inductive Move where
  | upgrade (now : Instant)
  | downgrade (now : Instant)
  | write (m : Moment) (w : Write)

def migrate (now : Instant) (script : List Statement) (r : Revision) (db : LiveStore) :
    Except Fault State :=
  match run now script db with
  | .ok db => .ok ⟨r, db⟩
  | .error e => .error e

def Move.step (st : State) : Move → Except Fault State
  | .upgrade now =>
    match st.revision.next with
    | some r => migrate now r.upgrade r st.store
    | none => .error .catalog
  | .downgrade now =>
    match st.revision.downRevision with
    | some r => migrate now st.revision.downgrade r st.store
    | none => .error .catalog
  | .write m w =>
    match w.execute m st.store with
    | .ok db => .ok ⟨st.revision, db⟩
    | .error e => .error e

/-- Moves that succeed, on a database that was set up with the users table and keeps it. -/
inductive Run : List Move → State → Prop where
  | start {now : Instant} {db : LiveStore}
      (h : run now (Revision.createUsersTable.path.flatMap Revision.upgrade) .empty = .ok db) :
      Run [] ⟨.createUsersTable, db⟩
  | snoc {ls : List Move} {l : Move} {st st' : State} : Run ls st → l.step st = .ok st' →
      st'.revision ≠ .createTmpTable → Run (ls ++ [l]) st'

/-! ## What is to hold of a migration -/

def Distinct (db : LiveStore) : Prop :=
  (Requirement.unique .users [.telegramId]).Holds db.rows ∧
    (Requirement.unique .sessions [.tokenHash]).Holds db.rows

structure Executes (now : Instant) (script : List Statement) (db db' : LiveStore) : Prop where
  run : run now script db = .ok db'
  keepsRows : KeepsRows db db'
  distinct : ∀ script', script' <+: script →
    ∃ db₁, Relational.run now script' db = .ok db₁ ∧ Distinct db₁

def Climbs : List Revision → LiveStore → Prop
  | [], _ => True
  | r :: rs, db => ∀ now, ∃ db', Executes now r.upgrade db db' ∧
      (∀ now', ∃ db'', Executes now' r.downgrade db' db'' ∧ db''.catalog = db.catalog) ∧ Climbs rs db'

def Descends : List Revision → LiveStore → Prop
  | [], _ => True
  | r :: rs, db => ∀ now, ∃ db', Executes now r.downgrade db db' ∧ Descends rs db'

/-- The database can be migrated to the head and back to the users table, step by step. -/
structure Reversible (st : State) : Prop where
  climbs : Climbs st.revision.above st.store
  descends : Descends st.revision.below st.store

/-! ## Migrations of reachable databases -/

variable {r r' : Revision} {rs : List Revision} {now : Instant} {script : List Statement}
  {db db' : LiveStore} {ls : List Move} {st st' : State}
  {known : Finset (Requirement TableName ColumnName)} {s : SchemaCatalog}

theorem distinct_of_run (h : run now script db = .ok db') (hg : ∀ op ∈ script, Gentle op)
    (hd : Distinct db) : Distinct db' := by
  constructor
  · refine unique_of_run h (fun op hop => ?_) hd.1
    exact List.forall_mem_singleton.2 (hg op hop).2.1
  · refine unique_of_run h (fun op hop => ?_) hd.2
    exact List.forall_mem_singleton.2 (hg op hop).2.2.2

theorem executes_of_run (h : run now script db = .ok db') (hg : ∀ op ∈ script, Gentle op)
    (hs : ∀ op ∈ script, op.Spares db.catalog db'.catalog) (hd : Distinct db) :
    Executes now script db db' := by
  refine ⟨h, keepsRows_of_run h hs, ?_⟩
  rintro script₁ ⟨script₂, rfl⟩
  obtain ⟨db₁, h₁, -⟩ := run_append.1 h
  refine ⟨db₁, h₁, distinct_of_run h₁ (fun op hop => ?_) hd⟩
  exact hg op (List.mem_append_left _ hop)

theorem executes_upgrade (h : r.next = some r') (hr : r ≠ .createTmpTable)
    (hc : db.catalog = r.catalog) (hd : Distinct db) (now : Instant) :
    ∃ db', Executes now r'.upgrade db db' ∧ db'.catalog = r'.catalog := by
  obtain ⟨db', hrun, hcat, -⟩ := run_of_check now (hc ▸ check_upgrade h) (hc ▸ db.valid)
  refine ⟨db', executes_of_run hrun (gentle_upgrade h hr) ?_ hd, hcat⟩
  rw [hc, hcat]
  exact spares_upgrade h

theorem executes_downgrade (h : r.downRevision = some r') (hr : r' ≠ .createTmpTable)
    (hc : db.catalog = r.catalog) (hd : Distinct db) (hn : ∀ q ∈ r.needs, q.Holds db.rows)
    (now : Instant) : ∃ db', Executes now r.downgrade db db' ∧ db'.catalog = r'.catalog := by
  obtain ⟨db', hrun, hcat, -⟩ := run_of_check now (hc ▸ check_downgrade h hr) hn
  refine ⟨db', executes_of_run hrun (gentle_downgrade h hr) ?_ hd, hcat⟩
  rw [hc, hcat]
  exact spares_downgrade h

/-! ## Users without a name -/

def accounts (db : LiveStore) : List (Value × Value) :=
  (db.rows .users).map fun r => (r .telegramId, r .username)

def Named (db : LiveStore) : Prop := ∀ a ∈ accounts db, a.2 ≠ .null

theorem named_iff : Named db ↔ named.Holds db.rows := List.forall_mem_map

theorem accounts_of_run (h : run now script db = .ok db') (hg : ∀ op ∈ script, Gentle op) :
    accounts db' = accounts db := by
  refine (sameRows_of_run h fun op hop => (hg op hop).1).map_eq fun r r' hr => ?_
  rw [hr .telegramId fun op hop => (hg op hop).2.1, hr .username fun op hop => (hg op hop).2.2.1]

theorem named_of_usersTable (hc : db.catalog = Revision.createUsersTable.catalog) : Named db := by
  apply named_iff.2
  apply db.valid
  rw [hc]
  decide +kernel

theorem needs_of_named (hc : db.catalog = r.catalog) (hn : r = .addLastLoginAt → Named db) :
    ∀ q ∈ r.needs, q.Holds db.rows := by
  intro q hq
  unfold Revision.needs at hq
  split at hq
  · next hr =>
    rcases Finset.mem_insert.1 hq with rfl | hq
    · exact named_iff.1 (hn hr)
    · exact db.valid q (hc ▸ hq)
  · exact db.valid q (hc ▸ hq)

/-! ## To the head and back -/

theorem climbs_above (hr : r ≠ .createTmpTable) (hc : db.catalog = r.catalog) (hd : Distinct db) :
    Climbs r.above db := by
  generalize ha : r.above = rs
  induction rs generalizing r db with
  | nil => trivial
  | cons r' rs ih =>
    obtain ⟨hnext, rfl⟩ := Revision.of_above ha
    have hdown := Revision.downRevision_of_next hnext
    intro now
    obtain ⟨db', hx, hc'⟩ := executes_upgrade hnext hr hc hd now
    have hg := gentle_upgrade hnext hr
    have hd' := distinct_of_run hx.run hg hd
    have hr' : r' ≠ .createTmpTable := by
      rintro rfl
      cases hdown
    refine ⟨db', hx, fun now' => ?_, ih hr' hc' hd' rfl⟩
    have hn : r' = .addLastLoginAt → Named db' := by
      rintro rfl
      cases hdown
      unfold Named
      rw [accounts_of_run hx.run hg]
      exact named_of_usersTable hc
    obtain ⟨db'', hx', hc''⟩ := executes_downgrade hdown hr hc' hd' (needs_of_named hc' hn) now'
    exact ⟨db'', hx', hc''.trans hc.symm⟩

theorem descends_below_iff (hr : r ≠ .createTmpTable) (hc : db.catalog = r.catalog)
    (hd : Distinct db) : Descends r.below db ↔ Named db := by
  generalize hb : r.below = rs
  induction rs generalizing r db with
  | nil =>
    obtain rfl := Revision.of_below_nil hb hr
    exact iff_of_true trivial (named_of_usersTable hc)
  | cons r' rs ih =>
    obtain ⟨rfl, r₁, hdown, hr₁, rfl⟩ := Revision.of_below hb
    have hg := gentle_downgrade hdown hr₁
    constructor
    · intro h
      obtain ⟨db', hx, h'⟩ := h 0
      have hc' : db'.catalog = r₁.catalog := by
        have halter := alterAll_of_run hx.run
        rw [hc, alterAll_of_check (check_downgrade hdown hr₁)] at halter
        exact (Except.ok.inj halter).symm
      have hn := (ih hr₁ hc' (distinct_of_run hx.run hg hd) rfl).1 h'
      unfold Named at hn
      rwa [accounts_of_run hx.run hg] at hn
    · intro hn now
      obtain ⟨db', hx, hc'⟩ := executes_downgrade hdown hr₁ hc hd (needs_of_named hc fun _ => hn) now
      refine ⟨db', hx, (ih hr₁ hc' (distinct_of_run hx.run hg hd) rfl).2 ?_⟩
      unfold Named
      rwa [accounts_of_run hx.run hg]

/-! ## Writes -/

section
variable {m : Moment} {w : Write} {p : UpsertParams}

theorem createSpace_cases {spaceId : UUID} {name : String} {ownerId : Int}
    (h : (Write.createSpace spaceId name ownerId).execute m db = .ok db') :
    ∃ db₁, Store.OnlyWrites .spaces db db₁ ∧ Store.OnlyWrites .spaceMemberships db₁ db' := by
  simp only [Write.execute] at h
  split at h
  · next db₁ h₁ =>
    exact ⟨db₁, Store.onlyWrites_of_insert h₁, Store.onlyWrites_of_insert h⟩
  · cases h

theorem upsert_of_execute (h : (Write.upsertUser p).execute m db = .ok db') :
    p.texts.all encodable ∧
      db.upsert m .users .telegramId (Write.upsertValues p) Write.upsertSet = .ok db' := by
  simp only [Write.execute] at h
  split at h
  · exact ⟨‹_›, h⟩
  · cases h

theorem users_of_execute (hw : ∀ p, w ≠ .upsertUser p) (h : w.execute m db = .ok db') :
    db'.rows .users = db.rows .users := by
  cases w with
  | upsertUser p => exact absurd rfl (hw p)
  | createSession _ _ _ _ => exact (Store.onlyWrites_of_insert h).2 _ (by decide)
  | updateExpiry _ _ _ | revoke _ _ => exact (Store.onlyWrites_of_updateWhere h).2 _ (by decide)
  | createSpace spaceId name ownerId =>
    obtain ⟨db₁, h₁, h₂⟩ := createSpace_cases h
    exact (h₂.2 _ (by decide)).trans (h₁.2 _ (by decide))

theorem catalog_of_execute (h : w.execute m db = .ok db') : db'.catalog = db.catalog := by
  cases w with
  | upsertUser p => exact (Store.upsert_cases (upsert_of_execute h).2).1.1
  | createSession _ _ _ _ => exact (Store.onlyWrites_of_insert h).1
  | updateExpiry _ _ _ | revoke _ _ => exact (Store.onlyWrites_of_updateWhere h).1
  | createSpace spaceId name ownerId =>
    obtain ⟨db₁, h₁, h₂⟩ := createSpace_cases h
    exact h₂.1.trans h₁.1

theorem sessions_of_execute (h : w.execute m db = .ok db') :
    db'.rows .sessions = db.rows .sessions ∨
      db.catalog.HasColumn .sessions .tokenHash fun _ => true := by
  cases w with
  | upsertUser p => exact .inl ((Store.upsert_cases (upsert_of_execute h).2).1.2 _ (by decide))
  | createSession id userId tokenHash expiresAt =>
    exact .inr (Store.hasColumns_of_insert h (.tokenHash, .text tokenHash) (by simp))
  | updateExpiry tokenHash _ _ | revoke tokenHash _ =>
    exact .inr (Store.hasColumns_of_updateWhere h (.tokenHash, .text tokenHash) (by simp))
  | createSpace spaceId name ownerId =>
    obtain ⟨db₁, h₁, h₂⟩ := createSpace_cases h
    exact .inl ((h₂.2 _ (by decide)).trans (h₁.2 _ (by decide)))

theorem coalesce_ne_null {v v' : Value} : coalesce v v' ≠ .null ↔ v ≠ .null ∨ v' ≠ .null := by
  unfold coalesce
  split
  · next h => simp [h]
  · next h => simp [h]

theorem paramValue_ne_null {s : Option PyStr} (h : encodable s) : paramValue s ≠ .null ↔ s ≠ none := by
  cases s with
  | none => simp [paramValue, textValue]
  | some s =>
    cases s with
    | text s => simp [paramValue, textValue, PyStr.text?]
    | surrogates _ _ _ => cases h

theorem accounts_of_upsert (h : (Write.upsertUser p).execute m db = .ok db') :
    (∃ f : Value → Value, (∀ v, f v ≠ .null ↔ p.username ≠ none ∨ v ≠ .null) ∧
      accounts db' = (accounts db).map (fun a =>
        if a.1.sqlEq (.int p.telegramId) then (a.1, f a.2) else a) ∧
      ∃ a ∈ accounts db, a.1.sqlEq (.int p.telegramId)) ∨
    ∃ v : Value, (v ≠ .null ↔ p.username ≠ none) ∧
      accounts db' = accounts db ++ [(.int p.telegramId, v)] ∧
      ∀ a ∈ accounts db, ¬a.1.sqlEq (.int p.telegramId) := by
  obtain ⟨henc, h⟩ := upsert_of_execute h
  let name := db.catalog.cast .users .username
  have hname (v : Value) : name v ≠ .null ↔ v ≠ .null := not_congr Catalog.cast_eq_null
  have hparam : paramValue p.username ≠ .null ↔ p.username ≠ none :=
    paramValue_ne_null (List.all_eq_true.1 henc _ List.mem_cons_self)
  obtain ⟨-, ⟨hrows, r, hr, he⟩ | ⟨hrows, hne⟩⟩ := Store.upsert_cases h
  · refine .inl ⟨fun v => name (coalesce (name (paramValue p.username)) v), fun v => ?_, ?_, _,
      List.mem_map_of_mem hr, he⟩
    · rw [hname, coalesce_ne_null, hname, hparam]
    · simp only [accounts, hrows, List.map_map]
      apply List.map_congr_left
      intro r _
      simp only [Function.comp_apply]
      split
      · next hc =>
        rw [if_pos (by exact hc)]
        rfl
      · next hc => rw [if_neg (by exact hc)]
  · refine .inr ⟨name (paramValue p.username), (hname _).trans hparam, ?_,
      List.forall_mem_map.2 hne⟩
    simp only [accounts, hrows, List.map_append, List.map_singleton]
    rfl

end

/-! ## Reachable databases -/

theorem step_cases {l : Move} (h : l.step st = .ok st') :
    (∃ now, st.revision.next = some st'.revision ∧
      run now st'.revision.upgrade st.store = .ok st'.store ∧ l = .upgrade now) ∨
    (∃ now, st.revision.downRevision = some st'.revision ∧
      run now st.revision.downgrade st.store = .ok st'.store ∧ l = .downgrade now) ∨
    ∃ m w, st'.revision = st.revision ∧ w.execute m st.store = .ok st'.store ∧ l = .write m w := by
  cases l with
  | upgrade now =>
    simp only [Move.step, migrate] at h
    split at h
    · next r hr =>
      split at h
      · next db hdb =>
        cases h
        exact .inl ⟨now, hr, hdb, rfl⟩
      · cases h
    · cases h
  | downgrade now =>
    simp only [Move.step, migrate] at h
    split at h
    · next r hr =>
      split at h
      · next db hdb =>
        cases h
        exact .inr (.inl ⟨now, hr, hdb, rfl⟩)
      · cases h
    · cases h
  | write m w =>
    simp only [Move.step] at h
    split at h
    · next db hdb =>
      cases h
      exact .inr (.inr ⟨m, w, rfl, hdb, rfl⟩)
    · cases h

theorem distinct_of_execute {m : Moment} {w : Write} (hr : r ≠ .createTmpTable)
    (hc : db.catalog = r.catalog) (h : w.execute m db = .ok db') (hd : Distinct db) :
    Distinct db' := by
  have hc' := catalog_of_execute h
  refine ⟨db'.valid _ ?_, ?_⟩
  · rw [hc', hc]
    exact mem_requirements_telegramId hr
  · rcases sessions_of_execute h with hrows | hcol
    · have hd' := hd.2
      simp only [Requirement.Holds] at hd' ⊢
      rwa [hrows]
    · apply db'.valid
      rw [hc', hc]
      exact tokenHash_unique r (hc ▸ hcol)

structure Settled (st : State) : Prop where
  revision : st.revision ≠ .createTmpTable
  catalog : st.store.catalog = st.revision.catalog
  distinct : Distinct st.store

theorem settled_of_step {l : Move} (h : l.step st = .ok st') (hr : st'.revision ≠ .createTmpTable)
    (hs : Settled st) : Settled st' := by
  suffices hkept : st'.store.catalog = st'.revision.catalog ∧ Distinct st'.store from
    ⟨hr, hkept.1, hkept.2⟩
  rcases step_cases h with ⟨now, hnext, hrun, -⟩ | ⟨now, hdown, hrun, -⟩ | ⟨m, w, hrev, hx, -⟩
  · have halter := alterAll_of_run hrun
    rw [hs.catalog, alterAll_of_check (check_upgrade hnext)] at halter
    exact ⟨(Except.ok.inj halter).symm,
      distinct_of_run hrun (gentle_upgrade hnext hs.revision) hs.distinct⟩
  · have halter := alterAll_of_run hrun
    rw [hs.catalog, alterAll_of_check (check_downgrade hdown hr)] at halter
    exact ⟨(Except.ok.inj halter).symm,
      distinct_of_run hrun (gentle_downgrade hdown hr) hs.distinct⟩
  · rw [hrev, catalog_of_execute hx]
    exact ⟨hs.catalog, distinct_of_execute hs.revision hs.catalog hx hs.distinct⟩

theorem settled_of_run (h : Run ls st) : Settled st := by
  induction h with
  | @start now db h =>
    have halter : alterAll _ ∅ = .ok db.catalog := alterAll_of_run h
    refine ⟨(fun h => by cases h), ?_, ?_, ?_⟩
    · simp only [Revision.catalog, halter]
    · exact unique_of_run h (by decide) List.nodup_nil
    · exact unique_of_run h (by decide) List.nodup_nil
  | snoc _ hst hr ih => exact settled_of_step hst hr ih

/-! ## Which users have a name -/

def upserts : List Move → List UpsertParams
  | [] => []
  | .write _ (.upsertUser p) :: ls => p :: upserts ls
  | _ :: ls => upserts ls

theorem upserts_append (ls ls' : List Move) : upserts (ls ++ ls') = upserts ls ++ upserts ls' := by
  induction ls with
  | nil => rfl
  | cons l ls ih =>
    cases l with
    | write m w => cases w <;> simp only [List.cons_append, upserts, ih]
    | _ => simp only [List.cons_append, upserts, ih]

def NameGiven (ps : List UpsertParams) (k : Int) : Prop :=
  ∃ p ∈ ps, p.telegramId = k ∧ p.username ≠ none

structure AccountsOf (ps : List UpsertParams) (as : List (Value × Value)) : Prop where
  account : ∀ a ∈ as, ∃ p ∈ ps, a.1 = .int p.telegramId
  name : ∀ a ∈ as, ∀ k, a.1 = .int k → (a.2 ≠ .null ↔ NameGiven ps k)
  upsert : ∀ p ∈ ps, ∃ a ∈ as, a.1 = .int p.telegramId

theorem nameGiven_append {ps : List UpsertParams} {p : UpsertParams} {k : Int} :
    NameGiven (ps ++ [p]) k ↔ NameGiven ps k ∨ p.telegramId = k ∧ p.username ≠ none := by
  simp only [NameGiven, List.mem_append, List.mem_singleton, or_and_right, exists_or,
    exists_eq_left]

theorem AccountsOf.found {ps : List UpsertParams} {as : List (Value × Value)} {p : UpsertParams}
    {f : Value → Value} (h : AccountsOf ps as)
    (hf : ∀ v, f v ≠ .null ↔ p.username ≠ none ∨ v ≠ .null)
    (hp : ∃ a ∈ as, a.1.sqlEq (.int p.telegramId)) :
    AccountsOf (ps ++ [p]) (as.map fun a =>
      if a.1.sqlEq (.int p.telegramId) then (a.1, f a.2) else a) := by
  have hfst (a : Value × Value) :
      (if a.1.sqlEq (.int p.telegramId) then (a.1, f a.2) else a).1 = a.1 := by
    split <;> rfl
  refine ⟨List.forall_mem_map.2 fun a ha => ?_, List.forall_mem_map.2 fun a ha k hk => ?_, ?_⟩
  · obtain ⟨p', hp', he⟩ := h.account a ha
    exact ⟨p', List.mem_append_left _ hp', (hfst a).trans he⟩
  · rw [hfst] at hk
    rw [nameGiven_append, ← h.name a ha k hk]
    split
    · next hc =>
      have hid : p.telegramId = k := by
        rw [Value.sqlEq_int, hk] at hc
        exact (Value.int.inj hc).symm
      rw [hf, or_comm]
      simp only [hid, true_and]
    · next hc =>
      have hid : p.telegramId ≠ k := by
        rintro rfl
        exact hc (Value.sqlEq_int.2 hk)
      simp only [hid, false_and, or_false]
  · intro p' hp'
    obtain ⟨a, ha, he⟩ : ∃ a ∈ as, a.1 = .int p'.telegramId := by
      rcases List.mem_append.1 hp' with hp' | hp'
      · exact h.upsert p' hp'
      · obtain ⟨a, ha, he⟩ := hp
        exact ⟨a, ha, List.mem_singleton.1 hp' ▸ Value.sqlEq_int.1 he⟩
    exact ⟨_, List.mem_map_of_mem ha, (hfst a).trans he⟩

theorem AccountsOf.added {ps : List UpsertParams} {as : List (Value × Value)} {p : UpsertParams}
    {v : Value} (h : AccountsOf ps as) (hv : v ≠ .null ↔ p.username ≠ none)
    (hp : ∀ a ∈ as, ¬a.1.sqlEq (.int p.telegramId)) :
    AccountsOf (ps ++ [p]) (as ++ [(.int p.telegramId, v)]) := by
  refine ⟨fun a ha => ?_, fun a ha k hk => ?_, fun p' hp' => ?_⟩
  · rcases List.mem_append.1 ha with ha | ha
    · obtain ⟨p', hp', he⟩ := h.account a ha
      exact ⟨p', List.mem_append_left _ hp', he⟩
    · exact ⟨p, List.mem_append_right _ (List.mem_singleton_self p), by rw [List.mem_singleton.1 ha]⟩
  · rw [nameGiven_append]
    rcases List.mem_append.1 ha with ha | ha
    · have hid : p.telegramId ≠ k := by
        rintro rfl
        exact hp a ha (Value.sqlEq_int.2 hk)
      simp only [h.name a ha k hk, hid, false_and, or_false]
    · obtain rfl := List.mem_singleton.1 ha
      obtain rfl := Value.int.inj hk
      -- no upsert so far was of this account
      have hnone : ¬NameGiven ps p.telegramId := by
        rintro ⟨p', hp', hid, -⟩
        obtain ⟨a, ha, he⟩ := h.upsert p' hp'
        exact hp a ha (Value.sqlEq_int.2 (hid ▸ he))
      simp only [hnone, hv, true_and, false_or]
  · rcases List.mem_append.1 hp' with hp' | hp'
    · obtain ⟨a, ha, he⟩ := h.upsert p' hp'
      exact ⟨a, List.mem_append_left _ ha, he⟩
    · rw [List.mem_singleton.1 hp']
      exact ⟨_, List.mem_append_right _ (List.mem_singleton_self _), rfl⟩

theorem accountsOf_of_run (h : Run ls st) : AccountsOf (upserts ls) (accounts st.store) := by
  induction h with
  | @start now db h =>
    have hnil : accounts db = [] := by
      rw [accounts, rows_eq_nil_of_run h rfl, List.map_nil]
    rw [hnil]
    exact ⟨List.forall_mem_nil _, List.forall_mem_nil _, List.forall_mem_nil _⟩
  | @snoc ls l st st' hrun hst hr ih =>
    have hs := settled_of_run hrun
    rw [upserts_append]
    rcases step_cases hst with ⟨now, hnext, h, rfl⟩ | ⟨now, hdown, h, rfl⟩ | ⟨m, w, -, hx, rfl⟩
    · rw [accounts_of_run h (gentle_upgrade hnext hs.revision)]
      simpa only [upserts, List.append_nil] using ih
    · rw [accounts_of_run h (gentle_downgrade hdown hr)]
      simpa only [upserts, List.append_nil] using ih
    · by_cases hw : ∃ p, w = .upsertUser p
      · obtain ⟨p, rfl⟩ := hw
        rcases accounts_of_upsert hx with ⟨f, hf, he, hp⟩ | ⟨v, hv, he, hp⟩
        · rw [he]
          exact ih.found hf hp
        · rw [he]
          exact ih.added hv hp
      · have hw : ∀ p, w ≠ .upsertUser p := fun p hp => hw ⟨p, hp⟩
        have hnil : upserts [.write m w] = [] := by
          cases w with
          | upsertUser p => exact absurd rfl (hw p)
          | _ => rfl
        rw [hnil, List.append_nil, accounts, users_of_execute hw hx]
        exact ih

theorem named_iff_of_run (h : Run ls st) :
    Named st.store ↔ ∀ p ∈ upserts ls, NameGiven (upserts ls) p.telegramId := by
  have ha := accountsOf_of_run h
  constructor
  · intro hn p hp
    obtain ⟨a, ham, he⟩ := ha.upsert p hp
    exact (ha.name a ham _ he).1 (hn a ham)
  · intro hp a ham
    obtain ⟨p, hpm, he⟩ := ha.account a ham
    exact (ha.name a ham _ he).2 (hp p hpm)

/-- A database can be migrated to the head and back exactly if every account that has logged in has
done so at least once with a username. -/
theorem reversible_iff (h : Run ls st) :
    Reversible st ↔ ∀ p ∈ upserts ls, NameGiven (upserts ls) p.telegramId := by
  have hs := settled_of_run h
  rw [← named_iff_of_run h, ← descends_below_iff hs.revision hs.catalog hs.distinct]
  constructor
  · exact fun hr => hr.descends
  · exact fun hd => ⟨climbs_above hs.revision hs.catalog hs.distinct, hd⟩

/-! ## Two users on a live database -/

def replay : List Move → State → Option State
  | [], st => some st
  | l :: ls, st =>
    match l.step st with
    | .ok st => if st.revision = .createTmpTable then none else replay ls st
    | .error _ => none

theorem run_of_replay {ls' : List Move} (h : Run ls st) (hr : replay ls' st = some st') :
    Run (ls ++ ls') st' := by
  induction ls' generalizing ls st with
  | nil =>
    cases hr
    rwa [List.append_nil]
  | cons l ls' ih =>
    simp only [replay] at hr
    split at hr
    · next st₁ hst =>
      split at hr
      · cases hr
      · next hne =>
        rw [List.append_cons]
        exact ih (.snoc h hst hne) hr
    · cases hr

def replayed (ls : List Move) : Option State :=
  match run 0 (Revision.createUsersTable.path.flatMap Revision.upgrade) .empty with
  | .ok db => replay ls ⟨.createUsersTable, db⟩
  | .error _ => none

theorem exists_run (ls : List Move) (h : (replayed ls).isSome) : ∃ st, Run ls st := by
  obtain ⟨st, hst⟩ := Option.isSome_iff_exists.1 h
  unfold replayed at hst
  split at hst
  · next db hdb => exact ⟨st, run_of_replay (.start hdb) hst⟩
  · cases hst

namespace Recorded

def ada : UpsertParams := ⟨42, some "ada", none, none, none, none, 5⟩

def nameless : UpsertParams := ⟨43, none, some "Grace", none, none, none, 6⟩

def lively : List Move :=
  [.upgrade 1, .write ⟨5, 1⟩ (.upsertUser ada), .write ⟨6, 2⟩ (.upsertUser nameless),
    .write ⟨7, 3⟩ (.upsertUser { nameless with username := some "grace" }),
    .upgrade 8, .write ⟨9, 4⟩ (.createSession 1 1 "hash" 3600)]

theorem reversible_iff_lively : ∃ st, Run lively st ∧ Reversible st := by
  obtain ⟨st, h⟩ := exists_run lively (by decide +kernel)
  refine ⟨st, h, (reversible_iff h).2 ?_⟩
  simp [lively, upserts, NameGiven, ada, nameless]

theorem nameless_not_reversible : ¬∀ ls st, Run ls st → Reversible st := by
  intro h
  obtain ⟨st, hrun⟩ := exists_run [.upgrade 1, .write ⟨6, 1⟩ (.upsertUser nameless)]
    (by decide +kernel)
  have hn := (named_iff_of_run hrun).1 ((descends_below_iff (settled_of_run hrun).revision
    (settled_of_run hrun).catalog (settled_of_run hrun).distinct).1 (h _ st hrun).descends)
  simp [upserts, NameGiven, nameless] at hn

end Recorded

end WikiBackend.Alembic
