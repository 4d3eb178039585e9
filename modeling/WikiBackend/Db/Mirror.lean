import WikiBackend.Db.Head
import WikiBackend.Users.Sequence

/-! The statements of the repositories and the writes on the migrated store keep the same rows, from
the empty tables that the migrations leave through any number of writes. -/

namespace WikiBackend

open Relational Alembic

def Alembic.Write.statements : Write → List Stmt
  | .upsertUser p => [.upsertUser p]
  | .createSession id userId tokenHash expiresAt => [.insertSession id userId tokenHash expiresAt]
  | .updateExpiry tokenHash expiresAt now => [.updateExpiry tokenHash expiresAt now]
  | .revoke tokenHash revokedAt => [.revoke tokenHash revokedAt]
  | .createSpace spaceId name ownerId =>
    [.begin, .insertSpace name, .insertOwner ownerId spaceId, .commit]

/-- The server chooses the time, and the id of a new space. -/
def Alembic.Write.choice (now : Instant) : Write → ServerChoice
  | .createSpace spaceId _ _ => ⟨now, spaceId, []⟩
  | _ => ⟨now, 0, []⟩

def World.executeAll (fold : Char → Char) (s : ServerChoice) (i : Nat) (w : World) :
    List Stmt → Except LibError Unit × World
  | [] => (.ok (), w)
  | q :: qs =>
    match q.execute fold s i w with
    | (.ok _, w) => w.executeAll fold s i qs
    | (.error e, w) => (.error e, w)

def World.perform (fold : Char → Char) (i : Nat) (now : Instant) (w : World) (wr : Write) :
    Except LibError Unit × World :=
  w.executeAll fold (wr.choice now) i wr.statements

section
variable {fold : Char → Char} {s : ServerChoice} {i : Nat} {w : World} {live : LiveStore}
  {now : Instant}

theorem executeAll_cons_ok {q : Stmt} {qs : List Stmt} {rows : q.Rows} {w' : World}
    (h : q.execute fold s i w = (.ok rows, w')) :
    w.executeAll fold s i (q :: qs) = w'.executeAll fold s i qs := by
  rw [World.executeAll, h]

theorem executeAll_cons_error {q : Stmt} {qs : List Stmt} {e : LibError} {w' : World}
    (h : q.execute fold s i w = (.error e, w')) :
    w.executeAll fold s i (q :: qs) = (.error e, w') := by
  rw [World.executeAll, h]

theorem coincide_single {q : Stmt} {x : Except LibError q.Rows × Database}
    {y : Except Fault LiveStore} (hq : q.execute fold s i w = w.onDb x) (h : Coincide x y) :
    Coincide ((w.executeAll fold s i [q]).1, (w.executeAll fold s i [q]).2.db) y := by
  obtain ⟨x, db⟩ := x
  cases x with
  | ok rows =>
    rw [executeAll_cons_ok hq]
    cases y <;> exact h
  | error e =>
    rw [executeAll_cons_error hq]
    cases y <;> exact h

/-! The transaction of a new space is one write of both rows. -/

theorem World.insert_error {α : Type} {tx rows : Tx} {result : α} (htx : w.txs i = some tx)
    (hc : ¬(w.db.withTx (tx.append rows)).Constraints) :
    w.insert i rows result = (.error (.postgres .integrityConstraintViolation), w) := by
  simp only [World.insert, htx, Tables.enforce, dif_neg hc]

theorem executeAll_commit : w.executeAll fold s i [.commit] = w.commit i := by
  rcases h : w.commit i with ⟨x, w'⟩
  have hq : Stmt.execute fold s i w .commit = (x, w') := h
  cases x with
  | ok _ => exact executeAll_cons_ok hq
  | error e => exact executeAll_cons_error hq

theorem executeAll_createSpace (spaceId : UUID) (name : String) (ownerId : Int) :
    let r := w.executeAll fold ⟨now, spaceId, []⟩ i
      [.begin, .insertSpace name, .insertOwner ownerId spaceId, .commit]
    (r.1, r.2.db) =
      if storable 255 name then
        w.db.store (w.db.withTx
          ⟨[⟨spaceId, clip 255 name, none, none⟩], [⟨ownerId, spaceId, "owner"⟩]⟩) ()
      else (.error (.postgres .dataError), w.db) := by
  let choice : ServerChoice := ⟨now, spaceId, []⟩
  let space : Tx := ⟨[⟨spaceId, clip 255 name, none, none⟩], []⟩
  let both : Tx := ⟨[⟨spaceId, clip 255 name, none, none⟩], [⟨ownerId, spaceId, "owner"⟩]⟩
  let opened : World := w.setTx i (some ⟨[], []⟩)
  let inserted : World := opened.setTx i (some space)
  have hbegin : Stmt.execute fold choice i w .begin = (.ok (), opened) := rfl
  simp only
  rw [executeAll_cons_ok hbegin]
  by_cases hs : storable 255 name
  · have hinsert : Stmt.execute fold choice i opened (.insertSpace name) =
        opened.insert i space spaceId := by
      rw [Stmt.execute, if_neg (by simpa [storable, and_comm] using hs)]
    rw [if_pos hs]
    by_cases hspace : (w.db.withTx space).Constraints
    · have hinserted : Stmt.execute fold choice i opened (.insertSpace name) =
          (.ok spaceId, inserted) := hinsert.trans (World.insert_ok World.txs_setTx hspace)
      rw [executeAll_cons_ok hinserted]
      by_cases hc : (w.db.withTx both).Constraints
      · have howned : Stmt.execute fold choice i inserted (.insertOwner ownerId spaceId) =
            (.ok (), inserted.setTx i (some both)) := World.insert_ok World.txs_setTx hc
        rw [executeAll_cons_ok howned, executeAll_commit, World.commit, World.txs_setTx]
        rfl
      · have hfailed : Stmt.execute fold choice i inserted (.insertOwner ownerId spaceId) =
            (.error (.postgres .integrityConstraintViolation), inserted) :=
          World.insert_error World.txs_setTx hc
        rw [executeAll_cons_error hfailed, Database.store_error hc]
        rfl
    · have hfailed : Stmt.execute fold choice i opened (.insertSpace name) =
          (.error (.postgres .integrityConstraintViolation), opened) :=
        hinsert.trans (World.insert_error World.txs_setTx hspace)
      rw [executeAll_cons_error hfailed, Database.store_error (hspace ∘ constraints_space)]
      rfl
  · have hinsert : Stmt.execute fold choice i opened (.insertSpace name) =
        (.error (.postgres .dataError), opened) := by
      rw [Stmt.execute, if_pos (by simpa [storable, and_comm, imp_iff_not_or] using hs)]
    rw [if_neg hs, executeAll_cons_error hinsert]
    rfl

theorem coincide_perform (hm : Mirrors w.db live) (hseq : 0 ≤ w.db.usersIdSeq) (wr : Write) :
    Coincide ((w.perform fold i now wr).1, (w.perform fold i now wr).2.db)
      (wr.execute ⟨now, w.db.usersIdSeq + 1⟩ live) := by
  unfold World.perform
  cases wr with
  | upsertUser p => exact coincide_single rfl (coincide_upsertUser hm _ p hseq rfl)
  | createSession id userId tokenHash expiresAt =>
    exact coincide_single rfl (coincide_insertSession hm ⟨now, _⟩ id userId tokenHash expiresAt)
  | updateExpiry tokenHash expiresAt now =>
    exact coincide_single rfl (coincide_updateExpiry hm _ tokenHash expiresAt now)
  | revoke tokenHash revokedAt =>
    exact coincide_single rfl (coincide_revoke hm _ tokenHash revokedAt)
  | createSpace spaceId name ownerId =>
    have h := coincide_createSpace hm ⟨now, w.db.usersIdSeq + 1⟩ spaceId name ownerId
    rwa [← executeAll_createSpace] at h

/-! ## Runs of writes -/

def KeepsOnError {α : Type} (db : Database) (x : Except LibError α × Database) : Prop :=
  ∀ e, x.1 = .error e → x.2.toRows = db.toRows

theorem keepsOnError_single {q : Stmt} {x : Except LibError q.Rows × Database}
    (hq : q.execute fold s i w = w.onDb x) (h : KeepsOnError w.db x) :
    KeepsOnError w.db ((w.executeAll fold s i [q]).1, (w.executeAll fold s i [q]).2.db) := by
  obtain ⟨x, db⟩ := x
  cases x with
  | ok rows =>
    intro e he
    rw [executeAll_cons_ok hq] at he
    cases he
  | error e =>
    intro _ _
    rw [executeAll_cons_error hq]
    exact h e rfl

theorem keepsOnError_store {α : Type} {db : Database} {t : Tables} {rows : α} :
    KeepsOnError db (db.store t rows) := by
  intro e he
  rcases hx : db.store t rows with ⟨x, db'⟩
  rw [hx] at he
  rcases Database.store_cases hx with ⟨rfl, -⟩ | ⟨_, -, rfl⟩
  · cases he
  · rfl

theorem keepsOnError_upsertUser {db : Database} {p : UpsertParams} :
    KeepsOnError db (db.upsertUser p) := by
  intro e he
  rcases hx : db.upsertUser p with ⟨x, db'⟩
  rw [hx] at he
  rcases Database.upsertUser_cases hx with ⟨_, -, rfl | rfl⟩ | ⟨_, -, rfl, -⟩ | ⟨-, rfl, -⟩
  · rfl
  · funext t
    cases t <;> rfl
  · cases he
  · cases he

theorem keepsOnError_insertSession {db : Database} (id : UUID) (userId : Int) (tokenHash : String)
    (expiresAt : Instant) : KeepsOnError db (db.insertSession now id userId tokenHash expiresAt) := by
  rw [Database.insertSession]
  split
  · exact fun _ _ => rfl
  · exact keepsOnError_store

theorem keepsOnError_perform (wr : Write) :
    KeepsOnError w.db ((w.perform fold i now wr).1, (w.perform fold i now wr).2.db) := by
  unfold World.perform
  cases wr with
  | upsertUser p => exact keepsOnError_single rfl keepsOnError_upsertUser
  | createSession id userId tokenHash expiresAt =>
    exact keepsOnError_single rfl (keepsOnError_insertSession id userId tokenHash expiresAt)
  | updateExpiry tokenHash expiresAt now => exact keepsOnError_single rfl keepsOnError_store
  | revoke tokenHash revokedAt => exact keepsOnError_single rfl keepsOnError_store
  | createSpace spaceId name ownerId =>
    rw [Write.statements, Write.choice, executeAll_createSpace]
    split
    · exact keepsOnError_store
    · exact fun _ _ => rfl

theorem usersIdSeq_le_execute {q : Stmt} {x : Except LibError q.Rows} {w' : World}
    (h : q.execute fold s i w = (x, w')) : w.db.usersIdSeq ≤ w'.db.usersIdSeq := by
  by_cases hu : ∃ p, q = .upsertUser p
  · obtain ⟨p, rfl⟩ := hu
    cases Database.upsertUser_draws (World.onDb_eq h).1 with
    | unsent _ _ hs | exhausted _ _ _ hs => exact Int.le_of_eq hs.symm
    | drawn _ _ _ hs => omega
  · rw [(World.users_of_execute (fun p hp => hu ⟨p, hp⟩) h).2]

theorem usersIdSeq_le_executeAll {qs : List Stmt} :
    w.db.usersIdSeq ≤ (w.executeAll fold s i qs).2.db.usersIdSeq := by
  induction qs generalizing w with
  | nil => exact Int.le_refl _
  | cons q qs ih =>
    rcases hq : q.execute fold s i w with ⟨x, w'⟩
    have hle : w.db.usersIdSeq ≤ w'.db.usersIdSeq := usersIdSeq_le_execute hq
    cases x with
    | ok rows =>
      rw [executeAll_cons_ok hq]
      exact hle.trans ih
    | error e =>
      rw [executeAll_cons_error hq]
      exact hle

def lockstep (fold : Char → Char) (i : Nat) (st : World × LiveStore) (wr : Instant × Write) :
    World × LiveStore :=
  ((st.1.perform fold i wr.1 wr.2).2,
    match wr.2.execute ⟨wr.1, st.1.db.usersIdSeq + 1⟩ st.2 with
    | .ok live => live
    | .error _ => st.2)

theorem mirrors_lockstep {st : World × LiveStore} (wr : Instant × Write)
    (hm : Mirrors st.1.db st.2) (hseq : 0 ≤ st.1.db.usersIdSeq) :
    Mirrors (lockstep fold i st wr).1.db (lockstep fold i st wr).2 := by
  have hcoincide : Coincide
      ((st.1.perform fold i wr.1 wr.2).1, (st.1.perform fold i wr.1 wr.2).2.db)
      (wr.2.execute ⟨wr.1, st.1.db.usersIdSeq + 1⟩ st.2) := coincide_perform hm hseq wr.2
  have hkeeps : KeepsOnError st.1.db
      ((st.1.perform fold i wr.1 wr.2).1, (st.1.perform fold i wr.1 wr.2).2.db) :=
    keepsOnError_perform wr.2
  unfold lockstep
  generalize st.1.perform fold i wr.1 wr.2 = r at hcoincide hkeeps ⊢
  obtain ⟨x, w'⟩ := r
  cases hy : wr.2.execute ⟨wr.1, st.1.db.usersIdSeq + 1⟩ st.2 with
  | ok live =>
    rw [hy] at hcoincide
    cases x with
    | ok _ => exact hcoincide
    | error _ => exact hcoincide.elim
  | error _ =>
    rw [hy] at hcoincide
    cases x with
    | ok _ => exact hcoincide.elim
    | error e => exact ⟨hm.catalog, hm.rows.trans (hkeeps e rfl).symm⟩

theorem mirrors_run (writes : List (Instant × Write)) {st : World × LiveStore}
    (hm : Mirrors st.1.db st.2) (hseq : 0 ≤ st.1.db.usersIdSeq) :
    Mirrors (writes.foldl (lockstep fold i) st).1.db (writes.foldl (lockstep fold i) st).2 ∧
      0 ≤ (writes.foldl (lockstep fold i) st).1.db.usersIdSeq := by
  induction writes generalizing st with
  | nil => exact ⟨hm, hseq⟩
  | cons wr writes ih =>
    exact ih (mirrors_lockstep wr hm hseq) (hseq.trans usersIdSeq_le_executeAll)

theorem Alembic.Revision.catalog_of_migrated {r : Revision}
    (h : run now (r.path.flatMap Revision.upgrade) .empty = .ok live) :
    live.catalog = r.catalog := by
  have hc : alterAll _ ∅ = .ok live.catalog := alterAll_of_run h
  simp only [Revision.catalog, hc]

theorem Alembic.Revision.exists_migrated (now : Instant) (r : Revision) :
    ∃ live, run now (r.path.flatMap Revision.upgrade) .empty = .ok live := by
  -- one script more
  have next (r r' : Revision) (h : r.next = some r') (hp : r'.path = r.path ++ [r'])
      (hr : ∃ live, run now (r.path.flatMap Revision.upgrade) .empty = .ok live) :
      ∃ live, run now (r'.path.flatMap Revision.upgrade) .empty = .ok live := by
    obtain ⟨live, hr⟩ := hr
    have hcat := Revision.catalog_of_migrated hr
    obtain ⟨live', hr', -⟩ := run_of_check now (hcat ▸ check_upgrade h) (hcat ▸ live.valid)
    refine ⟨live', ?_⟩
    rw [hp, List.flatMap_append, List.flatMap_singleton]
    exact run_append.2 ⟨live, hr, hr'⟩
  have h₁ : ∃ live, run now (createTmpTable.path.flatMap Revision.upgrade) .empty = .ok live := by
    have hcheck : (check (createTmpTable.path.flatMap Revision.upgrade) ∅ ∅).isSome := by
      decide +kernel
    obtain ⟨s, hs⟩ := Option.isSome_iff_exists.1 hcheck
    have hs' : check _ (Store.empty : LiveStore).catalog ∅ = some s := hs
    obtain ⟨live, hrun, -⟩ := run_of_check now hs' (by simp)
    exact ⟨live, hrun⟩
  have h₂ := next .createTmpTable .createUsersTable rfl rfl h₁
  have h₃ := next .createUsersTable .addLastLoginAt rfl rfl h₂
  have h₄ := next .addLastLoginAt .createSessionsTable rfl rfl h₃
  cases r with
  | createTmpTable => exact h₁
  | createUsersTable => exact h₂
  | addLastLoginAt => exact h₃
  | createSessionsTable => exact h₄
  | createSpaces => exact next .createSessionsTable .createSpaces rfl rfl h₄

theorem mirrors_migrated
    (h : run now (Revision.createSpaces.path.flatMap Revision.upgrade) .empty = .ok live) :
    Mirrors .empty live := by
  constructor
  · exact Revision.catalog_of_migrated h
  · funext t
    rw [rows_eq_nil_of_run h rfl]
    cases t <;> rfl

/-- From the empty database on, whatever has been written, the migrated tables take the next write
exactly if the statements of the repositories do, and keep the same rows. -/
theorem statements_match_migrations {migrated : Instant} (writes : List (Instant × Write))
    (wr : Write) (h : run migrated (Revision.createSpaces.path.flatMap Revision.upgrade) .empty = .ok live) :
    let st := writes.foldl (lockstep fold i) (.initial, live)
    Mirrors st.1.db st.2 ∧
      Coincide ((st.1.perform fold i now wr).1, (st.1.perform fold i now wr).2.db)
        (wr.execute ⟨now, st.1.db.usersIdSeq + 1⟩ st.2) := by
  have hrun : Mirrors (writes.foldl (lockstep fold i) (.initial, live)).1.db
        (writes.foldl (lockstep fold i) (.initial, live)).2 ∧
      0 ≤ (writes.foldl (lockstep fold i) (.initial, live)).1.db.usersIdSeq :=
    mirrors_run writes (mirrors_migrated h) (Int.le_refl 0)
  exact ⟨hrun.1, coincide_perform hrun.1 hrun.2 wr⟩

end

namespace Recorded

def sampleWrites : List (Instant × Write) :=
  [(5, .upsertUser ⟨42, some "ada", none, none, none, none, 5⟩),
    (6, .upsertUser ⟨43, none, some "Grace", none, none, none, 6⟩),
    (7, .createSession 1 1 "hash" 3600), (8, .createSpace 2 "notes" 1)]

theorem statements_match_migrations_sample : ∃ live,
    let st := sampleWrites.foldl (lockstep id 0) (.initial, live)
    Mirrors st.1.db st.2 ∧
      Coincide ((st.1.perform id 0 0 (.createSession 3 1 "hash" 7200)).1,
          (st.1.perform id 0 0 (.createSession 3 1 "hash" 7200)).2.db)
        ((Write.createSession 3 1 "hash" 7200).execute ⟨0, st.1.db.usersIdSeq + 1⟩ st.2) := by
  obtain ⟨live, h⟩ := Revision.exists_migrated 0 .createSpaces
  exact ⟨live, statements_match_migrations sampleWrites _ h⟩

end Recorded

end WikiBackend
