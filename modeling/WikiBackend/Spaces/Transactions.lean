import WikiBackend.Api.Paths
import WikiBackend.Api.Transitions

/-! Transactions on spaces: the rows a request has inserted but not committed are a
function of its own events, and only a commit writes to the tables. -/

namespace WikiBackend

open Effects Relational

def txStep (tx : Option Tx) : Ev → Option Tx
  | ⟨.sql .begin, .ok _⟩ => some ⟨[], []⟩
  | ⟨.sql (.insertSpace name), .ok id⟩ =>
    tx.map (·.append ⟨[⟨id, clip 255 name, none, none⟩], []⟩)
  | ⟨.sql (.insertOwner userId spaceId), .ok _⟩ =>
    tx.map (·.append ⟨[], [⟨userId, spaceId, "owner"⟩]⟩)
  | ⟨.sql .commit, _⟩ => none
  | ⟨.sql .rollback, _⟩ => none
  | _ => tx

inductive SpacesStep (db db' : Database) (tx : Option Tx) : Ev → Prop where
  | kept {ev : Ev} : db'.spaces = db.spaces → db'.memberships = db.memberships →
      SpacesStep db db' tx ev
  | committed {rows : Tx} : tx = some rows → db'.spaces = db.spaces ++ rows.spaces →
      db'.memberships = db.memberships ++ rows.memberships →
      SpacesStep db db' tx (sqlEv .commit (.ok ()))
  | insertedSpace {name : String} {id : UUID} : tx = none →
      db'.spaces = db.spaces ++ [⟨id, clip 255 name, none, none⟩] →
      db'.memberships = db.memberships →
      SpacesStep db db' tx (sqlEv (.insertSpace name) (.ok id))
  | insertedOwner {userId : Int} {spaceId : UUID} : tx = none → db'.spaces = db.spaces →
      db'.memberships = db.memberships ++ [⟨userId, spaceId, "owner"⟩] →
      SpacesStep db db' tx (sqlEv (.insertOwner userId spaceId) (.ok ()))

namespace World

variable {w w' : World} {i : Nat}

theorem update_txs_none (h : w.txs i = none) : Function.update w.txs i none = w.txs := by
  rw [← h, Function.update_eq_self]

theorem insert_cases {α : Type} {rows : Tx} {result : α} {x : Except LibError α}
    (h : w.insert i rows result = (x, w')) :
    (∃ e, x = .error e ∧ w' = w) ∨
    (∃ tx, w.txs i = some tx ∧ x = .ok result ∧ w' = w.setTx i (some (tx.append rows))) ∨
    (w.txs i = none ∧ x = .ok result ∧ w'.txs = w.txs ∧
      w'.db.toTables = w.db.toTables.withTx rows) := by
  unfold insert at h
  split at h
  · rename_i tx htx
    split at h
    · cases h
      exact .inr (.inl ⟨tx, htx, rfl, rfl⟩)
    · cases h
      exact .inl ⟨_, rfl, rfl⟩
  · rename_i htx
    obtain ⟨hs, hc, hk, ht⟩ := onDb_eq h
    rcases Database.store_cases hs with ⟨rfl, hdb⟩ | ⟨e, rfl, hdb⟩
    · exact .inr (.inr ⟨htx, rfl, ht, hdb⟩)
    · refine .inl ⟨e, rfl, ?_⟩
      cases w'
      simp_all

theorem txs_of_insert {α : Type} {rows : Tx} {result : α} {x : Except LibError α}
    (h : w.insert i rows result = (x, w')) :
    (∃ e, x = .error e ∧ w'.txs = w.txs) ∨
    (x = .ok result ∧ w'.txs = Function.update w.txs i ((w.txs i).map (·.append rows))) := by
  rcases insert_cases h with ⟨e, hx, rfl⟩ | ⟨tx, htx, hx, rfl⟩ | ⟨htx, hx, ht, -⟩
  · exact .inl ⟨e, hx, rfl⟩
  · refine .inr ⟨hx, ?_⟩
    rw [htx]
    rfl
  · refine .inr ⟨hx, ?_⟩
    rw [ht, htx]
    exact (update_txs_none htx).symm

theorem commit_cases {x : Except LibError Unit} (h : w.commit i = (x, w')) :
    (w.txs i = none ∧ x = .ok () ∧ w' = w) ∨
    ∃ tx, w.txs i = some tx ∧ w'.txs = Function.update w.txs i none ∧
      ((x = .ok () ∧ w'.db.toTables = w.db.toTables.withTx tx) ∨ ∃ e, x = .error e ∧ w'.db = w.db) := by
  unfold commit at h
  split at h
  · rename_i tx htx
    obtain ⟨hs, -, -, ht⟩ := onDb_eq h
    refine .inr ⟨tx, htx, ht, ?_⟩
    exact Database.store_cases hs
  · rename_i htx
    cases h
    exact .inl ⟨htx, rfl, rfl⟩

end World

namespace App

variable {app : App} {w w' : World} {i : Nat} {e : Eff} {a : e.Answer} {q : Stmt}

theorem txs_of_execute {fold : Char → Char} {s : ServerChoice} {x : Except LibError q.Rows}
    (h : q.execute fold s i w = (x, w')) :
    w'.txs = Function.update w.txs i (txStep (w.txs i) (sqlEv q x)) := by
  cases q with
  | upsertUser | insertSession | updateExpiry | revoke =>
    obtain ⟨-, -, -, ht⟩ := World.onDb_eq h
    rw [ht]
    exact (Function.update_eq_self i w.txs).symm
  | begin =>
    cases h
    rfl
  | insertSpace name =>
    rcases World.execute_insertSpace h with ⟨_, rfl, rfl⟩ | hi
    · exact (Function.update_eq_self i w'.txs).symm
    · rcases World.txs_of_insert hi with ⟨_, rfl, ht⟩ | ⟨rfl, ht⟩
      · rw [ht]
        exact (Function.update_eq_self i w.txs).symm
      · exact ht
  | insertOwner userId spaceId =>
    rcases World.txs_of_insert h with ⟨_, rfl, ht⟩ | ⟨rfl, ht⟩
    · rw [ht]
      exact (Function.update_eq_self i w.txs).symm
    · exact ht
  | commit =>
    rcases World.commit_cases h with ⟨htx, rfl, rfl⟩ | ⟨tx, htx, ht, -⟩
    · exact (World.update_txs_none htx).symm
    · exact ht
  | rollback =>
    cases h
    rfl
  | _ =>
    cases h
    exact (Function.update_eq_self i w.txs).symm

theorem txs_of_trans (h : app.system.Trans w i e a w') :
    w'.txs = Function.update w.txs i (txStep (w.txs i) ⟨e, a⟩) := by
  have same : w.txs = Function.update w.txs i (w.txs i) := (Function.update_eq_self i w.txs).symm
  cases e with
  | clock =>
    obtain ⟨-, rfl⟩ := trans_clock.1 h
    exact same
  | tokenUrlsafe =>
    obtain ⟨-, rfl⟩ := trans_tokenUrlsafe.1 h
    exact same
  | uuid4 =>
    obtain rfl := trans_uuid4.1 h
    exact same
  | sql q =>
    rcases trans_sql.1 h with ⟨s, hx⟩ | ⟨y, rfl, rfl⟩
    · exact txs_of_execute hx
    · cases q <;> first | rfl | exact same

theorem spacesStep_of_execute {fold : Char → Char} {s : ServerChoice} {x : Except LibError q.Rows}
    (h : q.execute fold s i w = (x, w')) : SpacesStep w.db w'.db (w.txs i) (sqlEv q x) := by
  cases q with
  | upsertUser p =>
    obtain ⟨hu, -⟩ := World.onDb_eq h
    rcases Database.upsertUser_cases hu with ⟨_, -, ht | ht⟩ | ⟨_, -, -, ht⟩ | ⟨-, -, ht⟩
    · exact .kept (by rw [ht]) (by rw [ht])
    all_goals exact .kept (by rw [ht]; rfl) (by rw [ht]; rfl)
  | insertSession id userId tokenHash expires =>
    obtain ⟨hi, -⟩ := World.onDb_eq h
    rcases Database.insertSession_cases hi with ⟨_, -, ht⟩ | ⟨-, ht⟩ <;>
      exact .kept (by rw [ht]) (by rw [ht])
  | updateExpiry tokenHash expires now =>
    obtain ⟨hu, -⟩ := World.onDb_eq h
    rcases Database.updateExpiry_cases hu with ⟨_, -, ht⟩ | ⟨-, ht⟩ <;>
      exact .kept (by rw [ht]) (by rw [ht])
  | revoke tokenHash now =>
    obtain ⟨hu, -⟩ := World.onDb_eq h
    rcases Database.revoke_cases hu with ⟨_, -, ht⟩ | ⟨-, ht⟩ <;>
      exact .kept (by rw [ht]) (by rw [ht])
  | insertSpace name =>
    rcases World.execute_insertSpace h with ⟨_, rfl, rfl⟩ | hi
    · exact .kept rfl rfl
    · rcases World.insert_cases hi with ⟨_, rfl, rfl⟩ | ⟨tx, htx, rfl, rfl⟩ | ⟨htx, rfl, -, ht⟩
      · exact .kept rfl rfl
      · exact .kept rfl rfl
      · exact .insertedSpace htx (by rw [ht]; rfl) (by rw [ht]; exact List.append_nil _)
  | insertOwner userId spaceId =>
    rcases World.insert_cases h with ⟨_, rfl, rfl⟩ | ⟨tx, htx, rfl, rfl⟩ | ⟨htx, rfl, -, ht⟩
    · exact .kept rfl rfl
    · exact .kept rfl rfl
    · exact .insertedOwner htx (by rw [ht]; exact List.append_nil _) (by rw [ht]; rfl)
  | commit =>
    rcases World.commit_cases h with ⟨-, -, rfl⟩ | ⟨tx, htx, -, ⟨rfl, ht⟩ | ⟨_, -, ht⟩⟩
    · exact .kept rfl rfl
    · exact .committed htx (by rw [ht]; rfl) (by rw [ht]; rfl)
    · exact .kept (by rw [ht]) (by rw [ht])
  | _ =>
    cases h
    exact .kept rfl rfl

theorem spacesStep_of_trans (h : app.system.Trans w i e a w') :
    SpacesStep w.db w'.db (w.txs i) ⟨e, a⟩ := by
  cases e with
  | clock =>
    obtain ⟨-, rfl⟩ := trans_clock.1 h
    exact .kept rfl rfl
  | tokenUrlsafe =>
    obtain ⟨-, rfl⟩ := trans_tokenUrlsafe.1 h
    exact .kept rfl rfl
  | uuid4 =>
    obtain rfl := trans_uuid4.1 h
    exact .kept rfl rfl
  | sql q =>
    rcases trans_sql.1 h with ⟨s, hx⟩ | ⟨y, rfl, rfl⟩
    · exact spacesStep_of_execute hx
    · exact .kept (by rw [World.fail_db]) (by rw [World.fail_db])

variable {w₀ : World} {ls : List (Label Eff Eff.Answer Request)}
  {c : Config Eff Eff.Answer World Request (Except Exc Response)}

theorem txs_of_run (h : app.system.Run (.init w₀) ls c) (i : Nat) :
    c.world.txs i = (own i ls).foldl txStep (w₀.txs i) := by
  induction h with
  | nil => rfl
  | snoc _ hs ih =>
    rw [own_append, List.foldl_append, ← ih]
    cases hs with
    | start => rfl
    | @run j _ e _ a _ _ ht =>
      rw [txs_of_trans ht, Function.update_apply, own]
      by_cases hij : i = j
      · subst hij
        rw [if_pos rfl, if_pos rfl]
        rfl
      · rw [if_neg hij, if_neg (Ne.symm hij)]
        rfl

end App

end WikiBackend
