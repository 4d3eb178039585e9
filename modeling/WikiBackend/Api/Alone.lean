import WikiBackend.Api.Narrowing
import WikiBackend.Api.Refusals
import WikiBackend.Api.Storable
import WikiBackend.Db.Mirror

/-! A user is served as if there were no others: what is answered to the user's requests, and what
becomes of the account, does not depend on any row or any request of other users. -/

namespace WikiBackend

open Effects

/-! ## One statement -/

def Stmt.About (id : Int) (i : Nat) (w : World) : Stmt → Prop
  | .upsertUser p => ∃ u, w.db.userById id = some u ∧ p.telegramId = u.telegramId
  | .userById id' => id' = id
  | .usersByUsername _ _ => False
  | .insertSession _ userId _ _ => userId = id
  | .sessionByTokenHash hash | .updateExpiry hash _ _ | .revoke hash _ =>
    ∀ r, w.db.sessionByHash hash = some r → r.userId = id
  | .begin | .rollback => True
  | .insertSpace _ => w.txs i = some ⟨[], []⟩
  | .insertOwner userId spaceId =>
    userId = id ∧ ∃ name, w.txs i = some ⟨[⟨spaceId, name, none, none⟩], []⟩
  | .commit => ∃ spaceId name,
    w.txs i = some ⟨[⟨spaceId, name, none, none⟩], [⟨id, spaceId, "owner"⟩]⟩

namespace Database

variable {db : Database} {hash : String}

theorem updateExpiry_eq (expires now : Instant) : db.updateExpiry hash expires now =
    (.ok ((db.sessionByHash hash).map fun r => (setExpiry expires now r).toRecord),
      ⟨_, constraints_modifySession (keepsKeys_setExpiry expires now) db hash⟩) :=
  store_ok _

theorem revoke_eq (now : Instant) : db.revoke hash now =
    (.ok (db.sessionByHash hash).toList.length,
      ⟨_, constraints_modifySession (keepsKeys_setRevoked now) db hash⟩) :=
  store_ok _

end Database

namespace World

variable {id : Int} {hidden : Nat → Bool} {fold : Char → Char} {s : ServerChoice} {i : Nat}
  {w w' w₁ : World} {u : UserRow}

/-- The second world has the same account, and for the requests that are not hidden the same
transactions; what else it has, the first one has too. -/
structure Narrowed (id : Int) (hidden : Nat → Bool) (w w' : World) : Prop where
  db : w.db.Narrowed id w'.db
  clock : w'.clock ≤ w.clock
  tokens : w'.tokens ⊆ w.tokens
  txs : ∀ i, hidden i = false → w'.txs i = w.txs i

theorem insert_eq_ok {α : Type} {tx rows : Tx} {result x : α} (htx : w.txs i = some tx) :
    w.insert i rows result = (.ok x, w₁) ↔ (w.db.withTx (tx.append rows)).Constraints ∧
      x = result ∧ w₁ = w.setTx i (some (tx.append rows)) := by
  by_cases hc : (w.db.withTx (tx.append rows)).Constraints
  · rw [insert_ok htx hc]
    simp [hc, eq_comm]
  · simp [insert, htx, Tables.enforce, hc]

theorem fresh_of_insertSpace {name : String} {id : UUID}
    (h : Stmt.execute fold s i w (.insertSpace name) = (.ok id, w')) :
    s.uuid ∉ w.db.spaces.map (·.id) := by
  have fresh {rows : List SpaceRow} {n : String} {t : Tables} (hc : t.Constraints)
      (ht : t.spaces = w.db.spaces ++ (rows ++ [⟨s.uuid, n, none, none⟩])) :
      s.uuid ∉ w.db.spaces.map (·.id) := by
    have hnodup := hc.spacesId
    rw [ht, List.map_append, List.map_append, List.map_singleton] at hnodup
    intro hm
    exact (List.nodup_append.1 hnodup).2.2 _ hm _
      (List.mem_append_right _ (List.mem_singleton.2 rfl)) rfl
  simp only [Stmt.execute] at h
  split at h
  · cases h
  cases htx : w.txs i with
  | some tx => exact fresh ((insert_eq_ok htx).1 h).1 rfl
  | none =>
    rcases insert_cases h with ⟨_, hx, -⟩ | ⟨_, hsome, -⟩ | ⟨-, -, -, ht⟩
    · cases hx
    · cases htx.symm.trans hsome
    · have hs : w'.db.spaces =
          w.db.spaces ++ ([] ++ [⟨s.uuid, Relational.clip 255 name, none, none⟩]) :=
        congrArg Tables.spaces ht
      exact fresh w'.db.constraints hs

theorem Narrowed.execute_insertSpace {name : String} {spaceId : UUID}
    (h : w.Narrowed id hidden w') (hi : hidden i = false) (htx : w.txs i = some ⟨[], []⟩)
    (hx : Stmt.execute fold s i w (.insertSpace name) = (.ok spaceId, w₁)) :
    ∃ w₁', Stmt.execute fold s i w' (.insertSpace name) = (.ok spaceId, w₁') ∧
      w₁.db.Narrowed id w₁'.db := by
  simp only [Stmt.execute] at hx ⊢
  split at hx
  · cases hx
  · next hb =>
    obtain ⟨hc, rfl, rfl⟩ := (insert_eq_ok htx).1 hx
    have hfresh := h.db.fresh_space (Keyed.nodup_map_concat.1 hc.spacesId).1
    have hc' : (w'.db.withTx ⟨[⟨s.uuid, Relational.clip 255 name, none, none⟩], []⟩).Constraints :=
      Database.constraints_withTx hfresh List.nodup_nil (List.forall_mem_nil _)
    have hx' : w'.insert i ⟨[⟨s.uuid, Relational.clip 255 name, none, none⟩], []⟩ s.uuid =
        (.ok s.uuid, w'.setTx i (some ⟨[⟨s.uuid, Relational.clip 255 name, none, none⟩], []⟩)) :=
      insert_ok ((h.txs i hi).trans htx) hc'
    exact ⟨_, (if_neg hb).trans hx', h.db⟩

theorem Narrowed.execute_commit {spaceId : UUID} {name : String} (h : w.Narrowed id hidden w')
    (hi : hidden i = false) (hu : w.db.userById id = some u)
    (htx : w.txs i = some ⟨[⟨spaceId, name, none, none⟩], [⟨id, spaceId, "owner"⟩]⟩)
    (hx : Stmt.execute fold s i w .commit = (.ok (), w₁)) :
    ∃ w₁', Stmt.execute fold s i w' .commit = (.ok (), w₁') ∧ w₁.db.Narrowed id w₁'.db := by
  simp only [Stmt.execute, commit, (h.txs i hi).trans htx, htx] at hx ⊢
  by_cases hc : (w.db.withTx
      ⟨[⟨spaceId, name, none, none⟩], [⟨id, spaceId, "owner"⟩]⟩).Constraints
  · rw [Database.store_ok hc] at hx
    cases hx
    have hfresh := h.db.fresh_space (Keyed.nodup_map_concat.1 hc.spacesId).1
    have hc' : (w'.db.withTx
        ⟨[⟨spaceId, name, none, none⟩], [⟨id, spaceId, "owner"⟩]⟩).Constraints :=
      Database.constraints_owned hfresh (h.db.exists_user hu)
    refine ⟨{ w'.setTx i none with db := ⟨_, hc'⟩ }, ?_, h.db.owned hc hc'⟩
    rw [Database.store_ok hc']
    rfl
  · rw [Database.store_error hc] at hx
    cases hx

theorem Narrowed.execute {q : Stmt} {rows : q.Rows} (h : w.Narrowed id hidden w')
    (hi : hidden i = false) (hu : w.db.userById id = some u) (hq : q.About id i w)
    (hx : q.execute fold s i w = (.ok rows, w₁)) :
    ∃ w₁', q.execute fold s i w' = (.ok rows, w₁') ∧ w₁.db.Narrowed id w₁'.db := by
  have htx' := h.txs i hi
  cases q with
  | upsertUser p =>
    obtain ⟨v, hv, hp⟩ := hq
    obtain ⟨db', hx', hn⟩ := h.db.upsertUser hv hp (onDb_eq hx).1
    exact ⟨{ w' with db := db' }, by rw [Stmt.execute, hx']; rfl, hn⟩
  | userById id' =>
    obtain rfl : id' = id := hq
    cases hx
    exact ⟨w', by rw [Stmt.execute, h.db.userById], h.db⟩
  | usersByUsername pattern limit => cases hq
  | insertSession sessionId userId hash expires =>
    obtain rfl : userId = id := hq
    obtain ⟨db', hx', hn⟩ := h.db.insertSession hu (onDb_eq hx).1
    exact ⟨{ w' with db := db' }, by rw [Stmt.execute, hx']; rfl, hn⟩
  | sessionByTokenHash hash =>
    cases hx
    exact ⟨w', by rw [Stmt.execute, h.db.sessionByHash hq], h.db⟩
  | updateExpiry hash expires now =>
    rw [Stmt.execute, Database.updateExpiry_eq] at hx
    cases hx
    have hn := h.db.modifySession (Database.keepsKeys_setExpiry expires now) hash
    refine ⟨{ w' with db := ⟨_, _⟩ }, ?_, hn⟩
    rw [Stmt.execute, Database.updateExpiry_eq, h.db.sessionByHash hq]
    rfl
  | revoke hash now =>
    rw [Stmt.execute, Database.revoke_eq] at hx
    cases hx
    have hn := h.db.modifySession (Database.keepsKeys_setRevoked now) hash
    refine ⟨{ w' with db := ⟨_, _⟩ }, ?_, hn⟩
    rw [Stmt.execute, Database.revoke_eq, h.db.sessionByHash hq]
    rfl
  | begin =>
    cases hx
    exact ⟨_, rfl, h.db⟩
  | insertSpace name => exact h.execute_insertSpace hi hq hx
  | insertOwner userId spaceId =>
    obtain ⟨rfl, name, htx⟩ := hq
    obtain ⟨hc, rfl, rfl⟩ := (insert_eq_ok htx).1 hx
    have hfresh := h.db.fresh_space (Keyed.nodup_map_concat.1 hc.spacesId).1
    have hown := h.db.exists_user hu
    exact ⟨_, execute_insertOwner_ok (htx'.trans htx) hfresh hown, h.db⟩
  | commit =>
    obtain ⟨spaceId, name, htx⟩ := hq
    exact h.execute_commit hi hu htx hx
  | rollback =>
    cases hx
    exact ⟨_, rfl, h.db⟩

def only (w : World) (id : Int) : World := { w with db := w.db.only id }

theorem narrowed_only (w : World) (id : Int) (hidden : Nat → Bool) :
    w.Narrowed id hidden (w.only id) :=
  ⟨w.db.narrowed_only id, Int.le_refl _, List.Subset.refl _, fun _ _ => rfl⟩

end World

namespace App

variable {app : App} {w w' w₁ w₁' w₀ : World} {ls : List (Label Eff Eff.Answer Request)}
  {c c₁ : Config Eff Eff.Answer World Request (Except Exc Response)} {hidden : Nat → Bool}
  {i : Nat} {e : Eff} {a : e.Answer} {q : Stmt} {u v : UserRow} {req : Request} {s : String}

/-! ## One step -/

theorem within_of_trans (h : app.system.Trans w i e a w₁) : w.db.Within w₁.db := by
  have hseq : w.db.usersIdSeq ≤ w₁.db.usersIdSeq := by
    cases e with
    | clock => exact (trans_clock.1 h).2 ▸ Int.le_refl _
    | tokenUrlsafe => exact (trans_tokenUrlsafe.1 h).2 ▸ Int.le_refl _
    | uuid4 => exact trans_uuid4.1 h ▸ Int.le_refl _
    | sql q =>
      rcases trans_sql.1 h with ⟨s, hx⟩ | ⟨_, -, rfl⟩
      · exact usersIdSeq_le_execute hx
      · rw [World.fail_db]
  have hsessions : w.db.sessions.map (·.id) ⊆ w₁.db.sessions.map (·.id) ∧
      w.db.sessions.map (·.tokenHash) ⊆ w₁.db.sessions.map (·.tokenHash) := by
    cases sessionsStep_of_trans h with
    | kept _ hk =>
      rw [hk]
      exact ⟨List.Subset.refl _, List.Subset.refl _⟩
    | inserted hk =>
      rw [hk, List.map_append, List.map_append]
      exact ⟨List.subset_append_left .., List.subset_append_left ..⟩
    | extended hk =>
      have hf := Database.keepsKeys_setExpiry
      rw [hk, Keyed.map_modify (hf _ _).id, Keyed.map_modify (hf _ _).tokenHash]
      exact ⟨List.Subset.refl _, List.Subset.refl _⟩
    | revoked hk =>
      have hf := Database.keepsKeys_setRevoked
      rw [hk, Keyed.map_modify (hf _).id, Keyed.map_modify (hf _).tokenHash]
      exact ⟨List.Subset.refl _, List.Subset.refl _⟩
  have hspaces : w.db.spaces.map (·.id) ⊆ w₁.db.spaces.map (·.id) := by
    cases spacesStep_of_trans h with
    | kept hk _ | insertedOwner _ hk _ => rw [hk]; exact List.Subset.refl _
    | committed _ hk _ | insertedSpace _ hk _ =>
      rw [hk, List.map_append]
      exact List.subset_append_left ..
  exact ⟨hseq, hsessions.1, hsessions.2, hspaces⟩

theorem account_of_error {y : LibError} (h : app.system.Trans w i (.sql q) (.error y) w₁)
    (id : Int) : w₁.db.account id = w.db.account id := by
  have hu : w₁.db.users = w.db.users := by
    cases usersStep_of_trans h with
    | kept _ hk => exact hk
  have hs : w₁.db.sessions = w.db.sessions := by
    cases sessionsStep_of_trans h with
    | kept _ hk => exact hk
  have hsm : w₁.db.spaces = w.db.spaces ∧ w₁.db.memberships = w.db.memberships := by
    cases spacesStep_of_trans h with
    | kept hk hm => exact ⟨hk, hm⟩
  exact Database.account_congr hu hs hsm.2 hsm.1

theorem narrowed_of_sql {id : Int} {x : Except LibError q.Rows} (h : w.Narrowed id hidden w')
    (ht : app.system.Trans w i (.sql q) x w₁) (ht' : app.system.Trans w' i (.sql q) x w₁')
    (hdb : w₁.db.Narrowed id w₁'.db) : w₁.Narrowed id hidden w₁' := by
  obtain ⟨hc, hk⟩ := sql_clock ht
  obtain ⟨hc', hk'⟩ := sql_clock ht'
  refine ⟨hdb, ?_, ?_, fun j hj => ?_⟩
  · rw [hc, hc']
    exact h.clock
  · rw [hk, hk']
    exact h.tokens
  · rw [txs_of_trans ht, txs_of_trans ht', Function.update_apply, Function.update_apply]
    split
    · next hij =>
      rw [← hij, h.txs j hj]
    · exact h.txs j hj

theorem narrowed_of_others {id : Int} (h : w.Narrowed id hidden w')
    (ht : app.system.Trans w i e a w₁) (hi : hidden i = true)
    (hacc : w₁.db.account id = w.db.account id) : w₁.Narrowed id hidden w' := by
  have hw := evolves_of_trans ht
  refine ⟨h.db.others hacc (within_of_trans ht), h.clock.trans hw.clock, ?_, fun j hj => ?_⟩
  · exact fun s hs => hw.tokens s (h.tokens hs)
  · have hij : j ≠ i := by
      rintro rfl
      cases hi.symm.trans hj
    rw [txs_of_trans ht, Function.update_of_ne hij]
    exact h.txs j hj

/-! ## Requests of the user -/

/-- The request acts for the user, and asks for the rows of no others. -/
def Personal (app : App) (w : World) (u : UserRow) (req : Request) : Prop :=
  app.ActsFor w u req ∧ ∀ query authorization, req ≠ .searchUsers query authorization

theorem sessionToken_of_accessToken {token : String} (h : req.accessToken? = some token) :
    req.sessionToken? = none := by
  cases req with
  | verifyToken | createSession => rfl
  | _ => cases h

theorem ActsFor.telegramId {token : String} {t : Instant} {p : TokenPayload}
    (h : app.ActsFor w u req) (hreq : req.accessToken? = some token) (ha : app.Accepts t token p) :
    p.telegramId = u.telegramId := by
  rcases h with ⟨token', t', p', hreq', ha', htg⟩ | ⟨s, r, hs, -⟩
  · cases hreq.symm.trans hreq'
    have hp := (TokenService.verifyToken_eq_ok.1 ha).1
    have hp' := (TokenService.verifyToken_eq_ok.1 ha').1
    cases hp.symm.trans hp'
    exact htg
  · cases hs.symm.trans (sessionToken_of_accessToken hreq)

theorem ActsFor.userId {r : SessionRow} (h : app.ActsFor w₁ u req)
    (hs : req.sessionToken? = some s) (hw : w.Evolves w₁)
    (hr : w.db.sessionByHash (app.hashToken s) = some r) : r.userId = u.id := by
  rcases h with ⟨token, t, p, hreq, -⟩ | ⟨s', r', hs', hr', hid⟩
  · cases hs.symm.trans (sessionToken_of_accessToken hreq)
  · cases hs.symm.trans hs'
    obtain ⟨r'', hr'', he⟩ := hw.sessions hr
    cases hr'.symm.trans hr''
    exact he.userId.symm.trans hid

theorem about_of_step {x : Except LibError q.Rows} (h : app.system.Run (.init w₀) ls c)
    (hst : app.system.Step c (.did i (.sql q) x) c₁) (hw : c.world.Evolves w₁)
    (hp : ∀ req, .started i req ∈ ls → app.Personal w₁ u req)
    (hv : c.world.db.userById u.id = some v) (htg : v.telegramId = u.telegramId) :
    q.About u.id i c.world := by
  obtain ⟨req, hreq, hx⟩ := executes_of_step h hst
  obtain ⟨hacts, hsearch⟩ := hp req hreq
  have htx := txs_of_run h i
  have howner {s : String} (hs : req.sessionToken? = some s) :
      ∀ r, c.world.db.sessionByHash (app.hashToken s) = some r → r.userId = u.id :=
    fun r hr => hacts.userId hs hw hr
  have hselected {s : String} {rec : SessionRecord} {evs : List Ev}
      (hs : req.sessionToken? = some s) (ho : own i ls = app.selectEv s rec :: evs) :
      rec.userId = u.id := by
    obtain ⟨r, hr, hid⟩ := row_of_selected h ho
    exact hid.symm.trans (howner hs r hr)
  have hlooked {s : String} {rec : SessionRecord} {t : Instant} {user : UserRow} {evs : List Ev}
      (hs : req.sessionToken? = some s)
      (ho : own i ls = app.selectEv s rec :: clockEv t :: userEv rec user :: evs) :
      user.id = u.id := by
    have hm : .did i (.sql (.userById rec.userId)) (.ok (some user)) ∈ ls :=
      mem_own.1 (by rw [ho]; exact .tail _ (.tail _ (.head _)))
    exact (id_of_looked h hm).trans (hselected hs ho)
  generalize ho : own i ls = evs at hx htx
  cases hx with
  | upsertUser htok ha => exact ⟨v, hv, (hacts.telegramId htok ha).trans htg.symm⟩
  | @insertSession body t p now row created s t' expires uuid ha ht =>
    have hm : .did i (.sql (.upsertUser (p.upsertParams now))) (.ok (some (row, created))) ∈ ls :=
      mem_own.1 (by simp [ho])
    obtain ⟨user, huser, hut⟩ := user_of_upserted h hm
    obtain ⟨hmem, hid⟩ := Database.userById_eq_some.1 huser
    obtain ⟨hmem', hid'⟩ := Database.userById_eq_some.1 hv
    have hsame : user.telegramId = v.telegramId :=
      hut.trans ((hacts.telegramId rfl ha).trans htg.symm)
    have h₁ := Database.userByTelegramId_eq_some.2 ⟨hmem, hsame⟩
    have h₂ := Database.userByTelegramId_eq_some.2 ⟨hmem', rfl⟩
    cases h₁.symm.trans h₂
    exact hid.symm.trans hid'
  | sessionByTokenHash hs => exact howner hs
  | userById hs ha => exact hselected hs ho
  | updateExpiry hs ha ht => exact howner (toOption_eq_some hs)
  | revoke hs ha => exact howner (toOption_eq_some hs)
  | usersByUsername hs ha => exact absurd rfl (hsearch _ _)
  | begin => trivial
  | insertSpace => exact htx
  | insertOwner hs ha hn => exact ⟨hlooked (toOption_eq_some hs) ho, _, htx⟩
  | @commit body authorization s rec t user spaceId hs ha hn =>
    have hid := hlooked (toOption_eq_some hs) ho
    refine ⟨spaceId, Relational.clip 255 body.name, ?_⟩
    rw [htx, ← hid]
    rfl
  | rollback => trivial

theorem narrowed_of_personal (h : app.system.Run (.init w₀) ls c)
    (hst : app.system.Step c (.did i e a) c₁) (hw : c.world.Evolves w₁)
    (hp : ∀ req, .started i req ∈ ls → app.Personal w₁ u req)
    (hv : c.world.db.userById u.id = some v) (htg : v.telegramId = u.telegramId)
    (hi : hidden i = false) (hb : c.world.Narrowed u.id hidden w') :
    ∃ w₁', app.system.Trans w' i e a w₁' ∧ c₁.world.Narrowed u.id hidden w₁' := by
  have ht := hst.trans
  cases e with
  | clock =>
    obtain ⟨hle, hc⟩ := trans_clock.1 ht
    refine ⟨_, trans_clock.2 ⟨hb.clock.trans hle, rfl⟩, ?_⟩
    rw [hc]
    exact ⟨hb.db, Int.le_refl _, hb.tokens, hb.txs⟩
  | tokenUrlsafe =>
    obtain ⟨hs, hc⟩ := trans_tokenUrlsafe.1 ht
    refine ⟨_, trans_tokenUrlsafe.2 ⟨fun hm => hs (hb.tokens hm), rfl⟩, ?_⟩
    rw [hc]
    exact ⟨hb.db, hb.clock, List.cons_subset_cons _ hb.tokens, hb.txs⟩
  | uuid4 =>
    refine ⟨_, trans_uuid4.2 rfl, ?_⟩
    rw [trans_uuid4.1 ht]
    exact hb
  | sql q =>
    cases a with
    | error y =>
      have ht' : app.system.Trans w' i (.sql q) (.error y) (q.fail i w') :=
        trans_sql.2 (.inr ⟨y, rfl, rfl⟩)
      refine ⟨_, ht', narrowed_of_sql hb ht ht' ?_⟩
      rw [World.fail_db]
      exact hb.db.others (account_of_error ht u.id) (within_of_trans ht)
    | ok rows =>
      have hq := about_of_step h hst hw hp hv htg
      rcases trans_sql.1 ht with ⟨s, hx⟩ | ⟨_, he, -⟩
      · obtain ⟨w₁', hx', hdb⟩ := hb.execute hi hv hq hx
        have ht' : app.system.Trans w' i (.sql q) (.ok rows) w₁' := trans_sql.2 (.inl ⟨s, hx'⟩)
        exact ⟨w₁', ht', narrowed_of_sql hb ht ht' hdb⟩
      · cases he

/-! ## Other requests -/

theorem ActsFor.of_same (h : app.ActsFor w v req) (hid : v.id = u.id)
    (htg : v.telegramId = u.telegramId) : app.ActsFor w u req := by
  rw [ActsFor, hid, htg] at h
  exact h

theorem db_of_search {query : SearchQuery} {authorization : Option String}
    (h : app.system.Run (.init w₀) ls c) (hst : app.system.Step c (.did i e a) c₁)
    (hreq : .started i (.searchUsers query authorization) ∈ ls) : c₁.world.db = c.world.db := by
  have ht := hst.trans
  cases e with
  | clock => rw [(trans_clock.1 ht).2]
  | tokenUrlsafe => rw [(trans_tokenUrlsafe.1 ht).2]
  | uuid4 => rw [trans_uuid4.1 ht]
  | sql q =>
    obtain ⟨req, hreq', hx⟩ := executes_of_step h hst
    obtain rfl := h.started_unique hreq hreq'
    generalize own i ls = evs at hx
    cases hx with
    | upsertUser htok => cases htok
    | sessionByTokenHash | userById | usersByUsername => exact (behind_of_reads ht rfl).db.symm

theorem account_of_others (h : app.system.Run (.init w₀) ls c)
    (hst : app.system.Step c (.did i e a) c₁) (hw : c.world.Evolves w₁)
    (hp : ∀ req, .started i req ∈ ls → ¬app.Personal w₁ u req)
    (hv : c.world.db.userById u.id = some v) (htg : v.telegramId = u.telegramId) :
    c₁.world.db.account u.id = c.world.db.account u.id := by
  have hid : v.id = u.id := (Database.userById_eq_some.1 hv).2
  obtain ⟨req, hreq, -⟩ := h.issued hst
  by_cases hs : ∃ query authorization, req = .searchUsers query authorization
  · obtain ⟨query, authorization, rfl⟩ := hs
    rw [db_of_search h hst hreq]
  · have hother : ∀ req, .started i req ∈ ls → ¬app.ActsFor c.world v req := by
      intro req' hreq' hacts
      obtain rfl := h.started_unique hreq hreq'
      refine hp req hreq ⟨(hacts.of_same hid htg).mono hw, fun query authorization he => ?_⟩
      exact hs ⟨query, authorization, he⟩
    rw [← hid] at hv ⊢
    exact account_of_step h hst hv hother

/-! ## Whole runs -/

theorem undisturbed_of_trans (h : app.system.Trans w i e a w')
    (hok : ∀ q y, (⟨e, a⟩ : Ev) ≠ sqlEv q (.error y)) : app.undisturbed.Trans w i e a w' := by
  cases e with
  | sql q =>
    rcases trans_sql.1 h with ⟨s, hx⟩ | ⟨y, rfl, -⟩
    · refine trans_undisturbed_sql.2 ⟨s, ?_, hx⟩
      rintro name rfl
      cases a with
      | error y => exact absurd rfl (hok _ y)
      | ok id => exact World.fresh_of_insertSpace hx
    · exact absurd rfl (hok q y)
  | clock => exact trans_undisturbed_clock.2 (trans_clock.1 h)
  | tokenUrlsafe =>
    obtain ⟨hnew, rfl⟩ := trans_tokenUrlsafe.1 h
    exact ⟨.token a, by simp only [undisturbed, World.execUndisturbed, World.exec, if_neg hnew]⟩
  | uuid4 =>
    obtain rfl := trans_uuid4.1 h
    exact ⟨.uuid a, rfl⟩

theorem undisturbed_of_run {c₀ : Config Eff Eff.Answer World Request (Except Exc Response)}
    (h : app.system.Run c₀ ls c)
    (hok : ∀ i q y, .did i (.sql q) (.error y) ∉ ls) : app.undisturbed.Run c₀ ls c := by
  induction h with
  | nil => exact .nil _
  | snoc _ hs ih =>
    refine .snoc (ih fun i q y hm => hok i q y (List.mem_append_left _ hm)) ?_
    cases hs with
    | start req => exact .start req
    | run hp ht =>
      refine .run hp (undisturbed_of_trans ht fun q y he => ?_)
      cases he
      exact hok _ q y (List.mem_append_right _ (List.mem_singleton.2 rfl))

/-- The requests of a user other than searches, if none of their statements raises, have the same
answers, and leave the same account, without all rows and requests of others and while nothing
fails. -/
theorem served_alone (h : app.system.Run (.init w₀) ls c) (hu : w₀.db.userById u.id = some u)
    (hhidden : ∀ i req, .started i req ∈ ls → (hidden i = false ↔ app.Personal c.world u req))
    (hok : ∀ i q y, hidden i = false → .did i (.sql q) (.error y) ∉ ls) :
    ∃ c', app.undisturbed.Run (.init (w₀.only u.id)) (ls.filter (·.shown hidden)) c' ∧
      c'.world.db.account u.id = c.world.db.account u.id ∧
      ∀ i, hidden i = false → ∀ r, c'.Returned i r ↔ c.Returned i r := by
  have hc : System.Erased (World.Narrowed u.id hidden) hidden
      (.init w₀ : Config Eff Eff.Answer World Request (Except Exc Response))
      (.init (w₀.only u.id)) :=
    ⟨w₀.narrowed_only u.id hidden, rfl, fun _ _ => rfl⟩
  obtain ⟨c', hr, he⟩ : ∃ c',
      app.system.Run (.init (w₀.only u.id)) (ls.filter (·.shown hidden)) c' ∧
      System.Erased (World.Narrowed u.id hidden) hidden c c' := by
    refine h.erase_of ?_ ?_ hc
    · rintro l₁ l₂ i e a c₁ c₂ w' rfl h₁ hst h₂ hi hb
      obtain ⟨v, hv, htg⟩ := (evolves_of_run h₁).users hu
      have hp : ∀ req, .started i req ∈ l₁ → ¬app.Personal c.world u req := by
        intro req hreq hper
        cases hi.symm.trans ((hhidden i req (List.mem_append_left _ hreq)).2 hper)
      have hacc := account_of_others h₁ hst (evolves_of_run (hst.single.append h₂)) hp hv htg
      exact narrowed_of_others hb hst.trans hi hacc
    · rintro l₁ l₂ i e a c₁ c₂ w' rfl h₁ hst h₂ hi hb
      obtain ⟨v, hv, htg⟩ := (evolves_of_run h₁).users hu
      have hp : ∀ req, .started i req ∈ l₁ → app.Personal c.world u req := fun req hreq =>
        (hhidden i req (List.mem_append_left _ hreq)).1 hi
      exact narrowed_of_personal h₁ hst (evolves_of_run (hst.single.append h₂)) hp hv htg hi hb
  have hok' : ∀ i q y, .did i (.sql q) (.error y) ∉ ls.filter (·.shown hidden) := by
    intro i q y hm
    obtain ⟨hm, hshown⟩ := List.mem_filter.1 hm
    exact hok i q y (by simpa [Label.shown] using hshown) hm
  refine ⟨c', undisturbed_of_run hr hok', he.world.db.account, fun i hi r => ?_⟩
  simp only [Config.Returned, he.procs i hi]

end App

namespace Recorded

def otherHash : String := recordedApp.hashToken "other"

def busyWorld : World where
  db :=
    { users := [userRow, neighbour]
      usersIdSeq := 2
      sessions := [sessionRow, { sessionRow with id := 2, userId := 2, tokenHash := otherHash }]
      spaces := []
      memberships := []
      constraints := by decide +kernel }
  clock := loginAt
  tokens := [sessionToken, "other"]
  txs _ := none

def busyRun : List (Label Eff Eff.Answer Request) :=
  [.started 0 (.createSpace notes authorization), .started 1 (.getSession (some "Bearer other")),
    .did 1 (.sql (.sessionByTokenHash otherHash))
      (.ok (some { sessionRecord with id := 2, userId := 2 })),
    .did 0 (.sql (.sessionByTokenHash sessionHash)) (.ok (some sessionRecord)),
    .did 0 .clock loginAt, .did 1 .clock loginAt,
    .did 0 (.sql (.userById 1)) (.ok (some userRow)), .did 0 (.sql .begin) (.ok ()),
    .did 0 (.sql (.insertSpace "Notes")) (.ok 5),
    .did 1 (.sql (.userById 2)) (.ok (some neighbour)),
    .did 0 (.sql (.insertOwner 1 5)) (.ok ()), .did 0 (.sql .commit) (.ok ())]

theorem served_alone_busy :
    ∃ c', recordedApp.undisturbed.Run (.init (busyWorld.only userRow.id))
        (busyRun.filter (·.shown (· == 1))) c' ∧ c'.Returned 0 (.ok (.spaceCreate 5)) := by
  obtain ⟨c, hrun, hret⟩ : ∃ c, recordedApp.system.Run (.init busyWorld) busyRun c ∧
      decide (c.result? 0 = some (.ok (.spaceCreate 5)) ∧
        (c.world.db.sessionByHash sessionHash).map (·.userId) = some 1 ∧
        (c.world.db.sessionByHash otherHash).map (·.userId) = some 2) :=
    System.exists_run choiceFor _ (by decide +kernel)
  obtain ⟨h₀, hsession, hother⟩ := of_decide_eq_true hret
  have hhidden : ∀ i req, .started i req ∈ busyRun →
      ((i == 1) = false ↔ recordedApp.Personal c.world userRow req) := by
    intro i req hm
    simp only [busyRun, List.mem_cons, Label.started.injEq, reduceCtorEq, or_false,
      List.not_mem_nil] at hm
    rcases hm with ⟨rfl, rfl⟩ | ⟨rfl, rfl⟩
    · obtain ⟨r, hr, hid⟩ := Option.map_eq_some_iff.1 hsession
      have hs : (Request.createSpace notes authorization).sessionToken? = some sessionToken := by
        rw [Request.sessionToken?, bearer_authorization]
        rfl
      exact iff_of_true rfl ⟨.inr ⟨sessionToken, r, hs, hr, hid⟩, fun _ _ h => by cases h⟩
    · refine iff_of_false (by decide) ?_
      rintro ⟨⟨token, t, p, htok, -⟩ | ⟨s, r, hs, hr, hid⟩, -⟩
      · cases htok
      · have htok : extractBearerToken (some "Bearer other") = .ok "other" := by decide +kernel
        rw [Request.sessionToken?, htok] at hs
        cases hs
        rw [show otherHash = recordedApp.hashToken "other" from rfl, hr] at hother
        rw [Option.map_some, hid] at hother
        cases hother
  have hok : ∀ i q y, (i == 1) = false → .did i (.sql q) (.error y) ∉ busyRun := by
    have hnone : ((events busyRun).any failed) = false := by decide +kernel
    intro i q y _ hm
    have hev : (⟨.sql q, .error y⟩ : Ev) ∈ events busyRun := List.mem_filterMap.2 ⟨_, hm, rfl⟩
    exact Bool.false_ne_true (hnone.symm.trans (List.any_eq_true.2 ⟨_, hev, rfl⟩))
  obtain ⟨c', hr, -, hsame⟩ := App.served_alone hrun (by decide +kernel) hhidden hok
  exact ⟨c', hr, (hsame 0 rfl _).2 (Config.returned_of_result? h₀)⟩

end Recorded

end WikiBackend
