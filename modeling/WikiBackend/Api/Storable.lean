import WikiBackend.Db.Domains
import WikiBackend.Spaces.Transactions
import WikiBackend.Token.Payloads

/-! Whether the database takes what the validation lets through: the values of an accepted token
and the name of a space. -/

namespace WikiBackend

open Effects

namespace World

variable {fold : Char → Char} {s : ServerChoice} {w w' : World} {i : Nat} {q : Stmt}

/-! ## Ids -/

theorem idsGiven_of_tables {db db' : Database} (hu : db'.users = db.users)
    (hs : db'.usersIdSeq = db.usersIdSeq) (h : db.IdsGiven) : db'.IdsGiven := by
  intro u hm
  rw [hs]
  exact h u (hu ▸ hm)

theorem idsGiven_of_upsertUser {db db' : Database} {p : UpsertParams}
    {x : Except LibError (Option (UserRow × Bool))} (h : db.upsertUser p = (x, db'))
    (hids : db.IdsGiven) : db'.IdsGiven := by
  have hle {u : UserRow} (hu : u ∈ db.users) : u.id ≤ db.usersIdSeq + 1 :=
    Int.le_trans (hids u hu) (Int.le_add_of_nonneg_right (by decide))
  rcases Database.upsertUser_cases h with ⟨_, -, rfl | rfl⟩ | ⟨r, -, -, ht⟩ | ⟨-, -, ht⟩
  · exact hids
  · exact fun u hu => hle hu
  · intro u hu
    rw [ht] at hu ⊢
    obtain ⟨v, hv, rfl⟩ := Keyed.mem_modify.1 hu
    split
    · exact hle (u := v) hv
    · exact hle hv
  · intro u hu
    rw [ht] at hu ⊢
    rcases List.mem_append.1 hu with hu | hu
    · exact hle hu
    · rw [List.mem_singleton.1 hu]
      exact Int.le_refl _

theorem users_of_insert {α : Type} {rows : Tx} {result : α} {x : Except LibError α}
    (h : w.insert i rows result = (x, w')) :
    w'.db.users = w.db.users ∧ w'.db.usersIdSeq = w.db.usersIdSeq := by
  rcases insert_cases h with ⟨_, -, rfl⟩ | ⟨_, -, -, rfl⟩ | ⟨-, -, -, ht⟩
  · exact ⟨rfl, rfl⟩
  · exact ⟨rfl, rfl⟩
  · exact ⟨by rw [ht]; rfl, by rw [ht]; rfl⟩

theorem users_of_execute {x : Except LibError q.Rows} (hq : ∀ p, q ≠ .upsertUser p)
    (h : q.execute fold s i w = (x, w')) :
    w'.db.users = w.db.users ∧ w'.db.usersIdSeq = w.db.usersIdSeq := by
  cases q with
  | upsertUser p => exact absurd rfl (hq p)
  | insertSession id userId tokenHash expires =>
    rcases Database.insertSession_cases (onDb_eq h).1 with ⟨_, -, ht⟩ | ⟨-, ht⟩ <;>
      exact ⟨by rw [ht], by rw [ht]⟩
  | updateExpiry tokenHash expires now =>
    rcases Database.updateExpiry_cases (onDb_eq h).1 with ⟨_, -, ht⟩ | ⟨-, ht⟩ <;>
      exact ⟨by rw [ht], by rw [ht]⟩
  | revoke tokenHash now =>
    rcases Database.revoke_cases (onDb_eq h).1 with ⟨_, -, ht⟩ | ⟨-, ht⟩ <;>
      exact ⟨by rw [ht], by rw [ht]⟩
  | insertSpace name =>
    rcases execute_insertSpace h with ⟨_, -, rfl⟩ | hi
    · exact ⟨rfl, rfl⟩
    · exact users_of_insert hi
  | insertOwner userId spaceId => exact users_of_insert h
  | commit =>
    rcases commit_cases h with ⟨-, -, rfl⟩ | ⟨tx, -, -, ⟨-, ht⟩ | ⟨_, -, ht⟩⟩
    · exact ⟨rfl, rfl⟩
    · exact ⟨by rw [ht]; rfl, by rw [ht]; rfl⟩
    · exact ⟨by rw [ht], by rw [ht]⟩
  | _ =>
    cases h
    exact ⟨rfl, rfl⟩

theorem idsGiven_of_execute {x : Except LibError q.Rows} (h : q.execute fold s i w = (x, w'))
    (hids : w.db.IdsGiven) : w'.db.IdsGiven := by
  by_cases hq : ∃ p, q = .upsertUser p
  · obtain ⟨p, rfl⟩ := hq
    exact idsGiven_of_upsertUser (onDb_eq h).1 hids
  · obtain ⟨hu, hs⟩ := users_of_execute (fun p hp => hq ⟨p, hp⟩) h
    exact idsGiven_of_tables hu hs hids

end World

namespace App

variable {app : App} {w w' : World} {i : Nat} {e : Eff} {a : e.Answer}

theorem idsGiven_of_trans (h : app.system.Trans w i e a w') (hids : w.db.IdsGiven) :
    w'.db.IdsGiven := by
  cases e with
  | clock =>
    obtain ⟨-, rfl⟩ := trans_clock.1 h
    exact hids
  | tokenUrlsafe =>
    obtain ⟨-, rfl⟩ := trans_tokenUrlsafe.1 h
    exact hids
  | uuid4 =>
    obtain rfl := trans_uuid4.1 h
    exact hids
  | sql q =>
    rcases trans_sql.1 h with ⟨s, hx⟩ | ⟨y, rfl, rfl⟩
    · exact World.idsGiven_of_execute hx hids
    · rw [World.fail_db]
      exact hids

theorem idsGiven_of_run {ls : List (Label Eff Eff.Answer Request)}
    {c : Config Eff Eff.Answer World Request (Except Exc Response)}
    (h : app.system.Run (.init .initial) ls c) : c.world.db.IdsGiven :=
  h.invariant (P := fun w => w.db.IdsGiven) idsGiven_of_trans (by rintro u ⟨⟩)

end App

/-! ## Statements of a new space -/

namespace World

variable {fold : Char → Char} {s : ServerChoice} {w : World} {i : Nat} {name : String} {id : UUID}
  {ownerId : Int}

theorem txs_setTx {tx : Option Tx} : (w.setTx i tx).txs i = tx := Function.update_self ..

theorem setTx_setTx {tx tx' : Option Tx} : (w.setTx i tx).setTx i tx' = w.setTx i tx' := by
  simp only [setTx, Function.update_idem]

theorem insert_ok {α : Type} {tx rows : Tx} {result : α} (htx : w.txs i = some tx)
    (h : (w.db.withTx (tx.append rows)).Constraints) :
    w.insert i rows result = (.ok result, w.setTx i (some (tx.append rows))) := by
  rw [insert, htx]
  simp only [Tables.enforce, dif_pos h]

theorem execute_insertSpace_ok (htx : w.txs i = some ⟨[], []⟩) (hid : s.uuid ∉ w.db.spaces.map (·.id))
    (hnul : hasNul name = false) (hlen : name.length ≤ 255) :
    Stmt.execute fold s i w (.insertSpace name) =
      (.ok s.uuid, w.setTx i (some ⟨[⟨s.uuid, name, none, none⟩], []⟩)) := by
  have hclip : Relational.clip 255 name = name := Relational.clip_of_length_le hlen
  have hc : (w.db.withTx ⟨[⟨s.uuid, name, none, none⟩], []⟩).Constraints :=
    Database.constraints_withTx hid List.nodup_nil (List.forall_mem_nil _)
  simp only [Stmt.execute]
  rw [if_neg (by simp [fits, hclip, hnul, hlen]), hclip]
  exact insert_ok htx hc

theorem execute_insertOwner_ok (htx : w.txs i = some ⟨[⟨id, name, none, none⟩], []⟩)
    (hid : id ∉ w.db.spaces.map (·.id)) (hown : ∃ u ∈ w.db.users, u.id = ownerId) :
    Stmt.execute fold s i w (.insertOwner ownerId id) =
      (.ok (), w.setTx i (some ⟨[⟨id, name, none, none⟩], [⟨ownerId, id, "owner"⟩]⟩)) := by
  exact insert_ok htx (Database.constraints_owned hid hown)

theorem execute_commit_ok (fold : Char → Char) (s : ServerChoice)
    (htx : w.txs i = some ⟨[⟨id, name, none, none⟩], [⟨ownerId, id, "owner"⟩]⟩)
    (hid : id ∉ w.db.spaces.map (·.id)) (hown : ∃ u ∈ w.db.users, u.id = ownerId) :
    (Stmt.execute fold s i w .commit).1 = .ok () := by
  have hc : (w.db.withTx ⟨[⟨id, name, none, none⟩], [⟨ownerId, id, "owner"⟩]⟩).Constraints :=
    Database.constraints_owned hid hown
  simp only [Stmt.execute, commit, htx, onDb, Database.store_ok hc]

end World

/-! ## Undisturbed writes -/

namespace App

variable {app : App} {w w' : World} {i : Nat} {evs : List Ev} {name : String} {ownerId : Int}

theorem answers_sql {q : Stmt} {x : Except LibError q.Rows}
    (h : app.undisturbed.Answers i w (sqlEv q x :: evs) w') :
    ∃ s w₁, (∀ name, q = .insertSpace name → s.uuid ∉ w.db.spaces.map (·.id)) ∧
      q.execute app.fold s i w = (x, w₁) ∧ app.undisturbed.Answers i w₁ evs w' := by
  obtain ⟨w₁, ht, h⟩ := System.answers_cons.1 h
  obtain ⟨s, hs, hx⟩ := trans_undisturbed_sql.1 ht
  exact ⟨s, w₁, hs, hx, h⟩

theorem spaceInserts_ok {r : Except Exc UUID} {evs' : List Ev} (htx : w.txs i = some ⟨[], []⟩)
    (hnul : hasNul name = false) (hlen : name.length ≤ 255)
    (hown : ∃ u ∈ w.db.users, u.id = ownerId)
    (hf : Finishes (spaceInserts name ownerId).run evs r)
    (ha : app.undisturbed.Answers i w (evs ++ evs') w') :
    ∃ id, r = .ok id ∧ id ∉ w.db.spaces.map (·.id) ∧ app.undisturbed.Answers i
      (w.setTx i (some ⟨[⟨id, name, none, none⟩], [⟨ownerId, id, "owner"⟩]⟩)) evs' w' := by
  rcases finishes_sql_andThen.1 hf with ⟨e, rfl, rfl⟩ | ⟨id, evs₁, rfl, hf₁⟩
  · obtain ⟨s, w₁, hs, hx, -⟩ := answers_sql ha
    rw [World.execute_insertSpace_ok htx (hs _ rfl) hnul hlen] at hx
    cases hx
  obtain ⟨s, w₁, hs, hx, ha₁⟩ := answers_sql ha
  rw [World.execute_insertSpace_ok htx (hs _ rfl) hnul hlen] at hx
  cases hx
  have htx₁ : (w.setTx i (some ⟨[⟨s.uuid, name, none, none⟩], []⟩)).txs i =
      some ⟨[⟨s.uuid, name, none, none⟩], []⟩ := World.txs_setTx
  rcases finishes_sql_andThen.1 hf₁ with ⟨e, rfl, rfl⟩ | ⟨_, evs₂, rfl, hf₂⟩
  · obtain ⟨s', w₂, -, hx, -⟩ := answers_sql ha₁
    rw [World.execute_insertOwner_ok htx₁ (hs _ rfl) hown] at hx
    cases hx
  obtain ⟨s', w₂, -, hx, ha₂⟩ := answers_sql ha₁
  rw [World.execute_insertOwner_ok htx₁ (hs _ rfl) hown, World.setTx_setTx] at hx
  cases hx
  obtain ⟨rfl, rfl⟩ := finishes_pure.1 hf₂
  exact ⟨_, rfl, hs _ rfl, ha₂⟩

theorem caughtInserts_ok {r : Except Exc UUID} {evs' : List Ev} {h : Exc → Act UUID}
    (htx : w.txs i = some ⟨[], []⟩) (hnul : hasNul name = false) (hlen : name.length ≤ 255)
    (hown : ∃ u ∈ w.db.users, u.id = ownerId)
    (hf : Finishes (tryCatch (spaceInserts name ownerId) h).run evs r)
    (ha : app.undisturbed.Answers i w (evs ++ evs') w') :
    ∃ id, r = .ok id ∧ id ∉ w.db.spaces.map (·.id) ∧ app.undisturbed.Answers i
      (w.setTx i (some ⟨[⟨id, name, none, none⟩], [⟨ownerId, id, "owner"⟩]⟩)) evs' w' := by
  rcases finishes_tryCatch.1 hf with ⟨id, hb, rfl⟩ | ⟨evs₁, y, evs₂, rfl, hb, -⟩
  · exact spaceInserts_ok htx hnul hlen hown hb ha
  · rw [List.append_assoc] at ha
    obtain ⟨id, hid, -⟩ := spaceInserts_ok htx hnul hlen hown hb ha
    cases hid

theorem createSpace_ok {r : Except Exc UUID} (hnul : hasNul name = false) (hlen : name.length ≤ 255)
    (hown : ∃ u ∈ w.db.users, u.id = ownerId)
    (hf : Finishes (SpaceService.createSpace name ownerId).run evs r)
    (ha : app.undisturbed.Answers i w evs w') : ∃ id, r = .ok id := by
  rcases finishes_sql_andThen.1 hf with ⟨e, rfl, rfl⟩ | ⟨_, evs₁, rfl, hf₁⟩
  · obtain ⟨s, w₁, -, hx, -⟩ := answers_sql ha
    cases hx
  obtain ⟨s, w₁, -, hx, ha₁⟩ := answers_sql ha
  cases hx
  have htx : (w.setTx i (some ⟨[], []⟩)).txs i = some ⟨[], []⟩ := World.txs_setTx
  rcases finishes_andThen.1 hf₁ with ⟨e, hb, rfl⟩ | ⟨evs₂, id, evs₃, rfl, hb, hf₂⟩
  · rw [← List.append_nil evs₁] at ha₁
    obtain ⟨id, hid, -⟩ := caughtInserts_ok htx hnul hlen hown hb ha₁
    cases hid
  obtain ⟨id', hid', hfresh, ha₂⟩ := caughtInserts_ok htx hnul hlen hown hb ha₁
  cases hid'
  rcases finishes_sql_andThen.1 hf₂ with ⟨e, rfl, rfl⟩ | ⟨_, evs₄, rfl, hf₃⟩
  · obtain ⟨s', w₂, -, hx, -⟩ := answers_sql ha₂
    have hok := World.execute_commit_ok app.fold s' (i := i)
      (w := (w.setTx i (some ⟨[], []⟩)).setTx i
        (some ⟨[⟨id, name, none, none⟩], [⟨ownerId, id, "owner"⟩]⟩)) World.txs_setTx hfresh hown
    cases hok.symm.trans (congrArg Prod.fst hx)
  · obtain ⟨rfl, rfl⟩ := finishes_pure.1 hf₃
    exact ⟨id, rfl⟩

theorem createSpace_fails (app : App) (i : Nat) (ownerId : Int) (hw : w.db.spaces = [])
    (hnul : hasNul name = true) :
    ∃ evs w', app.undisturbed.Answers i w evs w' ∧
      Finishes (SpaceService.createSpace name ownerId).run evs
        (.error (.lib (.postgres .dataError))) := by
  have hsql {q : Stmt} {w : World} (hw : w.db.spaces = []) :
      app.undisturbed.Trans w i (.sql q) (q.execute app.fold ⟨0, 0, []⟩ i w).1
        (q.execute app.fold ⟨0, 0, []⟩ i w).2 :=
    trans_undisturbed_sql.2 ⟨⟨0, 0, []⟩, by simp [hw], rfl⟩
  have hinsert {w : World} : Stmt.execute app.fold ⟨0, 0, []⟩ i w (.insertSpace name) =
      (.error (.postgres .dataError), w) := by
    simp only [Stmt.execute]
    exact if_pos (by simp [hnul])
  have hfail : app.undisturbed.Trans (w.setTx i (some ⟨[], []⟩)) i (.sql (.insertSpace name))
      (.error (.postgres .dataError)) (w.setTx i (some ⟨[], []⟩)) := by
    have h := hsql (q := .insertSpace name) (w := w.setTx i (some ⟨[], []⟩)) hw
    rwa [hinsert] at h
  refine ⟨[sqlEv .begin (.ok ()), sqlEv (.insertSpace name) (.error (.postgres .dataError)),
    sqlEv .rollback (.ok ())], _, .cons (hsql hw) (.cons hfail (.cons (hsql hw) (.nil _))), ?_⟩
  refine finishes_sql_andThen.2 (.inr ⟨(), _, rfl, ?_⟩)
  refine finishes_andThen.2 (.inl ⟨_, ?_, rfl⟩)
  refine finishes_tryCatch.2 (.inr ⟨[_], .lib (.postgres .dataError), [_], rfl, ?_, ?_⟩)
  · exact finishes_sql_andThen.2 (.inl ⟨_, rfl, rfl⟩)
  · exact finishes_sql_andThen.2 (.inr ⟨(), [], rfl, finishes_throw.2 ⟨rfl, rfl⟩⟩)

end App

/-! ## Storable input -/

def InVarchar (n : Nat) (s : PyStr) : Prop :=
  ∃ text : String, s = text ∧ text.length ≤ n ∧ '\x00' ∉ text.toList

structure UpsertParams.InDomains (p : UpsertParams) : Prop where
  telegramId : -9223372036854775808 ≤ p.telegramId ∧ p.telegramId ≤ 9223372036854775807
  username : ∀ s, p.username = some s → InVarchar 255 s
  firstName : ∀ s, p.firstName = some s → InVarchar 255 s
  lastName : ∀ s, p.lastName = some s → InVarchar 255 s
  photoUrl : ∀ s, p.photoUrl = some s → InVarchar 1024 s
  permission : ∀ s, p.permission = some s → InVarchar 64 s

/-- The parameters of the upsert lie in the domains of their columns, and in every reachable
world that has ids left the upsert returns. -/
structure TokenPayload.Storable (app : App) (p : TokenPayload) : Prop where
  domains : ∀ now, (p.upsertParams now).InDomains
  returns : ∀ ls c i evs r w', app.system.Run (.init .initial) ls c →
    c.world.db.usersIdSeq < 2147483647 →
    Finishes (UserRepository.upsertUser p.telegramId p.username p.firstName p.lastName p.photoUrl
      p.permission).run evs r →
    app.undisturbed.Answers i c.world evs w' → ∃ a, r = .ok a

structure StorableName (app : App) (name : String) : Prop where
  domain : InVarchar 255 name
  returns : ∀ ownerId i evs r w w', (∃ u ∈ w.db.users, u.id = ownerId) →
    Finishes (SpaceService.createSpace name ownerId).run evs r →
    app.undisturbed.Answers i w evs w' → ∃ id, r = .ok id

def textColumns : List (String × Nat) :=
  [("username", 255), ("first_name", 255), ("last_name", 255), ("photo_url", 1024),
    ("permission", 64)]

/-- What `telegram_id` is read as is a signed 64-bit integer, and each text field that is a string
holds encodable text without NUL characters, no longer than its column. -/
structure WithinColumns (payload : Dict) : Prop where
  telegramId : ∀ v n, payload.lookup "telegram_id" = some v → Lax.asInt v = some n →
    -9223372036854775808 ≤ n ∧ n ≤ 9223372036854775807
  texts : ∀ column ∈ textColumns, ∀ s, payload.lookup column.1 = some (.str s) →
    InVarchar column.2 s

variable {app : App} {p : UpsertParams} {payload : Dict} {data : TokenPayload} {name : String}

theorem hasNul_iff {s : String} : hasNul s = true ↔ '\x00' ∈ s.toList := by
  rw [hasNul, List.contains_iff_mem]

theorem InVarchar.bindable {v : Option PyStr} {n : Nat} (h : ∀ s, v = some s → InVarchar n s) :
    bindable v := by
  cases v with
  | none => rfl
  | some s =>
    obtain ⟨text, rfl, -, hnul⟩ := h s rfl
    rw [← hasNul_iff] at hnul
    simpa using hnul

theorem InVarchar.fits {v : Option PyStr} {n : Nat} (h : ∀ s, v = some s → InVarchar n s) :
    fits n v := by
  cases v with
  | none => rfl
  | some s =>
    obtain ⟨text, rfl, hlen, -⟩ := h s rfl
    simpa [WikiBackend.fits, Relational.clip_of_length_le hlen] using hlen

theorem UpsertParams.InDomains.taken (h : p.InDomains) : p.bindable ∧ p.fits := by
  have hbindable : ∀ v ∈ p.texts, WikiBackend.bindable v := by
    simp only [UpsertParams.texts, List.forall_mem_cons, List.not_mem_nil, false_implies,
      implies_true, and_true]
    exact ⟨InVarchar.bindable h.username, InVarchar.bindable h.firstName,
      InVarchar.bindable h.lastName, InVarchar.bindable h.photoUrl,
      InVarchar.bindable h.permission⟩
  simp only [UpsertParams.bindable, UpsertParams.fits, Bool.and_eq_true, List.all_eq_true]
  refine ⟨⟨⟨?_, ?_⟩, hbindable⟩, ⟨⟨⟨?_, ?_⟩, ?_⟩, ?_⟩, ?_⟩
  · exact decide_eq_true h.telegramId.1
  · exact decide_eq_true h.telegramId.2
  · exact InVarchar.fits h.username
  · exact InVarchar.fits h.firstName
  · exact InVarchar.fits h.lastName
  · exact InVarchar.fits h.photoUrl
  · exact InVarchar.fits h.permission

/-! ## Payloads -/

theorem MayHold.lookup_eq_str {field : String} {value : Option PyStr} {s : PyStr}
    (h : MayHold payload field value) : payload.lookup field = some (.str s) ↔ value = some s := by
  rcases h with h | ⟨h, rfl⟩
  · rw [h]
    cases value <;> simp [optStr]
  · simp [h]

theorem inDomains_iff (hC : app.lib.Coerces) (hval : modelValidate app.lib payload = .ok data)
    (now : Instant) : (data.upsertParams now).InDomains ↔ WithinColumns payload := by
  obtain ⟨⟨v, hv, hid⟩, -, htext⟩ := (modelValidate_eq_ok hC).1 hval
  have hu {s : PyStr} := MayHold.lookup_eq_str (s := s) (.inl htext.username)
  have hf {s : PyStr} := htext.firstName.lookup_eq_str (s := s)
  have hl {s : PyStr} := htext.lastName.lookup_eq_str (s := s)
  have hp {s : PyStr} := htext.photoUrl.lookup_eq_str (s := s)
  have hm {s : PyStr} := htext.permission.lookup_eq_str (s := s)
  have htexts : (∀ column ∈ textColumns, ∀ s, payload.lookup column.1 = some (.str s) →
      InVarchar column.2 s) ↔
      (∀ s, data.username = some s → InVarchar 255 s) ∧
      (∀ s, data.firstName = some s → InVarchar 255 s) ∧
      (∀ s, data.lastName = some s → InVarchar 255 s) ∧
      (∀ s, data.photoUrl = some s → InVarchar 1024 s) ∧
      ∀ s, data.permission = some s → InVarchar 64 s := by
    simp only [textColumns, List.forall_mem_cons, List.not_mem_nil, false_implies,
      implies_true, and_true, hu, hf, hl, hp, hm]
  constructor
  · intro h
    refine ⟨?_, htexts.2 ⟨h.username, h.firstName, h.lastName, h.photoUrl, h.permission⟩⟩
    intro v' n hv' hn
    obtain rfl : v = v' := Option.some.inj (hv.symm.trans hv')
    obtain rfl : data.telegramId = n := Option.some.inj (hid.symm.trans hn)
    exact h.telegramId
  · intro h
    obtain ⟨husername, hfirst, hlast, hphoto, hpermission⟩ := htexts.1 h.texts
    exact ⟨h.telegramId v _ hv hid, husername, hfirst, hlast, hphoto, hpermission⟩

/-! ## The upsert -/

theorem upsertUser_returns (hp : ∀ now, (data.upsertParams now).InDomains) {w w' : World} {i : Nat}
    {evs : List Ev} {r : Except Exc (UserProfile × Bool)} (hids : w.db.IdsGiven)
    (hseq : w.db.usersIdSeq < 2147483647)
    (hf : Finishes (UserRepository.upsertUser data.telegramId data.username data.firstName
      data.lastName data.photoUrl data.permission).run evs r)
    (ha : app.undisturbed.Answers i w evs w') : ∃ a, r = .ok a := by
  obtain ⟨now, x, rfl, rfl⟩ := App.finishes_upsertUser.1 hf
  obtain ⟨w₁, ht, ha⟩ := System.answers_cons.1 ha
  obtain ⟨-, rfl⟩ := App.trans_undisturbed_clock.1 ht
  obtain ⟨s, w₂, -, hx, -⟩ := App.answers_sql ha
  obtain ⟨⟨row, created⟩, hrow⟩ := (Database.upsertUser_ok_iff hids hseq).2 (hp now).taken
  have hx : (w.db.upsertUser (data.upsertParams now)).1 = x := congrArg Prod.fst hx
  rw [hrow] at hx
  cases hx
  exact ⟨_, rfl⟩

theorem upsertUser_raises (app : App) (data : TokenPayload) {now : Instant} (hnow : 0 ≤ now)
    (hp : ¬((data.upsertParams now).bindable ∧ (data.upsertParams now).fits)) :
    ∃ evs r w', app.undisturbed.Answers 0 .initial evs w' ∧
      Finishes (UserRepository.upsertUser data.telegramId data.username data.firstName
        data.lastName data.photoUrl data.permission).run evs r ∧ ¬∃ a, r = .ok a := by
  have hx : ∃ e, (Database.empty.upsertUser (data.upsertParams now)).1 = .error e := by
    have hok : ¬∃ row, (Database.empty.upsertUser (data.upsertParams now)).1 = .ok (some row) := by
      rwa [Database.upsertUser_ok_iff (by rintro u ⟨⟩) (by decide)]
    rcases Database.upsertUser_cases
        (Prod.mk.eta (p := Database.empty.upsertUser (data.upsertParams now))).symm with
      ⟨e, he, -⟩ | ⟨r, -, he, -⟩ | ⟨-, he, -⟩
    · exact ⟨e, he⟩
    · exact absurd ⟨_, he⟩ hok
    · exact absurd ⟨_, he⟩ hok
  obtain ⟨e, he⟩ := hx
  have hclock : app.undisturbed.Trans .initial 0 .clock now { World.initial with clock := now } :=
    App.trans_undisturbed_clock.2 ⟨hnow, rfl⟩
  have hsql : app.undisturbed.Trans { World.initial with clock := now } 0
      (.sql (.upsertUser (data.upsertParams now))) (.error e)
      (({ World.initial with clock := now } : World).onDb
        (Database.empty.upsertUser (data.upsertParams now))).2 :=
    App.trans_undisturbed_sql.2 ⟨⟨0, 0, []⟩, by simp, Prod.ext he rfl⟩
  refine ⟨_, _, _, .cons hclock (.cons hsql (.nil _)),
    App.finishes_upsertUser.2 ⟨now, _, rfl, rfl⟩, ?_⟩
  rintro ⟨a, h⟩
  cases h

/-- An accepted token can be stored exactly if the raw values of its payload are within the
columns, which the validation does not check; the name of a space is checked for its length, and
can be stored exactly if it has no NUL character. -/
theorem storable_iff (app : App) (hC : app.lib.Coerces) :
    (∀ token now data, app.tokenService.verifyToken app.lib now token = .ok data →
      ∃ payload, app.tokenService.decrypt app.lib token = .ok payload ∧
        (data.Storable app ↔ WithinColumns payload)) ∧
    ∀ body : SpaceCreateRequest, strip body.name ≠ "" →
      (StorableName app body.name ↔ '\x00' ∉ body.name.toList) := by
  constructor
  · intro token now data hok
    obtain ⟨hok, -⟩ := TokenService.verifyToken_eq_ok.1 hok
    obtain ⟨payload, hdecrypt, hval⟩ := TokenService.decryptAndValidate_eq_ok.1 hok
    refine ⟨payload, hdecrypt, ?_⟩
    constructor
    · intro h
      exact (inDomains_iff hC hval 0).1 (h.domains 0)
    · intro hp
      have hdomains (now : Instant) := (inDomains_iff hC hval now).2 hp
      refine ⟨hdomains, ?_⟩
      intro ls c i evs r w' hrun hseq hf ha
      exact upsertUser_returns hdomains (App.idsGiven_of_run hrun) hseq hf ha
  · intro body _
    constructor
    · intro h hm
      let owner : UserRow := ⟨1, 42, none, none, none, none, none, 0, 0, 0⟩
      let w : World := { World.initial with db := .ofUser owner }
      obtain ⟨evs, w', ha, hf⟩ :=
        App.createSpace_fails (w := w) app 0 owner.id rfl (hasNul_iff.2 hm)
      obtain ⟨id, hid⟩ := h.returns owner.id 0 evs _ w w' ⟨owner, List.mem_cons_self, rfl⟩ hf ha
      cases hid
    · intro hm
      have hnul : hasNul body.name = false := Bool.eq_false_iff.2 fun h => hm (hasNul_iff.1 h)
      refine ⟨⟨body.name, rfl, body.maxLength, hm⟩, ?_⟩
      intro ownerId i evs r w w' hown hf ha
      exact App.createSpace_ok hnul body.maxLength hown hf ha

namespace Recorded

theorem withinColumns₁ : WithinColumns payload₁ := by
  refine ⟨?_, ?_⟩
  · intro v n hv hn
    cases hv
    cases hn
    decide
  · simp only [textColumns, List.forall_mem_cons, List.not_mem_nil, false_implies, implies_true,
      and_true]
    refine ⟨?_, ?_, ?_, ?_, ?_⟩
    · rintro s ⟨⟩
      exact ⟨"ada", rfl, by decide, by decide⟩
    all_goals rintro s ⟨⟩

theorem storable_iff_recorded :
    data₁.Storable recordedApp ∧ StorableName recordedApp "Notes" := by
  have h := storable_iff recordedApp coerces_recorded
  constructor
  · obtain ⟨payload, hdecrypt, hiff⟩ :=
      h.1 token₁ (1700000000 * 1000000) data₁ (verifyToken₁ (by decide))
    obtain rfl : payload₁ = payload := Except.ok.inj (decrypt₁.symm.trans hdecrypt)
    exact hiff.2 withinColumns₁
  · exact (h.2 ⟨"Notes", by decide, by decide⟩ (by decide)).2 (by decide)

def wideId : Recording where
  payload :=
    [("telegram_id", .int 9223372036854775808), ("username", .str "ada"),
      ("created_at", .int 1700000000)]
  text :=
    "\x7b\"telegram_id\": 9223372036854775808, \"username\": \"ada\", \"created_at\": 1700000000\x7d"
  iv := [80, 81, 82, 83, 84, 85, 86, 87, 88, 89, 90, 91, 92, 93, 94, 95]
  ciphertext :=
    [42, 230, 8, 105, 221, 148, 85, 69, 234, 32, 47, 147, 37, 230, 29, 209, 157, 200, 210, 252,
     191, 229, 199, 35, 48, 236, 143, 240, 123, 240, 219, 231, 189, 101, 2, 193, 143, 108, 91, 202,
     243, 109, 207, 212, 237, 33, 15, 112, 148, 81, 93, 205, 243, 84, 14, 172, 125, 243, 105, 180,
     39, 246, 237, 30, 204, 49, 129, 130, 10, 195, 183, 199, 201, 129, 137, 103, 150, 142, 30, 98,
     47, 160, 80, 123, 202, 250, 232, 79, 230, 217, 67, 116, 216, 219, 189, 57]
  tag :=
    [125, 208, 15, 194, 208, 138, 133, 249, 27, 16, 134, 54, 109, 52, 33, 40, 80, 142, 79, 22, 194,
     192, 50, 173, 239, 98, 149, 130, 155, 155, 23, 255]
  ivLength := rfl
  ciphertextLength := by decide +kernel
  tagLength := rfl

theorem wide_id_accepted :
    ¬∀ app : App, app.lib.Lawful → app.lib.Coerces →
      (∀ token now data, app.tokenService.verifyToken app.lib now token = .ok data →
        data.Storable app) ∧
      ∀ body : SpaceCreateRequest, strip body.name ≠ "" → StorableName app body.name := by
  intro h
  let app : App := { recordedApp with lib := wideId.library, tokenService := wideId.service }
  have hval : modelValidate wideId.library wideId.payload =
      .ok ⟨9223372036854775808, some "ada", 1700000000, none, none, none, none⟩ := rfl
  have hok := (verifyToken_of_encrypts wideId.lawful wideId.encrypts wideId.plaintext).2
    ⟨hval, show unixTime (1700000000 * 1000000) - 1700000000 ≤ 300 by decide⟩
  have hstorable := (h app wideId.lawful wideId.coerces).1 wideId.token _ _ hok
  obtain ⟨evs, r, w', ha, hf, hr⟩ := upsertUser_raises app
    ⟨9223372036854775808, some "ada", 1700000000, none, none, none, none⟩ (Int.le_refl 0) (by decide)
  exact hr (hstorable.returns [] (.init .initial) 0 evs r w' (.nil _) (by decide) hf ha)

end Recorded

end WikiBackend
