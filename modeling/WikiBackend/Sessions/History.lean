import WikiBackend.Sessions.Outcomes

/-! Session operations executed one after another. What an operation on a session
token does is a function of the history of operations alone: whether the token was
returned, whether it was revoked, and the last expiry it was given. -/

namespace WikiBackend

open Effects

namespace Done

def Creates (d : Done) (s : String) : Prop :=
  ∃ token data, d.op = .createSession token ∧ d.result = .ok (some data) ∧
    data.sessionToken = some s

def Revokes (d : Done) (s : String) : Prop := d.op = .revokeSession s ∧ d.Succeeded

def Uses (d : Done) (s : String) : Prop := d.op.sessionToken? = some s ∨ tokenEv s ∈ d.events

/-- The expiry that a successful login or refresh gives to `s`: a reading of its clock plus the
time to live. A login reads the clock twice before, a refresh once. -/
def expiryFor (d : Done) (ttlSeconds : Int) (s : String) : Option Instant :=
  match d.op, d.result with
  | .createSession _, .ok (some data) =>
    if data.sessionToken = some s then d.readings[2]?.map (· + ttlSeconds * 1000000) else none
  | .refreshSession s', .ok _ =>
    if s' = s then d.readings[1]?.map (· + ttlSeconds * 1000000) else none
  | _, _ => none

variable {d : Done} {ttl : Int} {s s' : String}

structure Silent (d : Done) (ttl : Int) (s : String) : Prop where
  creates : ¬d.Creates s
  revokes : ¬d.Revokes s
  expiryFor : d.expiryFor ttl s = none

theorem silent_of_error {e : Exc} (hr : d.result = .error e) : d.Silent ttl s := by
  refine ⟨?_, ?_, ?_⟩
  · rintro ⟨_, _, -, h, -⟩
    cases hr.symm.trans h
  · rintro ⟨-, _, h⟩
    cases hr.symm.trans h
  · rw [Done.expiryFor, hr]
    cases d.op <;> rfl

theorem silent_of_get (ho : d.op = .getSession s') : d.Silent ttl s := by
  refine ⟨?_, ?_, ?_⟩
  · rintro ⟨_, _, h, -⟩
    cases ho.symm.trans h
  · rintro ⟨h, -⟩
    cases ho.symm.trans h
  · simp only [Done.expiryFor, ho]

theorem silent_of_ne (ho : d.op.sessionToken? = some s') (hs : s' ≠ s) : d.Silent ttl s := by
  refine ⟨?_, ?_, ?_⟩
  · rintro ⟨_, _, h, -⟩
    rw [h] at ho
    cases ho
  · rintro ⟨h, -⟩
    rw [h] at ho
    exact hs (Option.some.inj ho).symm
  · unfold Done.expiryFor
    split
    · rename_i hop _
      rw [hop] at ho
      cases ho
    · rename_i hop _
      rw [hop] at ho
      exact if_neg fun h => hs ((Option.some.inj ho).symm.trans h)
    · rfl

theorem Revokes.ne_of_op {op : Operation} (h : d.Revokes s) (ho : d.op = op) :
    op = .revokeSession s := ho.symm.trans h.1

theorem silent_of_created {token : String} {data : SessionData} (ho : d.op = .createSession token)
    (hr : d.result = .ok (some data)) (hs : data.sessionToken ≠ some s) : d.Silent ttl s := by
  refine ⟨?_, ?_, ?_⟩
  · rintro ⟨_, data', -, h, hs'⟩
    cases hr.symm.trans h
    exact hs hs'
  · rintro ⟨h, -⟩
    cases ho.symm.trans h
  · simp only [Done.expiryFor, ho, hr, if_neg hs]

end Done

/-! ## What a history says about a session token -/

section History

variable (H : List Done) (s : String)

def Created : Prop := ∃ d ∈ H, d.Creates s

def Revoked : Prop := ∃ d ∈ H, d.Revokes s

def lastExpiry (ttlSeconds : Int) : Option Instant :=
  H.reverse.findSome? fun d => d.expiryFor ttlSeconds s

def Live (ttlSeconds : Int) (t : Instant) : Prop :=
  Created H s ∧ ¬Revoked H s ∧ ∃ expires, lastExpiry H s ttlSeconds = some expires ∧ t < expires

variable {H s} {d : Done}

theorem created_snoc : Created (H ++ [d]) s ↔ Created H s ∨ d.Creates s := by
  simp only [Created, List.mem_append, List.mem_singleton, or_and_right, exists_or, exists_eq_left]

theorem revoked_snoc : Revoked (H ++ [d]) s ↔ Revoked H s ∨ d.Revokes s := by
  simp only [Revoked, List.mem_append, List.mem_singleton, or_and_right, exists_or, exists_eq_left]

theorem lastExpiry_snoc {ttl : Int} :
    lastExpiry (H ++ [d]) s ttl = (d.expiryFor ttl s).or (lastExpiry H s ttl) := by
  rw [lastExpiry, List.reverse_append, List.reverse_singleton, List.singleton_append,
    List.findSome?_cons]
  cases d.expiryFor ttl s <;> rfl

end History

namespace App

variable {app : App} {w w' w₀ : World} {d : Done} {s : String}

/-! ## The table follows the history -/

/-- The row of `s` says what the history says. -/
structure Represents (app : App) (H : List Done) (db : Database) (s : String) : Prop where
  created : Created H s ↔ (db.sessionByHash (app.hashToken s)).isSome
  revoked : Revoked H s → Created H s
  row : ∀ r, db.sessionByHash (app.hashToken s) = some r →
    lastExpiry H s app.sessionTtlSeconds = some r.expiresAt ∧
      (Revoked H s ↔ r.revokedAt.isSome)

section Represents

variable {H : List Done} {db db' : Database}

theorem Represents.keep (h : Represents app H db s)
    (hrow : db'.sessionByHash (app.hashToken s) = db.sessionByHash (app.hashToken s))
    (hd : d.Silent app.sessionTtlSeconds s) : Represents app (H ++ [d]) db' s := by
  have hc : Created (H ++ [d]) s ↔ Created H s := by
    rw [created_snoc, or_iff_left hd.creates]
  have hr : Revoked (H ++ [d]) s ↔ Revoked H s := by
    rw [revoked_snoc, or_iff_left hd.revokes]
  refine ⟨?_, ?_, ?_⟩
  · rw [hc, hrow, h.created]
  · intro hx
    exact hc.2 (h.revoked (hr.1 hx))
  · intro r hx
    rw [hrow] at hx
    rw [lastExpiry_snoc, hd.expiryFor, Option.none_or, hr]
    exact h.row r hx

theorem Represents.created_of_row {r : SessionRow} (h : Represents app H db s)
    (hr : db.sessionByHash (app.hashToken s) = some r) : Created H s := by
  rw [h.created, hr]
  rfl

theorem Represents.insert {token : String} {data : SessionData} {r : SessionRow} {t : Instant}
    (h : Represents app H db s) (ho : d.op = .createSession token)
    (hres : d.result = .ok (some data)) (hs : data.sessionToken = some s)
    (ht : d.readings[2]? = some t) (hx : addSeconds t app.sessionTtlSeconds = .ok r.expiresAt)
    (hhash : r.tokenHash = app.hashToken s) (hr : r.revokedAt = none)
    (hdb : db'.sessions = db.sessions ++ [r]) : Represents app (H ++ [d]) db' s := by
  obtain ⟨hnone, hsome⟩ := Database.sessionByHash_of_insert hdb
  rw [hhash] at hnone hsome
  have hcreated : Created (H ++ [d]) s := created_snoc.2 (.inr ⟨token, data, ho, hres, hs⟩)
  have hnot : ¬Revoked (H ++ [d]) s := by
    rw [revoked_snoc]
    rintro (hrev | hrev)
    · have hfound := h.created.1 (h.revoked hrev)
      rw [hnone] at hfound
      cases hfound
    · cases hrev.ne_of_op ho
  have hlast : lastExpiry (H ++ [d]) s app.sessionTtlSeconds = some r.expiresAt := by
    simp only [lastExpiry_snoc, Done.expiryFor, ho, hres, hs, if_true, ht, Option.map_some,
      Option.some_or, addSeconds_eq_ok hx]
  refine ⟨?_, ?_, ?_⟩
  · rw [hsome]
    exact iff_of_true hcreated rfl
  · intro _
    exact hcreated
  · intro r' hr'
    cases hsome.symm.trans hr'
    exact ⟨hlast, iff_of_false hnot (by simp [hr])⟩

theorem Represents.extend {r : SessionRow} {t expires now : Instant} (h : Represents app H db s)
    (ho : d.op = .refreshSession s) (hres : d.Succeeded) (ht : d.readings[1]? = some t)
    (hx : addSeconds t app.sessionTtlSeconds = .ok expires)
    (hr : db.sessionByHash (app.hashToken s) = some r)
    (hdb : db'.sessions = Keyed.modify (·.tokenHash) (app.hashToken s)
      (Database.setExpiry expires now) db.sessions) : Represents app (H ++ [d]) db' s := by
  obtain ⟨data, hres⟩ := hres
  have hrow : db'.sessionByHash (app.hashToken s) = some (Database.setExpiry expires now r) := by
    rw [Database.sessionByHash_setExpiry hdb, hr, Option.map_some, if_pos rfl]
  have hcreated : Created (H ++ [d]) s := created_snoc.2 (.inl (h.created_of_row hr))
  have hrevoked : Revoked (H ++ [d]) s ↔ r.revokedAt.isSome := by
    have hrevokes : ¬d.Revokes s := by
      intro hrev
      cases hrev.ne_of_op ho
    rw [revoked_snoc, or_iff_left hrevokes]
    exact (h.row r hr).2
  have hlast : lastExpiry (H ++ [d]) s app.sessionTtlSeconds = some expires := by
    simp only [lastExpiry_snoc, Done.expiryFor, ho, hres, if_true, ht, Option.map_some,
      Option.some_or, addSeconds_eq_ok hx]
  refine ⟨?_, ?_, ?_⟩
  · rw [hrow]
    exact iff_of_true hcreated rfl
  · intro _
    exact hcreated
  · intro r' hr'
    cases hrow.symm.trans hr'
    exact ⟨hlast, hrevoked⟩

theorem Represents.revoke {r : SessionRow} {now : Instant} (h : Represents app H db s)
    (ho : d.op = .revokeSession s) (hres : d.Succeeded)
    (hr : db.sessionByHash (app.hashToken s) = some r)
    (hdb : db'.sessions = Keyed.modify (·.tokenHash) (app.hashToken s)
      (Database.setRevoked now) db.sessions) : Represents app (H ++ [d]) db' s := by
  have hrow : db'.sessionByHash (app.hashToken s) = some (Database.setRevoked now r) := by
    rw [Database.sessionByHash_setRevoked hdb, hr, Option.map_some, if_pos rfl]
  have hcreated : Created (H ++ [d]) s := created_snoc.2 (.inl (h.created_of_row hr))
  have hrevoked : Revoked (H ++ [d]) s := revoked_snoc.2 (.inr ⟨ho, hres⟩)
  have hlast : lastExpiry (H ++ [d]) s app.sessionTtlSeconds = some r.expiresAt := by
    simp only [lastExpiry_snoc, Done.expiryFor, ho, Option.none_or]
    exact (h.row r hr).1
  refine ⟨?_, ?_, ?_⟩
  · rw [hrow]
    exact iff_of_true hcreated rfl
  · intro _
    exact hcreated
  · intro r' hr'
    cases hrow.symm.trans hr'
    exact ⟨hlast, iff_of_true hrevoked rfl⟩

theorem Represents.step_login {token : String} {r : Except Exc SessionData} {i : Nat}
    (h : Represents app H w.db s) (hop : d.op = .createSession token)
    (hf : Finishes (app.createSession token).run d.events r) (hr : d.result = r.map some)
    (ha : app.system.Answers i w d.events w')
    (hne : ∀ {s'}, d.Uses s' → s' ≠ s → app.hashToken s ≠ app.hashToken s') :
    Represents app (H ++ [d]) w'.db s := by
  rcases createSession_outcome hf hr ha with ⟨hk, e, he⟩ |
    ⟨data, s', t, expires, id, userId, now, hres, hs', hev, ht, hx, hdb⟩
  · exact h.keep (Database.sessionByHash_congr hk) (Done.silent_of_error he)
  by_cases hss : s' = s
  · subst hss
    exact h.insert hop hres hs' ht hx rfl rfl hdb
  · have hrow : w'.db.sessionByHash (app.hashToken s) = w.db.sessionByHash (app.hashToken s) := by
      rw [Database.sessionByHash_insert hdb, if_neg (hne (.inr hev) hss).symm, Option.or_none]
    refine h.keep hrow (Done.silent_of_created hop hres fun he => hss ?_)
    exact Option.some.inj (hs'.symm.trans he)

theorem Represents.step_same (h : Represents app H db s) (ho : Outcome app db db' s d) :
    Represents app (H ++ [d]) db' s := by
  cases ho with
  | missing _ hk he => exact h.keep (Database.sessionByHash_congr hk) (Done.silent_of_error he)
  | expired _ _ _ hk he => exact h.keep (Database.sessionByHash_congr hk) (Done.silent_of_error he)
  | found _ _ _ hg hk _ => exact h.keep (Database.sessionByHash_congr hk) (Done.silent_of_get hg)
  | refreshed hr _ _ hg ht hx hdb hok => exact h.extend hg hok ht hx hr hdb
  | revoked hr _ _ hg hdb hok => exact h.revoke hg hok hr hdb

theorem Outcome.sessionByHash_ne {s' : String} (ho : Outcome app db db' s' d)
    (hh : app.hashToken s ≠ app.hashToken s') :
    db'.sessionByHash (app.hashToken s) = db.sessionByHash (app.hashToken s) := by
  cases ho with
  | missing _ hk _ => exact Database.sessionByHash_congr hk
  | expired _ _ _ hk _ => exact Database.sessionByHash_congr hk
  | found _ _ _ _ hk _ => exact Database.sessionByHash_congr hk
  | refreshed _ _ _ _ _ _ hdb _ =>
    simp only [Database.sessionByHash_setExpiry hdb, if_neg hh, Option.map_id']
  | revoked _ _ _ _ hdb _ =>
    simp only [Database.sessionByHash_setRevoked hdb, if_neg hh, Option.map_id']

theorem Represents.step {S : Set String} (h : Represents app H w.db s) (hp : app.Performs w d w')
    (hu : d.Undisturbed app.sessionTtlSeconds) (hinj : S.InjOn app.hashToken) (hs : s ∈ S)
    (hd : ∀ s', d.Uses s' → s' ∈ S) : Represents app (H ++ [d]) w'.db s := by
  have hne {s' : String} (hu' : d.Uses s') (hn : s' ≠ s) : app.hashToken s ≠ app.hashToken s' :=
    fun he => hn (hinj hs (hd s' hu') he).symm
  cases hop : d.op.sessionToken? with
  | none =>
    obtain ⟨token, hlogin⟩ := Operation.createSession_of_none hop
    obtain ⟨hf, i, ha⟩ := hp
    rw [hlogin] at hf
    obtain ⟨y, hc, hr⟩ := finishes_andThen_pure.1 hf
    exact h.step_login hlogin hc hr ha hne
  | some s' =>
    have ho := outcome_of_performs hp hop hu
    by_cases hss : s' = s
    · subst hss
      exact h.step_same ho
    · have hrow : w'.db.sessionByHash (app.hashToken s) = w.db.sessionByHash (app.hashToken s) :=
        ho.sessionByHash_ne (hne (.inl hop) hss)
      exact h.keep hrow (Done.silent_of_ne hop hss)

theorem Represents.active {r : SessionRow} {t : Instant} (h : Represents app H db s)
    (hr : db.sessionByHash (app.hashToken s) = some r) :
    r.toRecord.Active t ↔ Live H s app.sessionTtlSeconds t := by
  obtain ⟨hx, hrev⟩ := h.row r hr
  have hc : Created H s := h.created_of_row hr
  simp only [Live, hc, true_and, hx, Option.some.injEq, exists_eq_left', hrev,
    SessionRecord.Active, SessionRow.toRecord, Option.not_isSome_iff_eq_none]

end Represents

theorem Outcome.kept {db db' : Database} (ho : Outcome app db db' s d)
    (hd : ¬d.Succeeded ∨ ∃ s, d.op = .getSession s) : db'.sessions = db.sessions := by
  cases ho with
  | missing _ hk _ => exact hk
  | expired _ _ _ hk _ => exact hk
  | found _ _ _ _ hk _ => exact hk
  | refreshed _ _ _ hop _ _ _ hs =>
    rcases hd with hd | ⟨_, hd⟩
    · exact absurd hs hd
    · cases hop.symm.trans hd
  | revoked _ _ _ hop _ hs =>
    rcases hd with hd | ⟨_, hd⟩
    · exact absurd hs hd
    · cases hop.symm.trans hd

end App

namespace Recorded

def login : Done where
  op := .createSession token₁
  events := loginEvents (.ok (some sessionRecord))
  result := .ok (some ⟨userRow.toProfile, expiresAt, some sessionToken⟩)

def lookup : Done where
  op := .getSession sessionToken
  events := [recordedApp.selectEv sessionToken sessionRecord, clockEv loginAt,
    App.userEv sessionRecord userRow]
  result := .ok (some ⟨userRow.toProfile, expiresAt, none⟩)

end Recorded

end WikiBackend
