import Mathlib.Data.Fintype.EquivFin
import WikiBackend.Effects.Leases
import WikiBackend.Sessions.Operations
import WikiBackend.Spaces.Transactions

/-! The connections of the pool. `get_connection` gives a request one connection for all of its
repositories, and takes it back when the request is over; or it raises, and the request is over. -/

namespace WikiBackend

open Effects

/-- `create_pool(..., max_size=10)` -/
def poolMaxSize : Nat := 10

def App.Refusal (app : App) (req : Request) (r : Except Exc Response) : Prop :=
  ∃ pool e, getConnection pool = .error e ∧ Finishes (app.endpoint pool req).run [] r

theorem App.refusal_iff {app : App} {req : Request} {r : Except Exc Response} :
    app.Refusal req r ↔ ∃ e, r = .error (.lib e) := by
  constructor
  · rintro ⟨pool, e, he, h⟩
    rcases finishes_endpoint.1 h with ⟨e', -, -, rfl⟩ | ⟨hok, -⟩
    · exact ⟨e', rfl⟩
    · cases he.symm.trans hok
  · rintro ⟨e, rfl⟩
    exact ⟨some (.error e), e, rfl, finishes_endpoint.2 (.inl ⟨e, rfl, rfl, rfl⟩)⟩

/-- A run of the requests over the pool; the world keeps the open transaction of a connection
under the number of the connection. -/
abbrev App.PooledRun (app : App) (w : World) (ls : List (LeaseLabel Eff Eff.Answer Request))
    (c : Leases Eff Eff.Answer World Request (Except Exc Response)) : Prop :=
  app.system.LeaseRun poolMaxSize app.Refusal (.init w) ls c

/-! ## A statement sees its own connection -/

namespace World

variable {w v : World} {i j : Nat} {T : Nat → Option Tx} {fold : Char → Char} {s : ServerChoice}
  {q : Stmt} {x : Except LibError q.Rows}

/-- The two worlds differ in the open transactions of the connections only. -/
structure Same (w w' : World) : Prop where
  db : w.db = w'.db
  clock : w.clock = w'.clock
  tokens : w.tokens = w'.tokens

theorem Same.eq {w w' : World} (h : w.Same w') : w' = { w with txs := w'.txs } := by
  obtain ⟨hd, hc, ht⟩ := h
  cases w
  cases w'
  simp_all

theorem insert_rekey {α : Type} {rows : Tx} {result : α} {x : Except LibError α}
    (hT : T j = w.txs i) (h : w.insert i rows result = (x, v)) :
    { w with txs := T }.insert j rows result =
      (x, { v with txs := Function.update T j (v.txs i) }) := by
  cases htx : w.txs i with
  | none =>
    rw [htx] at hT
    simp only [insert, htx] at h
    simp only [insert, hT]
    cases h
    simp [onDb, htx, ← hT]
  | some tx =>
    rw [htx] at hT
    simp only [insert, htx] at h
    simp only [insert, hT]
    split at h
    · rename_i db hdb
      cases h
      simp only [setTx, Function.update_self]
    · rename_i e hdb
      cases h
      rw [htx, ← hT, Function.update_eq_self]

theorem execute_rekey (hT : T j = w.txs i) (h : q.execute fold s i w = (x, v)) :
    q.execute fold s j { w with txs := T } =
      (x, { v with txs := Function.update T j (v.txs i) }) := by
  cases q with
  | begin | rollback =>
    cases h
    simp [Stmt.execute, setTx]
  | insertSpace name =>
    simp only [Stmt.execute] at h ⊢
    split at h
    · rename_i hb
      cases h
      rw [if_pos hb, ← hT, Function.update_eq_self]
    · rename_i hb
      rw [if_neg hb]
      exact insert_rekey hT h
  | insertOwner userId spaceId => exact insert_rekey hT h
  | commit =>
    cases htx : w.txs i with
    | none =>
      rw [htx] at hT
      simp only [Stmt.execute, commit, htx] at h
      simp only [Stmt.execute, commit, hT]
      cases h
      simp [htx, ← hT]
    | some tx =>
      rw [htx] at hT
      simp only [Stmt.execute, commit, htx] at h
      simp only [Stmt.execute, commit, hT]
      cases h
      simp [onDb, setTx]
  | _ =>
    cases h
    simp [Stmt.execute, onDb, ← hT]

theorem fail_rekey (hT : T j = w.txs i) :
    q.fail j { w with txs := T } =
      { q.fail i w with txs := Function.update T j ((q.fail i w).txs i) } := by
  cases q <;> simp [Stmt.fail, setTx, ← hT]

end World

namespace App

variable {app : App} {w v : World} {i j : Nat} {e : Eff} {a : e.Answer}

theorem trans_rekey {T : Nat → Option Tx} (hT : T j = w.txs i) (h : app.system.Trans w i e a v) :
    app.system.Trans { w with txs := T } j e a
      { v with txs := Function.update T j (v.txs i) } := by
  cases e with
  | clock =>
    obtain ⟨hle, rfl⟩ := trans_clock.1 h
    exact trans_clock.2 ⟨hle, by simp [← hT]⟩
  | tokenUrlsafe =>
    obtain ⟨hs, rfl⟩ := trans_tokenUrlsafe.1 h
    exact trans_tokenUrlsafe.2 ⟨hs, by simp [← hT]⟩
  | uuid4 =>
    obtain rfl := trans_uuid4.1 h
    exact trans_uuid4.2 (by simp [← hT])
  | sql q =>
    rcases trans_sql.1 h with ⟨s, hx⟩ | ⟨y, rfl, rfl⟩
    · exact trans_sql.2 (.inl ⟨s, World.execute_rekey hT hx⟩)
    · exact trans_sql.2 (.inr ⟨y, rfl, (World.fail_rekey hT).symm⟩)

theorem keyed : app.system.Keyed World.Same World.txs where
  refl _ := ⟨rfl, rfl, rfl⟩
  symm h := ⟨h.db.symm, h.clock.symm, h.tokens.symm⟩
  transfer h hsame hloc := by
    have h' := trans_rekey hloc.symm h
    rw [← hsame.eq] at h'
    exact ⟨_, h', ⟨rfl, rfl, rfl⟩, by simp⟩
  frame h hj := by rw [txs_of_trans h, Function.update_of_ne hj]

end App

/-! ## A request ends, and closes its transaction -/

theorem bounded_sql (q : Stmt) : Handler.Bounded 1 (sql q) := by
  refine (Handler.bounded_perform (Eff.sql q)).andThen (n := 0) ?_
  rintro (e | rows)
  · exact Handler.bounded_throw _
  · exact Handler.bounded_pure _

structure Settles {α : Type} (n : Nat) (x : Act α) : Prop where
  bounded : Handler.Bounded n x
  idle : ∀ {evs r}, Finishes x.run evs r → evs.foldl txStep none = none

section
variable {α β : Type} {m n : Nat} {x : Act α} {f : α → Act β}

theorem settles_pure (a : α) : Settles 0 (pure a : Act α) where
  bounded := Handler.bounded_pure a
  idle h := by
    rw [(finishes_pure.1 h).1]
    rfl

theorem settles_throw (e : Exc) : Settles 0 (throw e : Act α) where
  bounded := Handler.bounded_throw e
  idle h := by
    rw [(finishes_throw.1 h).1]
    rfl

theorem settles_fromExcept (y : Except Exc α) : Settles 0 (fromExcept y) where
  bounded := Handler.bounded_ofExcept y
  idle h := by
    rw [(finishes_ofExcept.1 h).1]
    rfl

theorem settles_perform {e : Eff} (he : ∀ a, txStep none ⟨e, a⟩ = none) : Settles 1 (perform e) where
  bounded := Handler.bounded_perform e
  idle h := by
    obtain ⟨a, rfl, -⟩ := finishes_perform.1 h
    exact he a

theorem Settles.mono (h : Settles m x) (hmn : m ≤ n) : Settles n x := ⟨h.bounded.mono hmn, h.idle⟩

theorem Settles.andThen (h : Settles m x) (hf : ∀ a, Settles n (f a)) :
    Settles (m + n) (x >>= f) where
  bounded := h.bounded.andThen fun a => (hf a).bounded
  idle hx := by
    rcases finishes_andThen.1 hx with ⟨y, hy, -⟩ | ⟨evs₁, a, evs₂, rfl, h₁, h₂⟩
    · exact h.idle hy
    · rw [List.foldl_append, h.idle h₁, (hf a).idle h₂]

theorem settles_orInternalError (h : Settles n x) : Settles n (orInternalError x) where
  bounded := Handler.Bounded.tryCatch (n := 0) h.bounded fun _ => Handler.bounded_throw _
  idle hx := by
    rcases finishes_orInternalError.1 hx with ⟨a, ha, -⟩ | ⟨e, he, -⟩
    · exact h.idle ha
    · exact h.idle he

theorem settles_sql {q : Stmt} (hq : q ≠ .begin) : Settles 1 (sql q) := by
  refine (settles_perform ?_).andThen (n := 0) ?_
  · intro a
    cases q <;> cases a <;> first | rfl | exact absurd rfl hq
  · rintro (e | rows)
    · exact settles_throw _
    · exact settles_pure _

theorem settles_transaction (h : Handler.Bounded n x) :
    Settles (1 + (n + 1 + 1)) (SpaceRepository.transaction x) where
  bounded := by
    refine (bounded_sql _).andThen fun _ => ?_
    refine (h.tryCatch (n := 1) fun _ => ?_).andThen (n := 1) fun _ => ?_
    · exact (bounded_sql _).andThen (n := 0) fun _ => Handler.bounded_throw _
    · exact (bounded_sql _).andThen (n := 0) fun _ => Handler.bounded_pure _
  idle hx := by
    rw [SpaceRepository.transaction] at hx
    rcases finishes_sql_andThen.1 hx with ⟨_, rfl, -⟩ | ⟨_, evs', rfl, h₁⟩
    · rfl
    rcases finishes_andThen.1 h₁ with ⟨y, h₂, -⟩ | ⟨evs₁, a, evs₂, rfl, -, h₂⟩
    · rcases finishes_tryCatch.1 h₂ with ⟨_, -, hr⟩ | ⟨evs₁, y', evs₂, rfl, -, h₃⟩
      · cases hr
      rcases finishes_sql_andThen.1 h₃ with ⟨_, rfl, -⟩ | ⟨_, _, rfl, h₄⟩
      · exact List.foldl_concat _ _ _ (_ :: _)
      · obtain ⟨rfl, -⟩ := finishes_throw.1 h₄
        exact List.foldl_concat _ _ _ (_ :: _)
    · rcases finishes_sql_andThen.1 h₂ with ⟨_, rfl, -⟩ | ⟨_, _, rfl, h₃⟩
      · exact List.foldl_concat _ _ _ (_ :: _)
      · obtain ⟨rfl, -⟩ := finishes_pure.1 h₃
        exact List.foldl_concat _ _ _ (_ :: _)

end

/-! ## The requests -/

namespace App

variable (app : App)

theorem settles_verifyAccessToken (token : String) : Settles 1 (app.verifyAccessToken token) :=
  (settles_fromExcept _).andThen (n := 1) fun _ =>
    (settles_perform fun _ => rfl).andThen (n := 0) fun _ => settles_fromExcept _

theorem settles_verifyToken (token : String) : Settles 3 (app.verifyToken token) := by
  refine (app.settles_verifyAccessToken token).andThen (n := 2) fun payload => ?_
  refine settles_orInternalError ((settles_perform fun _ => rfl).andThen (n := 1) fun now => ?_)
  refine (settles_sql (by simp)).andThen (n := 0) fun row => ?_
  rcases row with _ | ⟨row, created⟩
  · exact settles_throw _
  · exact settles_pure _

theorem settles_expiresAt (ttlSeconds : Int) : Settles 1 (expiresAt ttlSeconds) :=
  (settles_perform fun _ => rfl).andThen (n := 0) fun _ => settles_fromExcept _

theorem settles_ensureActive (record : SessionRecord) : Settles 1 (ensureActive record) := by
  refine (settles_perform fun _ => rfl).andThen (n := 0) fun now => ?_
  rcases record with ⟨id, userId, expires, _ | revoked⟩
  · by_cases he : expires ≤ now
    · simp only [he, if_true]
      exact settles_throw _
    · simp only [he, if_false]
      exact settles_pure _
  · exact settles_throw _

theorem settles_getSessionRecord (s : String) : Settles 2 (app.getSessionRecord s) := by
  refine (settles_sql (by simp)).andThen (n := 1) fun record => ?_
  rcases record with _ | record
  · exact (settles_throw _).mono (Nat.zero_le _)
  · exact (settles_ensureActive record).andThen (n := 0) fun _ => settles_pure _

theorem settles_getUser (record : SessionRecord) : Settles 1 (getUser record) := by
  refine Settles.andThen (m := 1) (n := 0) ?_ fun user => ?_
  · exact (settles_sql (by simp)).andThen (n := 0) fun _ => settles_pure _
  · rcases user with _ | user
    · exact settles_throw _
    · exact settles_pure _

theorem settles_createSession (token : String) : Settles 7 (app.createSession token) := by
  refine (app.settles_verifyToken token).andThen (n := 4) fun _ => ?_
  refine (settles_perform fun _ => rfl).andThen (n := 3) fun s => ?_
  refine (settles_expiresAt _).andThen (n := 2) fun expires => ?_
  refine Settles.andThen (m := 2) (n := 0) ?_ fun _ => settles_pure _
  refine settles_orInternalError ((settles_perform fun _ => rfl).andThen (n := 1) fun id => ?_)
  refine (settles_sql (by simp)).andThen (n := 0) fun row => ?_
  rcases row with _ | row
  · exact settles_throw _
  · exact settles_pure _

theorem settles_getSession (s : String) : Settles 3 (app.getSession s) := by
  refine (app.settles_getSessionRecord s).andThen (n := 1) fun record => ?_
  exact (settles_getUser record).andThen (n := 0) fun _ => settles_pure _

theorem settles_refreshSession (s : String) : Settles 6 (app.refreshSession s) := by
  refine (app.settles_getSessionRecord s).andThen (n := 4) fun record => ?_
  refine (settles_expiresAt _).andThen (n := 3) fun expires => ?_
  refine Settles.andThen (m := 2) (n := 1) ?_ fun updated => ?_
  · refine settles_orInternalError ((settles_perform fun _ => rfl).andThen (n := 1) fun now => ?_)
    exact settles_sql (by simp)
  rcases updated with _ | updated
  · exact (settles_throw _).mono (Nat.zero_le _)
  · exact (settles_getUser record).andThen (n := 0) fun _ => settles_pure _

theorem settles_revokeSession (s : String) : Settles 4 (app.revokeSession s) := by
  refine (app.settles_getSessionRecord s).andThen (n := 2) fun _ => ?_
  refine (settles_perform fun _ => rfl).andThen (n := 1) fun now => ?_
  exact settles_orInternalError ((settles_sql (by simp)).andThen (n := 0) fun _ => settles_pure _)

theorem settles_createSpace (name : String) (userId : Int) :
    Settles 5 (SpaceService.createSpace name userId) := by
  refine settles_transaction (n := 2) ((bounded_sql _).andThen (n := 1) fun spaceId => ?_)
  exact (bounded_sql _).andThen (n := 0) fun _ => Handler.bounded_pure _

theorem settles_searchUsers (query : String) (limit : Int) :
    Settles 1 (UserService.searchUsers query limit) :=
  (settles_sql (by simp)).andThen (n := 0) fun _ => settles_pure _

theorem settles_handler (req : Request) : Settles 8 (app.handler req) := by
  cases req with
  | verifyToken body =>
    simp only [handler, Routes.verifyToken]
    split
    · exact (settles_throw _).mono (Nat.zero_le _)
    · exact ((app.settles_verifyToken _).andThen (n := 5) fun _ =>
        (settles_pure _).mono (Nat.zero_le _))
  | createSession body =>
    simp only [handler, Routes.createSession]
    split
    · exact (settles_throw _).mono (Nat.zero_le _)
    · refine (app.settles_createSession _).andThen (n := 1) fun data => ?_
      rcases data with ⟨_, _, _ | s⟩
      · exact (settles_throw _).mono (Nat.zero_le _)
      · exact (settles_pure _).mono (Nat.zero_le _)
  | getSession authorization =>
    refine Settles.mono (m := 3) ((settles_fromExcept _).andThen (n := 3) fun s => ?_) (by decide)
    exact (app.settles_getSession s).andThen (n := 0) fun _ => settles_pure _
  | refreshSession authorization =>
    refine Settles.mono (m := 6) ((settles_fromExcept _).andThen (n := 6) fun s => ?_) (by decide)
    exact (app.settles_refreshSession s).andThen (n := 0) fun _ => settles_pure _
  | deleteSession authorization =>
    refine Settles.mono (m := 4) ((settles_fromExcept _).andThen (n := 4) fun s => ?_) (by decide)
    exact (app.settles_revokeSession s).andThen (n := 0) fun _ => settles_pure _
  | createSpace body authorization =>
    refine (settles_fromExcept _).andThen (n := 8) fun s => ?_
    refine (app.settles_getSession s).andThen (n := 5) fun data => ?_
    by_cases hb : strip body.name = ""
    · simp only [hb, if_true]
      exact (settles_throw _).mono (Nat.zero_le _)
    · simp only [hb, if_false]
      exact (settles_createSpace _ _).andThen (n := 0) fun _ => settles_pure _
  | searchUsers query authorization =>
    refine Settles.mono (m := 4) ((settles_fromExcept _).andThen (n := 4) fun s => ?_) (by decide)
    refine (app.settles_getSession s).andThen (n := 1) fun _ => ?_
    exact (settles_searchUsers _ _).andThen (n := 0) fun _ => settles_pure _

theorem clean_of_none {app : App} {w : World} (hw : ∀ i, w.txs i = none) :
    System.Clean app.system World.txs none w := by
  intro ls d i r h hr
  obtain ⟨req, -, hf⟩ := h.returned hr
  rw [txs_of_run h, hw]
  exact (app.settles_handler req).idle hf

/-! ## Runs over the pool -/

variable {app : App} {w : World} {ls : List (LeaseLabel Eff Eff.Answer Request)}
  {c : Leases Eff Eff.Answer World Request (Except Exc Response)}

theorem follow_of_pooledRun (hw : ∀ i, w.txs i = none) (h : app.PooledRun w ls c) :
    ∃ d, app.system.Run (.init w) (ls.flatMap LeaseLabel.erase) d ∧
      System.Follow app.system World.Same World.txs none c d :=
  h.follow keyed hw (clean_of_none hw)

theorem error_of_refused {i : Nat} {r : Except Exc Response} (h : app.PooledRun w ls c)
    (hr : c.Refused i r) : ∃ e, r = .error (.lib e) := by
  obtain ⟨req, hp⟩ := hr
  exact refusal_iff.1 (h.refusal_of_refused hp)

/-- Every run over the pool is a run of the requests each on a connection of its own, in which the
requests that the pool has refused perform nothing. -/
theorem pooled_run_refines (hw : ∀ i, w.txs i = none) (h : app.PooledRun w ls c) :
    ∃ d, app.system.Run (.init w) (ls.flatMap LeaseLabel.erase) d ∧ d.world.Same c.world ∧
      d.procs = c.procs.map (fun p => (p.1, p.2.rest (app.system.body p.1))) ∧
      (∀ i r, c.Over i r → d.Returned i r) ∧
      ∀ i r, c.Refused i r →
        own i (ls.flatMap LeaseLabel.erase) = [] ∧ ∃ e, r = .error (.lib e) := by
  obtain ⟨d, hr, hf⟩ := follow_of_pooledRun hw h
  refine ⟨d, hr, ⟨hf.same.db.symm, hf.same.clock.symm, hf.same.tokens.symm⟩, hf.procs, ?_, ?_⟩
  · rintro i r ⟨req, hp⟩
    exact ⟨req, hf.getElem? hp⟩
  · intro i r hrefused
    exact ⟨h.own_of_refused hrefused, error_of_refused h hrefused⟩

/-- No two requests share a connection, the transaction open on one is made of the operations of
the request that holds it, and none is open on a free one. -/
theorem connections_isolated (hw : ∀ i, w.txs i = none) (h : app.PooledRun w ls c) :
    c.keys.length ≤ poolMaxSize ∧
    (∀ i j key, c.key? i = some key → c.key? j = some key → i = j) ∧
    (∀ i key, c.key? i = some key →
      c.world.txs key = (own i (ls.flatMap LeaseLabel.erase)).foldl txStep none) ∧
    ∀ key, (∀ i, c.key? i ≠ some key) → c.world.txs key = none := by
  obtain ⟨d, hr, hf⟩ := follow_of_pooledRun hw h
  refine ⟨h.length_keys_le hf, fun i j key => hf.exclusive, fun i key hk => ?_, fun key => hf.free⟩
  rw [hf.held hk, txs_of_run hr, hw]

/-- As long as no request starts while ten others are unanswered, the pool is not felt. -/
theorem pool_serves_ten {ls : List (Label Eff Eff.Answer Request)}
    {d : Config Eff Eff.Answer World Request (Except Exc Response)} (hw : ∀ i, w.txs i = none)
    (h : app.system.RunUnder (fun _ d l => l.isStart → System.unanswered d < poolMaxSize)
      (.init w) ls d) :
    ∃ ls' c, app.PooledRun w ls' c ∧ ls'.flatMap LeaseLabel.erase = ls ∧ c.world.Same d.world ∧
      ∀ i r, d.Returned i r → c.Over i r := by
  obtain ⟨ls', c, hl, he, hf, hc⟩ := System.exists_leaseRun keyed hw (clean_of_none hw) h
  exact ⟨ls', c, hl, he, hf.same, fun i r hr => hf.over hc hr⟩

theorem exists_pooledRun {ls : List (Label Eff Eff.Answer Request)}
    {d : Config Eff Eff.Answer World Request (Except Exc Response)} (hw : ∀ i, w.txs i = none)
    (h : app.system.Run (.init w) ls d) (hfew : ls.countP Label.isStart ≤ poolMaxSize) :
    ∃ ls' c, app.PooledRun w ls' c ∧ ls'.flatMap LeaseLabel.erase = ls ∧
      ∀ i r, d.Returned i r → c.Over i r := by
  obtain ⟨ls', c, hl, he, hf, hc⟩ :=
    System.exists_leaseRun keyed hw (clean_of_none hw) (h.runUnder_of_few hfew)
  exact ⟨ls', c, hl, he, fun i r hr => hf.over hc hr⟩

theorem exists_notMem (tokens : List String) : ∃ s, s ∉ tokens := by
  have : Infinite String := Infinite.of_injective String.ofList fun _ _ => String.ofList_inj.1
  obtain ⟨s, hs⟩ := Infinite.exists_notMem_finset tokens.toFinset
  exact ⟨s, fun h => hs (List.mem_toFinset.2 h)⟩

theorem exists_trans (w : World) (i : Nat) (e : Eff) : ∃ a w', app.system.Trans w i e a w' := by
  cases e with
  | clock => exact ⟨w.clock, _, trans_clock.2 ⟨Int.le_refl _, rfl⟩⟩
  | tokenUrlsafe =>
    obtain ⟨s, hs⟩ := exists_notMem w.tokens
    exact ⟨s, _, trans_tokenUrlsafe.2 ⟨hs, rfl⟩⟩
  | uuid4 => exact ⟨0, _, trans_uuid4.2 rfl⟩
  | sql q => exact ⟨.error .valueError, _, trans_sql.2 (.inr ⟨_, rfl, rfl⟩)⟩

/-- A request takes at most ten steps in the pool, some request can always take one while any is
unanswered, and without new requests and refusals all of them are answered. -/
theorem pool_answers_everyone (h : app.PooledRun w ls c) :
    (ls.filter (!·.isArrival)).length ≤ (ls.filter (·.isArrival)).length * 10 ∧
    (¬c.Done → ∃ l c', app.system.LeaseStep poolMaxSize app.Refusal c l c' ∧ l.serves) ∧
    ∃ ls' c', app.system.LeaseRun poolMaxSize app.Refusal c ls' c' ∧ (∀ l ∈ ls', l.serves) ∧
      c'.Done := by
  have hb : ∀ req, (app.system.body req).Bounded 8 := fun req => (app.settles_handler req).bounded
  obtain ⟨s, ht, hle⟩ := h.total hb
  exact ⟨Nat.le_of_add_right_le hle, System.exists_step (by decide) exists_trans,
    System.exists_done hb (by decide) exists_trans ht⟩

end App

namespace Recorded

def twoSpaces : List (Label Eff Eff.Answer Request) :=
  [.started 0 (.createSpace notes authorization),
    .started 1 (.createSpace ⟨"Plans", by decide, by decide⟩ authorization),
    .did 0 (.sql (.sessionByTokenHash sessionHash)) (.ok (some sessionRecord)),
    .did 0 .clock loginAt, .did 0 (.sql (.userById 1)) (.ok (some userRow)),
    .did 1 (.sql (.sessionByTokenHash sessionHash)) (.ok (some sessionRecord)),
    .did 1 .clock loginAt, .did 1 (.sql (.userById 1)) (.ok (some userRow)),
    .did 0 (.sql .begin) (.ok ()), .did 0 (.sql (.insertSpace "Notes")) (.ok 5),
    .did 1 (.sql .begin) (.ok ()), .did 1 (.sql (.insertSpace "Plans")) (.ok 6),
    .did 0 (.sql (.insertOwner 1 5)) (.ok ()), .did 0 (.sql .commit) (.ok ())]

theorem run_twoSpaces :
    ∃ d, recordedApp.system.RunUnder
      (fun _ d l => l.isStart → System.unanswered d < poolMaxSize) (.init sessionWorld) twoSpaces d ∧
      d.result? 0 = some (.ok (.spaceCreate 5)) ∧ d.world.db.spaces.map (·.name) = ["Notes"] ∧
      d.procs.map (·.2.unanswered) = [false, true] := by
  obtain ⟨d, hd, hres⟩ : ∃ d, recordedApp.system.RunUnder
      (fun _ d l => l.isStart → System.unanswered d < poolMaxSize) (.init sessionWorld) twoSpaces d ∧
      decide (d.result? 0 = some (.ok (.spaceCreate 5)) ∧
        d.world.db.spaces.map (·.name) = ["Notes"] ∧
        d.procs.map (·.2.unanswered) = [false, true]) :=
    System.exists_runUnder choiceFor _ (by decide +kernel)
  exact ⟨d, hd, of_decide_eq_true hres⟩

theorem pooled_twoSpaces :
    ∃ ls c key, recordedApp.PooledRun sessionWorld ls c ∧ ls.flatMap LeaseLabel.erase = twoSpaces ∧
      c.Over 0 (.ok (.spaceCreate 5)) ∧ c.world.db.spaces.map (·.name) = ["Notes"] ∧
      ∀ i, c.key? i = if i = 1 then some key else none := by
  obtain ⟨d, hd, hres, hspaces, hprocs⟩ := run_twoSpaces
  obtain ⟨ls, c, hl, he, hf, hc⟩ :=
    System.exists_leaseRun App.keyed (fun _ => rfl) (App.clean_of_none fun _ => rfl) hd
  have hover : c.Over 0 (.ok (.spaceCreate 5)) := hf.over hc (Config.returned_of_result? hres)
  obtain ⟨key, hkey⟩ : ∃ key, c.key? 1 = some key := by
    have hopen : (d.procs[1]?.map (·.2.unanswered)) = some true := by
      rw [← List.getElem?_map, hprocs]
      rfl
    obtain ⟨⟨req, p⟩, hp, hu⟩ := Option.map_eq_some_iff.1 hopen
    cases p with
    | ret r => cases hu
    | op e k =>
      obtain ⟨key, hq⟩ := hf.holding hc hp
      exact ⟨key, System.key?_eq hq⟩
  refine ⟨ls, c, key, hl, he, hover, hf.same.db ▸ hspaces, ?_⟩
  intro i
  by_cases hi : i = 1
  · rw [if_pos hi, hi, hkey]
  rw [if_neg hi]
  rcases Nat.lt_or_ge i 2 with hlt | hge
  · obtain rfl : i = 0 := by omega
    obtain ⟨req, hp⟩ := hover
    exact System.key?_eq hp
  · have hlen : c.procs.length = 2 := by
      rw [← hf.length_procs, ← List.length_map, hprocs]
      rfl
    rw [Leases.key?, List.getElem?_eq_none (hlen ▸ hge)]
    rfl

theorem pooled_run_refines_spaces :
    ∃ ls c d, recordedApp.PooledRun sessionWorld ls c ∧
      recordedApp.system.Run (.init sessionWorld) twoSpaces d ∧
      d.Returned 0 (.ok (.spaceCreate 5)) ∧ d.world.db.spaces.map (·.name) = ["Notes"] := by
  obtain ⟨ls, c, _, h, he, hover, hspaces, -⟩ := pooled_twoSpaces
  obtain ⟨d, hr, hsame, -, hreturned, -⟩ := App.pooled_run_refines (fun _ => rfl) h
  exact ⟨ls, c, d, h, he ▸ hr, hreturned 0 _ hover, hsame.db ▸ hspaces⟩

theorem connections_isolated_spaces :
    ∃ ls c key, recordedApp.PooledRun sessionWorld ls c ∧ c.key? 1 = some key ∧
      c.world.txs key = some ⟨[⟨6, "Plans", none, none⟩], []⟩ ∧
      ∀ key' ≠ key, c.world.txs key' = none := by
  obtain ⟨ls, c, key, h, he, -, -, hkeys⟩ := pooled_twoSpaces
  obtain ⟨-, -, hheld, hfree⟩ := App.connections_isolated (fun _ => rfl) h
  have hkey : c.key? 1 = some key := hkeys 1
  refine ⟨ls, c, key, h, hkey, ?_, fun key' hne => hfree key' fun i hi => ?_⟩
  · rw [hheld 1 key hkey, he]
    rfl
  · rw [hkeys i] at hi
    split at hi
    · exact hne (Option.some.inj hi).symm
    · cases hi

theorem pool_serves_ten_spaces :
    ∃ ls c, recordedApp.PooledRun sessionWorld ls c ∧ c.Over 0 (.ok (.spaceCreate 5)) := by
  obtain ⟨d, hd, hres, -⟩ := run_twoSpaces
  obtain ⟨ls, c, h, -, -, hover⟩ := App.pool_serves_ten (fun _ => rfl) hd
  exact ⟨ls, c, h, hover 0 _ (Config.returned_of_result? hres)⟩

theorem pool_answers_everyone_spaces :
    ∃ ls c, recordedApp.PooledRun sessionWorld ls c ∧ c.Done := by
  obtain ⟨ls, c, -, h, -⟩ := pooled_twoSpaces
  obtain ⟨-, -, ls', c', h', -, hd⟩ := App.pool_answers_everyone h
  exact ⟨_, c', h.append h', hd⟩

end Recorded

end WikiBackend
