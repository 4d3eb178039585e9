import WikiBackend.Api.Causes
import WikiBackend.Api.Isolation
import WikiBackend.Effects.Erase

/-! A refused request has changed nothing. All that it has done is to read. -/

namespace WikiBackend

open Effects

def reads : Ev → Bool
  | ⟨.clock, _⟩ => true
  | ⟨.sql (.sessionByTokenHash _), _⟩ => true
  | ⟨.sql (.userById _), _⟩ => true
  | ⟨.sql (.usersByUsername _ _), _⟩ => true
  | _ => false

structure ReadOnly {α : Type} (x : Act α) : Prop where
  all : ∀ {evs r}, Finishes x.run evs r → evs.all reads

/-- The program has only read when it raises, unless it raises an internal error. -/
structure Cautious {α : Type} (x : Act α) : Prop where
  all : ∀ {evs e}, Finishes x.run evs (.error e) → ¬e.internal → evs.all reads

section
variable {α β : Type} {x : Act α} {f : α → Act β}

theorem readOnly_pure (a : α) : ReadOnly (pure a : Act α) where
  all h := by
    obtain ⟨rfl, -⟩ := finishes_pure.1 h
    rfl

theorem readOnly_ofExcept (x : Except Exc α) : ReadOnly (fromExcept x : Act α) where
  all h := by
    obtain ⟨rfl, -⟩ := finishes_ofExcept.1 h
    rfl

theorem ReadOnly.cautious (h : ReadOnly x) : Cautious x := ⟨fun hx _ => h.all hx⟩

theorem cautious_throw (e : Exc) : Cautious (throw e : Act α) where
  all h _ := by
    obtain ⟨rfl, -⟩ := finishes_throw.1 h
    rfl

theorem Fails.cautious (h : Fails x) : Cautious x :=
  ⟨fun hx he => absurd (h.of_error hx).1 he⟩

theorem Cautious.after (hx : ReadOnly x) (hf : ∀ a, Cautious (f a)) : Cautious (x >>= f) where
  all h he := by
    rcases finishes_andThen.1 h with ⟨y, hy, -⟩ | ⟨evs₁, a, evs₂, rfl, h₁, h₂⟩
    · exact hx.all hy
    · rw [List.all_append, hx.all h₁, (hf a).all h₂ he]
      rfl

theorem Cautious.andThen (hx : Cautious x)
    (hf : ∀ a evs e, Finishes (f a).run evs (.error e) → e.internal) : Cautious (x >>= f) where
  all h he := by
    rcases finishes_andThen.1 h with ⟨y, hy, hr⟩ | ⟨evs₁, a, evs₂, rfl, h₁, h₂⟩
    · cases hr
      exact hx.all hy he
    · exact absurd (hf a _ _ h₂) he

theorem Cautious.andThen_pure (hx : Cautious x) (f : α → β) :
    Cautious (x >>= fun a => pure (f a)) :=
  hx.andThen fun _ _ _ h => by
    cases (finishes_pure.1 h).2

end

namespace App

variable {app : App} {w w' w₀ : World} {i : Nat} {req : Request} {evs : List Ev} {e : Exc}

/-! ## The services -/

theorem readOnly_verifyAccessToken (token : String) : ReadOnly (app.verifyAccessToken token) where
  all h := by
    rcases finishes_verifyAccessToken.1 h with ⟨_, -, rfl, -⟩ | ⟨t, _, -, rfl, -⟩
    · rfl
    · rfl

theorem cautious_verifyToken (token : String) : Cautious (app.verifyToken token) :=
  (readOnly_verifyAccessToken token).cautious.andThen fun p _ _ h =>
    ((fails_orInternalError (fails_upsertUser p)).of_error h).1

theorem readOnly_getSessionRecord (s : String) : ReadOnly (app.getSessionRecord s) where
  all h := by
    rcases finishes_getSessionRecord.1 h with ⟨_, rfl, -⟩ | ⟨rfl, -⟩ | ⟨_, _, rfl, -⟩
    all_goals rfl

theorem readOnly_getSession (s : String) : ReadOnly (app.getSession s) where
  all h := by
    rcases finishes_getSession h with ⟨_, hg, -⟩ | ⟨evs₁, rec, y, hg, rfl, -⟩
    · exact (readOnly_getSessionRecord s).all hg
    · rw [List.all_append, (readOnly_getSessionRecord s).all hg]
      rfl

theorem cautious_createSession (token : String) : Cautious (app.createSession token) := by
  refine ⟨fun {evs e} h he => ?_⟩
  rcases finishes_createSession h with ⟨_, hv, hr⟩ | ⟨_, _, _, _, _, -, ⟨_, ht, -, hr⟩ |
    ⟨_, _, x, -, -, hr⟩⟩
  · cases hr
    exact (cautious_verifyToken token).all hv he
  · cases hr
    obtain rfl := addSeconds_eq_error ht
    exact absurd (Exc.internal_lib _) he
  · rcases x with _ | _ | _
    · cases hr
      exact absurd rfl he
    · cases hr
      exact absurd rfl he
    · cases hr

theorem cautious_revokeSession (s : String) : Cautious (app.revokeSession s) := by
  refine ⟨fun {evs e} h he => ?_⟩
  rcases finishes_revokeSession h with ⟨_, hg, hr⟩ | ⟨_, _, _, x, -, -, hr⟩
  · exact (readOnly_getSessionRecord s).all hg
  · cases x with
    | error _ =>
      cases hr
      exact absurd rfl he
    | ok _ => cases hr

theorem refresh_reads {s : String} (h : Finishes (app.refreshSession s).run evs (.error e))
    (he : ¬e.internal) :
    evs.all reads ∨ ∃ rec evs' expires now, evs = app.selectEv s rec :: evs' ++
      [sqlEv (.updateExpiry (app.hashToken s) expires now) (.ok none)] := by
  rcases finishes_refreshSession h with ⟨_, hg, -⟩ | ⟨evs₁, rec, t, hg, ⟨_, ht, -, hr⟩ |
    ⟨expires, now, x, evs₂, -, rfl, ⟨_, -, -, hr⟩ | ⟨rfl, rfl, -⟩ | ⟨rec', y, -, -, hr⟩⟩⟩
  · exact .inl ((readOnly_getSessionRecord s).all hg)
  · cases hr
    obtain rfl := addSeconds_eq_error ht
    exact absurd (Exc.internal_lib _) he
  · cases hr
    exact absurd rfl he
  · obtain ⟨t₀, rfl, -⟩ := finishes_getSessionRecord_ok.1 hg
    exact .inr ⟨rec, [clockEv t₀, clockEv t, clockEv now], expires, now, rfl⟩
  · rcases y with _ | _ | _
    · cases hr
      exact absurd (Exc.internal_lib _) he
    · cases hr
      exact absurd rfl he
    · cases hr

/-! ## The requests -/

theorem cautious_handler (hreq : ∀ authorization, req ≠ .refreshSession authorization) :
    Cautious (app.handler req) := by
  cases req with
  | verifyToken body =>
    simp only [handler, Routes.verifyToken]
    split
    · exact cautious_throw _
    · exact (cautious_verifyToken _).andThen_pure _
  | createSession body =>
    simp only [handler, Routes.createSession]
    split
    · exact cautious_throw _
    · refine (cautious_createSession _).andThen fun data evs e h => ?_
      cases hs : data.sessionToken with
      | none =>
        simp only [hs] at h
        cases (finishes_throw.1 h).2
        rfl
      | some s =>
        simp only [hs] at h
        cases (finishes_pure.1 h).2
  | getSession authorization =>
    refine .after (readOnly_ofExcept _) fun s => .after (readOnly_getSession s) fun _ => ?_
    exact (readOnly_pure _).cautious
  | refreshSession authorization => exact absurd rfl (hreq authorization)
  | deleteSession authorization =>
    refine .after (readOnly_ofExcept _) fun s => ?_
    exact (cautious_revokeSession s).andThen_pure _
  | createSpace body authorization =>
    refine .after (readOnly_ofExcept _) fun s => .after (readOnly_getSession s) fun data => ?_
    by_cases hb : strip body.name = ""
    · simp only [hb, if_true]
      exact cautious_throw _
    · simp only [hb, if_false]
      exact (fails_createSpace _ _).cautious.andThen_pure _
  | searchUsers query authorization =>
    refine .after (readOnly_ofExcept _) fun s => .after (readOnly_getSession s) fun _ => ?_
    exact (fails_searchUsers _ _).cautious.andThen_pure _

/-! ## Runs -/

structure Behind (w w' : World) : Prop where
  db : w'.db = w.db
  tokens : w'.tokens = w.tokens
  txs : w'.txs = w.txs
  clock : w'.clock ≤ w.clock

theorem Behind.eq (h : Behind w w') : ∃ t, t ≤ w.clock ∧ w' = { w with clock := t } := by
  obtain ⟨db, clock, tokens, txs⟩ := w'
  obtain ⟨rfl, rfl, rfl, hle⟩ := h
  exact ⟨clock, hle, rfl⟩

theorem execute_clock (fold : Char → Char) (s : ServerChoice) (w : World) (q : Stmt) (t : Instant) :
    q.execute fold s i { w with clock := t } =
      ((q.execute fold s i w).1, { (q.execute fold s i w).2 with clock := t }) := by
  have insert {α : Type} (rows : Tx) (a : α) : World.insert { w with clock := t } i rows a =
      ((w.insert i rows a).1, { (w.insert i rows a).2 with clock := t }) := by
    simp only [World.insert]
    cases w.txs i with
    | none => rfl
    | some tx =>
      simp only
      cases (w.db.withTx (tx.append rows)).enforce with
      | ok _ => rfl
      | error _ => rfl
  cases q with
  | insertSpace name =>
    simp only [Stmt.execute]
    split
    · rfl
    · exact insert _ _
  | insertOwner userId spaceId => exact insert _ _
  | commit =>
    simp only [Stmt.execute, World.commit]
    cases w.txs i with
    | none => rfl
    | some tx => rfl
  | _ => rfl

theorem behind_of_reads {e : Eff} {a : e.Answer} (ht : app.system.Trans w i e a w')
    (hr : reads ⟨e, a⟩ = true) : Behind w' w := by
  cases e with
  | clock =>
    obtain ⟨hle, rfl⟩ := trans_clock.1 ht
    exact ⟨rfl, rfl, rfl, hle⟩
  | tokenUrlsafe => cases hr
  | uuid4 => cases hr
  | sql q =>
    suffices hw : w' = w by
      subst hw
      exact ⟨rfl, rfl, rfl, Int.le_refl _⟩
    cases q with
    | sessionByTokenHash | userById | usersByUsername =>
      rcases trans_sql.1 ht with ⟨s, hx⟩ | ⟨_, -, hw⟩
      · exact (congrArg Prod.snd hx).symm
      · exact hw
    | _ => cases hr

theorem trans_of_behind {w₁ : World} {e : Eff} {a : e.Answer} (ht : app.system.Trans w i e a w₁)
    (hb : Behind w w') : ∃ w₁', app.system.Trans w' i e a w₁' ∧ Behind w₁ w₁' := by
  cases e with
  | clock =>
    obtain ⟨hle, rfl⟩ := trans_clock.1 ht
    exact ⟨_, trans_clock.2 ⟨hb.clock.trans hle, rfl⟩, hb.db, hb.tokens, hb.txs, Int.le_refl _⟩
  | tokenUrlsafe =>
    obtain ⟨hs, rfl⟩ := trans_tokenUrlsafe.1 ht
    refine ⟨_, trans_tokenUrlsafe.2 ⟨hb.tokens ▸ hs, rfl⟩, hb.db, ?_, hb.txs, hb.clock⟩
    simp only [hb.tokens]
  | uuid4 =>
    obtain rfl := trans_uuid4.1 ht
    exact ⟨w', trans_uuid4.2 rfl, hb⟩
  | sql q =>
    obtain ⟨t, hle, rfl⟩ := hb.eq
    rcases trans_sql.1 ht with ⟨s, hx⟩ | ⟨y, rfl, rfl⟩
    · have hclock : w₁.clock = w.clock := by
        have hself := execute_clock (i := i) app.fold s w q w.clock
        rw [hx] at hself
        exact congrArg (·.2.clock) hself
      have hx' : q.execute app.fold s i { w with clock := t } = (a, { w₁ with clock := t }) := by
        rw [execute_clock, hx]
      exact ⟨_, trans_sql.2 (.inl ⟨s, hx'⟩), rfl, rfl, rfl, hle.trans_eq hclock.symm⟩
    · refine ⟨_, trans_sql.2 (.inr ⟨y, rfl, rfl⟩), ?_⟩
      cases q <;> exact ⟨rfl, rfl, rfl, hle⟩

theorem hides_reads : app.system.Hides (fun ev => reads ev = true) Behind where
  hidden ht hr hb := by
    have hb' := behind_of_reads ht hr
    exact ⟨hb.db.trans hb'.db, hb.tokens.trans hb'.tokens, hb.txs.trans hb'.txs,
      hb.clock.trans hb'.clock⟩
  shown := trans_of_behind

theorem reads_of_refused {ls : List (Label Eff Eff.Answer Request)}
    {c : Config Eff Eff.Answer World Request (Except Exc Response)}
    (h : app.system.Run (.init w₀) ls c) (hret : c.Returned i (.error e))
    (he : (handleException e).statusCode < 500) : (own i ls).all reads := by
  obtain ⟨req, hreq, hf⟩ := h.returned hret
  have hi : ¬e.internal := by
    intro hi
    rw [show handleException e = _ from hi] at he
    exact absurd he (by decide)
  by_cases hreq' : ∃ authorization, req = .refreshSession authorization
  · obtain ⟨authorization, rfl⟩ := hreq'
    rcases finishes_ofExcept_andThen.1 hf with ⟨_, -, hevs, -⟩ | ⟨s, -, h₁⟩
    · rw [hevs]
      rfl
    obtain ⟨y, h₂, hy⟩ := finishes_andThen_pure.1 h₁
    cases y with
    | ok data => cases hy
    | error e' =>
      cases hy
      refine (refresh_reads h₂ hi).resolve_right ?_
      -- a row that was looked up is still there
      rintro ⟨rec, evs', expires, now, ho⟩
      obtain ⟨l₁, l₂, rfl, ho₁, -⟩ := own_eq_append_cons _ ho
      obtain ⟨c₁, c₂, h₁, hst, -⟩ := h.split
      obtain ⟨r, hr, -⟩ := row_of_selected h₁ ho₁
      have hnone := (trans_updateExpiry hst.trans).1
      rw [hr] at hnone
      cases hnone
  · exact (cautious_handler fun authorization hr => hreq' ⟨authorization, hr⟩).all hf hi

/-- Refused requests leave no trace: the run without their steps is a run that leaves the same
tables and gives the same answers to all other requests. -/
theorem refused_requests_leave_no_trace {ls : List (Label Eff Eff.Answer Request)}
    {c : Config Eff Eff.Answer World Request (Except Exc Response)} {hidden : Nat → Bool}
    (h : app.system.Run (.init w₀) ls c)
    (hrefused : ∀ i, hidden i = true →
      ∃ e, c.Returned i (.error e) ∧ (handleException e).statusCode < 500) :
    ∃ c', app.system.Run (.init w₀) (ls.filter (·.shown hidden)) c' ∧
      c'.world.db = c.world.db ∧
      ∀ i, hidden i = false → ∀ r, c'.Returned i r ↔ c.Returned i r := by
  have hreads : ∀ i e a, hidden i = true → .did i e a ∈ ls → reads ⟨e, a⟩ = true := by
    intro i e a hi hm
    obtain ⟨e', hret, he⟩ := hrefused i hi
    exact List.all_eq_true.1 (reads_of_refused h hret he) _ (mem_own.2 hm)
  have hc : System.Erased Behind hidden
      (.init w₀ : Config Eff Eff.Answer World Request (Except Exc Response)) (.init w₀) :=
    ⟨⟨rfl, rfl, rfl, Int.le_refl _⟩, rfl, fun _ _ => rfl⟩
  obtain ⟨c', hr, he⟩ := h.erase hides_reads hreads hc
  refine ⟨c', hr, he.world.db, fun i hi r => ?_⟩
  simp only [Config.Returned, he.procs i hi]

end App

namespace Recorded

def refusedSpace : List (Label Eff Eff.Answer Request) :=
  [.started 0 (.createSpace notes authorization),
    .started 1 (.createSpace ⟨" ", by decide, by decide⟩ authorization),
    .did 1 (.sql (.sessionByTokenHash sessionHash)) (.ok (some sessionRecord)),
    .did 0 (.sql (.sessionByTokenHash sessionHash)) (.ok (some sessionRecord)),
    .did 0 .clock loginAt, .did 1 .clock loginAt,
    .did 0 (.sql (.userById 1)) (.ok (some userRow)), .did 0 (.sql .begin) (.ok ()),
    .did 0 (.sql (.insertSpace "Notes")) (.ok 5), .did 1 (.sql (.userById 1)) (.ok (some userRow)),
    .did 0 (.sql (.insertOwner 1 5)) (.ok ()), .did 0 (.sql .commit) (.ok ())]

theorem refused_requests_leave_no_trace_blank :
    ∃ c', recordedApp.system.Run (.init sessionWorld)
        (refusedSpace.filter (·.shown (· == 1))) c' ∧ c'.Returned 0 (.ok (.spaceCreate 5)) := by
  obtain ⟨c, hrun, hret⟩ : ∃ c, recordedApp.system.Run (.init sessionWorld) refusedSpace c ∧
      decide (c.result? 0 = some (.ok (.spaceCreate 5)) ∧
        c.result? 1 = some (.error (appError 400 .validationError))) :=
    System.exists_run choiceFor _ (by decide +kernel)
  obtain ⟨h₀, h₁⟩ := of_decide_eq_true hret
  have hrefused : ∀ i, (i == 1) = true →
      ∃ e, c.Returned i (.error e) ∧ (handleException e).statusCode < 500 := by
    intro i hi
    obtain rfl : i = 1 := by simpa using hi
    exact ⟨_, Config.returned_of_result? h₁, by decide⟩
  obtain ⟨c', hr, -, hsame⟩ := App.refused_requests_leave_no_trace hrun hrefused
  exact ⟨c', hr, (hsame 0 rfl _).2 (Config.returned_of_result? h₀)⟩

end Recorded

end WikiBackend
