import WikiBackend.Sessions.Operations

/-! What a failed operation leaves behind. The statements of an operation are not one
transaction: a failure after its first write does not undo that write. -/

namespace WikiBackend

open Effects

variable {app : App} {w w' : World} {i : Nat} {evs : List Ev} {db db' : Database}

/-! ## Writes that change nothing -/

theorem UsersStep.users_eq_iff {p : UpsertParams} {row : UserRow} {created : Bool}
    (h : UsersStep db db' (sqlEv (.upsertUser p) (.ok (some (row, created))))) :
    db'.users = db.users ↔ ∃ r, db.userByTelegramId p.telegramId = some r ∧ p.updateRow r = r := by
  cases h with
  | kept hw => cases hw
  | updated hr ht =>
    rw [ht, Keyed.modify_eq_self_iff db.constraints.usersTelegramId]
    constructor
    · intro h
      exact ⟨_, hr, h _ hr⟩
    · rintro ⟨r, hr, h⟩ r' hr'
      have hrr' : r = r' := Option.some.inj (hr.symm.trans hr')
      rwa [← hrr']
  | inserted hn ht =>
    rw [ht, hn]
    constructor
    · intro h
      exact absurd (congrArg List.length h) (by simp)
    · rintro ⟨_, h, _⟩
      cases h

/-- The failure struck before the write took effect, or the write had no effect: what it wrote
was in the row already. -/
def FailsInTime (w : World) (evs : List Ev) : Operation → Prop
  | .createSession _ => ∀ p x, sqlEv (.upsertUser p) (.ok x) ∈ evs →
    ∃ r, w.db.userByTelegramId p.telegramId = some r ∧ p.updateRow r = r
  | .refreshSession _ => ∀ h expires now x, sqlEv (.updateExpiry h expires now) (.ok x) ∈ evs →
    ∀ r, w.db.sessionByHash h = some r → Database.setExpiry expires now r = r
  | .getSession _ | .revokeSession _ => True

theorem failsInTime_of_quiet (hq : ∀ ev ∈ evs, Quiet ev) (op : Operation) :
    FailsInTime w evs op := by
  cases op with
  | createSession token => exact fun p x hm => nomatch (hq _ hm).1
  | refreshSession s => exact fun h expires now x hm => nomatch (hq _ hm).2
  | getSession | revokeSession => trivial

theorem unchanged_of_quiet (hq : ∀ ev ∈ evs, Quiet ev) (ha : app.system.Answers i w evs w')
    (op : Operation) :
    (w'.db.users = w.db.users ∧ w'.db.sessions = w.db.sessions) ↔ FailsInTime w evs op :=
  iff_of_true ⟨users_of_answers ha fun ev hev => (hq ev hev).1,
    sessions_of_answers ha fun ev hev => (hq ev hev).2⟩ (failsInTime_of_quiet hq op)

theorem answers_of_one_write {ev : Ev} {evs₁ evs₂ : List Ev} (h₁ : ∀ ev ∈ evs₁, Quiet ev)
    (h₂ : ∀ ev ∈ evs₂, Quiet ev) (ha : app.system.Answers i w (evs₁ ++ ev :: evs₂) w') :
    ∃ m m', m.db.users = w.db.users ∧ m.db.sessions = w.db.sessions ∧
      app.system.Trans m i ev.1 ev.2 m' ∧ w'.db.users = m'.db.users ∧
      w'.db.sessions = m'.db.sessions := by
  obtain ⟨m, hm, h⟩ := System.answers_append.1 ha
  obtain ⟨m', ht, hm'⟩ := System.answers_cons.1 h
  exact ⟨m, m', users_of_answers hm fun ev hev => (h₁ ev hev).1,
    sessions_of_answers hm fun ev hev => (h₁ ev hev).2, ht,
    users_of_answers hm' fun ev hev => (h₂ ev hev).1,
    sessions_of_answers hm' fun ev hev => (h₂ ev hev).2⟩

theorem mem_of_one_write {ev ev' : Ev} {evs₁ evs₂ : List Ev} (h₁ : ∀ ev ∈ evs₁, Quiet ev)
    (h₂ : ∀ ev ∈ evs₂, Quiet ev) (hw : ¬Quiet ev') (h : ev' ∈ evs₁ ++ ev :: evs₂) : ev' = ev := by
  rcases List.mem_append.1 h with h | h
  · exact absurd (h₁ _ h) hw
  · rcases List.mem_cons.1 h with h | h
    · exact h
    · exact absurd (h₂ _ h) hw

theorem unchanged_of_upsert {p : UpsertParams} {row : UserRow} {created : Bool}
    {evs₁ evs₂ : List Ev} (h₁ : ∀ ev ∈ evs₁, Quiet ev) (h₂ : ∀ ev ∈ evs₂, Quiet ev)
    (ha : app.system.Answers i w
      (evs₁ ++ sqlEv (.upsertUser p) (.ok (some (row, created))) :: evs₂) w') (token : String) :
    (w'.db.users = w.db.users ∧ w'.db.sessions = w.db.sessions) ↔
      FailsInTime w (evs₁ ++ sqlEv (.upsertUser p) (.ok (some (row, created))) :: evs₂)
        (.createSession token) := by
  obtain ⟨m, m', hu, hs, ht, hu', hs'⟩ := answers_of_one_write h₁ h₂ ha
  have hst : m'.db.sessions = m.db.sessions :=
    (App.sessionsStep_of_trans ht).eq_of_not_writes rfl
  have hlookup : m.db.userByTelegramId p.telegramId = w.db.userByTelegramId p.telegramId := by
    rw [Database.userByTelegramId, hu, Database.userByTelegramId]
  have hsame : m'.db.users = m.db.users ↔
      ∃ r, w.db.userByTelegramId p.telegramId = some r ∧ p.updateRow r = r := by
    rw [(App.usersStep_of_trans ht).users_eq_iff, hlookup]
  rw [hu', hs', hst, hs, and_iff_left rfl, ← hu, hsame]
  constructor
  · intro h p' x hm
    cases mem_of_one_write h₁ h₂ not_quiet_upsert hm
    exact h
  · intro h
    exact h p _ (List.mem_append_right _ List.mem_cons_self)

theorem unchanged_of_updateExpiry {hash : String} {expires now : Instant}
    {x : Option SessionRecord} {evs₁ evs₂ : List Ev} (h₁ : ∀ ev ∈ evs₁, Quiet ev)
    (h₂ : ∀ ev ∈ evs₂, Quiet ev)
    (ha : app.system.Answers i w
      (evs₁ ++ sqlEv (.updateExpiry hash expires now) (.ok x) :: evs₂) w') (s : String) :
    (w'.db.users = w.db.users ∧ w'.db.sessions = w.db.sessions) ↔
      FailsInTime w (evs₁ ++ sqlEv (.updateExpiry hash expires now) (.ok x) :: evs₂)
        (.refreshSession s) := by
  obtain ⟨m, m', hu, hs, ht, hu', hs'⟩ := answers_of_one_write h₁ h₂ ha
  have hst : m'.db.users = m.db.users := (App.usersStep_of_trans ht).eq_of_not_writes rfl
  have hlookup : m.db.sessionByHash hash = w.db.sessionByHash hash := Database.sessionByHash_congr hs
  have hsame : m'.db.sessions = m.db.sessions ↔
      ∀ r, w.db.sessionByHash hash = some r → Database.setExpiry expires now r = r := by
    rw [(App.trans_updateExpiry ht).2,
      Keyed.modify_eq_self_iff m.db.constraints.sessionsTokenHash, ← hlookup]
    rfl
  rw [hu', hs', hst, hu, and_iff_right rfl, ← hs, hsame]
  constructor
  · intro h hash' expires' now' x' hm
    cases mem_of_one_write h₁ h₂ not_quiet_updateExpiry hm
    exact h
  · intro h
    exact h hash expires now x (List.mem_append_right _ List.mem_cons_self)

/-! ## The operations -/

theorem createSession_failed {token : String} {e : Exc}
    (hf : Finishes (app.createSession token).run evs (.error e))
    (ha : app.system.Answers i w evs w') :
    (w'.db.users = w.db.users ∧ w'.db.sessions = w.db.sessions) ↔
      FailsInTime w evs (.createSession token) := by
  rcases createSession_error hf ha with hq | ⟨evs₁, p, row, created, evs₂, rfl, h₁, h₂⟩
  · exact unchanged_of_quiet hq ha _
  · exact unchanged_of_upsert h₁ h₂ ha token

theorem refreshSession_failed {s : String} {e : Exc}
    (hf : Finishes (app.refreshSession s).run evs (.error e))
    (ha : app.system.Answers i w evs w') :
    (w'.db.users = w.db.users ∧ w'.db.sessions = w.db.sessions) ↔
      FailsInTime w evs (.refreshSession s) := by
  rcases App.finishes_refreshSession hf with ⟨_, h, -⟩ | ⟨evs₁, rec, t, h, ⟨_, -, rfl, -⟩ |
    ⟨expires, now, x, evs₂, -, rfl, hrest⟩⟩
  · exact unchanged_of_quiet (quiet_getSessionRecord h) ha _
  · have hq : ∀ ev ∈ evs₁ ++ [clockEv t], Quiet ev := by
      intro ev hev
      rcases List.mem_append.1 hev with hev | hev
      · exact quiet_getSessionRecord h ev hev
      · cases List.mem_singleton.1 hev
        exact quiet_clock t
    exact unchanged_of_quiet hq ha _
  have h₁ : ∀ ev ∈ evs₁ ++ [clockEv t, clockEv now], Quiet ev := by
    intro ev hev
    rcases List.mem_append.1 hev with hev | hev
    · exact quiet_getSessionRecord h ev hev
    · simp only [List.mem_cons, List.not_mem_nil, or_false] at hev
      rcases hev with rfl | rfl
      · exact quiet_clock t
      · exact quiet_clock now
  have h₂ : ∀ ev ∈ evs₂, Quiet ev := by
    rcases hrest with ⟨_, -, rfl, -⟩ | ⟨-, rfl, -⟩ | ⟨_, y, -, rfl, -⟩
    · simp
    · simp
    · simpa using quiet_userById y
  rw [List.append_cons, List.append_cons, List.append_assoc evs₁] at ha ⊢
  rcases x with e' | x
  · have hq : ∀ ev ∈ (evs₁ ++ [clockEv t, clockEv now]) ++
        sqlEv (.updateExpiry (app.hashToken s) expires now) (.error e') :: evs₂, Quiet ev := by
      intro ev hev
      rcases List.mem_append.1 hev with hev | hev
      · exact h₁ ev hev
      · rcases List.mem_cons.1 hev with rfl | hev
        · exact quiet_error _ e'
        · exact h₂ ev hev
    exact unchanged_of_quiet hq ha _
  · exact unchanged_of_updateExpiry h₁ h₂ ha s

/-- An operation that raises leaves users and sessions as they were exactly when it fails before
its first write, or had written nothing new. -/
theorem failed_operation_unchanged_iff {op : Operation} {e : Exc}
    (hf : Finishes (app.operation op).run evs (.error e)) (ha : app.system.Answers i w evs w') :
    (w'.db.users = w.db.users ∧ w'.db.sessions = w.db.sessions) ↔ FailsInTime w evs op := by
  cases op with
  | createSession token =>
    have h := finishes_andThen_pure_error.1 hf
    exact createSession_failed h ha
  | getSession s =>
    have h := finishes_andThen_pure_error.1 hf
    exact unchanged_of_quiet (quiet_getSession h) ha _
  | refreshSession s =>
    have h := finishes_andThen_pure_error.1 hf
    exact refreshSession_failed h ha
  | revokeSession s =>
    have h := finishes_andThen_pure_error.1 hf
    exact unchanged_of_quiet (quiet_revokeSession h) ha _

namespace Recorded

def failedLogin : List Ev := loginEvents (.error (.postgres .connectionError))

theorem finishes_failedLogin :
    Finishes (recordedApp.operation (.createSession token₁)).run failedLogin
      (.error App.internalError) :=
  finishes_andThen_pure.2 ⟨_, finishes_login _, rfl⟩

theorem answers_failedLogin : ∃ w', recordedApp.system.Answers 0 World.initial failedLogin w' ∧
    decide (w'.db.users = [userRow]) :=
  System.exists_answers choiceFor _ (by decide +kernel)

end Recorded

open Recorded in
theorem failed_operation_unchanged_iff_login :
    ∃ w', recordedApp.system.Answers 0 World.initial failedLogin w' ∧
      ((w'.db.users = [] ∧ w'.db.sessions = []) ↔
        FailsInTime World.initial failedLogin (.createSession token₁)) := by
  obtain ⟨w', ha, -⟩ := answers_failedLogin
  exact ⟨w', ha, failed_operation_unchanged_iff finishes_failedLogin ha⟩

open Recorded in
theorem failed_login_creates_user :
    ¬∀ (app : App) (w w' : World) (i : Nat) (op : Operation) (evs : List Ev) (e : Exc),
      Finishes (app.operation op).run evs (.error e) → app.system.Answers i w evs w' →
      w'.db.users = w.db.users ∧ w'.db.sessions = w.db.sessions := by
  intro h
  obtain ⟨w', ha, hu⟩ := answers_failedLogin
  have hkept := (h _ _ _ _ _ _ _ finishes_failedLogin ha).1
  simp [of_decide_eq_true hu, World.initial, Database.empty] at hkept

end WikiBackend
