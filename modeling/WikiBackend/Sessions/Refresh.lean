import WikiBackend.Sessions.Revocation

/-! When a refresh extends an active session. A request selects the session's row and
checks it first, and a refresh updates the row later, by its hash alone: in between
other requests may revoke the session, extend it, or let it expire. -/

namespace WikiBackend.App

open Effects

variable {app : App} {w₀ : World} {ls : List (Label Eff Eff.Answer Request)}
  {c c₁ c₂ : Config Eff Eff.Answer World Request (Except Exc Response)} {i j : Nat} {s h : String}
  {rec : SessionRecord} {t : Instant}

/-! ## Records kept up to date -/

def currentStep (h : String) (i : Nat) (acc : Option SessionRecord) :
    Label Eff Eff.Answer Request → Option SessionRecord
  | .did j (.sql (.sessionByTokenHash h')) (.ok x) => if j = i ∧ h' = h then x else acc
  | .did _ (.sql (.updateExpiry h' expires _)) (.ok _) =>
    if h' = h then acc.map fun rec => { rec with expiresAt := expires } else acc
  | .did _ (.sql (.revoke h' t)) (.ok _) =>
    if h' = h then acc.map fun rec => { rec with revokedAt := some t } else acc
  | _ => acc

/-- The record that request `i` has selected by the hash `h`, brought up to date with the
refreshes and revokes executed since. -/
def current (h : String) (i : Nat) (ls : List (Label Eff Eff.Answer Request)) :
    Option SessionRecord :=
  ls.foldl (currentStep h i) none

theorem row_of_change {db db' : Database} {h' : String} {acc : Option SessionRecord}
    {f : SessionRow → SessionRow} {g : SessionRecord → SessionRecord}
    (hacc : ∀ {rec}, acc = some rec → ∃ r, db.sessionByHash h = some r ∧ r.toRecord = rec)
    (hfg : ∀ r, (f r).toRecord = g r.toRecord)
    (hrow : db'.sessionByHash h = (db.sessionByHash h).map fun r => if h = h' then f r else r)
    (hc : (if h' = h then acc.map g else acc) = some rec) :
    ∃ r, db'.sessionByHash h = some r ∧ r.toRecord = rec := by
  rw [hrow]
  by_cases hh : h' = h
  · rw [if_pos hh] at hc
    obtain ⟨_, hacc', rfl⟩ := Option.map_eq_some_iff.1 hc
    obtain ⟨r, hr, rfl⟩ := hacc hacc'
    exact ⟨f r, by rw [hr, Option.map_some, if_pos hh.symm], hfg r⟩
  · rw [if_neg hh] at hc
    obtain ⟨r, hr, rfl⟩ := hacc hc
    exact ⟨r, by rw [hr, Option.map_some, if_neg (Ne.symm hh)], rfl⟩

theorem row_of_currentStep {w w' : World} {e : Eff} {a : e.Answer} {acc : Option SessionRecord}
    (ht : app.system.Trans w j e a w')
    (hacc : ∀ {rec}, acc = some rec → ∃ r, w.db.sessionByHash h = some r ∧ r.toRecord = rec)
    (hc : currentStep h i acc (.did j e a) = some rec) :
    ∃ r, w'.db.sessionByHash h = some r ∧ r.toRecord = rec := by
  have hst := sessionsStep_of_trans ht
  generalize hl : Label.did j e a = l at hc
  unfold currentStep at hc
  split at hc
  · cases hl
    obtain ⟨rfl, rfl⟩ := trans_sessionByTokenHash ht
    split at hc
    · rename_i hh
      obtain ⟨rfl, rfl⟩ := hh
      exact Option.map_eq_some_iff.1 hc
    · exact hacc hc
  · cases hl
    have hs := (trans_updateExpiry ht).2
    exact row_of_change hacc (fun _ => rfl) (Database.sessionByHash_setExpiry hs) hc
  · cases hl
    have hs := trans_revoke ht
    exact row_of_change hacc (fun _ => rfl) (Database.sessionByHash_setRevoked hs) hc
  · -- no other step changes a row that is there
    rename_i hup hrev
    obtain ⟨r, hr, rfl⟩ := hacc hc
    cases hst with
    | kept _ hs =>
      have hr' : w'.db.sessionByHash h = some r := by rw [Database.sessionByHash_congr hs, hr]
      exact ⟨r, hr', rfl⟩
    | inserted hs =>
      have hr' : w'.db.sessionByHash h = some r := by
        rw [Database.sessionByHash_insert hs, hr]
        rfl
      exact ⟨r, hr', rfl⟩
    | extended => exact absurd hl.symm (hup _ _ _ _ _)
    | revoked => exact absurd hl.symm (hrev _ _ _ _)

theorem row_of_current (hr : app.system.Run (.init w₀) ls c) (hc : current h i ls = some rec) :
    ∃ r, c.world.db.sessionByHash h = some r ∧ r.toRecord = rec := by
  induction hr generalizing rec with
  | nil => cases hc
  | @snoc c₁ c₂ ls l _ hs ih =>
    rw [current, List.foldl_append, List.foldl_cons, List.foldl_nil] at hc
    change currentStep h i (current h i ls) l = some rec at hc
    cases hs with
    | start req => exact ih hc
    | run _ ht => exact row_of_currentStep ht ih hc

/-! ## Timely runs -/

def selected (h : String) (i : Nat) (ls : List (Label Eff Eff.Answer Request)) :
    Option SessionRecord :=
  match own i ls with
  | [⟨.sql (.sessionByTokenHash h'), .ok x⟩] => if h' = h then x else none
  | _ => none

/-- A step of a run does not act on an outdated record of the session `s`: a refresh updates a
row whose record, brought up to date, is active, and a check rejects a record only if it would
also reject it brought up to date. -/
def Timely (app : App) (s : String) (ls : List (Label Eff Eff.Answer Request))
    (c : Config Eff Eff.Answer World Request (Except Exc Response)) :
    Label Eff Eff.Answer Request → Prop
  | .did i (.sql (.updateExpiry h _ _)) (.ok _) => h = app.hashToken s →
    ∃ rec ∈ current h i ls, rec.Active c.world.clock
  | .did i .clock t => ∀ rec ∈ selected (app.hashToken s) i ls, ¬rec.Active t →
    ∃ rec' ∈ current (app.hashToken s) i ls, ¬rec'.Active t
  | _ => True

instance (l : Label Eff Eff.Answer Request) : Decidable (Timely app s ls c l) := by
  unfold Timely
  split <;> infer_instance

def RefreshesActive (app : App) (w₀ : World) (s : String)
    (ls : List (Label Eff Eff.Answer Request))
    (c : Config Eff Eff.Answer World Request (Except Exc Response)) : Prop :=
  ∀ i authorization resp, .started i (.refreshSession authorization) ∈ ls →
    extractBearerToken authorization = .ok s → c.Returned i (.ok resp) →
    ∃ l₁ expires now x l₂ c₁ c₂,
      ls = l₁ ++ .did i (.sql (.updateExpiry (app.hashToken s) expires now)) x :: l₂ ∧
      app.system.Run (.init w₀) l₁ c₁ ∧
      app.system.Step c₁ (.did i (.sql (.updateExpiry (app.hashToken s) expires now)) x) c₂ ∧
      app.system.Run c₂ l₂ c ∧
      (∃ r, c₁.world.db.sessionByHash (app.hashToken s) = some r ∧
        r.toRecord.Active c₁.world.clock) ∧
      ∀ j t n, .did j (.sql (.revoke (app.hashToken s) t)) (.ok n) ∉ l₁

/-- Once a request on `s` was rejected as expired, no request on `s` that starts later succeeds. -/
def StaysExpired (app : App) (w₀ : World) (s : String)
    (ls : List (Label Eff Eff.Answer Request))
    (c : Config Eff Eff.Answer World Request (Except Exc Response)) : Prop :=
  ∀ l₁ l₂ c₁ i req j req' resp, ls = l₁ ++ .started j req' :: l₂ →
    app.system.Run (.init w₀) l₁ c₁ → .started i req ∈ l₁ → req.onSession →
    req.sessionToken? = some s → c₁.Returned i (.error sessionExpired) →
    req'.sessionToken? = some s → ¬c.Returned j (.ok resp)

theorem refreshesActive_of_timely (hr : app.system.RunUnder (Timely app s) (.init w₀) ls c) :
    RefreshesActive app w₀ s ls c := by
  intro i authorization resp hm hs hret
  obtain ⟨req, hm', hf⟩ := hr.run.returned hret
  obtain rfl := hr.run.started_unique hm hm'
  obtain ⟨rec, t, t', expires, now, rec', user, ho, -⟩ := path_of_refreshed hs hf
  obtain ⟨l₁, l₂, rfl, -, -⟩ := own_eq_append_cons
    [app.selectEv s rec, clockEv t, clockEv t', clockEv now] ho
  obtain ⟨c₁, c₂, h₁, hst, hg, h₂⟩ := hr.split
  obtain ⟨rec₁, hc, ha⟩ := hg rfl
  obtain ⟨r, hrow, rfl⟩ := row_of_current h₁.run hc
  have hrev : ∀ j t n, .did j (.sql (.revoke (app.hashToken s) t)) (.ok n) ∉ l₁ := by
    intro j t n hmem
    obtain ⟨r', hrow', hsome⟩ := revoked_of_mem h₁.run hmem
    have hrr' : r = r' := Option.some.inj (hrow.symm.trans hrow')
    have hnone : r.revokedAt = none := ha.1
    rw [← hrr', hnone] at hsome
    cases hsome
  exact ⟨l₁, expires, now, _, l₂, c₁, c₂, rfl, h₁.run, hst, h₂, ⟨r, hrow, ha⟩, hrev⟩

def Dead (h : String) (w : World) : Prop :=
  ∃ r, w.db.sessionByHash h = some r ∧ ¬r.toRecord.Active w.clock

theorem dead_step {l : Label Eff Eff.Answer Request} (hr : app.system.Run (.init w₀) ls c)
    (hs : app.system.Step c l c₁) (hg : Timely app s ls c l)
    (hd : Dead (app.hashToken s) c.world) : Dead (app.hashToken s) c₁.world := by
  obtain ⟨r, hrow, hna⟩ := hd
  cases hs with
  | start req => exact ⟨r, hrow, hna⟩
  | run _ ht =>
    have hclock := (evolves_of_trans ht).clock
    have hna' : ∀ {w : World}, c.world.clock ≤ w.clock → ¬r.toRecord.Active w.clock := by
      intro w hle ha
      exact hna (ha.mono hle)
    cases sessionsStep_of_trans ht with
    | kept _ hs => exact ⟨r, (Database.sessionByHash_congr hs).trans hrow, hna' hclock⟩
    | inserted hs =>
      refine ⟨r, ?_, hna' hclock⟩
      rw [Database.sessionByHash_insert hs, hrow]
      rfl
    | @extended h' _ _ hs =>
      -- a timely update of the row would have found it active
      have hh : h' ≠ app.hashToken s := by
        intro hh
        obtain ⟨rec, hc, ha⟩ := hg hh
        obtain ⟨r', hrow', rfl⟩ := row_of_current hr hc
        have hrr' : r = r' := by
          rw [hh] at hrow'
          exact Option.some.inj (hrow.symm.trans hrow')
        rw [← hrr'] at ha
        exact hna ha
      refine ⟨r, ?_, hna' hclock⟩
      rw [Database.sessionByHash_setExpiry hs, hrow, Option.map_some, if_neg hh.symm]
    | @revoked h' now hs =>
      rw [Dead, Database.sessionByHash_setRevoked hs, hrow, Option.map_some]
      refine ⟨_, rfl, ?_⟩
      intro ha
      by_cases hh : app.hashToken s = h'
      · rw [if_pos hh] at ha
        cases ha.1
      · rw [if_neg hh] at ha
        exact hna' hclock ha

theorem dead_of_rejected {evs : List Ev} (hr : app.system.RunUnder (Timely app s) (.init w₀) ls c)
    (ho : own i ls = app.selectEv s rec :: clockEv t :: evs) (hna : ¬rec.Active t) :
    Dead (app.hashToken s) c.world := by
  induction hr generalizing evs with
  | nil => cases ho
  | @snoc c₁ c₂ ls l hr hs hg ih =>
    rw [own_append] at ho
    rcases hi : own i ls with _ | ⟨ev, _ | ⟨ev', evs'⟩⟩
    · rw [hi] at ho
      -- one step adds one event at most
      cases l with
      | started j req => cases ho
      | did j e a =>
        simp only [own, List.nil_append] at ho
        split at ho <;> cases ho
    · -- the check is the step just made
      rw [hi, List.singleton_append, List.cons.injEq] at ho
      obtain ⟨rfl, ho⟩ := ho
      cases l with
      | started j req => cases ho
      | did j e a =>
        simp only [own] at ho
        split at ho <;> cases ho
        rename_i hj
        subst hj
        have hsel : rec ∈ selected (app.hashToken s) j ls := by simp [selected, hi]
        obtain ⟨rec', hc, hna'⟩ := hg rec hsel hna
        obtain ⟨r, hrow, rfl⟩ := row_of_current hr.run hc
        rw [(trans_clock.1 hs.trans).2]
        exact ⟨r, hrow, hna'⟩
    · rw [hi, List.cons_append, List.cons_append] at ho
      obtain ⟨rfl, ho'⟩ := List.cons.inj ho
      obtain ⟨rfl, -⟩ := List.cons.inj ho'
      exact dead_step hr.run hs hg (ih hi)

theorem staysExpired_of_timely (hr : app.system.RunUnder (Timely app s) (.init w₀) ls c) :
    StaysExpired app w₀ s ls c := by
  rintro l₁ l₂ c₁ i req j req' resp rfl h₁ hm hon hreq hret hreq' hret'
  -- the rejected request selected a record that had expired at the reading of its check
  obtain ⟨req₁, hm₁, hf⟩ := h₁.returned hret
  obtain rfl := h₁.started_unique hm hm₁
  obtain ⟨rec, t, hna, ho⟩ := path_of_sessionExpired hon hreq hf
  -- the successful one selected an active record, after it had started
  obtain ⟨req₂, hm₂, hf'⟩ := hr.run.returned hret'
  obtain rfl := hr.run.started_unique (List.mem_append_right _ List.mem_cons_self) hm₂
  obtain ⟨rec', t', evs', ha, ho'⟩ := path_of_ok hreq' hf'
  obtain ⟨c₂, c₃, h₂, hst, -, -⟩ := hr.split
  have hnil : own j l₁ = [] := by
    cases hst with
    | start => exact h₂.run.own_nil (Nat.le_refl _)
  rw [own_append, hnil, List.nil_append, own] at ho'
  obtain ⟨l₃, l₄, rfl, -, ho₄⟩ := own_eq_append_cons [] ho'
  obtain ⟨l₅, l₆, rfl, -, -⟩ := own_eq_append_cons [] ho₄
  rw [← List.cons_append, ← List.append_assoc] at hr
  obtain ⟨c₄, c₅, h₄, hsel, -, h₅⟩ := hr.split
  have ho₃ : own i (l₁ ++ .started j req' :: l₃) =
      app.selectEv s rec :: clockEv t :: own i (.started j req' :: l₃) := by
    rw [own_append, ho]
    rfl
  obtain ⟨r, hrow, hdead⟩ := dead_of_rejected h₄ ho₃ hna
  obtain ⟨c₆, c₇, h₆, hclk, -⟩ := h₅.split
  obtain ⟨hrec, hw⟩ := trans_sessionByTokenHash hsel.trans
  rw [hrow] at hrec
  cases hrec
  have hclock : c₄.world.clock ≤ t' := by
    rw [← hw]
    exact Int.le_trans (evolves_of_run h₆).clock (trans_clock.1 hclk.trans).1
  exact hdead (ha.mono hclock)

/-- In every run whose steps do not act on an outdated record of a session, a refresh that
succeeds has extended an active session, and an expired session stays expired. -/
theorem refresh_active_of_timely (hr : app.system.RunUnder (Timely app s) (.init w₀) ls c) :
    RefreshesActive app w₀ s ls c ∧ StaysExpired app w₀ s ls c :=
  ⟨refreshesActive_of_timely hr, staysExpired_of_timely hr⟩

end WikiBackend.App

namespace WikiBackend.Recorded

open Effects

def refreshRun : List (Label Eff Eff.Answer Request) :=
  [.started 0 (.refreshSession authorization),
    .did 0 (.sql (.sessionByTokenHash sessionHash)) (.ok (some sessionRecord)),
    .did 0 .clock loginAt, .did 0 .clock loginAt, .did 0 .clock loginAt,
    .did 0 (.sql (.updateExpiry sessionHash expiresAt loginAt)) (.ok (some sessionRecord)),
    .did 0 (.sql (.userById 1)) (.ok (some userRow))]

theorem refresh_active_of_timely_alone :
    ∃ c, c.Returned 0 (.ok (.sessionStatus true expiresAt userRow.toProfile.toTokenUser)) ∧
      App.RefreshesActive recordedApp sessionWorld sessionToken refreshRun c ∧
      App.StaysExpired recordedApp sessionWorld sessionToken refreshRun c := by
  obtain ⟨c, hrun, hret⟩ : ∃ c, recordedApp.system.RunUnder (App.Timely recordedApp sessionToken)
      (.init sessionWorld) refreshRun c ∧ decide (c.result? 0 =
        some (.ok (.sessionStatus true expiresAt userRow.toProfile.toTokenUser))) :=
    System.exists_runUnder choiceFor _ (by decide +kernel)
  exact ⟨c, Config.returned_of_result? (of_decide_eq_true hret),
    App.refresh_active_of_timely hrun⟩

def overtaken : List (Label Eff Eff.Answer Request) :=
  [.started 0 (.refreshSession authorization),
    .did 0 (.sql (.sessionByTokenHash sessionHash)) (.ok (some sessionRecord)),
    .did 0 .clock loginAt, .did 0 .clock loginAt,
    .started 1 (.deleteSession authorization),
    .did 1 (.sql (.sessionByTokenHash sessionHash)) (.ok (some sessionRecord)),
    .did 1 .clock loginAt, .did 1 .clock loginAt,
    .did 1 (.sql (.revoke sessionHash loginAt)) (.ok 1),
    .did 0 .clock loginAt]

def overtakenRun : List (Label Eff Eff.Answer Request) :=
  overtaken ++
    [.did 0 (.sql (.updateExpiry sessionHash expiresAt loginAt))
      (.ok (some { sessionRecord with revokedAt := some loginAt })),
    .did 0 (.sql (.userById 1)) (.ok (some userRow))]

theorem mem_left_of_append_eq {α : Type} {pre post l₁ l₂ : List α} {x y : α}
    (h : pre ++ post = l₁ ++ x :: l₂) (hx : x ∉ pre) (hy : y ∈ pre) : y ∈ l₁ := by
  rcases List.append_eq_append_iff.1 h with ⟨l, rfl, -⟩ | ⟨_ | ⟨z, l⟩, rfl, hl⟩
  · exact List.mem_append_left _ hy
  · rwa [List.append_nil] at hy
  · obtain ⟨rfl, -⟩ := List.cons.inj hl
    exact absurd (List.mem_append_right _ List.mem_cons_self) hx

theorem refresh_overtaken :
    ¬∀ (app : App) (w₀ : World) (s : String) (ls : List (Label Eff Eff.Answer Request))
      (c : Config Eff Eff.Answer World Request (Except Exc Response)),
      app.system.Run (.init w₀) ls c →
        App.RefreshesActive app w₀ s ls c ∧ App.StaysExpired app w₀ s ls c := by
  intro h
  obtain ⟨c, hrun, hret⟩ : ∃ c, recordedApp.system.Run (.init sessionWorld) overtakenRun c ∧
      decide (c.result? 0 =
        some (.ok (.sessionStatus true expiresAt userRow.toProfile.toTokenUser))) :=
    System.exists_run choiceFor _ (by decide +kernel)
  obtain ⟨l₁, expires, now, x, l₂, -, -, hl, -, -, -, -, hrev⟩ :=
    (h recordedApp sessionWorld sessionToken overtakenRun c hrun).1 0 authorization _
      List.mem_cons_self bearer_authorization
      (Config.returned_of_result? (of_decide_eq_true hret))
  refine hrev 1 loginAt 1 (mem_left_of_append_eq hl ?_ ?_)
  · simp [overtaken]
  · simp [overtaken, sessionHash]

end WikiBackend.Recorded
