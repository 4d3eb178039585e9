import WikiBackend.Api.Paths
import WikiBackend.Users.Logins

/-! When the timestamps of an account never go back. A login reads the clock and upserts the
account later: logins of one account may write in another order than they read the clock. -/

namespace WikiBackend

open Effects

structure UserRow.StampedBy (u : UserRow) (t : Instant) : Prop where
  created : u.createdAt ≤ u.lastLoginAt
  login : u.lastLoginAt ≤ t
  updated : u.updatedAt ≤ t

/-! ## One step -/

theorem mem_logins {ls : List (Label Eff Eff.Answer Request)} {l : Login} :
    l ∈ logins ls ↔
      ∃ i, .did i (.sql (.upsertUser l.params)) (.ok (some (l.row, l.created))) ∈ ls := by
  induction ls with
  | nil => simp [logins]
  | cons x ls ih =>
    cases x with
    | started j req => simpa [logins] using ih
    | did j e a =>
      have hhead : l ∈ (loginOf ⟨e, a⟩).toList ↔
          (⟨e, a⟩ : Ev) = sqlEv (.upsertUser l.params) (.ok (some (l.row, l.created))) := by
        unfold loginOf
        split
        · rename_i p row created hev
          cases hev
          obtain ⟨p', row', created'⟩ := l
          simp [eq_comm]
        · rename_i hev
          simpa using hev l.params l.row l.created
      simp only [logins, List.mem_append, hhead, ih, List.mem_cons, exists_or]
      apply or_congr_left
      constructor
      · intro hev
        cases hev
        exact ⟨j, rfl⟩
      · rintro ⟨i, hi⟩
        cases hi
        rfl

variable {db db' : Database} {ev : Ev} {k : Int} {u : UserRow}

theorem UsersStep.userByTelegramId (hs : UsersStep db db' ev)
    (hu : db.userByTelegramId k = some u) :
    ∃ u', db'.userByTelegramId k = some u' ∧ (u' = u ∨ ∃ p row created,
      ev = sqlEv (.upsertUser p) (.ok (some (row, created))) ∧ p.telegramId = k ∧
        u' = p.updateRow u) := by
  cases hs with
  | kept _ ht => exact ⟨u, by rw [Database.userByTelegramId, ht]; exact hu, .inl rfl⟩
  | @updated p r _ ht =>
    rw [Database.userByTelegramId_update ht, hu, Option.map_some]
    by_cases hk : k = p.telegramId
    · rw [if_pos hk]
      exact ⟨_, rfl, .inr ⟨p, _, _, rfl, hk.symm, rfl⟩⟩
    · rw [if_neg hk]
      exact ⟨u, rfl, .inl rfl⟩
  | @inserted p _ ht =>
    rw [Database.userByTelegramId_insert ht, hu]
    exact ⟨u, rfl, .inl rfl⟩

theorem UsersStep.inserted_of_new {u' : UserRow} (hs : UsersStep db db' ev)
    (hu : db.userByTelegramId k = none) (hu' : db'.userByTelegramId k = some u') :
    ∃ p created, ev = sqlEv (.upsertUser p) (.ok (some (u', created))) ∧ p.telegramId = k ∧
      u'.createdAt = p.now := by
  cases hs with
  | kept _ ht =>
    rw [Database.userByTelegramId, ht] at hu'
    cases hu.symm.trans hu'
  | @updated p r _ ht =>
    rw [Database.userByTelegramId_update ht, hu] at hu'
    cases hu'
  | @inserted p _ ht =>
    rw [Database.userByTelegramId_insert ht, hu, Option.none_or] at hu'
    split at hu'
    · rename_i hk
      cases hu'
      exact ⟨p, _, rfl, hk, rfl⟩
    · cases hu'

theorem UsersStep.of_upsert {p : UpsertParams} {row : UserRow} {created : Bool}
    (hs : UsersStep db db' (sqlEv (.upsertUser p) (.ok (some (row, created))))) :
    db'.userByTelegramId p.telegramId = some row ∧ row.lastLoginAt = p.now ∧
      row.updatedAt = p.now := by
  refine ⟨Database.userByTelegramId_eq_some.2 hs.stored, ?_⟩
  cases hs with
  | kept hk => cases hk
  | updated _ _ => exact ⟨rfl, rfl⟩
  | inserted _ _ => exact ⟨rfl, rfl⟩

namespace App

variable {app : App} {w₀ : World} {ls l₁ l₂ : List (Label Eff Eff.Answer Request)}
  {l : Label Eff Eff.Answer Request}
  {c c₁ c₂ : Config Eff Eff.Answer World Request (Except Exc Response)} {i : Nat}

/-! ## Logins in order -/

def upserted? : Label Eff Eff.Answer Request → Option UpsertParams
  | .did _ (.sql (.upsertUser p)) (.ok _) => some p
  | _ => none

/-- An upsert comes after no login of its account that read the clock later than it did. -/
def InLoginOrder (ls : List (Label Eff Eff.Answer Request)) (l : Label Eff Eff.Answer Request) :
    Prop :=
  ∀ p ∈ upserted? l, ∀ l' ∈ logins ls, l'.params.telegramId = p.telegramId → l'.params.now ≤ p.now

instance : Decidable (InLoginOrder ls l) := by
  unfold InLoginOrder
  infer_instance

theorem eq_of_upserted {p : UpsertParams} (hp : p ∈ upserted? l) :
    ∃ i x, l = .did i (.sql (.upsertUser p)) (.ok x) := by
  unfold upserted? at hp
  split at hp <;> cases hp
  exact ⟨_, _, rfl⟩

/-- From one state of the run to a later one no login time and no update time decreases, and in
every state an account was created at its last login at the latest. -/
structure NeverGoesBack (app : App) (w₀ : World) (ls : List (Label Eff Eff.Answer Request))
    (c : Config Eff Eff.Answer World Request (Except Exc Response)) : Prop where
  stamps : ∀ {l₁ l₂ l₃ c₁ c₂ k u}, ls = l₁ ++ (l₂ ++ l₃) → app.system.Run (.init w₀) l₁ c₁ →
    app.system.Run c₁ l₂ c₂ → app.system.Run c₂ l₃ c → c₁.world.db.userByTelegramId k = some u →
    ∃ u', c₂.world.db.userByTelegramId k = some u' ∧ u'.id = u.id ∧
      u.lastLoginAt ≤ u'.lastLoginAt ∧ u.updatedAt ≤ u'.updatedAt
  created : ∀ {l₁ l₂ c₁}, ls = l₁ ++ l₂ → app.system.Run (.init w₀) l₁ c₁ →
    app.system.Run c₁ l₂ c → ∀ u ∈ c₁.world.db.users, u.createdAt ≤ u.lastLoginAt

theorem clock_of_upsert {p : UpsertParams} {x : Except LibError (Option (UserRow × Bool))}
    (hr : app.system.Run (.init w₀) ls c)
    (hst : app.system.Step c (.did i (.sql (.upsertUser p)) x) c₁) : w₀.clock ≤ p.now := by
  obtain ⟨req, -, hx⟩ := executes_of_step hr hst
  obtain ⟨_, t, data, now, -, -, ho, rfl⟩ := hx.of_upsertUser
  have hm : .did i .clock now ∈ ls := mem_own.1 (by simp [ho])
  exact (clock_of_mem hr hm).1

theorem user_of_step {k : Int} {u : UserRow} (hst : app.system.Step c l c₁)
    (hu : c.world.db.userByTelegramId k = some u) :
    ∃ u', c₁.world.db.userByTelegramId k = some u' ∧ (u' = u ∨ ∃ i p row created,
      l = .did i (.sql (.upsertUser p)) (.ok (some (row, created))) ∧ p.telegramId = k ∧
        u' = p.updateRow u) := by
  rcases hst.world with hw | ⟨i, e, a, rfl, ht⟩
  · exact ⟨u, hw ▸ hu, .inl rfl⟩
  · obtain ⟨u', hu', hc⟩ := (usersStep_of_trans ht).userByTelegramId hu
    refine ⟨u', hu', hc.imp_right ?_⟩
    rintro ⟨p, row, created, hev, hk, rfl⟩
    cases hev
    exact ⟨i, p, row, created, rfl, hk, rfl⟩

theorem user_of_new {k : Int} {u : UserRow} (hst : app.system.Step c l c₁)
    (hu : c.world.db.userByTelegramId k = none) (hu' : c₁.world.db.userByTelegramId k = some u) :
    ∃ i p created, l = .did i (.sql (.upsertUser p)) (.ok (some (u, created))) ∧
      p.telegramId = k ∧ u.createdAt = p.now ∧ u.lastLoginAt = p.now ∧ u.updatedAt = p.now := by
  rcases hst.world with hw | ⟨i, e, a, rfl, ht⟩
  · rw [hw, hu] at hu'
    cases hu'
  · have hs := usersStep_of_trans ht
    obtain ⟨p, created, hev, hk, hcreated⟩ := hs.inserted_of_new hu hu'
    cases hev
    obtain ⟨-, hlast, hupd⟩ := hs.of_upsert
    exact ⟨i, p, created, rfl, hk, hcreated, hlast, hupd⟩

theorem stamps_of_run {k : Int} {u : UserRow} (hr : app.system.Run (.init w₀) ls c)
    (hu : c.world.db.userByTelegramId k = some u) :
    w₀.db.userByTelegramId k = some u ∨ ∃ l ∈ logins ls, l.params.telegramId = k ∧
      u.lastLoginAt = l.params.now ∧ u.updatedAt = l.params.now := by
  induction hr generalizing u with
  | nil => exact .inl hu
  | @snoc c₁ c₂ ls l hr hst ih =>
    rw [logins_append]
    have hlogin {p : UpsertParams} {row : UserRow} {created : Bool} {i : Nat}
        (hl : l = .did i (.sql (.upsertUser p)) (.ok (some (row, created)))) :
        ⟨p, row, created⟩ ∈ logins ls ++ logins [l] := by
      rw [hl]
      exact List.mem_append_right _ (mem_logins.2 ⟨i, List.mem_singleton.2 rfl⟩)
    cases hu₁ : c₁.world.db.userByTelegramId k with
    | some u₁ =>
      obtain ⟨u', hu', hc⟩ := user_of_step hst hu₁
      rw [hu] at hu'
      cases hu'
      rcases hc with rfl | ⟨i, p, row, created, hl, hk, rfl⟩
      · apply (ih hu₁).imp_right
        rintro ⟨l', hl', h⟩
        exact ⟨l', List.mem_append_left _ hl', h⟩
      · exact .inr ⟨_, hlogin hl, hk, rfl, rfl⟩
    | none =>
      obtain ⟨i, p, created, hl, hk, -, hlast, hupd⟩ := user_of_new hst hu₁ hu
      exact .inr ⟨_, hlogin hl, hk, hlast, hupd⟩

theorem stamps_le_of_upsert {p : UpsertParams} {row : UserRow} {created : Bool} {u : UserRow}
    (h₀ : ∀ u ∈ w₀.db.users, u.StampedBy w₀.clock) (hr : app.system.Run (.init w₀) ls c)
    (hst : app.system.Step c (.did i (.sql (.upsertUser p)) (.ok (some (row, created)))) c₁)
    (hg : InLoginOrder ls (.did i (.sql (.upsertUser p)) (.ok (some (row, created)))))
    (hu : c.world.db.userByTelegramId p.telegramId = some u) :
    u.lastLoginAt ≤ p.now ∧ u.updatedAt ≤ p.now := by
  have hclock : w₀.clock ≤ p.now := clock_of_upsert hr hst
  rcases stamps_of_run hr hu with hu₀ | ⟨l, hl, hk, hlast, hupd⟩
  · have hs := h₀ u (Database.userByTelegramId_eq_some.1 hu₀).1
    exact ⟨Int.le_trans hs.login hclock, Int.le_trans hs.updated hclock⟩
  · rw [hlast, hupd]
    have hle := hg p rfl l hl hk
    exact ⟨hle, hle⟩

theorem stamps_le_of_step {k : Int} {u : UserRow}
    (h₀ : ∀ u ∈ w₀.db.users, u.StampedBy w₀.clock) (hr : app.system.Run (.init w₀) ls c)
    (hst : app.system.Step c l c₁) (hg : InLoginOrder ls l)
    (hu : c.world.db.userByTelegramId k = some u) :
    ∃ u', c₁.world.db.userByTelegramId k = some u' ∧ u'.id = u.id ∧
      u.lastLoginAt ≤ u'.lastLoginAt ∧ u.updatedAt ≤ u'.updatedAt := by
  obtain ⟨u', hu', hc⟩ := user_of_step hst hu
  refine ⟨u', hu', ?_⟩
  rcases hc with rfl | ⟨i, p, row, created, rfl, rfl, rfl⟩
  · exact ⟨rfl, Int.le_refl _, Int.le_refl _⟩
  · exact ⟨rfl, stamps_le_of_upsert h₀ hr hst hg hu⟩

theorem created_of_step (h₀ : ∀ u ∈ w₀.db.users, u.StampedBy w₀.clock)
    (hr : app.system.Run (.init w₀) ls c) (hst : app.system.Step c l c₁) (hg : InLoginOrder ls l)
    (hc : ∀ u ∈ c.world.db.users, u.createdAt ≤ u.lastLoginAt) :
    ∀ u ∈ c₁.world.db.users, u.createdAt ≤ u.lastLoginAt := by
  intro u' hmem
  have hu' : c₁.world.db.userByTelegramId u'.telegramId = some u' :=
    Database.userByTelegramId_eq_some.2 ⟨hmem, rfl⟩
  cases hu : c.world.db.userByTelegramId u'.telegramId with
  | some u =>
    have hle := hc u (Database.userByTelegramId_eq_some.1 hu).1
    obtain ⟨u'', hu'', hcase⟩ := user_of_step hst hu
    rw [hu'] at hu''
    cases hu''
    rcases hcase with rfl | ⟨i, p, row, created, rfl, hk, he⟩
    · exact hle
    · rw [← hk] at hu
      have hnow := (stamps_le_of_upsert h₀ hr hst hg hu).1
      rw [he]
      exact Int.le_trans hle hnow
  | none =>
    obtain ⟨i, p, created, -, -, hcreated, hlast, -⟩ := user_of_new hst hu hu'
    rw [hcreated, hlast]

/-! ## Logins in order never set a timestamp back -/

theorem neverGoesBack_of_inLoginOrder
    (hr : app.system.RunUnder (fun ls _ l => InLoginOrder ls l) (.init w₀) ls c)
    (h₀ : ∀ u ∈ w₀.db.users, u.StampedBy w₀.clock) : NeverGoesBack app w₀ ls c := by
  constructor
  · rintro l₁ l₂ l₃ c₁ c₂ k u rfl h₁ h₂ - hu
    refine hr.later (Q := fun w => ∃ u', w.db.userByTelegramId k = some u' ∧ u'.id = u.id ∧
      u.lastLoginAt ≤ u'.lastLoginAt ∧ u.updatedAt ≤ u'.updatedAt) ?_ h₁ h₂
      ⟨u, hu, rfl, Int.le_refl _, Int.le_refl _⟩
    intro ls c l c' hr hst hg hq
    obtain ⟨u₁, hu₁, hid, hlast, hupd⟩ := hq
    obtain ⟨u', hu', hid', hlast', hupd'⟩ := stamps_le_of_step h₀ hr.run hst hg hu₁
    exact ⟨u', hu', hid'.trans hid, Int.le_trans hlast hlast', Int.le_trans hupd hupd'⟩
  · rintro l₁ l₂ c₁ rfl h₁ -
    rw [← List.nil_append (l₁ ++ l₂)] at hr
    refine hr.later (Q := fun w => ∀ u ∈ w.db.users, u.createdAt ≤ u.lastLoginAt) ?_ (.nil _) h₁
      fun u hu => (h₀ u hu).created
    intro ls c l c' hr hst hg hq
    exact created_of_step h₀ hr.run hst hg hq

theorem inLoginOrder_of_neverGoesBack (hr : app.system.Run (.init w₀) ls c)
    (hn : NeverGoesBack app w₀ ls c) (hls : ls = l₁ ++ l :: l₂) : InLoginOrder l₁ l := by
  intro p hp l' hl' hk
  obtain ⟨i, x, rfl⟩ := eq_of_upserted hp
  subst hls
  obtain ⟨c₁, c₁', h₁, hst, h₂⟩ := hr.split
  obtain ⟨⟨row, created⟩, rfl⟩ := Option.ne_none_iff_exists'.1 (upsert_answer hst.trans)
  -- the two logins, and the rows they leave
  obtain ⟨j, hj⟩ := mem_logins.1 hl'
  obtain ⟨l₃, l₄, c₂, c₂', rfl, h₃, hst', h₄⟩ := h₁.split_mem hj
  obtain ⟨hrow', hlast', -⟩ := (usersStep_of_trans hst'.trans).of_upsert
  obtain ⟨hrow, hlast, -⟩ := (usersStep_of_trans hst.trans).of_upsert
  obtain ⟨u, hu, -, hle, -⟩ := hn.stamps (append_cons_append_cons _ _ _ _ _)
    (h₃.append hst'.single) (h₄.append hst.single) h₂ hrow'
  rw [hk, hrow] at hu
  cases hu
  rwa [hlast', hlast] at hle

/-- No timestamp goes back in a run exactly if the logins of each account upsert it in the order
in which they read the clock for it. -/
theorem timestamps_never_go_back_iff (hr : app.system.Run (.init w₀) ls c)
    (h₀ : ∀ u ∈ w₀.db.users, u.StampedBy w₀.clock) :
    NeverGoesBack app w₀ ls c ↔
      app.system.RunUnder (fun ls _ l => InLoginOrder ls l) (.init w₀) ls c := by
  constructor
  · intro hn
    apply hr.under
    intro l₁ l l₂ hls
    exact inLoginOrder_of_neverGoesBack hr hn hls
  · intro hu
    exact neverGoesBack_of_inLoginOrder hu h₀

end App

namespace Recorded

def verifyRequest : Request := .verifyToken ⟨token₁, length_token₁⟩

def secondLoginAt : Instant := loginAt + 1000000

def rowAt (t : Instant) : UserRow := (data₁.upsertParams t).insertRow 1

def rowAfter (t t' : Instant) : UserRow := (data₁.upsertParams t').updateRow (rowAt t)

def upsertAt (i : Nat) (t : Instant) (row : UserRow) (created : Bool) :
    Label Eff Eff.Answer Request :=
  .did i (.sql (.upsertUser (data₁.upsertParams t))) (.ok (some (row, created)))

def twoLogins : List (Label Eff Eff.Answer Request) :=
  [.started 0 verifyRequest, .started 1 verifyRequest,
    .did 0 .clock loginAt, .did 0 .clock loginAt,
    .did 1 .clock secondLoginAt, .did 1 .clock secondLoginAt]

theorem finishes_verifyRequest {t : Instant} (ht : unixTime t - 1700000000 ≤ 300) (now : Instant)
    (row : UserRow) (created : Bool) :
    Finishes (recordedApp.system.body verifyRequest)
      [clockEv t, clockEv now,
        sqlEv (.upsertUser (data₁.upsertParams now)) (.ok (some (row, created)))]
      (.ok (.tokenVerify created row.toProfile.toTokenUser)) := by
  simp only [App.body_eq, App.handler, verifyRequest, Routes.verifyToken, strip_token₁, token₁_ne,
    if_false]
  have ha : recordedApp.Accepts t token₁ data₁ := verifyToken₁ ht
  have hv : Finishes (recordedApp.verifyToken token₁).run _ (.ok (row.toProfile, created)) :=
    App.finishes_verifyToken_ok.2 ⟨t, data₁, now, row, ha, rfl, rfl⟩
  exact finishes_andThen_pure_ok.2 ⟨_, hv, rfl⟩

theorem run_twoLogins {ups : List (Label Eff Eff.Answer Request)} (row₀ row₁ row : UserRow)
    (created₀ created₁ : Bool)
    (hups : ups = [upsertAt 0 loginAt row₀ created₀, upsertAt 1 secondLoginAt row₁ created₁] ∨
      ups = [upsertAt 1 secondLoginAt row₁ created₁, upsertAt 0 loginAt row₀ created₀])
    (hw : (recordedApp.system.worldAfter choiceFor World.initial (twoLogins ++ ups)).any fun w =>
      decide (w.db.userByTelegramId 42 = some row)) :
    ∃ c, recordedApp.system.Run (.init World.initial) (twoLogins ++ ups) c ∧
      c.world.db.userByTelegramId 42 = some row := by
  have hnum : System.numbered 0 (twoLogins ++ ups) := by
    rcases hups with rfl | rfl <;> rfl
  obtain ⟨c, hrun, hrow⟩ := System.exists_run_of_paths choiceFor hw hnum (by
    intro i req hm
    have hreq : (i = 0 ∨ i = 1) ∧ req = verifyRequest := by
      rcases hups with rfl | rfl <;> simpa [twoLogins, upsertAt, ← or_and_right] using hm
    obtain ⟨rfl | rfl, rfl⟩ := hreq
    · have hf := finishes_verifyRequest (t := loginAt) (by decide) loginAt row₀ created₀
      rcases hups with rfl | rfl <;> exact ⟨_, hf⟩
    · have hf := finishes_verifyRequest (t := secondLoginAt) (by decide) secondLoginAt row₁ created₁
      rcases hups with rfl | rfl <;> exact ⟨_, hf⟩)
  exact ⟨c, hrun, of_decide_eq_true hrow⟩

theorem stampedBy_initial : ∀ u ∈ World.initial.db.users, u.StampedBy World.initial.clock :=
  List.forall_mem_nil _

theorem timestamps_never_go_back_iff_two :
    ∃ c, App.NeverGoesBack recordedApp World.initial (twoLogins ++
        [upsertAt 0 loginAt (rowAt loginAt) true,
          upsertAt 1 secondLoginAt (rowAfter loginAt secondLoginAt) false]) c ∧
      c.world.db.userByTelegramId 42 = some (rowAfter loginAt secondLoginAt) := by
  obtain ⟨c, hrun, hrow⟩ := run_twoLogins (rowAt loginAt) (rowAfter loginAt secondLoginAt)
    (rowAfter loginAt secondLoginAt) true false (.inl rfl) (by decide +kernel)
  have hu := System.runUnder_of_meets (P := fun ls l => App.InLoginOrder ls l) hrun
    (by decide +kernel)
  exact ⟨c, (App.timestamps_never_go_back_iff hrun stampedBy_initial).2 hu, hrow⟩

theorem login_goes_back :
    ¬∀ (app : App) (w₀ : World) (ls : List (Label Eff Eff.Answer Request))
      (c : Config Eff Eff.Answer World Request (Except Exc Response)),
      (∀ u ∈ w₀.db.users, u.StampedBy w₀.clock) → app.system.Run (.init w₀) ls c →
        App.NeverGoesBack app w₀ ls c := by
  intro h
  obtain ⟨c, hrun, hrow⟩ := run_twoLogins (rowAfter secondLoginAt loginAt) (rowAt secondLoginAt)
    (rowAfter secondLoginAt loginAt) false true (.inr rfl) (by decide +kernel)
  have hback := h recordedApp World.initial _ c stampedBy_initial hrun
  have hmem := (Database.userByTelegramId_eq_some.1 hrow).1
  have hle := hback.created (List.append_nil _).symm hrun (.nil c) _ hmem
  exact absurd hle (by decide)

end Recorded

end WikiBackend
