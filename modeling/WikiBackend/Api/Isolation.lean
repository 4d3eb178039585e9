import WikiBackend.Spaces.Ownership

/-! Accounts are isolated: whatever other requests do, in whatever order, a user's rows stay as
they are while no request acts for the user. -/

namespace WikiBackend

open Effects

/-- What the tables hold about a user. -/
structure Account where
  user : Option UserRow
  sessions : List SessionRow
  memberships : List MembershipRow
  spaces : List SpaceRow

namespace Database

def isMember (db : Database) (id : Int) (space : SpaceRow) : Bool :=
  db.memberships.any fun m => m.userId = id ∧ m.spaceId = space.id

def account (db : Database) (id : Int) : Account where
  user := db.userById id
  sessions := db.sessions.filter fun r => r.userId = id
  memberships := db.memberships.filter fun m => m.userId = id
  spaces := db.spaces.filter (db.isMember id)

theorem isMember_congr {db db' : Database} (h : db'.memberships = db.memberships) :
    db'.isMember = db.isMember := by
  funext id space
  rw [isMember, h, isMember]

end Database

namespace App

variable {app : App} {w w' w₀ : World} {ls : List (Label Eff Eff.Answer Request)}
  {req : Request} {u : UserRow} {s : String} {i : Nat}
  {c c' : Config Eff Eff.Answer World Request (Except Exc Response)} {evs : List Ev}

/-- The request presents an access token of the user's account, or a token of one of the
user's sessions. -/
def ActsFor (app : App) (w : World) (u : UserRow) (req : Request) : Prop :=
  (∃ token t p, req.accessToken? = some token ∧ app.Accepts t token p ∧
    p.telegramId = u.telegramId) ∨
  ∃ s r, req.sessionToken? = some s ∧ w.db.sessionByHash (app.hashToken s) = some r ∧
    r.userId = u.id

theorem ActsFor.mono (h : app.ActsFor w u req) (hw : w.Evolves w') : app.ActsFor w' u req := by
  rcases h with h | ⟨s, r, hs, hr, hid⟩
  · exact .inl h
  · obtain ⟨r', hr', he⟩ := hw.sessions hr
    exact .inr ⟨s, r', hs, hr', he.userId.trans hid⟩

theorem row_of_selected {rec : SessionRecord} (h : app.system.Run (.init w₀) ls c)
    (ho : own i ls = app.selectEv s rec :: evs) :
    ∃ r, c.world.db.sessionByHash (app.hashToken s) = some r ∧ r.userId = rec.userId := by
  obtain ⟨l₁, l₂, rfl, -, -⟩ := own_eq_append_cons [] ho
  obtain ⟨c₁, c₂, -, hsel, h₂⟩ := h.split
  obtain ⟨hrec, hw⟩ := trans_sessionByTokenHash hsel.trans
  obtain ⟨r, hr, rfl⟩ := Option.map_eq_some_iff.1 hrec.symm
  rw [← hw] at hr
  obtain ⟨r', hr', he⟩ := (evolves_of_run h₂).sessions hr
  exact ⟨r', hr', he.userId⟩

theorem id_of_looked {id : Int} {user : UserRow} (h : app.system.Run (.init w₀) ls c)
    (hm : .did i (.sql (.userById id)) (.ok (some user)) ∈ ls) : user.id = id := by
  obtain ⟨l₁, l₂, c₁, c₂, rfl, -, hst, -⟩ := h.split_mem hm
  exact (Database.userById_eq_some.1 (trans_userById hst.trans).1.symm).2

theorem user_of_upserted {p : UpsertParams} {row : UserRow} {created : Bool}
    (h : app.system.Run (.init w₀) ls c)
    (hm : .did i (.sql (.upsertUser p)) (.ok (some (row, created))) ∈ ls) :
    ∃ user, c.world.db.userById row.id = some user ∧ user.telegramId = p.telegramId := by
  obtain ⟨l₁, l₂, c₁, c₂, rfl, -, hst, h₂⟩ := h.split_mem hm
  obtain ⟨hmem, htg⟩ := (usersStep_of_trans hst.trans).stored
  have hrow : c₂.world.db.userById row.id = some row := Database.userById_eq_some.2 ⟨hmem, rfl⟩
  obtain ⟨user, hu, he⟩ := (evolves_of_run h₂).users hrow
  exact ⟨user, hu, he.trans htg⟩

/-! ## One step -/

section Step

variable {e : Eff} {a : e.Answer} (h : app.system.Run (.init w₀) ls c)
  (hst : app.system.Step c (.did i e a) c') (hu : c.world.db.userById u.id = some u)
  (hother : ∀ req, .started i req ∈ ls → ¬app.ActsFor c.world u req)

include h hst hu hother

theorem same_user_of_step : c'.world.db.userById u.id = some u := by
  have hs := usersStep_of_trans hst.trans
  generalize hev : (⟨e, a⟩ : Ev) = ev at hs
  cases hs with
  | kept _ hk => rw [Database.userById, hk, ← Database.userById, hu]
  | inserted _ hk => rw [Database.userById_insert hk, hu, Option.some_or]
  | @updated p r _ hk =>
    cases hev
    obtain ⟨req, hreq, hx⟩ := executes_of_step h hst
    obtain ⟨token, t, data, now, hacc, ha, -, rfl⟩ := hx.of_upsertUser
    have hne : u.telegramId ≠ (data.upsertParams now).telegramId := fun he =>
      hother req hreq (.inl ⟨token, t, data, hacc, ha, he.symm⟩)
    rw [Database.userById_update hk, hu, Option.map_some, if_neg hne]

theorem sessions_of_step :
    (c'.world.db.sessions.filter fun r => r.userId = u.id) =
      c.world.db.sessions.filter fun r => r.userId = u.id := by
  have hs := sessionsStep_of_trans hst.trans
  -- the row that a request has looked up is not the user's
  have foreign {req : Request} {s : String} {rec : SessionRecord} {evs : List Ev}
      (hreq : .started i req ∈ ls) (htok : req.sessionToken? = some s)
      (ho : own i ls = app.selectEv s rec :: evs) {r : SessionRow} (hr : r ∈ c.world.db.sessions)
      (hh : r.tokenHash = app.hashToken s) : r.userId ≠ u.id := fun he =>
    hother req hreq (.inr ⟨s, r, htok, Database.sessionByHash_eq_some.2 ⟨hr, hh⟩, he⟩)
  generalize hev : (⟨e, a⟩ : Ev) = ev at hs
  cases hs with
  | kept _ hk => rw [hk]
  | @inserted id userId hash expires now hk =>
    cases hev
    obtain ⟨req, hreq, hx⟩ := executes_of_step h hst
    obtain ⟨body, t, p, now', row, created, s, t', rfl, ha, -, ho, rfl, -⟩ := hx.of_insertSession
    have hup : .did i (.sql (.upsertUser (p.upsertParams now'))) (.ok (some (row, created))) ∈ ls :=
      mem_own.1 (by simp [ho])
    obtain ⟨user, huser, htg⟩ := user_of_upserted h hup
    have hne : row.id ≠ u.id := by
      intro he
      rw [he, hu] at huser
      cases huser
      exact hother _ hreq (.inl ⟨_, t, p, rfl, ha, htg.symm⟩)
    rw [hk, List.filter_append]
    simp [hne]
  | extended hk =>
    cases hev
    obtain ⟨req, hreq, hx⟩ := executes_of_step h hst
    obtain ⟨authorization, s, rec, t, t', rfl, hs, -, -, ho, rfl⟩ := hx.of_updateExpiry
    rw [hk]
    apply Keyed.filter_modify
    intro r hr hh
    have hne := foreign hreq (toOption_eq_some hs) ho hr hh
    exact ⟨decide_eq_false hne, decide_eq_false hne⟩
  | revoked hk =>
    cases hev
    obtain ⟨req, hreq, hx⟩ := executes_of_step h hst
    obtain ⟨authorization, s, rec, t, rfl, hs, -, ho, rfl⟩ := hx.of_revoke
    rw [hk]
    apply Keyed.filter_modify
    intro r hr hh
    have hne := foreign hreq (toOption_eq_some hs) ho hr hh
    exact ⟨decide_eq_false hne, decide_eq_false hne⟩

omit hu in
theorem spaces_of_step_other :
    (c'.world.db.memberships.filter fun m => m.userId = u.id) =
      (c.world.db.memberships.filter fun m => m.userId = u.id) ∧
    c'.world.db.spaces.filter (c'.world.db.isMember u.id) =
      c.world.db.spaces.filter (c.world.db.isMember u.id) := by
  rcases spaces_of_step h hst with ⟨hs, hm⟩ |
    ⟨body, authorization, s, rec, t, user, spaceId, -, hreq, hb, -, -, ho, hs, hm⟩
  · rw [hs, hm, Database.isMember_congr hm]
    exact ⟨rfl, rfl⟩
  obtain ⟨r, hr, hid⟩ := row_of_selected h ho
  have hlooked : user.id = rec.userId :=
    id_of_looked h (mem_own.1 (by rw [ho]; exact .tail _ (.tail _ (.head _))))
  have hne : user.id ≠ u.id := by
    intro he
    exact hother _ hreq (.inr ⟨s, r, toOption_eq_some hb, hr, hid.trans (hlooked.symm.trans he)⟩)
  have hmember : c'.world.db.isMember u.id = c.world.db.isMember u.id := by
    funext space
    simp only [Database.isMember, hm, List.any_append, List.any_cons, List.any_nil, hne, false_and,
      decide_false, Bool.or_false]
  -- the id of the new space is not in use, so no membership refers to it
  have hnew : c.world.db.isMember u.id ⟨spaceId, body.name, none, none⟩ = false := by
    rw [Database.isMember, List.any_eq_false]
    intro m hmem
    obtain ⟨space, hspace, hsid⟩ := c.world.db.constraints.membershipsSpaceId m hmem
    have hn := c'.world.db.constraints.spacesId
    rw [hs, List.map_append, List.nodup_append] at hn
    have hdiff : space.id ≠ spaceId :=
      hn.2.2 _ (List.mem_map_of_mem hspace) _ (List.mem_singleton.2 rfl)
    simp [← hsid, hdiff]
  constructor
  · rw [hm, List.filter_append]
    simp [hne]
  · rw [hs, hmember, List.filter_append]
    simp [hnew]

theorem account_of_step : c'.world.db.account u.id = c.world.db.account u.id := by
  obtain ⟨hm, hs⟩ := spaces_of_step_other h hst hother
  simp only [Database.account, same_user_of_step h hst hu hother, hu,
    sessions_of_step h hst hu hother, hm, hs]

end Step

/-! ## Whole runs -/

/-- No interleaving of requests that act for others changes anything of a user's account. -/
theorem account_untouched (h : app.system.Run (.init w₀) ls c) (hu : w₀.db.userById u.id = some u)
    (hother : ∀ i req, .started i req ∈ ls → ¬app.ActsFor c.world u req) :
    c.world.db.account u.id = w₀.db.account u.id := by
  induction h with
  | nil => rfl
  | @snoc c c' ls l h hst ih =>
    have hbefore : ∀ i req, .started i req ∈ ls → ¬app.ActsFor c.world u req := by
      intro i req hm hacts
      exact hother i req (List.mem_append_left _ hm)
        (hacts.mono (evolves_of_run hst.single))
    have hacc := ih hbefore
    have hu' : c.world.db.userById u.id = some u := (congrArg Account.user hacc).trans hu
    cases l with
    | started j req =>
      cases hst
      exact hacc
    | did j e a => exact (account_of_step h hst hu' (hbefore j)).trans hacc

end App

namespace Recorded

def neighbour : UserRow := { userRow with id := 2, telegramId := 43 }

def sharedWorld : World where
  db :=
    { users := [userRow, neighbour]
      usersIdSeq := 2
      sessions := [sessionRow]
      spaces := []
      memberships := []
      constraints := by decide +kernel }
  clock := loginAt
  tokens := [sessionToken]
  txs _ := none

theorem account_untouched_neighbour :
    ∃ c, recordedApp.system.Run (.init sharedWorld) spaceRun c ∧
      c.world.db.account neighbour.id = sharedWorld.db.account neighbour.id := by
  obtain ⟨c, hrun, hrow⟩ : ∃ c, recordedApp.system.Run (.init sharedWorld) spaceRun c ∧
      decide ((c.world.db.sessionByHash sessionHash).map (·.userId) = some 1) :=
    System.exists_run choiceFor _ (by decide +kernel)
  refine ⟨c, hrun, App.account_untouched hrun (by decide +kernel) ?_⟩
  rintro i req hm (⟨token, t, p, hacc, -⟩ | ⟨s, r, hs, hr, hid⟩)
  all_goals
    simp only [spaceRun, List.mem_cons, Label.started.injEq, reduceCtorEq, or_false,
      List.not_mem_nil] at hm
    obtain ⟨-, rfl⟩ := hm
  · cases hacc
  · rw [Request.sessionToken?, bearer_authorization] at hs
    cases hs
    have hone := of_decide_eq_true hrow
    rw [show sessionHash = recordedApp.hashToken sessionToken from rfl, hr] at hone
    rw [Option.map_some, hid] at hone
    cases hone

end Recorded

end WikiBackend
