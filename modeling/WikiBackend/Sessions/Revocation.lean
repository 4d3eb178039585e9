import WikiBackend.Api.Paths
import WikiBackend.Sessions.Operations

/-! A revoked session stays revoked, and every later request on it is rejected. -/

namespace WikiBackend.App

open Effects

variable {app : App} {w₀ : World} {ls l₁ l₂ : List (Label Eff Eff.Answer Request)}
  {c c₁ c₂ : Config Eff Eff.Answer World Request (Except Exc Response)} {i j : Nat} {s : String}
  {rec : SessionRecord} {req : Request}

/-- What is left of a request that read a revoked record: a reading of the clock and the
rejection. -/
abbrev rejecting : Prog Eff Eff.Answer (Except Exc Response) :=
  .op .clock fun _ => .ret (.error sessionExpired)

theorem follows_getSessionRecord (hrev : rec.revokedAt.isSome) :
    Follows (app.getSessionRecord s).run [app.selectEv s rec]
      (.op .clock fun _ => .ret (.error sessionExpired)) := by
  obtain ⟨id, userId, expires, _ | t⟩ := rec
  · cases hrev
  · exact .cons (.nil _)

theorem follows_of_revoked (hreq : req.sessionToken? = some s) (hrev : rec.revokedAt.isSome) :
    Follows (app.handler req).run [app.selectEv s rec] rejecting := by
  have hrec : Follows (app.getSessionRecord s).run _ _ := follows_getSessionRecord hrev
  cases req with
  | verifyToken body => cases hreq
  | createSession body => cases hreq
  | getSession authorization =>
    simp only [handler, Routes.getSession, bearer_of_toOption hreq]
    exact (hrec.andThen_raise _).andThen_raise _
  | refreshSession authorization =>
    simp only [handler, Routes.refreshSession, bearer_of_toOption hreq]
    exact (hrec.andThen_raise _).andThen_raise _
  | deleteSession authorization =>
    simp only [handler, Routes.deleteSession, bearer_of_toOption hreq]
    exact (hrec.andThen_raise _).andThen_raise _
  | createSpace body authorization =>
    simp only [handler, Routes.createSpace, bearer_of_toOption hreq]
    exact (hrec.andThen_raise _).andThen_raise _
  | searchUsers query authorization =>
    simp only [handler, Routes.searchUsers, bearer_of_toOption hreq]
    exact (hrec.andThen_raise _).andThen_raise _

theorem rejected_of_own (evs : List Ev) (h : app.system.Run (.init w₀) ls c)
    (hm : .started j req ∈ ls) (hreq : req.sessionToken? = some s) (hrev : rec.revokedAt.isSome)
    (ho : own j ls = app.selectEv s rec :: evs) :
    c.procs[j]? = some (req, rejecting) ∨
      c.procs[j]? = some (req, .ret (.error sessionExpired)) := by
  obtain ⟨p, hp⟩ := h.procs_of_mem hm
  obtain ⟨-, hf⟩ := h.follows hp
  rw [ho, ← List.singleton_append, follows_append] at hf
  obtain ⟨m, h₁, h₂⟩ := hf
  obtain rfl := h₁.unique (follows_of_revoked hreq hrev)
  rcases h₂ with _ | h₃
  · exact .inl hp
  · rcases h₃ with _ | _
    exact .inr hp

theorem row_of_revoke {t : Instant} {n : Nat} {hash : String} (h : app.system.Run (.init w₀) ls c)
    (hst : app.system.Step c (.did i (.sql (.revoke hash t)) (.ok n)) c₁) :
    ∃ r, c.world.db.sessionByHash hash = some r := by
  obtain ⟨req, -, hx⟩ := executes_of_step h hst
  obtain ⟨_, s, rec, t', rfl, -, -, ho, rfl⟩ := hx.of_revoke
  obtain ⟨l₁, l₂, rfl, -, -⟩ := own_eq_append_cons [] ho
  obtain ⟨c₂, c₃, -, hsel, h₂⟩ := h.split
  obtain ⟨hrec, hw⟩ := trans_sessionByTokenHash hsel.trans
  obtain ⟨r, hr, -⟩ := Option.map_eq_some_iff.1 hrec.symm
  rw [← hw] at hr
  obtain ⟨r', hr', -⟩ := (evolves_of_run h₂).sessions hr
  exact ⟨r', hr'⟩

theorem revoked_of_step {t : Instant} {n : Nat} {hash : String}
    (h : app.system.Run (.init w₀) ls c)
    (hst : app.system.Step c (.did i (.sql (.revoke hash t)) (.ok n)) c₁) :
    ∃ r r', c.world.db.sessionByHash hash = some r ∧ c₁.world.db.sessionByHash hash = some r' ∧
      r.Evolves r' ∧ r'.revokedAt.isSome := by
  obtain ⟨r, hr⟩ := row_of_revoke h hst
  obtain ⟨r', hr', he⟩ := (sessionsStep_of_trans hst.trans).sessionByHash hr
  refine ⟨r, r', hr, hr', he, ?_⟩
  rw [Database.sessionByHash_setRevoked (trans_revoke hst.trans), hr] at hr'
  simp only [Option.map_some, if_true, Option.some.injEq] at hr'
  rw [← hr']
  rfl

theorem revoked_of_mem {t : Instant} {n : Nat} {hash : String} (h : app.system.Run (.init w₀) ls c)
    (hm : .did i (.sql (.revoke hash t)) (.ok n) ∈ ls) :
    ∃ r, c.world.db.sessionByHash hash = some r ∧ r.revokedAt.isSome := by
  obtain ⟨l₁, l₂, c₁, c₂, rfl, h₁, hst, h₂⟩ := h.split_mem hm
  obtain ⟨-, r₂, -, hr₂, -, hrev⟩ := revoked_of_step h₁ hst
  obtain ⟨r, hr, he⟩ := (evolves_of_run h₂).sessions hr₂
  exact ⟨r, hr, he.revokedAt hrev⟩

/-- Revocation is permanent. Once a revoke has executed on the row of a session token the row
stays, revoked, and every request that selects the row from then on is rejected, or waits for
nothing but the clock reading before its rejection. -/
theorem revocation_permanent {t : Instant} {n : Nat} (h₁ : app.system.Run (.init w₀) l₁ c₁)
    (hst : app.system.Step c₁ (.did i (.sql (.revoke (app.hashToken s) t)) (.ok n)) c₂)
    (h₂ : app.system.Run c₂ l₂ c) :
    (∃ r r', c₁.world.db.sessionByHash (app.hashToken s) = some r ∧
      c.world.db.sessionByHash (app.hashToken s) = some r' ∧ r'.id = r.id ∧
      r'.revokedAt.isSome) ∧
    ∀ j x, .did j (.sql (.sessionByTokenHash (app.hashToken s))) (.ok x) ∈ l₂ →
      ∃ req, c.procs[j]? = some (req, rejecting) ∨
        c.procs[j]? = some (req, .ret (.error sessionExpired)) := by
  obtain ⟨r, r₂, hr, hr₂, he₂, hrev⟩ := revoked_of_step h₁ hst
  constructor
  · obtain ⟨r', hr', he'⟩ := (evolves_of_run h₂).sessions hr₂
    exact ⟨r, r', hr, hr', (he₂.trans he').id, he'.revokedAt hrev⟩
  intro j x hj
  obtain ⟨l₃, l₄, c₃, c₄, rfl, h₃, hsel, h₄⟩ := h₂.split_mem hj
  have h₁₃ := h₁.append (hst.single.append h₃)
  obtain ⟨req, hm, hx⟩ := executes_of_step h₁₃ hsel
  obtain ⟨s', hreq, ho, hh⟩ := hx.of_sessionByTokenHash
  obtain ⟨r₃, hr₃, he₃⟩ := (evolves_of_run h₃).sessions hr₂
  have hrun := h₁₃.append (hsel.single.append h₄)
  obtain ⟨rec, rfl, hrec⟩ : ∃ rec, x = some rec ∧ rec.revokedAt.isSome := by
    refine ⟨r₃.toRecord, ?_, he₃.revokedAt hrev⟩
    rw [(trans_sessionByTokenHash hsel.trans).1, hr₃]
    rfl
  refine ⟨req, rejected_of_own (own j l₄) hrun (List.mem_append_left _ hm) hreq hrec ?_⟩
  -- the select is the first event of its request
  rw [own_append, ho, List.nil_append, List.singleton_append, own, if_pos rfl, hh]

end WikiBackend.App

namespace WikiBackend.Recorded

open Effects

def logoutStart : List (Label Eff Eff.Answer Request) :=
  [.started 0 (.deleteSession authorization),
    .did 0 (.sql (.sessionByTokenHash sessionHash)) (.ok (some sessionRecord)),
    .did 0 .clock loginAt, .did 0 .clock loginAt]

def lookupRevoked : List (Label Eff Eff.Answer Request) :=
  [.started 1 (.getSession authorization),
    .did 1 (.sql (.sessionByTokenHash sessionHash))
      (.ok (some { sessionRecord with revokedAt := some loginAt })),
    .did 1 .clock loginAt]

theorem revocation_permanent_logout :
    ∃ c, recordedApp.system.Run (.init sessionWorld)
        (logoutStart ++ .did 0 (.sql (.revoke sessionHash loginAt)) (.ok 1) :: lookupRevoked) c ∧
      (∃ r, c.world.db.sessionByHash sessionHash = some r ∧ r.revokedAt.isSome) ∧
      ∃ req, c.procs[1]? = some (req, App.rejecting) ∨
        c.procs[1]? = some (req, .ret (.error App.sessionExpired)) := by
  obtain ⟨c, hrun, -⟩ : ∃ c, recordedApp.system.Run (.init sessionWorld)
      (logoutStart ++ .did 0 (.sql (.revoke sessionHash loginAt)) (.ok 1) :: lookupRevoked) c ∧
      true := System.exists_run choiceFor _ (by decide +kernel)
  obtain ⟨c₁, c₂, h₁, hst, h₂⟩ := hrun.split
  obtain ⟨⟨-, r, -, hr, -, hrev⟩, hrejected⟩ :=
    App.revocation_permanent (s := sessionToken) h₁ hst h₂
  exact ⟨c, hrun, ⟨r, hr, hrev⟩, hrejected 1 _ (List.mem_cons_of_mem _ List.mem_cons_self)⟩

end WikiBackend.Recorded
