import WikiBackend.Api.Transitions
import WikiBackend.Token.RoundTrip

/-! The operations of the session service, each run alone on a world. -/

namespace WikiBackend

open Effects

inductive Operation where
  | createSession (token : String)
  | getSession (sessionToken : String)
  | refreshSession (sessionToken : String)
  | revokeSession (sessionToken : String)
  deriving DecidableEq

def App.operation (app : App) : Operation → Act (Option SessionData)
  | .createSession token => do
    let data ← app.createSession token
    return some data
  | .getSession sessionToken => do
    let data ← app.getSession sessionToken
    return some data
  | .refreshSession sessionToken => do
    let data ← app.refreshSession sessionToken
    return some data
  | .revokeSession sessionToken => do
    app.revokeSession sessionToken
    return none

variable {app : App} {w w' : World} {i : Nat} {evs : List Ev}

/-! ## Events that write nothing -/

theorem UsersStep.eq_of_not_writes {db db' : Database} {ev : Ev} (h : UsersStep db db' ev)
    (hw : writesUsers ev = false) : db'.users = db.users := by
  cases h with
  | kept _ ht => exact ht
  | updated => cases hw
  | inserted => cases hw

theorem SessionsStep.eq_of_not_writes {db db' : Database} {ev : Ev} (h : SessionsStep db db' ev)
    (hw : writesSessions ev = false) : db'.sessions = db.sessions := by
  cases h with
  | kept _ ht => exact ht
  | inserted => cases hw
  | extended => cases hw
  | revoked => cases hw

theorem users_of_answers (h : app.system.Answers i w evs w')
    (hw : ∀ ev ∈ evs, writesUsers ev = false) : w'.db.users = w.db.users := by
  induction h with
  | nil => rfl
  | cons ht _ ih =>
    rw [ih fun ev hev => hw ev (List.mem_cons_of_mem _ hev)]
    exact (App.usersStep_of_trans ht).eq_of_not_writes (hw _ List.mem_cons_self)

theorem sessions_of_answers (h : app.system.Answers i w evs w')
    (hw : ∀ ev ∈ evs, writesSessions ev = false) : w'.db.sessions = w.db.sessions := by
  induction h with
  | nil => rfl
  | cons ht _ ih =>
    rw [ih fun ev hev => hw ev (List.mem_cons_of_mem _ hev)]
    exact (App.sessionsStep_of_trans ht).eq_of_not_writes (hw _ List.mem_cons_self)

def Quiet (ev : Ev) : Prop := writesUsers ev = false ∧ writesSessions ev = false

theorem quiet_clock (t : Instant) : Quiet (clockEv t) := ⟨rfl, rfl⟩

theorem quiet_token (s : String) : Quiet (tokenEv s) := ⟨rfl, rfl⟩

theorem quiet_uuid (u : UUID) : Quiet (uuidEv u) := ⟨rfl, rfl⟩

theorem quiet_select {h : String} (x : Except LibError (Option SessionRecord)) :
    Quiet (sqlEv (.sessionByTokenHash h) x) := ⟨rfl, rfl⟩

theorem quiet_userById {id : Int} (x : Except LibError (Option UserRow)) :
    Quiet (sqlEv (.userById id) x) := ⟨rfl, rfl⟩

theorem quiet_error (q : Stmt) (e : LibError) : Quiet (sqlEv q (.error e)) := by
  cases q <;> exact ⟨rfl, rfl⟩

theorem not_quiet_upsert {p : UpsertParams} {x : Option (UserRow × Bool)} :
    ¬Quiet (sqlEv (.upsertUser p) (.ok x)) := fun h => nomatch h.1

theorem not_quiet_updateExpiry {h : String} {expires now : Instant} {x : Option SessionRecord} :
    ¬Quiet (sqlEv (.updateExpiry h expires now) (.ok x)) := fun h => nomatch h.2

theorem quiet_getSessionRecord {s : String} {r : Except Exc SessionRecord}
    (h : Finishes (app.getSessionRecord s).run evs r) : ∀ ev ∈ evs, Quiet ev := by
  rcases App.finishes_getSessionRecord.1 h with ⟨e, rfl, -⟩ | ⟨rfl, -⟩ | ⟨rec, t, rfl, -⟩
  · simpa using quiet_error _ _
  · simpa using quiet_select _
  · simpa using ⟨quiet_select _, quiet_clock t⟩

theorem quiet_verifyAccessToken {token : String} {r : Except Exc TokenPayload}
    (h : Finishes (app.verifyAccessToken token).run evs r) : ∀ ev ∈ evs, Quiet ev := by
  rcases App.finishes_verifyAccessToken.1 h with ⟨_, -, rfl, -⟩ | ⟨t, _, -, rfl, -⟩
  · simp
  · simpa using quiet_clock t

theorem upsert_answer {p : UpsertParams} {x : Option (UserRow × Bool)}
    (h : app.system.Trans w i (.sql (.upsertUser p)) (.ok x) w') : x ≠ none := by
  rintro rfl
  cases App.usersStep_of_trans h with
  | kept hw => cases hw

theorem insert_answer {id : UUID} {userId : Int} {hash : String} {expires : Instant}
    {x : Option SessionRecord}
    (h : app.system.Trans w i (.sql (.insertSession id userId hash expires)) (.ok x) w') :
    x ≠ none := by
  rintro rfl
  cases App.sessionsStep_of_trans h with
  | kept hw => cases hw

/-! ## Events of the operations -/

theorem quiet_getSession {s : String} {r : Except Exc SessionData}
    (hf : Finishes (app.getSession s).run evs r) : ∀ ev ∈ evs, Quiet ev := by
  rcases App.finishes_getSession hf with ⟨_, h, -⟩ | ⟨evs₁, rec, y, h, rfl, -⟩
  · exact quiet_getSessionRecord h
  · intro ev hev
    rcases List.mem_append.1 hev with hev | hev
    · exact quiet_getSessionRecord h ev hev
    · cases List.mem_singleton.1 hev
      exact quiet_userById y

theorem quiet_revokeSession {s : String} {e : Exc}
    (hf : Finishes (app.revokeSession s).run evs (.error e)) : ∀ ev ∈ evs, Quiet ev := by
  rcases App.finishes_revokeSession hf with ⟨_, h, -⟩ | ⟨evs₁, rec, now, x, h, rfl, hr⟩
  · exact quiet_getSessionRecord h
  · rcases x with e' | n
    · intro ev hev
      rcases List.mem_append.1 hev with hev | hev
      · exact quiet_getSessionRecord h ev hev
      · simp only [List.mem_cons, List.not_mem_nil, or_false] at hev
        rcases hev with rfl | rfl
        · exact quiet_clock now
        · exact quiet_error _ e'
    · cases hr

theorem quiet_verifyToken {token : String} {e : Exc}
    (hf : Finishes (app.verifyToken token).run evs (.error e))
    (ha : app.system.Answers i w evs w') : ∀ ev ∈ evs, Quiet ev := by
  rcases App.finishes_verifyToken hf with ⟨_, hv, -⟩ |
    ⟨t, p, now, x, -, rfl, ⟨-, hx⟩ | ⟨_, _, -, hr⟩⟩
  · exact quiet_verifyAccessToken hv
  · obtain ⟨m₁, -, h₁⟩ := System.answers_cons.1 ha
    obtain ⟨m₂, -, h₂⟩ := System.answers_cons.1 h₁
    obtain ⟨m₃, ht, -⟩ := System.answers_cons.1 h₂
    rcases x with e' | _ | row
    · simpa using ⟨quiet_clock t, quiet_clock now, quiet_error _ e'⟩
    · exact absurd rfl (upsert_answer ht)
    · exact absurd rfl (hx row)
  · cases hr

theorem createSession_error {token : String} {e : Exc}
    (hf : Finishes (app.createSession token).run evs (.error e))
    (ha : app.system.Answers i w evs w') :
    (∀ ev ∈ evs, Quiet ev) ∨
    ∃ evs₁ p row created evs₂,
      evs = evs₁ ++ sqlEv (.upsertUser p) (.ok (some (row, created))) :: evs₂ ∧
      (∀ ev ∈ evs₁, Quiet ev) ∧ ∀ ev ∈ evs₂, Quiet ev := by
  rcases App.finishes_createSession hf with ⟨e', hv, -⟩ |
    ⟨evs₁, profile, created, s, t, hv, hrest⟩
  · exact .inl (quiet_verifyToken hv ha)
  obtain ⟨t₁, p, now, row, -, rfl, rfl⟩ := App.finishes_verifyToken_ok.1 hv
  have h₁ : ∀ ev ∈ [clockEv t₁, clockEv now], Quiet ev := by simp [quiet_clock]
  rcases hrest with ⟨_, -, rfl, -⟩ | ⟨expires, u, x, -, rfl, hx⟩
  · refine .inr ⟨_, p.upsertParams now, row, created, [tokenEv s, clockEv t], rfl, h₁, ?_⟩
    simp [quiet_clock, quiet_token]
  · rcases x with e' | _ | rec
    · have h₂ : ∀ ev ∈ [tokenEv s, clockEv t, uuidEv u,
          sqlEv (.insertSession u row.toProfile.id (app.hashToken s) expires) (.error e')],
          Quiet ev := by
        simpa using ⟨quiet_token s, quiet_clock t, quiet_uuid u, quiet_error _ e'⟩
      exact .inr ⟨_, p.upsertParams now, row, created, _, rfl, h₁, h₂⟩
    · rw [List.append_cons, List.append_cons, List.append_cons] at ha
      obtain ⟨m, -, h⟩ := System.answers_append.1 ha
      obtain ⟨m', ht, -⟩ := System.answers_cons.1 h
      exact absurd rfl (insert_answer ht)
    · cases hx

/-! ## A recorded login -/

namespace Recorded

def loginAt : Instant := 1700000100 * 1000000

def userRow : UserRow := (data₁.upsertParams loginAt).insertRow 1

def sessionHash : String := recordedApp.hashToken sessionToken

def expiresAt : Instant := loginAt + 3600 * 1000000

def loginEvents (x : Except LibError (Option SessionRecord)) : List Ev :=
  [clockEv loginAt, clockEv loginAt,
    sqlEv (.upsertUser (data₁.upsertParams loginAt)) (.ok (some (userRow, true))),
    tokenEv sessionToken, clockEv loginAt, uuidEv 1,
    sqlEv (.insertSession 1 userRow.id sessionHash expiresAt) x]

def sessionRecord : SessionRecord := ⟨1, userRow.id, expiresAt, none⟩

theorem accepts₁ : recordedApp.Accepts loginAt token₁ data₁ := verifyToken₁ (by decide)

theorem finishes_login (x : Except LibError (Option SessionRecord)) :
    Finishes (recordedApp.createSession token₁).run (loginEvents x)
      (match x with
        | .ok (some _) => .ok ⟨userRow.toProfile, expiresAt, some sessionToken⟩
        | _ => .error App.internalError) :=
  App.createSession_finishes
    (App.finishes_verifyToken_ok.2 ⟨loginAt, data₁, loginAt, userRow, accepts₁, rfl, rfl⟩) rfl 1 x

theorem length_token₁ : 1 ≤ token₁.length := by
  rw [token₁, b64encode, String.length_ofList]
  decide +kernel

theorem strip_token₁ : strip token₁ = token₁ := strip_b64encode _

theorem token₁_ne : token₁ ≠ "" := fun h => absurd length_token₁ (by rw [h]; decide)

def loginRequest : Request := .createSession ⟨token₁, length_token₁⟩

theorem finishes_loginRequest :
    Finishes (recordedApp.system.body loginRequest) (loginEvents (.ok (some sessionRecord)))
      (.ok (.sessionCreate true sessionToken expiresAt userRow.toProfile.toTokenUser)) := by
  simp only [App.body_eq, App.handler, loginRequest, Routes.createSession, strip_token₁, token₁_ne, if_false]
  exact finishes_andThen.2 (.inr ⟨_, _, [], (List.append_nil _).symm, finishes_login _,
    finishes_pure.2 ⟨rfl, rfl⟩⟩)

def authorization : Option String := some ("Bearer " ++ sessionToken)

theorem bearer_authorization : extractBearerToken authorization = .ok sessionToken := by
  decide +kernel

theorem notes_minLength : 1 ≤ "Notes".length := by decide

theorem notes_maxLength : "Notes".length ≤ 255 := by decide

def notes : SpaceCreateRequest := ⟨"Notes", notes_minLength, notes_maxLength⟩

def sessionRow : SessionRow := ⟨1, userRow.id, sessionHash, expiresAt, none, loginAt, loginAt⟩

def sessionWorld : World where
  db :=
    { users := [userRow]
      usersIdSeq := 1
      sessions := [sessionRow]
      spaces := []
      memberships := []
      constraints := by decide +kernel }
  clock := loginAt
  tokens := [sessionToken]
  txs _ := none

def loginRun : List (Label Eff Eff.Answer Request) :=
  .started 0 loginRequest ::
    (loginEvents (.ok (some sessionRecord))).map fun ev => .did 0 ev.1 ev.2

theorem run_login {P : World → Bool}
    (h : (recordedApp.system.answered choiceFor 0 World.initial
      (loginEvents (.ok (some sessionRecord)))).any P) :
    ∃ c, recordedApp.system.Run (.init World.initial) loginRun c ∧ c.procs.length = 1 ∧
      P c.world := by
  obtain ⟨w, ha, hw⟩ := System.exists_answers choiceFor _ h
  exact ⟨_, System.Run.solo (.nil (.init World.initial)) finishes_loginRequest ha, rfl, hw⟩

end Recorded

end WikiBackend
