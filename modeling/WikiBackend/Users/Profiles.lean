import WikiBackend.Api.Successes
import WikiBackend.Sessions.Provenance
import WikiBackend.Users.Search

/-! The profiles that responses show. Each is the profile left by the last login of the user that
was executed before a moment at which the request was being served. -/

namespace WikiBackend

open Effects

def profileStep (telegramId : Int) (u : Option UserRow) : Ev → Option UserRow
  | ⟨.sql (.upsertUser p), .ok (some (row, _))⟩ => if p.telegramId = telegramId then some row else u
  | _ => u

theorem UsersStep.profileStep_eq {db db' : Database} {ev : Ev} (h : UsersStep db db' ev)
    (telegramId : Int) :
    db'.userByTelegramId telegramId = profileStep telegramId (db.userByTelegramId telegramId) ev := by
  cases h with
  | kept hw hk =>
    rw [Database.userByTelegramId, hk, ← Database.userByTelegramId]
    unfold profileStep
    split
    · cases hw
    · rfl
  | @updated p r hr hk =>
    rw [Database.userByTelegramId_update hk, profileStep]
    by_cases hp : p.telegramId = telegramId
    · subst hp
      simp only [hr, if_true, Option.map_some]
    · simp only [if_neg hp, if_neg (Ne.symm hp), Option.map_id']
  | @inserted p hnone hk =>
    rw [Database.userByTelegramId_insert hk, profileStep]
    by_cases hp : p.telegramId = telegramId
    · subst hp
      rw [hnone, if_pos rfl, Option.none_or]
    · rw [if_neg hp, if_neg hp, Option.or_none]

def Response.user? : Response → Option TokenUserResponse
  | .tokenVerify _ user | .sessionCreate _ _ _ user | .sessionStatus _ _ user => some user
  | .sessionLogout _ | .spaceCreate _ | .userSearch _ => none

namespace App

variable {app : App} {w₀ : World} {ls l₁ l₂ : List (Label Eff Eff.Answer Request)} {req : Request}
  {c : Config Eff Eff.Answer World Request (Except Exc Response)} {i : Nat} {evs : List Ev}
  {resp : Response} {user : TokenUserResponse}

def lastLogin (w₀ : World) (telegramId : Int) (ls : List (Label Eff Eff.Answer Request)) :
    Option UserRow :=
  (events ls).foldl (profileStep telegramId) (w₀.db.userByTelegramId telegramId)

theorem userByTelegramId_of_run (h : app.system.Run (.init w₀) ls c) (telegramId : Int) :
    c.world.db.userByTelegramId telegramId = lastLogin w₀ telegramId ls :=
  h.view (v := fun w => w.db.userByTelegramId telegramId)
    fun ht => (usersStep_of_trans ht).profileStep_eq telegramId

theorem lastLogin_of_mem {row : UserRow} (h : app.system.Run (.init w₀) ls c)
    (hm : row ∈ c.world.db.users) : lastLogin w₀ row.telegramId ls = some row := by
  rw [← userByTelegramId_of_run h]
  exact Database.userByTelegramId_eq_some.2 ⟨hm, rfl⟩

theorem shown_of_succeeds (h : app.Succeeds req evs resp) (hu : resp.user? = some user) :
    ∃ xs ys row, user = row.toProfile.toTokenUser ∧
      ((∃ p created, evs = xs ++ sqlEv (.upsertUser p) (.ok (some (row, created))) :: ys) ∨
        ∃ id, evs = xs ++ sqlEv (.userById id) (.ok (some row)) :: ys) := by
  cases h with
  | @verifyToken _ _ p now row created =>
    cases hu
    exact ⟨[_, _], _, row, rfl, .inl ⟨_, created, rfl⟩⟩
  | @createSession _ _ p now row created =>
    cases hu
    exact ⟨[_, _], _, row, rfl, .inl ⟨_, created, rfl⟩⟩
  | @getSession _ _ rec _ row =>
    cases hu
    exact ⟨[_, _], _, row, rfl, .inr ⟨_, rfl⟩⟩
  | @refreshSession _ _ rec _ _ _ _ _ row =>
    cases hu
    exact ⟨[_, _, _, _, _], _, row, rfl, .inr ⟨_, rfl⟩⟩
  | deleteSession => cases hu
  | createSpace => cases hu
  | searchUsers => cases hu

theorem trans_usersByUsername {w w' : World} {pattern : String} {limit : Int} {rows : List UserRow}
    (ht : app.system.Trans w i (.sql (.usersByUsername pattern limit)) (.ok rows) w') :
    w' = w ∧ ∀ row ∈ rows, row ∈ w.db.users := by
  rcases trans_sql.1 ht with ⟨s, hx⟩ | ⟨_, hx, -⟩
  · obtain ⟨hrows, rfl⟩ := Prod.mk.inj hx
    refine ⟨rfl, fun row hm => ?_⟩
    unfold Database.usersByUsername at hrows
    split at hrows <;> cases hrows
    have hmem := (arrange_perm _).mem_iff.1 (List.mem_of_mem_take hm)
    exact List.mem_of_mem_filter hmem
  · cases hx

/-- At some step of request `i` the row of the user was `row`, by the logins up to there. -/
def CurrentDuring (w₀ : World) (i : Nat) (ls : List (Label Eff Eff.Answer Request)) (row : UserRow) :
    Prop :=
  ∃ l₁ l₂ e a, ls = l₁ ++ .did i e a :: l₂ ∧
    lastLogin w₀ row.telegramId (l₁ ++ [.did i e a]) = some row

theorem currentDuring_of_step {c₁ c₂ : Config Eff Eff.Answer World Request (Except Exc Response)}
    {e : Eff} {a : e.Answer} {row : UserRow} (h₁ : app.system.Run (.init w₀) l₁ c₁)
    (hst : app.system.Step c₁ (.did i e a) c₂) (hrow : row ∈ c₂.world.db.users) :
    CurrentDuring w₀ i (l₁ ++ .did i e a :: l₂) row :=
  ⟨l₁, l₂, e, a, rfl, lastLogin_of_mem (h₁.append hst.single) hrow⟩

/-- A response shows every user as the last login executed before some step of its request left
the user: never a profile that was not stored, and never one that was outdated when the request
started. -/
theorem profiles_fresh (h : app.system.Run (.init w₀) ls c) (hret : c.Returned i (.ok resp)) :
    (∀ user, resp.user? = some user →
      ∃ row, CurrentDuring w₀ i ls row ∧ user = row.toProfile.toTokenUser) ∧
    ∀ users, resp = .userSearch users → ∀ result ∈ users,
      ∃ row, CurrentDuring w₀ i ls row ∧ result = row.toProfile.toSearchResult := by
  obtain ⟨req, -, hf⟩ := h.returned hret
  have hsuc := succeeds_of_finishes hf
  constructor
  · intro user hu
    obtain ⟨xs, ys, row, rfl, ⟨p, created, ho⟩ | ⟨id, ho⟩⟩ := shown_of_succeeds hsuc hu
    all_goals
      obtain ⟨l₁, l₂, rfl, -, -⟩ := own_eq_append_cons xs ho
      obtain ⟨c₁, c₂, h₁, hst, -⟩ := h.split
      refine ⟨row, currentDuring_of_step h₁ hst ?_, rfl⟩
    · exact (usersStep_of_trans hst.trans).stored.1
    · obtain ⟨hrow, hw⟩ := trans_userById hst.trans
      rw [hw]
      exact (Database.userById_eq_some.1 hrow.symm).1
  · rintro users rfl result hmem
    generalize ho : own i ls = evs at hsuc
    cases hsuc with
    | searchUsers =>
      obtain ⟨row, hrow, rfl⟩ := List.mem_map.1 hmem
      obtain ⟨l₁, l₂, rfl, -, -⟩ := own_eq_append_cons [_, _, _] ho
      obtain ⟨c₁, c₂, h₁, hst, -⟩ := h.split
      obtain ⟨hw, hrows⟩ := trans_usersByUsername hst.trans
      exact ⟨row, currentDuring_of_step h₁ hst (hw ▸ hrows row hrow), rfl⟩

end App

namespace Recorded

theorem profiles_fresh_lookup :
    ∃ row, App.CurrentDuring World.initial 1 loginThenLookup row ∧
      userRow.toProfile.toTokenUser = row.toProfile.toTokenUser := by
  obtain ⟨c, hrun, hret⟩ := run_loginThenLookup
  exact (App.profiles_fresh hrun hret).1 _ rfl

end Recorded

end WikiBackend
