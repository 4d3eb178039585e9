import WikiBackend.Sessions.Operations
import WikiBackend.Token.Authentic

/-! The users table as a function of the accepted logins. A history of logins
stands for one account per telegram id; the upsert keeps the table equal to it. -/

namespace WikiBackend

open Effects

structure Login where
  params : UpsertParams
  row : UserRow
  created : Bool

def loginOf : Ev → Option Login
  | ⟨.sql (.upsertUser p), .ok (some (row, created))⟩ => some ⟨p, row, created⟩
  | _ => none

def logins : List (Label Eff Eff.Answer Request) → List Login
  | [] => []
  | .started _ _ :: ls => logins ls
  | .did _ e a :: ls => (loginOf ⟨e, a⟩).toList ++ logins ls

def loginsOf (telegramId : Int) (h : List Login) : List Login :=
  h.filter (·.params.telegramId = telegramId)

def lastValue (f : UpsertParams → Option PyStr) (h : List Login) : Option PyStr :=
  h.reverse.findSome? fun l => f l.params

def account (h : List Login) : Option UserRow :=
  h.head?.map fun first =>
    let last := h.getLast?.getD first
    { id := first.row.id
      telegramId := first.params.telegramId
      username := stored 255 (lastValue (·.username) h)
      firstName := stored 255 (lastValue (·.firstName) h)
      lastName := stored 255 (lastValue (·.lastName) h)
      photoUrl := stored 1024 (lastValue (·.photoUrl) h)
      permission := stored 64 (lastValue (·.permission) h)
      createdAt := first.params.now
      updatedAt := last.params.now
      lastLoginAt := last.params.now }

theorem lastValue_snoc (f : UpsertParams → Option PyStr) (h : List Login) (l : Login) :
    lastValue f (h ++ [l]) = (f l.params).or (lastValue f h) := by
  rw [lastValue, List.reverse_append, List.reverse_singleton, List.singleton_append,
    List.findSome?_cons]
  cases f l.params <;> rfl

theorem stored_or {n : Nat} {v v' : Option PyStr} (h : bindable v) :
    stored n (v.or v') = (stored n v).or (stored n v') := by
  cases v with
  | none => rfl
  | some v =>
    cases v with
    | text s => rfl
    | surrogates points valid lone => cases h

theorem account_snoc {h : List Login} {r : UserRow} {l : Login} (hr : account h = some r)
    (hl : l.params.bindable) : account (h ++ [l]) = some (l.params.updateRow r) := by
  cases h with
  | nil => cases hr
  | cons first h =>
    cases hr
    simp only [UpsertParams.bindable, UpsertParams.texts, List.all_cons, Bool.and_eq_true] at hl
    obtain ⟨-, husername, hfirst, hlast, hphoto, hpermission, -⟩ := hl
    simp only [account, lastValue_snoc, List.getLast?_concat, UpsertParams.updateRow,
      Option.getD_some, stored_or husername, stored_or hfirst, stored_or hlast, stored_or hphoto,
      stored_or hpermission]
    rfl

theorem account_singleton {l : Login} {id : Int} (hr : l.row = l.params.insertRow id) :
    account [l] = some l.row := by
  simp [account, lastValue, hr, UpsertParams.insertRow]

theorem account_eq_none {h : List Login} : account h = none ↔ h = [] := by
  simp [account]

/-! ## The history of a run -/

theorem logins_append (ls ls' : List (Label Eff Eff.Answer Request)) :
    logins (ls ++ ls') = logins ls ++ logins ls' := by
  induction ls with
  | nil => rfl
  | cons l ls ih => cases l <;> simp only [List.cons_append, logins, ih, List.append_assoc]

theorem loginsOf_snoc (telegramId : Int) (h : List Login) (l : Login) :
    loginsOf telegramId (h ++ [l]) =
      if l.params.telegramId = telegramId then loginsOf telegramId h ++ [l]
      else loginsOf telegramId h := by
  simp only [loginsOf, List.filter_append, List.filter_singleton]
  split <;> simp_all

theorem loginOf_eq_none {ev : Ev} (h : writesUsers ev = false) : loginOf ev = none := by
  unfold loginOf
  split
  · cases h
  · rfl

variable {db db' : Database} {ev : Ev} {h : List Login}

theorem loginOf_eq_some {l : Login} (h : loginOf ev = some l) :
    ev = sqlEv (.upsertUser l.params) (.ok (some (l.row, l.created))) := by
  unfold loginOf at h
  split at h
  · cases h
    rfl
  · cases h

theorem UsersStep.account (hs : UsersStep db db' ev)
    (hsent : ∀ l, loginOf ev = some l → l.params.bindable)
    (hdb : ∀ telegramId, db.userByTelegramId telegramId = account (loginsOf telegramId h))
    (telegramId : Int) :
    db'.userByTelegramId telegramId =
      WikiBackend.account (loginsOf telegramId (h ++ (loginOf ev).toList)) := by
  cases hs with
  | kept hw ht =>
    rw [loginOf_eq_none hw, Option.toList_none, List.append_nil, ← hdb, Database.userByTelegramId,
      ht, Database.userByTelegramId]
  | @updated p r hr ht =>
    rw [Database.userByTelegramId_update ht]
    simp only [loginOf, Option.toList_some, loginsOf_snoc]
    by_cases htg : p.telegramId = telegramId
    · subst htg
      rw [hr, if_pos rfl, account_snoc ((hdb _).symm.trans hr) (hsent _ rfl)]
      simp only [Option.map_some, if_true]
    · simp only [if_neg htg, if_neg (Ne.symm htg), Option.map_id', hdb]
  | @inserted p hn ht =>
    rw [Database.userByTelegramId_insert ht]
    simp only [loginOf, Option.toList_some, loginsOf_snoc]
    by_cases htg : p.telegramId = telegramId
    · subst htg
      have hnil := account_eq_none.1 ((hdb _).symm.trans hn)
      rw [hn, if_pos rfl, if_pos rfl, hnil, List.nil_append, account_singleton rfl, Option.none_or]
    · rw [if_neg htg, if_neg htg, Option.or_none, hdb]

variable {app : App} {w₀ : World} {ls : List (Label Eff Eff.Answer Request)}
  {c : Config Eff Eff.Answer World Request (Except Exc Response)}

theorem userByTelegramId_of_run (hr : app.system.Run (.init w₀) ls c) (h₀ : w₀.db.users = [])
    (telegramId : Int) :
    c.world.db.userByTelegramId telegramId = account (loginsOf telegramId (logins ls)) := by
  induction hr generalizing telegramId with
  | nil =>
    rw [logins, account_eq_none.2 (rfl : loginsOf telegramId [] = [])]
    exact congrArg (Keyed.lookup _ _) h₀
  | snoc _ hs ih =>
    rw [logins_append]
    cases hs with
    | start => simpa only [logins, List.append_nil] using ih telegramId
    | @run _ _ e _ a _ _ ht =>
      have hsent : ∀ l, loginOf ⟨e, a⟩ = some l → l.params.bindable := by
        intro l hl
        cases loginOf_eq_some hl
        exact App.bindable_of_trans ht
      simpa only [logins, List.append_nil] using
        (App.usersStep_of_trans ht).account hsent ih telegramId

theorem UsersStep.of_login {p : UpsertParams} {row : UserRow} {created : Bool}
    (hs : UsersStep db db' (sqlEv (.upsertUser p) (.ok (some (row, created))))) :
    db'.userByTelegramId p.telegramId = some row ∧
    (∀ telegramId ≠ p.telegramId,
      db'.userByTelegramId telegramId = db.userByTelegramId telegramId) ∧
    (created = true ↔ db.userByTelegramId p.telegramId = none) := by
  refine ⟨Database.userByTelegramId_eq_some.2 hs.stored, ?_⟩
  cases hs with
  | kept hw => cases hw
  | updated hr ht =>
    refine ⟨fun telegramId hne => ?_, by simp [hr]⟩
    simp only [Database.userByTelegramId_update ht, if_neg hne, Option.map_id']
  | inserted hn ht =>
    refine ⟨fun telegramId hne => ?_, by simp [hn]⟩
    rw [Database.userByTelegramId_insert ht, if_neg (Ne.symm hne), Option.or_none]

theorem length_filter_users (hr : app.system.Run (.init w₀) ls c) (h₀ : w₀.db.users = [])
    (telegramId : Int) :
    (c.world.db.users.filter fun u => u.telegramId = telegramId).length =
      if loginsOf telegramId (logins ls) = [] then 0 else 1 := by
  have hfilter : (c.world.db.users.filter fun u => u.telegramId = telegramId) =
      (c.world.db.userByTelegramId telegramId).toList :=
    Keyed.filter_eq_lookup c.world.db.constraints.usersTelegramId
  rw [hfilter, userByTelegramId_of_run hr h₀]
  by_cases hnil : loginsOf telegramId (logins ls) = []
  · rw [if_pos hnil, account_eq_none.2 hnil]
    rfl
  · obtain ⟨u, hu⟩ := Option.ne_none_iff_exists'.1 (mt account_eq_none.1 hnil)
    rw [if_neg hnil, hu]
    rfl

/-- The users table is the fold of the accepted logins. -/
theorem users_fold (hr : app.system.Run (.init w₀) ls c) (h₀ : w₀.db.users = []) :
    (∀ telegramId, (c.world.db.users.filter fun u => u.telegramId = telegramId).length =
      if loginsOf telegramId (logins ls) = [] then 0 else 1) ∧
    (∀ telegramId,
      c.world.db.userByTelegramId telegramId = account (loginsOf telegramId (logins ls))) ∧
    ∀ {l₁ l₂ i p row created c₁ c₂},
      ls = l₁ ++ .did i (.sql (.upsertUser p)) (.ok (some (row, created))) :: l₂ →
      app.system.Run (.init w₀) l₁ c₁ →
      app.system.Step c₁ (.did i (.sql (.upsertUser p)) (.ok (some (row, created)))) c₂ →
      c₂.world.db.userByTelegramId p.telegramId = some row ∧
      (∀ telegramId ≠ p.telegramId, c₂.world.db.userByTelegramId telegramId =
        c₁.world.db.userByTelegramId telegramId) ∧
      (created = true ↔ loginsOf p.telegramId (logins l₁) = []) := by
  refine ⟨length_filter_users hr h₀, userByTelegramId_of_run hr h₀, ?_⟩
  intro l₁ l₂ i p row created c₁ c₂ _ h₁ hs
  obtain ⟨hrow, hothers, hnew⟩ := (App.usersStep_of_trans hs.trans).of_login
  have hfirst : c₁.world.db.userByTelegramId p.telegramId = none ↔
      loginsOf p.telegramId (logins l₁) = [] := by
    rw [userByTelegramId_of_run h₁ h₀, account_eq_none]
  exact ⟨hrow, hothers, hnew.trans hfirst⟩

namespace Recorded

theorem users_fold_login : ∃ c, recordedApp.system.Run (.init World.initial) loginRun c ∧
    c.world.db.userByTelegramId 42 = some userRow := by
  obtain ⟨c, hrun, -⟩ := run_login (P := fun _ => true) (by decide +kernel)
  have hacc := (users_fold hrun rfl).2.1 42
  exact ⟨c, hrun, hacc.trans (by decide +kernel)⟩

def paddedPermission : Recording where
  payload :=
    [("telegram_id", .int 42), ("username", .str "ada"),
      ("permission",
        .str "xxxxxxxxxxxxxxxxxxxxxxxxxxxxxxxxxxxxxxxxxxxxxxxxxxxxxxxxxxxxxxxx "),
      ("created_at", .int 1700000000)]
  text :=
    "\x7b\"telegram_id\": 42, \"username\": \"ada\", \"permission\": " ++
      "\"xxxxxxxxxxxxxxxxxxxxxxxxxxxxxxxxxxxxxxxxxxxxxxxxxxxxxxxxxxxxxxxx \", " ++
      "\"created_at\": 1700000000\x7d"
  iv := [96, 97, 98, 99, 100, 101, 102, 103, 104, 105, 106, 107, 108, 109, 110, 111]
  ciphertext :=
    [161, 14, 92, 183, 254, 140, 178, 125, 213, 59, 98, 241, 113, 221, 205, 173, 228, 75, 162, 5,
     203, 176, 115, 222, 19, 21, 129, 156, 31, 155, 156, 197, 75, 99, 244, 232, 225, 98, 148, 207,
     66, 126, 231, 130, 224, 58, 119, 182, 176, 19, 186, 121, 89, 40, 83, 55, 54, 206, 1, 143, 106,
     78, 71, 119, 126, 142, 9, 103, 133, 59, 109, 234, 49, 60, 156, 198, 145, 100, 4, 81, 43, 184,
     123, 120, 193, 204, 244, 24, 225, 185, 65, 48, 214, 160, 90, 64, 161, 8, 66, 10, 224, 82, 92,
     106, 107, 218, 197, 70, 55, 35, 235, 152, 135, 185, 233, 240, 213, 23, 180, 105, 65, 184, 158,
     189, 23, 87, 193, 15, 19, 27, 101, 204, 213, 143, 233, 117, 59, 44, 233, 54, 246, 140, 83, 89,
     157, 130, 218, 66, 40, 44, 99, 138, 86, 188, 12, 127, 192, 103, 194, 149]
  tag :=
    [22, 59, 100, 214, 249, 139, 17, 21, 29, 171, 80, 160, 3, 36, 229, 204, 69, 173, 223, 136, 230,
     35, 255, 131, 114, 206, 167, 63, 81, 119, 226, 144]
  ivLength := rfl
  ciphertextLength := by decide +kernel
  tagLength := rfl

def paddedData : TokenPayload where
  telegramId := 42
  username := some "ada"
  createdAt := 1700000000
  firstName := none
  lastName := none
  photoUrl := none
  permission := some "xxxxxxxxxxxxxxxxxxxxxxxxxxxxxxxxxxxxxxxxxxxxxxxxxxxxxxxxxxxxxxxx "

def paddedApp : App :=
  { recordedApp with lib := paddedPermission.library, tokenService := paddedPermission.service }

def paddedRow : UserRow := (paddedData.upsertParams loginAt).insertRow 1

theorem length_paddedToken : 1 ≤ paddedPermission.token.length := by
  rw [Recording.token, b64encode, String.length_ofList]
  decide +kernel

theorem paddedToken_ne : paddedPermission.token ≠ "" :=
  fun h => absurd length_paddedToken (by rw [h]; decide)

def paddedEvents : List Ev :=
  [clockEv loginAt, clockEv loginAt,
    sqlEv (.upsertUser (paddedData.upsertParams loginAt)) (.ok (some (paddedRow, true)))]

theorem finishes_paddedRequest :
    Finishes (paddedApp.system.body (.verifyToken ⟨paddedPermission.token, length_paddedToken⟩))
      paddedEvents (.ok (.tokenVerify true paddedRow.toProfile.toTokenUser)) := by
  have hstrip : strip paddedPermission.token = paddedPermission.token := strip_b64encode _
  have hval : modelValidate paddedPermission.library paddedPermission.payload = .ok paddedData := rfl
  have haccepts : paddedApp.Accepts loginAt paddedPermission.token paddedData :=
    (verifyToken_of_encrypts paddedPermission.lawful paddedPermission.encrypts
      paddedPermission.plaintext).2 ⟨hval, by decide⟩
  simp only [App.body_eq, App.handler, Routes.verifyToken, hstrip, paddedToken_ne, if_false]
  have hv : Finishes (paddedApp.verifyToken paddedPermission.token).run paddedEvents
      (.ok (paddedRow.toProfile, true)) :=
    App.finishes_verifyToken_ok.2 ⟨loginAt, paddedData, loginAt, paddedRow, haccepts, rfl, rfl⟩
  exact finishes_andThen_pure_ok.2 ⟨_, hv, rfl⟩

theorem padded_value_not_stored :
    ¬∀ (app : App) (ls : List (Label Eff Eff.Answer Request))
      (c : Config Eff Eff.Answer World Request (Except Exc Response)),
      app.system.Run (.init .initial) ls c →
      ∀ telegramId u, c.world.db.userByTelegramId telegramId = some u →
        u.permission.map PyStr.text = lastValue (·.permission) (loginsOf telegramId (logins ls)) := by
  intro h
  obtain ⟨w, ha, hw⟩ := System.exists_answers (S := paddedApp.system) choiceFor paddedEvents
    (i := 0) (w := World.initial) (P := fun w => w.db.userByTelegramId 42 = some paddedRow)
    (by decide +kernel)
  have hrun := System.Run.solo (.nil (.init World.initial)) finishes_paddedRequest ha
  have hvalue := h paddedApp _ _ hrun 42 paddedRow (of_decide_eq_true hw)
  revert hvalue
  decide +kernel

end Recorded

end WikiBackend
