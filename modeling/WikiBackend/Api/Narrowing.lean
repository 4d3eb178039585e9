import WikiBackend.Api.Isolation
import WikiBackend.Db.Domains
import WikiBackend.Users.Sequence

/-! A database with fewer accounts. What the statements of one user's requests do is the same on
both, as long as the rows of that user are. -/

namespace WikiBackend

open Effects

namespace Database

variable {db db' db₁ db₁' : Database} {id : Int} {u : UserRow} {hash : String}

structure Within (db db' : Database) : Prop where
  usersIdSeq : db.usersIdSeq ≤ db'.usersIdSeq
  sessionsId : db.sessions.map (·.id) ⊆ db'.sessions.map (·.id)
  sessionsTokenHash : db.sessions.map (·.tokenHash) ⊆ db'.sessions.map (·.tokenHash)
  spacesId : db.spaces.map (·.id) ⊆ db'.spaces.map (·.id)

theorem Within.trans (h : db.Within db') (h' : db'.Within db₁) : db.Within db₁ where
  usersIdSeq := h.usersIdSeq.trans h'.usersIdSeq
  sessionsId := List.Subset.trans h.sessionsId h'.sessionsId
  sessionsTokenHash := List.Subset.trans h.sessionsTokenHash h'.sessionsTokenHash
  spacesId := List.Subset.trans h.spacesId h'.spacesId

/-- The second database has the same account, and beside it nothing that the first one lacks. -/
structure Narrowed (id : Int) (db db' : Database) : Prop where
  account : db'.account id = db.account id
  within : db'.Within db

theorem account_congr (hu : db'.users = db.users) (hs : db'.sessions = db.sessions)
    (hm : db'.memberships = db.memberships) (hp : db'.spaces = db.spaces) :
    db'.account id = db.account id := by
  simp only [account, userById, hu, hs, hm, hp, isMember_congr hm]

namespace Narrowed

theorem userById (h : db.Narrowed id db') : db'.userById id = db.userById id :=
  congrArg Account.user h.account

theorem exists_user (h : db.Narrowed id db') (hu : db.userById id = some u) :
    ∃ v ∈ db'.users, v.id = id :=
  ⟨u, userById_eq_some.1 (h.userById.trans hu)⟩

theorem userByTelegramId (h : db.Narrowed id db') (hu : db.userById id = some u) :
    db'.userByTelegramId u.telegramId = some u := by
  obtain ⟨hmem, -⟩ := userById_eq_some.1 (h.userById.trans hu)
  exact userByTelegramId_eq_some.2 ⟨hmem, rfl⟩

theorem sessionByHash (h : db.Narrowed id db')
    (hown : ∀ r, db.sessionByHash hash = some r → r.userId = id) :
    db'.sessionByHash hash = db.sessionByHash hash := by
  cases hr : db.sessionByHash hash with
  | some r =>
    obtain ⟨hmem, hhash⟩ := sessionByHash_eq_some.1 hr
    have hacc : r ∈ (db'.account id).sessions := by
      rw [h.account]
      exact List.mem_filter.2 ⟨hmem, decide_eq_true (hown r hr)⟩
    exact sessionByHash_eq_some.2 ⟨(List.mem_filter.1 hacc).1, hhash⟩
  | none =>
    apply Keyed.lookup_eq_none.2
    intro r' hr' hhash
    obtain ⟨r, hmem, he⟩ := List.mem_map.1 (h.within.sessionsTokenHash (List.mem_map_of_mem hr'))
    exact Keyed.lookup_eq_none.1 hr r hmem (he.trans hhash)

theorem fresh_space (h : db.Narrowed id db') {spaceId : UUID}
    (hfresh : spaceId ∉ db.spaces.map (·.id)) : spaceId ∉ db'.spaces.map (·.id) :=
  fun hm => hfresh (h.within.spacesId hm)

theorem others (h : db.Narrowed id db') (hacc : db₁.account id = db.account id)
    (hw : db.Within db₁) : db₁.Narrowed id db' :=
  ⟨h.account.trans hacc.symm, h.within.trans hw⟩

end Narrowed

/-! ## The login of the user -/

theorem upsertUser_accepts {p : UpsertParams} {x : Option (UserRow × Bool)}
    (h : db.upsertUser p = (.ok x, db₁)) :
    p.bindable ∧ db.usersIdSeq < 2147483647 ∧ p.fits := by
  unfold upsertUser at h
  split at h
  · cases h
  · next hb =>
    split at h
    · cases h
    · next hs =>
      simp only at h
      split at h
      · cases h
      · next hf => exact ⟨by simpa using hb, Int.not_le.1 hs, by simpa using hf⟩

theorem upsertUser_found {p : UpsertParams} (hb : p.bindable) (hs : db.usersIdSeq < 2147483647)
    (hf : p.fits) (hu : db.userByTelegramId p.telegramId = some u) :
    db.upsertUser p = (.ok (some (p.updateRow u, false)), ⟨_, constraints_update db p⟩) := by
  have hu' : db.nextUserId.userByTelegramId p.telegramId = some u := hu
  rw [upsertUser, if_neg (by simp [hb]), if_neg (Int.not_le.2 hs)]
  simp only [hf, hu', Bool.not_true, Bool.false_eq_true, if_false]
  exact store_ok (constraints_update db p)

theorem account_update {p : UpsertParams} (hu : db.userById id = some u)
    (hp : p.telegramId = u.telegramId) :
    (⟨_, constraints_update db p⟩ : Database).account id =
      { db.account id with user := some (p.updateRow u) } := by
  have hmap : (⟨_, constraints_update db p⟩ : Database).userById id = (db.userById id).map
      fun u => if u.telegramId = p.telegramId then p.updateRow u else u := userById_update rfl
  have huser : (⟨_, constraints_update db p⟩ : Database).userById id = some (p.updateRow u) := by
    rw [hmap, hu, Option.map_some, if_pos hp.symm]
  rw [account, huser]
  rfl

theorem Narrowed.upsertUser {p : UpsertParams} {x : Option (UserRow × Bool)}
    (h : db.Narrowed id db') (hu : db.userById id = some u) (hp : p.telegramId = u.telegramId)
    (hx : db.upsertUser p = (.ok x, db₁)) :
    ∃ db₁', db'.upsertUser p = (.ok x, db₁') ∧ db₁.Narrowed id db₁' := by
  obtain ⟨hb, hs, hf⟩ := upsertUser_accepts hx
  obtain ⟨hmem, -⟩ := userById_eq_some.1 hu
  have hfound : db.userByTelegramId p.telegramId = some u :=
    userByTelegramId_eq_some.2 ⟨hmem, hp.symm⟩
  have hfound' : db'.userByTelegramId p.telegramId = some u := hp ▸ h.userByTelegramId hu
  rw [upsertUser_found hb hs hf hfound] at hx
  cases hx
  refine ⟨_, upsertUser_found hb (h.within.usersIdSeq.trans_lt hs) hf hfound', ?_, ?_⟩
  · rw [account_update (h.userById.trans hu) hp, account_update hu hp, h.account]
  · exact ⟨Int.add_le_add_right h.within.usersIdSeq 1, h.within.sessionsId,
      h.within.sessionsTokenHash, h.within.spacesId⟩

/-! ## The sessions of the user -/

theorem account_insertSession {r : SessionRow} (hr : r.userId = id)
    (hc : { db.toTables with sessions := db.sessions ++ [r] }.Constraints) :
    (⟨_, hc⟩ : Database).account id =
      { db.account id with sessions := (db.account id).sessions ++ [r] } := by
  have hs : ((db.sessions ++ [r]).filter fun r => r.userId = id) =
      (db.sessions.filter fun r => r.userId = id) ++ [r] := by
    rw [List.filter_append, List.filter_singleton, decide_eq_true hr]
    rfl
  rw [account, hs]
  rfl

theorem constraints_insertSession {r : SessionRow} :
    { db.toTables with sessions := db.sessions ++ [r] }.Constraints ↔
      r.id ∉ db.sessions.map (·.id) ∧ r.tokenHash ∉ db.sessions.map (·.tokenHash) ∧
        ∃ u ∈ db.users, u.id = r.userId := by
  have h := db.constraints
  constructor
  · intro hc
    exact ⟨(Keyed.nodup_map_concat.1 hc.sessionsId).1,
      (Keyed.nodup_map_concat.1 hc.sessionsTokenHash).1,
      hc.sessionsUserId r (List.mem_append_right _ (List.mem_singleton.2 rfl))⟩
  · rintro ⟨hid, hth, hu⟩
    refine { h with sessionsId := ?_, sessionsTokenHash := ?_, sessionsUserId := ?_ }
    · exact Keyed.nodup_map_concat.2 ⟨hid, h.sessionsId⟩
    · exact Keyed.nodup_map_concat.2 ⟨hth, h.sessionsTokenHash⟩
    · intro r' hr
      rcases List.mem_append.1 hr with hr | hr
      · exact h.sessionsUserId r' hr
      · rw [List.mem_singleton.1 hr]
        exact hu

theorem Narrowed.insertSession {now expires : Instant} {sessionId : UUID}
    {x : Option SessionRecord} (h : db.Narrowed id db') (hu : db.userById id = some u)
    (hx : db.insertSession now sessionId id hash expires = (.ok x, db₁)) :
    ∃ db₁', db'.insertSession now sessionId id hash expires = (.ok x, db₁') ∧
      db₁.Narrowed id db₁' := by
  obtain ⟨hx', ht⟩ := (insertSession_cases hx).resolve_left fun ⟨_, he, _⟩ => by cases he
  cases hx'
  obtain ⟨t₁, hc⟩ := db₁
  cases ht
  obtain ⟨hid, hth, -⟩ := constraints_insertSession.1 hc
  have hc' := constraints_insertSession.2 ⟨fun hm => hid (h.within.sessionsId hm),
    fun hm => hth (h.within.sessionsTokenHash hm), h.exists_user hu⟩
  have hfits : ¬(!bindable hash || !fits 64 hash) = true := by
    intro hb
    rw [Database.insertSession, if_pos hb] at hx
    cases hx
  refine ⟨⟨_, hc'⟩, ?_, ?_, ?_⟩
  · rw [Database.insertSession, if_neg hfits]
    exact store_ok hc'
  · rw [account_insertSession rfl hc', account_insertSession rfl hc, h.account]
  · exact ⟨h.within.usersIdSeq, Keyed.map_append_subset h.within.sessionsId,
      Keyed.map_append_subset h.within.sessionsTokenHash, h.within.spacesId⟩

structure KeepsKeys (f : SessionRow → SessionRow) : Prop where
  id : ∀ r, (f r).id = r.id
  userId : ∀ r, (f r).userId = r.userId
  tokenHash : ∀ r, (f r).tokenHash = r.tokenHash

theorem keepsKeys_setExpiry (expires now : Instant) : KeepsKeys (setExpiry expires now) :=
  ⟨fun _ => rfl, fun _ => rfl, fun _ => rfl⟩

theorem keepsKeys_setRevoked (now : Instant) : KeepsKeys (setRevoked now) :=
  ⟨fun _ => rfl, fun _ => rfl, fun _ => rfl⟩

section
variable {f : SessionRow → SessionRow} (hf : KeepsKeys f)
include hf

theorem constraints_modifySession (db : Database) (hash : String) :
    { db.toTables with
      sessions := Keyed.modify (·.tokenHash) hash f db.sessions }.Constraints := by
  have h := db.constraints
  have hid : (Keyed.modify (·.tokenHash) hash f db.sessions).map (·.id) =
      db.sessions.map (·.id) := Keyed.map_modify hf.id
  have hth : (Keyed.modify (·.tokenHash) hash f db.sessions).map (·.tokenHash) =
      db.sessions.map (·.tokenHash) := Keyed.map_modify hf.tokenHash
  refine { h with sessionsId := ?_, sessionsTokenHash := ?_, sessionsUserId := ?_ }
  · exact hid ▸ h.sessionsId
  · exact hth ▸ h.sessionsTokenHash
  · intro r hr
    obtain ⟨r', hr', rfl⟩ := Keyed.mem_modify.1 hr
    have hu : (if r'.tokenHash = hash then f r' else r').userId = r'.userId := by
      split
      · exact hf.userId r'
      · rfl
    exact hu ▸ h.sessionsUserId r' hr'

theorem account_modifySession :
    (⟨_, constraints_modifySession hf db hash⟩ : Database).account id = { db.account id with
      sessions := Keyed.modify (·.tokenHash) hash f (db.account id).sessions } := by
  have hs : ((Keyed.modify (·.tokenHash) hash f db.sessions).filter fun r => r.userId = id) =
      Keyed.modify (·.tokenHash) hash f (db.sessions.filter fun r => r.userId = id) :=
    Keyed.filter_modify_of_keeps fun r => by rw [hf.userId]
  rw [account, hs]
  rfl

theorem Narrowed.modifySession (h : db.Narrowed id db') (hash : String) :
    (⟨_, constraints_modifySession hf db hash⟩ : Database).Narrowed id
      ⟨_, constraints_modifySession hf db' hash⟩ := by
  refine ⟨?_, h.within.usersIdSeq, ?_, ?_, h.within.spacesId⟩
  · rw [account_modifySession hf, account_modifySession hf, h.account]
  · rw [Keyed.map_modify hf.id, Keyed.map_modify hf.id]
    exact h.within.sessionsId
  · rw [Keyed.map_modify hf.tokenHash, Keyed.map_modify hf.tokenHash]
    exact h.within.sessionsTokenHash

end

/-! ## The spaces of the user -/

theorem account_owned {space : SpaceRow}
    (hc : (db.withTx ⟨[space], [⟨id, space.id, "owner"⟩]⟩).Constraints) :
    (⟨_, hc⟩ : Database).account id = { db.account id with
      memberships := (db.account id).memberships ++ [⟨id, space.id, "owner"⟩]
      spaces := (db.account id).spaces ++ [space] } := by
  have hfresh : space.id ∉ db.spaces.map (·.id) := (Keyed.nodup_map_concat.1 hc.spacesId).1
  have hmember (s : SpaceRow) : (⟨_, hc⟩ : Database).isMember id s =
      (db.isMember id s || decide (space.id = s.id)) := by
    simp [isMember, Tables.withTx]
  have hold : db.spaces.filter ((⟨_, hc⟩ : Database).isMember id) =
      db.spaces.filter (db.isMember id) := by
    apply List.filter_congr
    intro s hs
    have hne : space.id ≠ s.id := fun he => hfresh (he ▸ List.mem_map_of_mem hs)
    rw [hmember, decide_eq_false hne, Bool.or_false]
  have hsp : (db.spaces ++ [space]).filter ((⟨_, hc⟩ : Database).isMember id) =
      db.spaces.filter (db.isMember id) ++ [space] := by
    rw [List.filter_append, hold, List.filter_singleton, hmember, decide_eq_true rfl, Bool.or_true]
    rfl
  have hm (m : MembershipRow) (hu : m.userId = id) :
      ((db.memberships ++ [m]).filter fun m => m.userId = id) =
        (db.memberships.filter fun m => m.userId = id) ++ [m] := by
    rw [List.filter_append, List.filter_singleton, decide_eq_true hu]
    rfl
  simp only [account, Tables.withTx, hm ⟨id, space.id, "owner"⟩ rfl]
  exact congrArg _ hsp

theorem Narrowed.owned {space : SpaceRow} (h : db.Narrowed id db')
    (hc : (db.withTx ⟨[space], [⟨id, space.id, "owner"⟩]⟩).Constraints)
    (hc' : (db'.withTx ⟨[space], [⟨id, space.id, "owner"⟩]⟩).Constraints) :
    (⟨_, hc⟩ : Database).Narrowed id ⟨_, hc'⟩ := by
  refine ⟨?_, h.within.usersIdSeq, h.within.sessionsId, h.within.sessionsTokenHash, ?_⟩
  · rw [account_owned hc', account_owned hc, h.account]
  · exact Keyed.map_append_subset h.within.spacesId

/-! ## The account alone -/

theorem constraints_account (db : Database) (id : Int) :
    { users := (db.account id).user.toList
      usersIdSeq := db.usersIdSeq
      sessions := (db.account id).sessions
      spaces := (db.account id).spaces
      memberships := (db.account id).memberships : Tables }.Constraints := by
  have h := db.constraints
  have huser {userId : Int} (he : userId = id) (hu : ∃ u ∈ db.users, u.id = userId) :
      ∃ u ∈ (db.userById id).toList, u.id = userId := by
    obtain ⟨u, hu, hid⟩ := hu
    exact ⟨u, Option.mem_toList.2 (userById_eq_some.2 ⟨hu, hid.trans he⟩), hid⟩
  have hone (key : UserRow → Int) : ((db.userById id).toList.map key).Nodup := by
    cases db.userById id with
    | none => exact List.nodup_nil
    | some u => exact List.nodup_singleton _
  refine ⟨hone _, hone _, ?_, ?_, ?_, ?_, ?_, ?_, ?_⟩
  · exact h.sessionsId.sublist (List.filter_sublist.map _)
  · exact h.sessionsTokenHash.sublist (List.filter_sublist.map _)
  · intro r hr
    obtain ⟨hr, hid⟩ := List.mem_filter.1 hr
    exact huser (of_decide_eq_true hid) (h.sessionsUserId r hr)
  · exact h.spacesId.sublist (List.filter_sublist.map _)
  · exact h.membershipsId.sublist (List.filter_sublist.map _)
  · intro m hm
    obtain ⟨hm, hid⟩ := List.mem_filter.1 hm
    exact huser (of_decide_eq_true hid) (h.membershipsUserId m hm)
  · intro m hm
    obtain ⟨hm, hid⟩ := List.mem_filter.1 hm
    obtain ⟨s, hs, hsid⟩ := h.membershipsSpaceId m hm
    have hmember : db.isMember id s = true :=
      List.any_eq_true.2 ⟨m, hm, decide_eq_true ⟨of_decide_eq_true hid, hsid.symm⟩⟩
    exact ⟨s, List.mem_filter.2 ⟨hs, hmember⟩, hsid⟩

def only (db : Database) (id : Int) : Database := ⟨_, constraints_account db id⟩

theorem narrowed_only (db : Database) (id : Int) : db.Narrowed id (db.only id) := by
  refine ⟨?_, ⟨Int.le_refl _, ?_, ?_, ?_⟩⟩
  · have huser : (db.only id).userById id = db.userById id := by
      refine Option.ext fun u => ?_
      have hmem : u ∈ (db.only id).users ↔ db.userById id = some u := Option.mem_toList
      rw [userById_eq_some, hmem, and_iff_left_iff_imp]
      exact fun hu => (userById_eq_some.1 hu).2
    have hmember : (db.only id).isMember id = db.isMember id := by
      funext space
      simp [isMember, only, account, List.any_filter]
    have hsp : (db.only id).spaces = db.spaces.filter (db.isMember id) := rfl
    rw [account, huser, hmember, hsp, List.filter_filter]
    simp [only, account]
  all_goals exact List.map_subset _ (List.filter_subset_self _)

end Database

end WikiBackend
