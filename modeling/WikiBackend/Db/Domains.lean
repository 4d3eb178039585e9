import WikiBackend.Db.Laws

/-! Which writes of the application the server takes: those whose parameters lie in the domains
of their columns. -/

namespace WikiBackend

/-! ## Users -/

def Database.IdsGiven (db : Database) : Prop := ∀ u ∈ db.users, u.id ≤ db.usersIdSeq

namespace Database

variable {db : Database} {p : UpsertParams}

theorem exists_modify {k : Int} {f : UserRow → UserRow} {id : Int} (hf : ∀ r, (f r).id = r.id)
    (h : ∃ u ∈ db.users, u.id = id) :
    ∃ u ∈ Keyed.modify (·.telegramId) k f db.users, u.id = id := by
  obtain ⟨u, hu, rfl⟩ := h
  have hid : u.id ∈ (Keyed.modify (·.telegramId) k f db.users).map (·.id) := by
    rw [Keyed.map_modify hf]
    exact List.mem_map_of_mem hu
  exact List.mem_map.1 hid

theorem constraints_update (db : Database) (p : UpsertParams) :
    { db.nextUserId.toTables with
      users := Keyed.modify (·.telegramId) p.telegramId p.updateRow db.users }.Constraints := by
  have h := db.constraints
  refine ⟨?_, ?_, h.sessionsId, h.sessionsTokenHash, ?_, h.spacesId, h.membershipsId, ?_,
    h.membershipsSpaceId⟩
  · have hid : (Keyed.modify (·.telegramId) p.telegramId p.updateRow db.users).map (·.id) =
        db.users.map (·.id) := Keyed.map_modify fun _ => rfl
    exact hid ▸ h.usersId
  · have htg : (Keyed.modify (·.telegramId) p.telegramId p.updateRow db.users).map (·.telegramId) =
        db.users.map (·.telegramId) := Keyed.map_modify fun _ => rfl
    exact htg ▸ h.usersTelegramId
  · intro r hr
    exact exists_modify (fun _ => rfl) (h.sessionsUserId r hr)
  · intro m hm
    exact exists_modify (fun _ => rfl) (h.membershipsUserId m hm)

theorem constraints_insert (hids : db.IdsGiven) (hn : db.userByTelegramId p.telegramId = none) :
    { db.nextUserId.toTables with
      users := db.users ++ [p.insertRow (db.usersIdSeq + 1)] }.Constraints := by
  have h := db.constraints
  refine ⟨?_, ?_, h.sessionsId, h.sessionsTokenHash, ?_, h.spacesId, h.membershipsId, ?_,
    h.membershipsSpaceId⟩
  · rw [List.map_append, List.map_singleton, List.nodup_append]
    refine ⟨h.usersId, List.nodup_singleton _, ?_⟩
    intro id hid id' hid'
    obtain ⟨u, hu, rfl⟩ := List.mem_map.1 hid
    rw [List.mem_singleton.1 hid']
    have hle := hids u hu
    simp only [UpsertParams.insertRow]
    omega
  · rw [List.map_append, List.map_singleton, List.nodup_append]
    refine ⟨h.usersTelegramId, List.nodup_singleton _, ?_⟩
    intro t ht t' ht'
    obtain ⟨u, hu, rfl⟩ := List.mem_map.1 ht
    rw [List.mem_singleton.1 ht']
    exact Keyed.lookup_eq_none.1 hn u hu
  · intro r hr
    obtain ⟨u, hu, hid⟩ := h.sessionsUserId r hr
    exact ⟨u, List.mem_append_left _ hu, hid⟩
  · intro m hm
    obtain ⟨u, hu, hid⟩ := h.membershipsUserId m hm
    exact ⟨u, List.mem_append_left _ hu, hid⟩

theorem upsertUser_ok_iff (hids : db.IdsGiven) (hseq : db.usersIdSeq < 2147483647) :
    (∃ row, (db.upsertUser p).1 = .ok (some row)) ↔ p.bindable ∧ p.fits := by
  unfold upsertUser
  by_cases hb : p.bindable
  · rw [if_neg (by simp [hb]), if_neg (Int.not_le.2 hseq)]
    by_cases hf : p.fits
    · simp only [hb, hf, Bool.not_true, Bool.false_eq_true, if_false, and_self, iff_true]
      split
      · rename_i r hr
        have hc := constraints_update db p
        exact ⟨_, congrArg Prod.fst (store_ok hc)⟩
      · rename_i hn
        have hc := constraints_insert hids hn
        exact ⟨_, congrArg Prod.fst (store_ok hc)⟩
    · rw [if_pos (by simp [hf])]
      refine iff_of_false ?_ fun h => hf h.2
      rintro ⟨_, h⟩
      cases h
  · rw [if_pos (by simp [hb])]
    refine iff_of_false ?_ fun h => hb h.1
    rintro ⟨_, h⟩
    cases h

/-! ## Sessions -/

theorem updateExpiry_ok (db : Database) (tokenHash : String) (expiresAt now : Instant) :
    (db.updateExpiry tokenHash expiresAt now).1 =
      .ok ((db.sessionByHash tokenHash).map fun r => (setExpiry expiresAt now r).toRecord) := by
  have h := db.constraints
  have hid : (Keyed.modify (·.tokenHash) tokenHash (setExpiry expiresAt now) db.sessions).map (·.id) =
      db.sessions.map (·.id) := Keyed.map_modify fun _ => rfl
  have hth : (Keyed.modify (·.tokenHash) tokenHash (setExpiry expiresAt now) db.sessions).map
      (·.tokenHash) = db.sessions.map (·.tokenHash) := Keyed.map_modify fun _ => rfl
  have hc : { db.toTables with
      sessions := Keyed.modify (·.tokenHash) tokenHash (setExpiry expiresAt now)
        db.sessions }.Constraints := by
    refine ⟨h.usersId, h.usersTelegramId, hid ▸ h.sessionsId, hth ▸ h.sessionsTokenHash, ?_,
      h.spacesId, h.membershipsId, h.membershipsUserId, h.membershipsSpaceId⟩
    intro r hr
    obtain ⟨r', hr', rfl⟩ := Keyed.mem_modify.1 hr
    have hu : (if r'.tokenHash = tokenHash then setExpiry expiresAt now r' else r').userId =
        r'.userId := by
      split <;> rfl
    exact hu ▸ h.sessionsUserId r' hr'
  exact congrArg Prod.fst (store_ok hc)

/-! ## Spaces -/

theorem constraints_withTx {id : UUID} {name : String} {ms : List MembershipRow}
    (hid : id ∉ db.spaces.map (·.id)) (hms : (ms.map fun m => (m.userId, m.spaceId)).Nodup)
    (hown : ∀ m ∈ ms, m.spaceId = id ∧ ∃ u ∈ db.users, u.id = m.userId) :
    (db.withTx ⟨[⟨id, name, none, none⟩], ms⟩).Constraints := by
  have h := db.constraints
  refine ⟨h.usersId, h.usersTelegramId, h.sessionsId, h.sessionsTokenHash, h.sessionsUserId, ?_, ?_,
    ?_, ?_⟩
  · have hn : (db.spaces.map (·.id) ++ [id]).Nodup := by
      rw [List.nodup_append]
      refine ⟨h.spacesId, List.nodup_singleton _, ?_⟩
      intro a ha b hb he
      rw [List.mem_singleton.1 hb] at he
      exact hid (he ▸ ha)
    simpa only [Tables.withTx, List.map_append, List.map_singleton] using hn
  · simp only [Tables.withTx, List.map_append]
    rw [List.nodup_append]
    refine ⟨h.membershipsId, hms, ?_⟩
    intro a ha b hb he
    obtain ⟨m, hm, rfl⟩ := List.mem_map.1 ha
    obtain ⟨m', hm', rfl⟩ := List.mem_map.1 hb
    obtain ⟨s, hs, hsid⟩ := h.membershipsSpaceId m hm
    have hspace : s.id = id :=
      hsid.trans ((congrArg Prod.snd he).trans (hown m' hm').1)
    exact hid (hspace ▸ List.mem_map_of_mem hs)
  · intro m hm
    rcases List.mem_append.1 hm with hm | hm
    · exact h.membershipsUserId m hm
    · exact (hown m hm).2
  · intro m hm
    rcases List.mem_append.1 hm with hm | hm
    · obtain ⟨s, hs, hsid⟩ := h.membershipsSpaceId m hm
      exact ⟨s, List.mem_append_left _ hs, hsid⟩
    · exact ⟨_, List.mem_append_right _ (List.mem_singleton.2 rfl), (hown m hm).1.symm⟩

theorem constraints_owned {id : UUID} {name : String} {ownerId : Int}
    (hid : id ∉ db.spaces.map (·.id)) (hown : ∃ u ∈ db.users, u.id = ownerId) :
    (db.withTx ⟨[⟨id, name, none, none⟩], [⟨ownerId, id, "owner"⟩]⟩).Constraints := by
  refine constraints_withTx hid (List.nodup_singleton _) ?_
  intro m hm
  rw [List.mem_singleton.1 hm]
  exact ⟨rfl, hown⟩

end Database

end WikiBackend
