import WikiBackend.Sessions.Operations
import WikiBackend.Spaces.Transactions

/-! Every space has one owner: the user of the session that created it. -/

namespace WikiBackend.App

open Effects

variable {app : App} {w₀ : World} {ls l₁ l₂ : List (Label Eff Eff.Answer Request)}
  {c c' : Config Eff Eff.Answer World Request (Except Exc Response)} {i : Nat} {e : Eff}
  {a : e.Answer}

theorem spaces_of_step (h : app.system.Run (.init w₀) ls c)
    (hst : app.system.Step c (.did i e a) c') :
    (c'.world.db.spaces = c.world.db.spaces ∧
      c'.world.db.memberships = c.world.db.memberships) ∨
    ∃ body authorization s rec t user spaceId, (⟨e, a⟩ : Ev) = sqlEv .commit (.ok ()) ∧
      .started i (.createSpace body authorization) ∈ ls ∧
      extractBearerToken authorization = .ok s ∧ rec.Active t ∧ strip body.name ≠ "" ∧
      own i ls = [app.selectEv s rec, clockEv t, userEv rec user, sqlEv .begin (.ok ()),
        sqlEv (.insertSpace body.name) (.ok spaceId),
        sqlEv (.insertOwner user.id spaceId) (.ok ())] ∧
      c'.world.db.spaces = c.world.db.spaces ++ [⟨spaceId, body.name, none, none⟩] ∧
      c'.world.db.memberships = c.world.db.memberships ++ [⟨user.id, spaceId, "owner"⟩] := by
  have htx := txs_of_run h i
  have hss : SpacesStep c.world.db c'.world.db (c.world.txs i) ⟨e, a⟩ :=
    spacesStep_of_trans hst.trans
  generalize hev : (⟨e, a⟩ : Ev) = ev at hss
  cases hss with
  | kept hs hm => exact .inl ⟨hs, hm⟩
  | insertedSpace hnone _ _ =>
    cases hev
    obtain ⟨req, -, hx⟩ := executes_of_step h hst
    obtain ⟨s, rec, t, user, ho⟩ := hx.of_insertSpace
    rw [hnone, ho] at htx
    cases htx
  | insertedOwner hnone _ _ =>
    cases hev
    obtain ⟨req, -, hx⟩ := executes_of_step h hst
    obtain ⟨s, rec, t, user, name, ho⟩ := hx.of_insertOwner
    rw [hnone, ho] at htx
    cases htx
  | committed hrows hs hm =>
    cases hev
    obtain ⟨req, hreq, hx⟩ := executes_of_step h hst
    obtain ⟨body, authorization, s, rec, t, user, spaceId, rfl, hb, ha, hn, ho⟩ := hx.of_commit
    rw [hrows, ho] at htx
    cases htx
    have hstored : c'.world.db.spaces =
        c.world.db.spaces ++ [⟨spaceId, Relational.clip 255 body.name, none, none⟩] := hs
    rw [Relational.clip_of_length_le body.maxLength] at hstored
    exact .inr
      ⟨body, authorization, s, rec, t, user, spaceId, rfl, hreq, hb, ha, hn, ho, hstored, hm⟩

/-! ## Created spaces -/

/-- Request `i` created the space with this owner: it presented a session token whose row was
active when the request selected it and when it read the clock, and the owner is the row's user. -/
inductive CreatedBy (app : App) (w₀ : World) (ls : List (Label Eff Eff.Answer Request)) (i : Nat)
    (space : SpaceRow) (owner : MembershipRow) : Prop where
  | mk {body : SpaceCreateRequest} {authorization : Option String} {s : String}
      {l₁ l₂ : List (Label Eff Eff.Answer Request)}
      {c₁ : Config Eff Eff.Answer World Request (Except Exc Response)} {r : SessionRow}
      {t : Instant}
      (started : .started i (.createSpace body authorization) ∈ ls)
      (bearer : extractBearerToken authorization = .ok s)
      (selected : ls = l₁ ++
        .did i (.sql (.sessionByTokenHash (app.hashToken s))) (.ok (some r.toRecord)) :: l₂)
      (before : app.system.Run (.init w₀) l₁ c₁)
      (row : c₁.world.db.sessionByHash (app.hashToken s) = some r)
      (rowActive : r.toRecord.Active c₁.world.clock)
      (checked : .did i .clock t ∈ l₂)
      (active : r.toRecord.Active t)
      (ownerEq : owner = ⟨r.userId, space.id, "owner"⟩)
      (nameEq : space.name = body.name)
      (notBlank : strip body.name ≠ "") :
      CreatedBy app w₀ ls i space owner

namespace CreatedBy

variable {space : SpaceRow} {owner : MembershipRow}

theorem mono (h : CreatedBy app w₀ l₁ i space owner) :
    CreatedBy app w₀ (l₁ ++ l₂) i space owner := by
  cases h with
  | mk started bearer selected before row rowActive checked active ownerEq nameEq notBlank =>
    subst selected
    exact .mk (List.mem_append_left _ started) bearer (by rw [List.append_assoc, List.cons_append])
      before row rowActive (List.mem_append_left _ checked) active ownerEq nameEq notBlank

theorem name (h : CreatedBy app w₀ ls i space owner) :
    strip space.name ≠ "" ∧ space.name.length ≤ 255 := by
  cases h with
  | @mk body _ _ _ _ _ _ _ _ _ _ _ _ _ _ _ _ nameEq notBlank =>
    rw [nameEq]
    exact ⟨notBlank, body.maxLength⟩

theorem owner_of (h : CreatedBy app w₀ ls i space owner) :
    owner.spaceId = space.id ∧ owner.role = "owner" := by
  cases h with
  | mk _ _ _ _ _ _ _ _ ownerEq _ _ =>
    rw [ownerEq]
    exact ⟨rfl, rfl⟩

end CreatedBy

theorem createdBy_of_own {body : SpaceCreateRequest} {authorization : Option String} {s : String}
    {rec : SessionRecord} {t : Instant} {user : UserRow} {spaceId : UUID} {evs : List Ev}
    (h : app.system.Run (.init w₀) ls c) (hreq : .started i (.createSpace body authorization) ∈ ls)
    (hb : extractBearerToken authorization = .ok s) (ha : rec.Active t) (hn : strip body.name ≠ "")
    (ho : own i ls = app.selectEv s rec :: clockEv t :: userEv rec user :: evs) :
    CreatedBy app w₀ ls i ⟨spaceId, body.name, none, none⟩ ⟨user.id, spaceId, "owner"⟩ := by
  obtain ⟨l₁, l₂, rfl, -, ho₂⟩ := own_eq_append_cons [] ho
  have hchecked : .did i .clock t ∈ l₂ := mem_own.1 (ho₂ ▸ List.mem_cons_self)
  obtain ⟨l₃, l₄, rfl, -, ho₄⟩ := own_eq_append_cons [] ho₂
  obtain ⟨l₅, l₆, rfl, -, -⟩ := own_eq_append_cons [] ho₄
  obtain ⟨c₁, c₂, h₁, hsel, h₂⟩ := h.split
  obtain ⟨c₃, c₄, h₃, hclk, h₄⟩ := h₂.split
  obtain ⟨c₅, c₆, -, husr, -⟩ := h₄.split
  obtain ⟨hrec, hw⟩ := trans_sessionByTokenHash hsel.trans
  obtain ⟨r, hr, rfl⟩ := Option.map_eq_some_iff.1 hrec.symm
  have hclock : c₁.world.clock ≤ t := by
    rw [← hw]
    exact Int.le_trans (evolves_of_run h₃).clock (trans_clock.1 hclk.trans).1
  have hid : user.id = r.userId :=
    (Database.userById_eq_some.1 (trans_userById husr.trans).1.symm).2
  exact .mk hreq hb rfl h₁ hr (ha.mono hclock) hchecked ha (by rw [hid]) rfl hn

theorem created_of_run (h : app.system.Run (.init w₀) ls c) (hs : w₀.db.spaces = [])
    (hm : w₀.db.memberships = []) :
    ∃ ps : List (SpaceRow × MembershipRow), c.world.db.spaces = ps.map Prod.fst ∧
      c.world.db.memberships = ps.map Prod.snd ∧ ∀ p ∈ ps, ∃ i, CreatedBy app w₀ ls i p.1 p.2 := by
  induction h with
  | nil => exact ⟨[], hs, hm, by simp⟩
  | @snoc c c' ls l h hst ih =>
    obtain ⟨ps, hsp, hmem, hps⟩ := ih
    have old : ∀ p ∈ ps, ∃ i, CreatedBy app w₀ (ls ++ [l]) i p.1 p.2 := by
      intro p hp
      obtain ⟨i, hcr⟩ := hps p hp
      exact ⟨i, hcr.mono⟩
    cases l with
    | started j req =>
      cases hst
      exact ⟨ps, hsp, hmem, old⟩
    | did i e a =>
      rcases spaces_of_step h hst with ⟨hs', hm'⟩ |
        ⟨body, authorization, s, rec, t, user, spaceId, -, hreq, hb, ha, hn, ho, hs', hm'⟩
      · exact ⟨ps, hs'.trans hsp, hm'.trans hmem, old⟩
      refine ⟨ps ++ [(⟨spaceId, body.name, none, none⟩, ⟨user.id, spaceId, "owner"⟩)], ?_, ?_, ?_⟩
      · rw [hs', hsp, List.map_append]
        rfl
      · rw [hm', hmem, List.map_append]
        rfl
      · intro p hp
        rcases List.mem_append.1 hp with hp | hp
        · exact old p hp
        cases List.mem_singleton.1 hp
        exact ⟨i, (createdBy_of_own h hreq hb ha hn ho).mono⟩

theorem filter_owner {ps : List (SpaceRow × MembershipRow)} {p : SpaceRow × MembershipRow}
    (hn : ((ps.map Prod.fst).map (·.id)).Nodup) (hp : p ∈ ps)
    (how : ∀ p ∈ ps, p.2.spaceId = p.1.id ∧ p.2.role = "owner") :
    ((ps.map Prod.snd).filter fun m => m.spaceId = p.1.id ∧ m.role = "owner") = [p.2] := by
  have hmap : (ps.map Prod.snd).map (·.spaceId) = (ps.map Prod.fst).map (·.id) := by
    rw [List.map_map, List.map_map]
    apply List.map_congr_left
    intro q hq
    exact (how q hq).1
  have hrole : ((ps.map Prod.snd).filter fun m => m.spaceId = p.1.id ∧ m.role = "owner") =
      (ps.map Prod.snd).filter fun m => m.spaceId = p.1.id := by
    apply List.filter_congr
    intro m hm
    obtain ⟨q, hq, rfl⟩ := List.mem_map.1 hm
    simp only [(how q hq).2, and_true]
  have hn' : ((ps.map Prod.snd).map (·.spaceId)).Nodup := by rwa [hmap]
  rw [hrole, Keyed.filter_eq_lookup hn', ← (how p hp).1,
    Keyed.lookup_of_mem hn' (List.mem_map_of_mem hp)]
  rfl

theorem finishes_createSpace {body : SpaceCreateRequest} {authorization : Option String} {s : String}
    {rec : SessionRecord} {t : Instant} (user : UserRow) (spaceId : UUID)
    (hb : extractBearerToken authorization = .ok s) (ha : rec.Active t)
    (hn : strip body.name ≠ "") :
    Finishes (app.handler (.createSpace body authorization)).run
      [app.selectEv s rec, clockEv t, userEv rec user, sqlEv .begin (.ok ()),
        sqlEv (.insertSpace body.name) (.ok spaceId), sqlEv (.insertOwner user.id spaceId) (.ok ()),
        sqlEv .commit (.ok ())] (.ok (.spaceCreate spaceId)) := by
  have htx : Finishes (SpaceService.createSpace body.name user.id).run
      [sqlEv .begin (.ok ()), sqlEv (.insertSpace body.name) (.ok spaceId),
        sqlEv (.insertOwner user.id spaceId) (.ok ()), sqlEv .commit (.ok ())] (.ok spaceId) := by
    refine finishes_sql_andThen.2 (.inr ⟨(), _, rfl, finishes_andThen.2 (.inr ?_)⟩)
    refine ⟨[_, _], spaceId, [_], rfl, finishes_tryCatch.2 (.inl ⟨spaceId, ?_, rfl⟩), ?_⟩
    · exact finishes_spaceInserts.2 rfl
    · exact finishes_sql_andThen.2 (.inr ⟨(), [], rfl, finishes_pure.2 ⟨rfl, rfl⟩⟩)
  refine finishes_ofExcept_andThen.2 (.inr ⟨s, hb, finishes_andThen.2 (.inr ?_)⟩)
  refine ⟨[_, _, _], _, _, rfl, finishes_getSession_ok.2 ⟨rec, t, user, ha, rfl, rfl⟩, ?_⟩
  simp only [hn, if_false]
  exact finishes_andThen_pure.2 ⟨_, htx, rfl⟩

theorem spaces_of_error {body : SpaceCreateRequest} {authorization : Option String} {err : Exc}
    (hreq : .started i (.createSpace body authorization) ∈ l₁ ++ .did i e a :: l₂)
    {c₁ c₂ : Config Eff Eff.Answer World Request (Except Exc Response)}
    (h₁ : app.system.Run (.init w₀) l₁ c₁) (hst : app.system.Step c₁ (.did i e a) c₂)
    (h₂ : app.system.Run c₂ l₂ c) (hret : c.Returned i (.error err)) :
    c₂.world.db.spaces = c₁.world.db.spaces ∧
      c₂.world.db.memberships = c₁.world.db.memberships := by
  refine (spaces_of_step h₁ hst).resolve_right ?_
  rintro ⟨body', authorization', s, rec, t, user, spaceId, hev, hreq', hb, ha, hn, ho, -, -⟩
  cases hev
  have h := h₁.append (hst.single.append h₂)
  obtain ⟨req, hm, hf⟩ := h.returned hret
  obtain rfl := h.started_unique hm (List.mem_append_left _ hreq')
  have hok : Finishes (app.handler (.createSpace body' authorization')).run _ _ :=
    finishes_createSpace user spaceId hb ha hn
  -- the path up to the commit is a full path, so the request returned its space
  rw [List.singleton_append, own_append, ho, own, if_pos rfl] at hf
  cases (hok.unique hf).2

/-- In every state that concurrent requests can reach, whatever statements fail, each space has
one owner, the user of the session that created it; names are neither blank nor too long; and a
request for a new space that ends in an error leaves both tables as they are. -/
theorem space_ownership (h : app.system.Run (.init w₀) ls c) (hs : w₀.db.spaces = [])
    (hm : w₀.db.memberships = []) :
    (∀ space ∈ c.world.db.spaces, strip space.name ≠ "" ∧ space.name.length ≤ 255 ∧
      ∃ owner i, (c.world.db.memberships.filter
        fun m => m.spaceId = space.id ∧ m.role = "owner") = [owner] ∧
        CreatedBy app w₀ ls i space owner) ∧
    (∀ m ∈ c.world.db.memberships, (∃ space ∈ c.world.db.spaces, space.id = m.spaceId) ∧
      ∃ user ∈ c.world.db.users, user.id = m.userId) ∧
    ∀ {i body authorization err}, .started i (.createSpace body authorization) ∈ ls →
      c.Returned i (.error err) →
      ∀ {l₁ l₂ e a c₁ c₂}, ls = l₁ ++ .did i e a :: l₂ → app.system.Run (.init w₀) l₁ c₁ →
        app.system.Step c₁ (.did i e a) c₂ → app.system.Run c₂ l₂ c →
        c₂.world.db.spaces = c₁.world.db.spaces ∧
          c₂.world.db.memberships = c₁.world.db.memberships := by
  obtain ⟨ps, hsp, hmem, hps⟩ := created_of_run h hs hm
  have how : ∀ p ∈ ps, p.2.spaceId = p.1.id ∧ p.2.role = "owner" := by
    intro p hp
    obtain ⟨i, hcr⟩ := hps p hp
    exact hcr.owner_of
  have hnodup : ((ps.map Prod.fst).map (·.id)).Nodup := by
    rw [← hsp]
    exact c.world.db.constraints.spacesId
  refine ⟨?_, ?_, ?_⟩
  · intro space hspace
    rw [hsp] at hspace
    obtain ⟨p, hp, rfl⟩ := List.mem_map.1 hspace
    obtain ⟨i, hcr⟩ := hps p hp
    have howner : (c.world.db.memberships.filter
        fun m => m.spaceId = p.1.id ∧ m.role = "owner") = [p.2] := by
      rw [hmem]
      exact filter_owner hnodup hp how
    exact ⟨hcr.name.1, hcr.name.2, p.2, i, howner, hcr⟩
  · intro m hm
    exact ⟨c.world.db.constraints.membershipsSpaceId m hm,
      c.world.db.constraints.membershipsUserId m hm⟩
  · rintro i body authorization err hreq hret l₁ l₂ e a c₁ c₂ rfl h₁ hst h₂
    exact spaces_of_error hreq h₁ hst h₂ hret

end WikiBackend.App

namespace WikiBackend.Recorded

open Effects

def spaceRun : List (Label Eff Eff.Answer Request) :=
  [.started 0 (.createSpace ⟨"Notes", by decide, by decide⟩ authorization),
    .did 0 (.sql (.sessionByTokenHash sessionHash)) (.ok (some sessionRecord)),
    .did 0 .clock loginAt, .did 0 (.sql (.userById 1)) (.ok (some userRow)),
    .did 0 (.sql .begin) (.ok ()), .did 0 (.sql (.insertSpace "Notes")) (.ok 5),
    .did 0 (.sql (.insertOwner 1 5)) (.ok ()), .did 0 (.sql .commit) (.ok ())]

theorem space_ownership_notes :
    ∃ c, recordedApp.system.Run (.init sessionWorld) spaceRun c ∧
      ∃ space ∈ c.world.db.spaces, ∃ owner i, (c.world.db.memberships.filter
        fun m => m.spaceId = space.id ∧ m.role = "owner") = [owner] ∧
        App.CreatedBy recordedApp sessionWorld spaceRun i space owner := by
  obtain ⟨c, hrun, hspaces⟩ : ∃ c, recordedApp.system.Run (.init sessionWorld) spaceRun c ∧
      decide (c.world.db.spaces = [⟨5, "Notes", none, none⟩]) :=
    System.exists_run choiceFor _ (by decide +kernel)
  have hmem : ⟨5, "Notes", none, none⟩ ∈ c.world.db.spaces := by
    rw [of_decide_eq_true hspaces]
    exact List.mem_cons_self
  exact ⟨c, hrun, _, hmem, ((App.space_ownership hrun rfl rfl).1 _ hmem).2.2⟩

end WikiBackend.Recorded
