import WikiBackend.Api.Successes
import WikiBackend.Spaces.Ownership

/-! The ledger of created spaces: each answered creation has one row of its own, and there are
no other new rows. -/

namespace WikiBackend

open Effects

structure Creation where
  request : Nat
  space : SpaceRow
  owner : MembershipRow

def committer? : Label Eff Eff.Answer Request → Option Nat
  | .did i (.sql .commit) (.ok _) => some i
  | _ => none

theorem commit_of_committer {i j : Nat} {e : Eff} {a : e.Answer}
    (h : committer? (.did i e a) = some j) : i = j ∧ (⟨e, a⟩ : Ev) = sqlEv .commit (.ok ()) := by
  unfold committer? at h
  split at h
  · next hl =>
    cases hl
    cases h
    exact ⟨rfl, rfl⟩
  · cases h

theorem mem_committers {ls : List (Label Eff Eff.Answer Request)} {i : Nat} :
    i ∈ ls.filterMap committer? ↔ .did i (.sql .commit) (.ok ()) ∈ ls := by
  rw [List.mem_filterMap]
  constructor
  · rintro ⟨l, hm, hl⟩
    unfold committer? at hl
    split at hl
    · cases hl
      exact hm
    · cases hl
  · intro hm
    exact ⟨_, hm, rfl⟩

namespace App

variable {app : App} {w₀ : World} {ls l₁ l₂ : List (Label Eff Eff.Answer Request)}
  {c c' : Config Eff Eff.Answer World Request (Except Exc Response)} {i : Nat} {p : Creation}
  {evs : List Ev}

/-- The request `p.request` has gone the whole way to its commit, with the rows of `p`. -/
inductive Made (app : App) (ls : List (Label Eff Eff.Answer Request)) : Creation → Prop where
  | mk {body : SpaceCreateRequest} {authorization : Option String} {s : String}
      {rec : SessionRecord} {t : Instant} {user : UserRow} {spaceId : UUID} {i : Nat}
      {l₁ l₂ : List (Label Eff Eff.Answer Request)} :
      .started i (.createSpace body authorization) ∈ ls → extractBearerToken authorization = .ok s →
      rec.Active t → strip body.name ≠ "" → ls = l₁ ++ l₂ →
      own i l₁ = [app.selectEv s rec, clockEv t, userEv rec user, sqlEv .begin (.ok ()),
        sqlEv (.insertSpace body.name) (.ok spaceId),
        sqlEv (.insertOwner user.id spaceId) (.ok ()), sqlEv .commit (.ok ())] →
      Made app ls ⟨i, ⟨spaceId, body.name, none, none⟩, ⟨user.id, spaceId, "owner"⟩⟩

theorem Made.mono (h : app.Made l₁ p) : app.Made (l₁ ++ l₂) p := by
  cases h with
  | mk hm hs ha hn hls ho =>
    subst hls
    exact .mk (List.mem_append_left _ hm) hs ha hn (List.append_assoc ..) ho

theorem Made.returned (h : app.Made ls p) (hr : app.system.Run (.init w₀) ls c) :
    c.Returned p.request (.ok (.spaceCreate p.space.id)) := by
  cases h with
  | @mk body authorization s rec t user spaceId i l₁ l₂ hm hs ha hn hls ho =>
    obtain ⟨q, hq⟩ := hr.procs_of_mem hm
    have hf := (hr.follows hq).2
    have hdone : Finishes (app.handler (.createSpace body authorization)).run _ _ :=
      finishes_createSpace user spaceId hs ha hn
    rw [hls, own_append, ho, follows_append] at hf
    obtain ⟨m, h₁, h₂⟩ := hf
    obtain rfl := Follows.unique h₁ hdone
    generalize own i l₂ = evs at h₂
    cases h₂
    exact ⟨_, hq⟩

theorem spaces_of_commit (h : app.system.Run (.init w₀) ls c)
    (hst : app.system.Step c (.did i (.sql .commit) (.ok ())) c') :
    ∃ p, p.request = i ∧ app.Made (ls ++ [.did i (.sql .commit) (.ok ())]) p ∧
      .did i (.sql .commit) (.ok ()) ∉ ls ∧
      c'.world.db.spaces = c.world.db.spaces ++ [p.space] ∧
      c'.world.db.memberships = c.world.db.memberships ++ [p.owner] := by
  obtain ⟨req, hreq, hx⟩ := executes_of_step h hst
  obtain ⟨body, authorization, s, rec, t, user, spaceId, rfl, hs, ha, hn, ho⟩ := hx.of_commit
  refine ⟨⟨i, ⟨spaceId, body.name, none, none⟩, ⟨user.id, spaceId, "owner"⟩⟩, rfl, ?_, ?_, ?_⟩
  · refine .mk (List.mem_append_left _ hreq) hs ha hn (List.append_nil _).symm ?_
    rw [own_append, ho, own, if_pos rfl]
    rfl
  · intro hm
    have hmem := mem_own.2 hm
    rw [ho] at hmem
    simp at hmem
  · have htx := txs_of_run h i
    rw [ho] at htx
    rcases trans_sql.1 hst.trans with ⟨_, hx⟩ | ⟨_, hx, -⟩
    · rcases World.commit_cases hx with ⟨hnone, -, -⟩ | ⟨tx, hsome, -, ⟨-, hdb⟩ | ⟨_, hx, -⟩⟩
      · rw [hnone] at htx
        cases htx
      · rw [hsome] at htx
        cases htx
        have hstored : c'.world.db.spaces =
            c.world.db.spaces ++ [⟨spaceId, Relational.clip 255 body.name, none, none⟩] :=
          congrArg Tables.spaces hdb
        rw [Relational.clip_of_length_le body.maxLength] at hstored
        exact ⟨hstored, congrArg Tables.memberships hdb⟩
      · cases hx
    · cases hx

theorem spaces_of_other {e : Eff} {a : e.Answer} (h : app.system.Run (.init w₀) ls c)
    (hst : app.system.Step c (.did i e a) c') (hl : committer? (.did i e a) = none) :
    c'.world.db.spaces = c.world.db.spaces ∧ c'.world.db.memberships = c.world.db.memberships := by
  refine (spaces_of_step h hst).resolve_right ?_
  rintro ⟨_, _, _, _, _, _, _, hev, -⟩
  cases hev
  cases hl

/-- The tables hold what they held before and the rows of the ledger, which has one entry for each
commit of the record. -/
structure Ledger (app : App) (w₀ : World) (ls : List (Label Eff Eff.Answer Request)) (w : World)
    (ps : List Creation) : Prop where
  spaces : w.db.spaces = w₀.db.spaces ++ ps.map (·.space)
  memberships : w.db.memberships = w₀.db.memberships ++ ps.map (·.owner)
  requests : ps.map (·.request) = ls.filterMap committer?
  once : (ps.map (·.request)).Nodup
  made : ∀ p ∈ ps, app.Made ls p

section
variable {w w' : World} {ps : List Creation} {l : Label Eff Eff.Answer Request}

theorem Ledger.keep (h : app.Ledger w₀ ls w ps) (hl : committer? l = none)
    (hs : w'.db.spaces = w.db.spaces) (hm : w'.db.memberships = w.db.memberships) :
    app.Ledger w₀ (ls ++ [l]) w' ps where
  spaces := hs.trans h.spaces
  memberships := hm.trans h.memberships
  requests := by
    rw [List.filterMap_append, ← h.requests]
    simp [hl]
  once := h.once
  made q hq := (h.made q hq).mono

theorem Ledger.concat (h : app.Ledger w₀ ls w ps) (hl : committer? l = some p.request)
    (hmade : app.Made (ls ++ [l]) p) (hnew : .did p.request (.sql .commit) (.ok ()) ∉ ls)
    (hs : w'.db.spaces = w.db.spaces ++ [p.space])
    (hm : w'.db.memberships = w.db.memberships ++ [p.owner]) :
    app.Ledger w₀ (ls ++ [l]) w' (ps ++ [p]) where
  spaces := by
    rw [hs, h.spaces, List.map_append, List.append_assoc]
    rfl
  memberships := by
    rw [hm, h.memberships, List.map_append, List.append_assoc]
    rfl
  requests := by
    rw [List.map_append, List.filterMap_append, h.requests]
    simp [hl]
  once := by
    rw [List.map_append, List.nodup_append]
    refine ⟨h.once, by simp, ?_⟩
    intro j hj k hk
    cases List.mem_singleton.1 hk
    rintro rfl
    rw [h.requests] at hj
    exact hnew (mem_committers.1 hj)
  made q hq := by
    rcases List.mem_append.1 hq with hq | hq
    · exact (h.made q hq).mono
    · cases List.mem_singleton.1 hq
      exact hmade

end

theorem ledger_of_run (h : app.system.Run (.init w₀) ls c) :
    ∃ ps, app.Ledger w₀ ls c.world ps := by
  induction h with
  | nil => exact ⟨[], by simp [Config.init], by simp [Config.init], rfl, .nil, by simp⟩
  | @snoc c c' ls l h hst ih =>
    obtain ⟨ps, ih⟩ := ih
    cases l with
    | started j req =>
      cases hst
      exact ⟨ps, ih.keep rfl rfl rfl⟩
    | did i e a =>
      cases hl : committer? (Label.did i e a) with
      | none =>
        obtain ⟨hs, hm⟩ := spaces_of_other h hst hl
        exact ⟨ps, ih.keep hl hs hm⟩
      | some j =>
        obtain ⟨rfl, hev⟩ := commit_of_committer hl
        cases hev
        obtain ⟨p, rfl, hmade, hnew, hs, hm⟩ := spaces_of_commit h hst
        exact ⟨ps ++ [p], ih.concat rfl hmade hnew hs hm⟩

theorem Ledger.of_returned {ps : List Creation} {id : UUID} (hl : app.Ledger w₀ ls c.world ps)
    (h : app.system.Run (.init w₀) ls c) (hret : c.Returned i (.ok (.spaceCreate id))) :
    ∃ p ∈ ps, p.request = i ∧ p.space.id = id := by
  obtain ⟨req, -, hf⟩ := h.returned hret
  have hsuc := succeeds_of_finishes hf
  generalize ho : own i ls = evs at hsuc
  cases hsuc with
  | createSpace =>
    have hm : .did i (.sql .commit) (.ok ()) ∈ ls := mem_own.1 (by simp [ho])
    have hi : i ∈ ps.map (·.request) := hl.requests ▸ mem_committers.2 hm
    obtain ⟨p, hp, rfl⟩ := List.mem_map.1 hi
    refine ⟨p, hp, rfl, ?_⟩
    obtain ⟨req, hq⟩ := (hl.made p hp).returned h
    obtain ⟨req', hq'⟩ := hret
    cases hq.symm.trans hq'
    rfl

/-- Creations happen exactly once: the new rows of spaces and of memberships are those of the
executed commits, in their order, and each commit is of another request; a request answers with
the id of a space exactly if it has an entry with this id; and no two requests answer with one
id. -/
theorem space_ledger (h : app.system.Run (.init w₀) ls c) :
    ∃ ps, app.Ledger w₀ ls c.world ps ∧
      (∀ i id, c.Returned i (.ok (.spaceCreate id)) ↔ ∃ p ∈ ps, p.request = i ∧ p.space.id = id) ∧
      ∀ i j id, c.Returned i (.ok (.spaceCreate id)) → c.Returned j (.ok (.spaceCreate id)) →
        i = j := by
  obtain ⟨ps, hl⟩ := ledger_of_run h
  refine ⟨ps, hl, fun i id => ⟨hl.of_returned h, ?_⟩, ?_⟩
  · rintro ⟨p, hp, rfl, rfl⟩
    exact (hl.made p hp).returned h
  · intro i j id hi hj
    obtain ⟨p, hp, rfl, rfl⟩ := hl.of_returned h hi
    obtain ⟨q, hq, rfl, hid⟩ := hl.of_returned h hj
    -- the ids of the table differ
    have hn := c.world.db.constraints.spacesId
    rw [hl.spaces, List.map_append] at hn
    have hps : (ps.map fun p => p.space.id).Nodup := by
      simpa [List.map_map, Function.comp_def] using (List.nodup_append.1 hn).2.1
    rw [List.inj_on_of_nodup_map hps hp hq hid.symm]

end App

namespace Recorded

theorem space_ledger_notes :
    ∃ c ps, recordedApp.Ledger sessionWorld spaceRun (c : Config Eff Eff.Answer World Request
        (Except Exc Response)).world ps ∧
      ∃ p ∈ ps, p.request = 0 ∧ p.space.id = 5 := by
  obtain ⟨c, hrun, hret⟩ : ∃ c, recordedApp.system.Run (.init sessionWorld) spaceRun c ∧
      decide (c.result? 0 = some (.ok (.spaceCreate 5))) :=
    System.exists_run choiceFor _ (by decide +kernel)
  obtain ⟨ps, hl, hiff, -⟩ := App.space_ledger hrun
  exact ⟨c, ps, hl, (hiff 0 5).1 (Config.returned_of_result? (of_decide_eq_true hret))⟩

end Recorded

end WikiBackend
