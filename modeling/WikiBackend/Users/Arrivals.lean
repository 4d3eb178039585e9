import WikiBackend.Users.Profiles
import WikiBackend.Users.Timestamps

/-! New users. An account is reported as created exactly once, by the login that created it. -/

namespace WikiBackend

open Effects

def creates (telegramId : Int) : Ev → Bool
  | ⟨.sql (.upsertUser p), .ok (some (_, created))⟩ => created && p.telegramId = telegramId
  | _ => false

def creator? (telegramId : Int) : Label Eff Eff.Answer Request → Option Nat
  | .did i e a => if creates telegramId ⟨e, a⟩ then some i else none
  | .started _ _ => none

def creators (telegramId : Int) (ls : List (Label Eff Eff.Answer Request)) : List Nat :=
  ls.filterMap (creator? telegramId)

theorem mem_creators {telegramId : Int} {ls : List (Label Eff Eff.Answer Request)} {i : Nat} :
    i ∈ creators telegramId ls ↔ ∃ ev ∈ own i ls, creates telegramId ev := by
  rw [creators, List.mem_filterMap]
  constructor
  · rintro ⟨l, hm, hl⟩
    cases l with
    | started => cases hl
    | did j e a =>
      obtain ⟨hev, rfl⟩ : creates telegramId ⟨e, a⟩ = true ∧ j = i := by simpa [creator?] using hl
      exact ⟨_, mem_own.2 hm, hev⟩
  · rintro ⟨⟨e, a⟩, hm, hev⟩
    exact ⟨_, mem_own.1 hm, by simp [creator?, hev]⟩

theorem UsersStep.creates {db db' : Database} {ev : Ev} (h : UsersStep db db' ev) (k : Int) :
    (creates k ev = true ∧ db.userByTelegramId k = none ∧ db'.userByTelegramId k ≠ none) ∨
      creates k ev = false ∧ (db'.userByTelegramId k = none ↔ db.userByTelegramId k = none) := by
  have hrow := h.profileStep_eq k
  cases h with
  | @kept ev hw hk =>
    refine .inr ⟨?_, by rw [Database.userByTelegramId, hk, ← Database.userByTelegramId]⟩
    unfold WikiBackend.creates
    split
    · cases hw
    · rfl
  | @updated p r hr hk =>
    refine .inr ⟨rfl, ?_⟩
    rw [hrow, profileStep]
    by_cases hp : p.telegramId = k
    · subst hp
      simp [hr]
    · rw [if_neg hp]
  | @inserted p hnone hk =>
    by_cases hp : p.telegramId = k
    · subst hp
      refine .inl ⟨by simp [WikiBackend.creates], hnone, ?_⟩
      rw [hrow, profileStep, if_pos rfl]
      exact Option.some_ne_none _
    · refine .inr ⟨by simp [WikiBackend.creates, hp], ?_⟩
      rw [hrow, profileStep, if_neg hp]

namespace App

variable {app : App} {w₀ : World} {ls : List (Label Eff Eff.Answer Request)}
  {c : Config Eff Eff.Answer World Request (Except Exc Response)} {i j : Nat} {k : Int}
  {user user' : TokenUserResponse} {created : Bool}

theorem length_creators (h : app.system.Run (.init w₀) ls c) (k : Int) :
    (creators k ls).length =
      if w₀.db.userByTelegramId k = none ∧ c.world.db.userByTelegramId k ≠ none then 1 else 0 := by
  suffices hkept : (creators k ls).length =
        (if w₀.db.userByTelegramId k = none ∧ c.world.db.userByTelegramId k ≠ none then 1 else 0) ∧
      (c.world.db.userByTelegramId k = none → w₀.db.userByTelegramId k = none) from hkept.1
  induction h with
  | nil => exact ⟨by simp [creators, Config.init], id⟩
  | @snoc c c' ls l _ hst ih =>
    obtain ⟨hlen, hstart⟩ := ih
    rw [creators, List.filterMap_append, List.length_append, ← creators, hlen]
    cases hst with
    | start req => exact ⟨rfl, hstart⟩
    | @run i _ e _ a w _ ht =>
      rcases (usersStep_of_trans ht).creates k with ⟨hcr, hnone, hsome⟩ | ⟨hcr, hiff⟩
      · simp [creator?, hcr, hnone, hsome, hstart]
      · simpa [creator?, hcr, hiff] using hstart

theorem created_iff (h : app.system.Run (.init w₀) ls c)
    (hret : c.Returned i (.ok (.tokenVerify created user))) :
    created = true ↔ i ∈ creators user.telegramId ls := by
  obtain ⟨req, -, hf⟩ := h.returned hret
  have hsuc := succeeds_of_finishes hf
  rw [mem_creators]
  generalize ho : own i ls = evs at hsuc
  cases hsuc with
  | @verifyToken _ t p now row =>
    have hm : .did i (.sql (.upsertUser (p.upsertParams now))) (.ok (some (row, created))) ∈ ls :=
      mem_own.1 (by simp [ho])
    obtain ⟨l₁, l₂, c₁, c₂, -, -, hst, -⟩ := h.split_mem hm
    have htg : row.telegramId = (p.upsertParams now).telegramId :=
      (usersStep_of_trans hst.trans).stored.2
    change created = true ↔ ∃ ev ∈ [_, _, _], creates row.telegramId ev
    simp [creates, htg]

/-- New users are announced exactly once: an account that appears has one login that is told to
have created it, an account that was there has none, and the answer to a login tells it. -/
theorem new_users_announced_once (h : app.system.Run (.init w₀) ls c) :
    (∀ k, (creators k ls).length =
      if w₀.db.userByTelegramId k = none ∧ c.world.db.userByTelegramId k ≠ none then 1 else 0) ∧
    (∀ i created user, c.Returned i (.ok (.tokenVerify created user)) →
      (created = true ↔ i ∈ creators user.telegramId ls)) ∧
    ∀ i j user user', c.Returned i (.ok (.tokenVerify true user)) →
      c.Returned j (.ok (.tokenVerify true user')) → user.telegramId = user'.telegramId → i = j := by
  refine ⟨length_creators h, fun i created user => created_iff h, ?_⟩
  intro i j user user' hi hj htg
  have hmi := (created_iff h hi).1 rfl
  have hmj := (created_iff h hj).1 rfl
  rw [← htg] at hmj
  -- at most one creator
  have hle : (creators user.telegramId ls).length ≤ 1 := by
    rw [length_creators h]
    split
    · exact Nat.le_refl 1
    · exact Nat.zero_le 1
  match hcs : creators user.telegramId ls with
  | [] =>
    rw [hcs] at hmi
    cases hmi
  | [m] =>
    rw [hcs, List.mem_singleton] at hmi hmj
    rw [hmi, hmj]
  | _ :: _ :: _ =>
    rw [hcs] at hle
    simp at hle

end App

namespace Recorded

theorem new_users_announced_once_two : ∃ c, recordedApp.system.Run (.init World.initial)
      (twoLogins ++ [upsertAt 0 loginAt (rowAt loginAt) true,
        upsertAt 1 secondLoginAt (rowAfter loginAt secondLoginAt) false]) c ∧
    (creators 42 (twoLogins ++ [upsertAt 0 loginAt (rowAt loginAt) true,
      upsertAt 1 secondLoginAt (rowAfter loginAt secondLoginAt) false])).length = 1 := by
  obtain ⟨c, hrun, hrow⟩ := run_twoLogins (rowAt loginAt) (rowAfter loginAt secondLoginAt)
    (rowAfter loginAt secondLoginAt) true false (.inl rfl) (by decide +kernel)
  refine ⟨c, hrun, ?_⟩
  rw [(App.new_users_announced_once hrun).1 42, hrow]
  exact if_pos ⟨rfl, Option.some_ne_none _⟩

end Recorded

end WikiBackend
