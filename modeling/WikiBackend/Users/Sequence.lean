import Mathlib.Data.Finset.Card
import WikiBackend.Api.Storable
import WikiBackend.Users.Timestamps

/-! The sequence behind the ids of the users. Every upsert takes from it, also one that finds its
user, so that it lasts for a number of logins and not for a number of users. -/

namespace WikiBackend

open Effects

def lastId : Int := 2147483647

abbrev sequenceExhausted : LibError := .postgres .sequenceGeneratorLimitExceeded

namespace Database

variable {db db' : Database} {p : UpsertParams} {x : Except LibError (Option (UserRow × Bool))}

/-- What an upsert does with the sequence. Parameters that cannot be sent do not reach the server. -/
inductive Draws (db db' : Database) (p : UpsertParams) (x : Except LibError (Option (UserRow × Bool))) :
    Prop where
  | unsent : p.bindable = false → x ≠ .error sequenceExhausted → db'.usersIdSeq = db.usersIdSeq →
      Draws db db' p x
  | exhausted : p.bindable = true → lastId ≤ db.usersIdSeq → x = .error sequenceExhausted →
      db'.usersIdSeq = db.usersIdSeq → Draws db db' p x
  | drawn : p.bindable = true → db.usersIdSeq < lastId → x ≠ .error sequenceExhausted →
      db'.usersIdSeq = db.usersIdSeq + 1 → Draws db db' p x

theorem store_draws {t : Tables} {rows : Option (UserRow × Bool)} (h : db.store t rows = (x, db'))
    (ht : t.usersIdSeq = db.usersIdSeq) :
    x ≠ .error sequenceExhausted ∧ db'.usersIdSeq = db.usersIdSeq := by
  by_cases hc : t.Constraints
  · rw [store_ok hc] at h
    cases h
    exact ⟨(fun h => by cases h), ht⟩
  · rw [store_error hc] at h
    cases h
    exact ⟨(fun h => by cases h), rfl⟩

theorem upsertUser_draws (h : db.upsertUser p = (x, db')) : Draws db db' p x := by
  unfold upsertUser at h
  split at h
  · next hb =>
    cases h
    exact .unsent (by simpa using hb) (fun h => by cases h) rfl
  · next hb =>
    replace hb : p.bindable = true := by simpa using hb
    split at h
    · next hs =>
      cases h
      exact .exhausted hb hs rfl rfl
    · next hs =>
      replace hs : db.usersIdSeq < lastId := Int.not_le.1 hs
      simp only at h
      -- from here on the next value is taken, whatever becomes of the row
      split at h
      · cases h
        exact .drawn hb hs (fun h => by cases h) rfl
      · split at h
        · obtain ⟨hx, hseq⟩ := store_draws h rfl
          exact .drawn hb hs hx hseq
        · obtain ⟨hx, hseq⟩ := store_draws h rfl
          exact .drawn hb hs hx hseq

end Database

namespace App

variable {app : App} {w w' w₀ : World} {i : Nat} {ls : List (Label Eff Eff.Answer Request)}
  {c c' : Config Eff Eff.Answer World Request (Except Exc Response)}
  {l : Label Eff Eff.Answer Request}

def sentUpsert : Label Eff Eff.Answer Request → Bool
  | .did _ (.sql (.upsertUser p)) _ => p.bindable
  | _ => false

def OutOfIds (l : Label Eff Eff.Answer Request) : Prop :=
  ∃ i p, l = .did i (.sql (.upsertUser p)) (.error sequenceExhausted)

theorem sequence_of_other {e : Eff} {a : e.Answer} (he : ∀ p, e ≠ .sql (.upsertUser p))
    (ht : app.system.Trans w i e a w') : w'.db.usersIdSeq = w.db.usersIdSeq := by
  cases e with
  | clock =>
    obtain ⟨-, rfl⟩ := trans_clock.1 ht
    rfl
  | tokenUrlsafe =>
    obtain ⟨-, rfl⟩ := trans_tokenUrlsafe.1 ht
    rfl
  | uuid4 =>
    obtain rfl := trans_uuid4.1 ht
    rfl
  | sql q =>
    rcases trans_sql.1 ht with ⟨s, hx⟩ | ⟨y, -, rfl⟩
    · exact (World.users_of_execute (fun p hp => he p (hp ▸ rfl)) hx).2
    · rw [World.fail_db]

theorem sequence_of_step (hst : app.undisturbed.Step c l c') :
    (OutOfIds l ↔ sentUpsert l = true ∧ lastId ≤ c.world.db.usersIdSeq) ∧
    c'.world.db.usersIdSeq =
      if sentUpsert l = true ∧ c.world.db.usersIdSeq < lastId then c.world.db.usersIdSeq + 1
      else c.world.db.usersIdSeq := by
  cases hst with
  | start req =>
    refine ⟨iff_of_false ?_ (fun h => by cases h.1), (if_neg fun h => by cases h.1).symm⟩
    rintro ⟨_, _, h⟩
    cases h
  | @run i _ e k a w' _ ht =>
    by_cases he : ∃ p, e = .sql (.upsertUser p)
    · obtain ⟨p, rfl⟩ := he
      obtain ⟨s, -, hx⟩ := trans_undisturbed_sql.1 ht
      have hout : OutOfIds (.did i (.sql (.upsertUser p)) a : Label Eff Eff.Answer Request) ↔
          a = .error sequenceExhausted := by
        constructor
        · rintro ⟨_, _, h⟩
          cases h
          rfl
        · rintro rfl
          exact ⟨i, p, rfl⟩
      rw [hout, sentUpsert]
      cases Database.upsertUser_draws (World.onDb_eq hx).1 with
      | unsent hb hne hseq => simp [hb, hne, hseq]
      | exhausted hb hs hx hseq => simp [hb, hs, hx, hseq, Int.not_lt.2 hs]
      | drawn hb hs hne hseq => simp [hb, hs, hne, hseq, Int.not_le.2 hs]
    · have hother : ∀ p, e ≠ .sql (.upsertUser p) := fun p hp => he ⟨p, hp⟩
      have hsent : sentUpsert (.did i e a : Label Eff Eff.Answer Request) = false := by
        unfold sentUpsert
        split
        · next h =>
          cases h
          exact absurd rfl (hother _)
        · rfl
      have hseq := sequence_of_other hother (trans_of_undisturbed ht)
      rw [hsent]
      refine ⟨iff_of_false ?_ (fun h => by cases h.1), hseq.trans (if_neg fun h => by cases h.1).symm⟩
      rintro ⟨_, p, h⟩
      cases h
      exact hother p rfl

theorem sequence_of_run (hr : app.undisturbed.Run (.init w₀) ls c)
    (h₀ : w₀.db.usersIdSeq ≤ lastId) :
    c.world.db.usersIdSeq = min lastId (w₀.db.usersIdSeq + ls.countP sentUpsert) ∧
    ((∃ l ∈ ls, OutOfIds l) ↔ lastId < w₀.db.usersIdSeq + ls.countP sentUpsert) := by
  induction hr with
  | nil =>
    refine ⟨?_, iff_of_false ?_ ?_⟩
    · simpa [Config.init] using h₀
    · rintro ⟨_, h, -⟩
      cases h
    · simpa using h₀
  | @snoc c₁ c₂ ls l _ hst ih =>
    obtain ⟨hseq, hout⟩ := ih
    obtain ⟨hl, hseq'⟩ := sequence_of_step hst
    have hmem : (∃ l' ∈ ls ++ [l], OutOfIds l') ↔ (∃ l' ∈ ls, OutOfIds l') ∨ OutOfIds l := by
      simp only [List.mem_append, List.mem_singleton, or_and_right, exists_or, exists_eq_left]
    rw [hmem, hout, hl, hseq', List.countP_append]
    cases hsent : sentUpsert l with
    | true =>
      have hone : [l].countP sentUpsert = 1 := by simp [hsent]
      rw [hone, hseq]
      simp only [true_and]
      constructor
      · split <;> omega
      · omega
    | false =>
      have hnone : [l].countP sentUpsert = 0 := by simp [hsent]
      rw [hnone, hseq, Nat.add_zero]
      simp only [Bool.false_eq_true, false_and, if_false, or_false, and_self]

def loggedIn (ls : List (Label Eff Eff.Answer Request)) : Finset Int :=
  (ls.filterMap fun
    | .did _ (.sql (.upsertUser p)) _ => some p.telegramId
    | _ => none).toFinset

/-- No upsert fails for want of an id exactly while the upserts, of whichever users, are not more
than the values of the sequence. -/
theorem ids_suffice_iff (hr : app.undisturbed.Run (.init .initial) ls c) :
    (∀ i p, .did i (.sql (.upsertUser p)) (.error sequenceExhausted) ∉ ls) ↔
      ls.countP sentUpsert ≤ 2147483647 := by
  have h₀ : World.initial.db.usersIdSeq = 0 := rfl
  have hout := (sequence_of_run hr (by rw [h₀]; decide)).2
  have hnone : (∀ i p, (.did i (.sql (.upsertUser p)) (.error sequenceExhausted) :
      Label Eff Eff.Answer Request) ∉ ls) ↔ ¬∃ l ∈ ls, OutOfIds l := by
    constructor
    · rintro h ⟨_, hm, i, p, rfl⟩
      exact h i p hm
    · intro h i p hm
      exact h ⟨_, hm, i, p, rfl⟩
  rw [hnone, hout, h₀]
  simp only [lastId]
  omega

end App

/-! ## One user who keeps logging in -/

namespace Recorded

def verifyEvents (x : Except LibError (Option (UserRow × Bool))) : List Ev :=
  [clockEv loginAt, clockEv loginAt, sqlEv (.upsertUser (data₁.upsertParams loginAt)) x]

theorem follows_verifyRequest (x : Except LibError (Option (UserRow × Bool))) :
    ∃ q, Follows (recordedApp.undisturbed.body verifyRequest) (verifyEvents x) q := by
  have hf : Follows _ ([clockEv loginAt, clockEv loginAt] ++ [_]) _ :=
    finishes_verifyRequest (t := loginAt) (by decide) loginAt userRow true
  obtain ⟨m, hm, hq⟩ := follows_append.1 hf
  cases hq with
  | cons _ => exact ⟨_, follows_append.2 ⟨_, hm, .cons (.nil _)⟩⟩

theorem answers_verifyEvents {w : World} (i : Nat) (hw : w.clock ≤ loginAt) :
    ∃ x w', recordedApp.undisturbed.Answers i w (verifyEvents x) w' ∧ w'.clock = loginAt := by
  refine ⟨_, _, .cons (App.trans_undisturbed_clock.2 ⟨hw, rfl⟩) (.cons
    (App.trans_undisturbed_clock.2 ⟨Int.le_refl _, rfl⟩) (.cons
    (App.trans_undisturbed_sql.2 ⟨⟨0, 0, []⟩, ?_, rfl⟩) (.nil _))), rfl⟩
  intro name h
  cases h

theorem one_user (n : Nat) : ∃ ls c, recordedApp.undisturbed.Run (.init World.initial) ls c ∧
    c.world.clock ≤ loginAt ∧ ls.countP App.sentUpsert = n ∧ App.loggedIn ls ⊆ {42} := by
  induction n with
  | zero => exact ⟨[], _, .nil _, by decide, rfl, Finset.empty_subset _⟩
  | succ n ih =>
    obtain ⟨ls, c, hr, hclock, hn, hids⟩ := ih
    obtain ⟨x, w', ha, hw'⟩ := answers_verifyEvents c.procs.length hclock
    obtain ⟨q, hf⟩ := follows_verifyRequest x
    refine ⟨_, _, hr.solo hf ha, Int.le_of_eq hw', ?_, ?_⟩
    · rw [List.countP_append, hn]
      rfl
    · rw [App.loggedIn, List.filterMap_append, List.toFinset_append]
      exact Finset.union_subset hids (Finset.Subset.refl {42})

theorem ids_suffice_iff_login : ∃ ls c, recordedApp.undisturbed.Run (.init World.initial) ls c ∧
    ls.countP App.sentUpsert = 1 ∧
    ∀ i p, .did i (.sql (.upsertUser p)) (.error sequenceExhausted) ∉ ls := by
  obtain ⟨ls, c, hr, -, hn, -⟩ := one_user 1
  exact ⟨ls, c, hr, hn, (App.ids_suffice_iff hr).2 (by rw [hn]; decide)⟩

theorem one_user_exhausts_ids :
    ¬∀ (app : App) (ls : List (Label Eff Eff.Answer Request))
      (c : Config Eff Eff.Answer World Request (Except Exc Response)),
      app.undisturbed.Run (.init .initial) ls c → (App.loggedIn ls).card ≤ 2147483647 →
        ∀ i p, .did i (.sql (.upsertUser p)) (.error sequenceExhausted) ∉ ls := by
  intro h
  obtain ⟨ls, c, hr, -, hn, hids⟩ := one_user 2147483648
  have hcard : (App.loggedIn ls).card ≤ 1 := Finset.card_le_card hids
  have hnone := h recordedApp ls c hr (Nat.le_trans hcard (by decide))
  have hseq : World.initial.db.usersIdSeq = 0 := rfl
  obtain ⟨l, hl, i, p, rfl⟩ := (App.sequence_of_run hr (by rw [hseq]; decide)).2.2 (by
    rw [hseq, hn]
    decide)
  exact hnone i p hl

end Recorded

end WikiBackend
