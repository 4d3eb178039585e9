import WikiBackend.Api.Paths
import WikiBackend.Sessions.Outcomes

/-! When refreshes never shorten a session. A refresh computes its new expiry from a reading
of the clock and writes it later, whatever the row holds by then: refreshes may write in
another order than they read the clock. -/

namespace WikiBackend

open Effects

namespace App

variable {app : App} {w₀ : World} {ls l₁ l₂ : List (Label Eff Eff.Answer Request)}
  {l : Label Eff Eff.Answer Request}
  {c c₁ c₂ : Config Eff Eff.Answer World Request (Except Exc Response)} {i j : Nat} {s h : String}
  {r : SessionRow} {t : Instant}

/-! ## Refreshes in order -/

def expiryReading (i : Nat) (ls : List (Label Eff Eff.Answer Request)) : Option Instant :=
  ((own i ls).filterMap reading?)[1]?

def extender? (h : String) : Label Eff Eff.Answer Request → Option Nat
  | .did i (.sql (.updateExpiry h' _ _)) (.ok _) => if h' = h then some i else none
  | _ => none

def extenders (h : String) (ls : List (Label Eff Eff.Answer Request)) : List Nat :=
  ls.filterMap (extender? h)

/-- A refresh updates the expiry after no refresh that read the clock later than it did. -/
def InOrder (h : String) (ls : List (Label Eff Eff.Answer Request))
    (l : Label Eff Eff.Answer Request) : Prop :=
  ∀ i ∈ extender? h l, ∀ j ∈ extenders h ls, ∀ t ∈ expiryReading j ls,
    ∀ t' ∈ expiryReading i ls, t ≤ t'

instance : Decidable (InOrder h ls l) := by
  unfold InOrder
  infer_instance

theorem eq_of_extender (hi : i ∈ extender? h l) :
    ∃ expires now x, l = .did i (.sql (.updateExpiry h expires now)) (.ok x) := by
  unfold extender? at hi
  split at hi
  · split at hi
    · rename_i hh
      subst hh
      cases hi
      exact ⟨_, _, _, rfl⟩
    · cases hi
  · cases hi

theorem extenders_append : extenders h (l₁ ++ l₂) = extenders h l₁ ++ extenders h l₂ :=
  List.filterMap_append

theorem expiryReading_append (ht : t ∈ expiryReading i l₁) : t ∈ expiryReading i (l₁ ++ l₂) := by
  have hlt := (List.getElem?_eq_some_iff.1 ht).1
  rw [expiryReading, own_append, List.filterMap_append]
  exact (List.getElem?_append_left hlt).trans ht

theorem path_of_extended {expires now : Instant} {x : Except LibError (Option SessionRecord)}
    (hr : app.system.Run (.init w₀) ls c)
    (hst : app.system.Step c (.did i (.sql (.updateExpiry h expires now)) x) c₁) :
    ∃ s rec t t', own i ls = [app.selectEv s rec, clockEv t, clockEv t', clockEv now] ∧
      h = app.hashToken s ∧ t' ∈ expiryReading i ls ∧
      expires = t' + app.sessionTtlSeconds * 1000000 := by
  obtain ⟨req, -, hx⟩ := executes_of_step hr hst
  obtain ⟨_, s, rec, t, t', -, -, -, ht, ho, rfl⟩ := hx.of_updateExpiry
  refine ⟨s, rec, t, t', ho, rfl, ?_, addSeconds_eq_ok ht⟩
  rw [expiryReading, ho]
  rfl

/-! ## What the stored expiry is -/

theorem expiresAt_of_step (hst : app.system.Step c l c₁)
    (hrow : c.world.db.sessionByHash h = some r) :
    ∃ r', c₁.world.db.sessionByHash h = some r' ∧ (r'.expiresAt = r.expiresAt ∨
      ∃ i now x, l = .did i (.sql (.updateExpiry h r'.expiresAt now)) (.ok x)) := by
  rcases hst.world with hw | ⟨i, e, a, rfl, ht⟩
  · exact ⟨r, hw ▸ hrow, .inl rfl⟩
  · obtain ⟨r', hr', hc⟩ := (sessionsStep_of_trans ht).expiresAt hrow
    refine ⟨r', hr', hc.imp_right ?_⟩
    rintro ⟨now, x, hev⟩
    cases hev
    exact ⟨i, now, x, rfl⟩

theorem expiresAt_of_run {r' : SessionRow} (h₁ : app.system.Run (.init w₀) l₁ c₁)
    (h₂ : app.system.Run c₁ l₂ c) (hrow : c₁.world.db.sessionByHash h = some r)
    (hrow' : c.world.db.sessionByHash h = some r') :
    r'.expiresAt = r.expiresAt ∨ ∃ j ∈ extenders h l₂, ∃ t ∈ expiryReading j (l₁ ++ l₂),
      r'.expiresAt = t + app.sessionTtlSeconds * 1000000 := by
  induction h₂ generalizing r' with
  | nil =>
    rw [hrow] at hrow'
    cases hrow'
    exact .inl rfl
  | @snoc c₂ c₃ l₂ l h₂ hst ih =>
    obtain ⟨r₂, hrow₂, -⟩ := (evolves_of_run h₂).sessions hrow
    obtain ⟨r₃, hrow₃, hc⟩ := expiresAt_of_step hst hrow₂
    rw [hrow'] at hrow₃
    cases hrow₃
    rw [extenders_append, ← List.append_assoc]
    rcases hc with he | ⟨i, now, x, rfl⟩
    · rcases ih hrow₂ with he' | ⟨j, hj, t, ht, he'⟩
      · exact .inl (he.trans he')
      · exact .inr ⟨j, List.mem_append_left _ hj, t, expiryReading_append ht, he.trans he'⟩
    · obtain ⟨_, _, _, t', -, -, ht', he⟩ := path_of_extended (h₁.append h₂) hst
      have hi : i ∈ extenders h [.did i (.sql (.updateExpiry h r'.expiresAt now)) (.ok x)] := by
        simp [extenders, extender?]
      exact .inr ⟨i, List.mem_append_right _ hi, t', expiryReading_append ht', he⟩

def IssuedWithin (app : App) (w : World) : Prop :=
  ∀ {h r}, w.db.sessionByHash h = some r →
    r.expiresAt ≤ w.clock + app.sessionTtlSeconds * 1000000

theorem issuedWithin_of_run (hr : app.system.Run (.init w₀) ls c) (h₀ : app.IssuedWithin w₀) :
    app.IssuedWithin c.world := by
  induction hr with
  | nil => exact h₀
  | @snoc c₁ c₂ ls l hr hst ih =>
    intro h r hrow
    have hclock : c₁.world.clock ≤ c₂.world.clock := (evolves_of_run hst.single).clock
    -- what a reading gives is within one time to live
    have hread {i : Nat} {t : Instant} (hm : ⟨.clock, t⟩ ∈ own i ls) :
        t + app.sessionTtlSeconds * 1000000 ≤
          c₂.world.clock + app.sessionTtlSeconds * 1000000 := by
      have ht := (clock_of_mem hr (mem_own.1 hm)).2
      exact Int.add_le_add_right (Int.le_trans ht hclock) _
    cases hrow₁ : c₁.world.db.sessionByHash h with
    | some r₁ =>
      obtain ⟨r', hrow', hc⟩ := expiresAt_of_step hst hrow₁
      rw [hrow] at hrow'
      cases hrow'
      rcases hc with he | ⟨i, now, x, rfl⟩
      · rw [he]
        exact Int.le_trans (ih hrow₁) (Int.add_le_add_right hclock _)
      · obtain ⟨_, _, _, t', ho, -, -, he⟩ := path_of_extended hr hst
        rw [he]
        exact hread (i := i) (by simp [ho])
    | none =>
      rcases hst.world with hw | ⟨i, e, a, rfl, ht⟩
      · rw [hw, hrow₁] at hrow
        cases hrow
      · have hev := inserted_of_new hr hst hrow₁ hrow
        cases hev
        obtain ⟨req, -, hx⟩ := executes_of_step hr hst
        obtain ⟨_, _, _, _, _, _, _, t', -, -, hx, ho, -, -⟩ := hx.of_insertSession
        rw [addSeconds_eq_ok hx]
        exact hread (i := i) (by simp [ho])

/-! ## Refreshes in order never shorten the session -/

/-- From one state of the run to a later one the stored expiry does not decrease, and an expiry
that a refresh has reported is at most the stored one. -/
structure NeverShortens (app : App) (w₀ : World) (s : String)
    (ls : List (Label Eff Eff.Answer Request))
    (c : Config Eff Eff.Answer World Request (Except Exc Response)) : Prop where
  stored : ∀ {l₁ l₂ l₃ c₁ c₂ r}, ls = l₁ ++ (l₂ ++ l₃) → app.system.Run (.init w₀) l₁ c₁ →
    app.system.Run c₁ l₂ c₂ → app.system.Run c₂ l₃ c →
    c₁.world.db.sessionByHash (app.hashToken s) = some r →
    ∃ r', c₂.world.db.sessionByHash (app.hashToken s) = some r' ∧ r.expiresAt ≤ r'.expiresAt
  reported : ∀ {l₁ l₂ l₃ c₁ c₂ i authorization flag expires user}, ls = l₁ ++ (l₂ ++ l₃) →
    app.system.Run (.init w₀) l₁ c₁ → app.system.Run c₁ l₂ c₂ → app.system.Run c₂ l₃ c →
    .started i (.refreshSession authorization) ∈ l₁ → extractBearerToken authorization = .ok s →
    c₁.Returned i (.ok (.sessionStatus flag expires user)) →
    ∃ r, c₂.world.db.sessionByHash (app.hashToken s) = some r ∧ expires ≤ r.expiresAt

theorem expiresAt_le_of_extended {expires now : Instant} {x : Except LibError (Option SessionRecord)}
    (h₀ : app.IssuedWithin w₀) (hr : app.system.Run (.init w₀) ls c)
    (hst : app.system.Step c (.did i (.sql (.updateExpiry h expires now)) x) c₁)
    (hj : ∀ j ∈ extenders h ls, ∀ t ∈ expiryReading j ls, ∀ t' ∈ expiryReading i ls, t ≤ t')
    (hrow : c.world.db.sessionByHash h = some r) : r.expiresAt ≤ expires := by
  obtain ⟨s, rec, t, t', ho, rfl, ht', rfl⟩ := path_of_extended hr hst
  obtain ⟨l₁, l₂, rfl, -, ho₂⟩ := own_eq_append_cons [] ho
  obtain ⟨c₂, c₃, h₂, hsel, h₃⟩ := hr.split
  -- the row that the request selected expires within one time to live of its reading
  obtain ⟨hrec, hw⟩ := trans_sessionByTokenHash hsel.trans
  obtain ⟨r₂, hrow₂, -⟩ := Option.map_eq_some_iff.1 hrec.symm
  have hread : c₃.world.clock ≤ t' := by
    have hm : .did i .clock t' ∈ l₂ := mem_own.1 (by simp [ho₂])
    exact (clock_of_mem h₃ hm).1
  rw [hw] at hread
  have hsel₂ : r₂.expiresAt ≤ t' + app.sessionTtlSeconds * 1000000 :=
    Int.le_trans (issuedWithin_of_run h₂ h₀ hrow₂) (Int.add_le_add_right hread _)
  -- since then it was written by refreshes that read the clock before
  rw [← hw] at hrow₂
  have h₁₃ := h₂.append hsel.single
  rcases expiresAt_of_run h₁₃ h₃ hrow₂ hrow with he | ⟨j, hmem, t₁, ht₁, he⟩
  · exact he ▸ hsel₂
  · rw [he]
    rw [List.append_assoc] at ht₁
    have hmem' : j ∈ extenders (app.hashToken s)
        (l₁ ++ .did i (.sql (.sessionByTokenHash (app.hashToken s))) (.ok (some rec)) :: l₂) := by
      rw [List.append_cons, extenders_append]
      exact List.mem_append_right _ hmem
    exact Int.add_le_add_right (hj j hmem' t₁ ht₁ t' ht') _

theorem expiresAt_le_of_step (h₀ : app.IssuedWithin w₀) (hr : app.system.Run (.init w₀) ls c)
    (hst : app.system.Step c l c₁) (hg : InOrder h ls l)
    (hrow : c.world.db.sessionByHash h = some r) :
    ∃ r', c₁.world.db.sessionByHash h = some r' ∧ r.expiresAt ≤ r'.expiresAt := by
  obtain ⟨r', hrow', hc⟩ := expiresAt_of_step hst hrow
  refine ⟨r', hrow', ?_⟩
  rcases hc with he | ⟨i, now, x, rfl⟩
  · exact Int.le_of_eq he.symm
  · exact expiresAt_le_of_extended h₀ hr hst (hg i (by simp [extender?])) hrow

theorem expiresAt_le_of_run {l₃ : List (Label Eff Eff.Answer Request)}
    (hr : app.system.RunUnder (fun ls _ l => InOrder h ls l) (.init w₀) (l₁ ++ (l₂ ++ l₃)) c)
    (h₀ : app.IssuedWithin w₀) (h₁ : app.system.Run (.init w₀) l₁ c₁)
    (h₂ : app.system.Run c₁ l₂ c₂) (hle : t ≤ r.expiresAt)
    (hrow : c₁.world.db.sessionByHash h = some r) :
    ∃ r', c₂.world.db.sessionByHash h = some r' ∧ t ≤ r'.expiresAt := by
  refine hr.later (Q := fun w => ∃ r', w.db.sessionByHash h = some r' ∧ t ≤ r'.expiresAt) ?_ h₁ h₂
    ⟨r, hrow, hle⟩
  intro ls c l c' h hst hg hq
  obtain ⟨r₁, hrow₁, hle₁⟩ := hq
  obtain ⟨r', hrow', hle'⟩ := expiresAt_le_of_step h₀ h.run hst hg hrow₁
  exact ⟨r', hrow', Int.le_trans hle₁ hle'⟩

theorem row_of_extended {expires now : Instant} {x : Option SessionRecord}
    (hr : app.system.Run (.init w₀) ls c)
    (hst : app.system.Step c (.did i (.sql (.updateExpiry h expires now)) (.ok x)) c₁) :
    ∃ r, c₁.world.db.sessionByHash h = some r ∧ r.expiresAt = expires := by
  obtain ⟨s, rec, t, t', ho, rfl, -, -⟩ := path_of_extended hr hst
  obtain ⟨l₁, l₂, rfl, -, -⟩ := own_eq_append_cons [] ho
  obtain ⟨c₂, c₃, -, hsel, h₂⟩ := hr.split
  obtain ⟨hrec, hw⟩ := trans_sessionByTokenHash hsel.trans
  obtain ⟨r, hrow, -⟩ := Option.map_eq_some_iff.1 hrec.symm
  rw [← hw] at hrow
  obtain ⟨r', hrow', -⟩ := (evolves_of_run h₂).sessions hrow
  refine ⟨Database.setExpiry expires now r', ?_, rfl⟩
  rw [Database.sessionByHash_setExpiry (trans_updateExpiry hst.trans).2, hrow', Option.map_some,
    if_pos rfl]

theorem neverShortens_of_inOrder
    (hr : app.system.RunUnder (fun ls _ l => InOrder (app.hashToken s) ls l) (.init w₀) ls c)
    (h₀ : app.IssuedWithin w₀) : NeverShortens app w₀ s ls c := by
  constructor
  · rintro l₁ l₂ l₃ c₁ c₂ r rfl h₁ h₂ - hrow
    exact expiresAt_le_of_run hr h₀ h₁ h₂ (Int.le_refl _) hrow
  · rintro l₁ l₂ l₃ c₁ c₂ i authorization flag expires user rfl h₁ h₂ - hm hs hret
    obtain ⟨req, hm', hf⟩ := h₁.returned hret
    obtain rfl := h₁.started_unique hm hm'
    obtain ⟨rec, t, t', expires', now, rec', user', ho, hresp⟩ := path_of_refreshed hs hf
    cases hresp
    -- the row right after the update holds the reported expiry
    obtain ⟨l₄, l₅, rfl, -, -⟩ := own_eq_append_cons
      [app.selectEv s rec, clockEv t, clockEv t', clockEv now] ho
    obtain ⟨c₃, c₄, h₃, hst, h₄⟩ := h₁.split
    obtain ⟨r, hrow, he⟩ := row_of_extended h₃ hst
    have hlabels := hr
    rw [List.append_assoc, List.cons_append, List.append_cons, ← List.append_assoc l₅] at hlabels
    exact expiresAt_le_of_run hlabels h₀ (h₃.append hst.single) (h₄.append h₂)
      (Int.le_of_eq he.symm) hrow

theorem inOrder_of_neverShortens (hr : app.system.Run (.init w₀) ls c)
    (hn : NeverShortens app w₀ s ls c) {l₁ l₂ : List (Label Eff Eff.Answer Request)}
    (hls : ls = l₁ ++ l :: l₂) : InOrder (app.hashToken s) l₁ l := by
  intro i hi j hj t ht t' ht'
  subst hls
  obtain ⟨c₁, c₁', h₁, hst, h₂⟩ := hr.split
  -- the two updates, and the rows they leave
  obtain ⟨expires, now, x, rfl⟩ := eq_of_extender hi
  obtain ⟨l', hl', hj'⟩ := List.mem_filterMap.1 hj
  obtain ⟨expires', now', x', rfl⟩ := eq_of_extender hj'
  obtain ⟨l₃, l₄, c₂, c₂', rfl, h₃, hst', h₄⟩ := h₁.split_mem hl'
  obtain ⟨r', hrow', he'⟩ := row_of_extended h₃ hst'
  obtain ⟨r, hrow, he⟩ := row_of_extended h₁ hst
  have hle : r'.expiresAt ≤ r.expiresAt := by
    obtain ⟨r₁, hrow₁, hle⟩ := hn.stored (append_cons_append_cons _ _ _ _ _)
      (h₃.append hst'.single) (h₄.append hst.single) h₂ hrow'
    rw [hrow] at hrow₁
    cases hrow₁
    exact hle
  obtain ⟨_, _, _, t₁, -, -, ht₁, rfl⟩ := path_of_extended h₃ hst'
  obtain ⟨_, _, _, t₂, -, -, ht₂, rfl⟩ := path_of_extended h₁ hst
  obtain rfl := Option.some.inj ((expiryReading_append ht₁).symm.trans ht)
  obtain rfl := Option.some.inj (ht₂.symm.trans ht')
  rw [he, he'] at hle
  exact Int.le_of_add_le_add_right hle

/-- Refreshes never shorten a session in a run exactly if they update its expiry in the order
in which they read the clock for it. -/
theorem refresh_never_shortens_iff (hr : app.system.Run (.init w₀) ls c)
    (h₀ : app.IssuedWithin w₀) :
    NeverShortens app w₀ s ls c ↔
      app.system.RunUnder (fun ls _ l => InOrder (app.hashToken s) ls l) (.init w₀) ls c := by
  constructor
  · intro hn
    apply hr.under
    intro l₁ l l₂ hls
    exact inOrder_of_neverShortens hr hn hls
  · intro hu
    exact neverShortens_of_inOrder hu h₀

end App

namespace Recorded

def oneSecondLater : Instant := loginAt + 1000000

def laterExpiry : Instant := oneSecondLater + 3600 * 1000000

def twoRefreshes : List (Label Eff Eff.Answer Request) :=
  [.started 0 (.refreshSession authorization), .started 1 (.refreshSession authorization),
    .did 0 (.sql (.sessionByTokenHash sessionHash)) (.ok (some sessionRecord)),
    .did 0 .clock loginAt, .did 0 .clock loginAt,
    .did 1 (.sql (.sessionByTokenHash sessionHash)) (.ok (some sessionRecord)),
    .did 1 .clock oneSecondLater, .did 1 .clock oneSecondLater,
    .did 0 .clock oneSecondLater, .did 1 .clock oneSecondLater]

def firstUpdate : List (Label Eff Eff.Answer Request) :=
  [.did 0 (.sql (.updateExpiry sessionHash expiresAt oneSecondLater)) (.ok (some sessionRecord))]

def secondUpdate : List (Label Eff Eff.Answer Request) :=
  [.did 1 (.sql (.updateExpiry sessionHash laterExpiry oneSecondLater))
      (.ok (some { sessionRecord with expiresAt := laterExpiry })),
    .did 1 (.sql (.userById 1)) (.ok (some userRow))]

theorem issuedWithin_sessionWorld : recordedApp.IssuedWithin sessionWorld := by
  intro h r hrow
  have hmem : r ∈ [sessionRow] := (Database.sessionByHash_eq_some.1 hrow).1
  obtain rfl := List.mem_singleton.1 hmem
  decide

theorem refresh_never_shortens_iff_two :
    ∃ c, App.NeverShortens recordedApp sessionWorld sessionToken
        (twoRefreshes ++ (firstUpdate ++ secondUpdate)) c ∧
      c.Returned 1 (.ok (.sessionStatus true laterExpiry userRow.toProfile.toTokenUser)) := by
  obtain ⟨c, hrun, hret⟩ : ∃ c, recordedApp.system.RunUnder
      (fun ls _ l => App.InOrder (recordedApp.hashToken sessionToken) ls l) (.init sessionWorld)
        (twoRefreshes ++ (firstUpdate ++ secondUpdate)) c ∧ decide (c.result? 1 =
        some (.ok (.sessionStatus true laterExpiry userRow.toProfile.toTokenUser))) :=
    System.exists_runUnder choiceFor _ (by decide +kernel)
  have hnever := (App.refresh_never_shortens_iff hrun.run issuedWithin_sessionWorld).2 hrun
  exact ⟨c, hnever, Config.returned_of_result? (of_decide_eq_true hret)⟩

theorem refresh_shortens :
    ¬∀ (app : App) (w₀ : World) (s : String) (ls : List (Label Eff Eff.Answer Request))
      (c : Config Eff Eff.Answer World Request (Except Exc Response)),
      0 ≤ app.sessionTtlSeconds → app.IssuedWithin w₀ → app.system.Run (.init w₀) ls c →
        App.NeverShortens app w₀ s ls c := by
  intro h
  obtain ⟨c, hrun, hend⟩ : ∃ c, recordedApp.system.Run (.init sessionWorld)
      (twoRefreshes ++ (secondUpdate ++ firstUpdate)) c ∧ decide (c.result? 1 =
        some (.ok (.sessionStatus true laterExpiry userRow.toProfile.toTokenUser)) ∧
        (c.world.db.sessionByHash sessionHash).map (·.expiresAt) = some expiresAt) :=
    System.exists_run choiceFor _ (by decide +kernel)
  obtain ⟨hret, hstored⟩ := of_decide_eq_true hend
  have hnever := h recordedApp sessionWorld sessionToken _ c (by decide) issuedWithin_sessionWorld hrun
  have hm : .started 1 (.refreshSession authorization) ∈
      twoRefreshes ++ (secondUpdate ++ firstUpdate) :=
    List.mem_append_left _ (List.mem_cons_of_mem _ List.mem_cons_self)
  obtain ⟨r, hrow, hle⟩ := hnever.reported (List.append_nil _).symm hrun (.nil c) (.nil c) hm
    bearer_authorization (Config.returned_of_result? hret)
  have hr : r.expiresAt = expiresAt := by
    have hrow' : c.world.db.sessionByHash sessionHash = some r := hrow
    rw [hrow'] at hstored
    exact Option.some.inj hstored
  rw [hr] at hle
  exact absurd hle (by decide)

end Recorded

end WikiBackend
