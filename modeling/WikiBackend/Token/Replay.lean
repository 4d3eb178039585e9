import WikiBackend.Token.RoundTrip

/-! How long one token can be presented again. Nothing in the verification depends on the clock
but the age of the payload, which bounds the last time a token is accepted, not the first. -/

namespace WikiBackend

namespace TokenService

variable {L : Library} {svc : TokenService} {token : String} {t t' : Instant}
  {data : TokenPayload}

theorem verifyToken_eq_error {e : Exc} (hd : svc.decryptAndValidate L token = .ok data)
    (h : svc.verifyToken L t token = .error e) : data.createdAt + svc.ttlSeconds < unixTime t := by
  by_contra hle
  have hok : svc.verifyToken L t token = .ok data := verifyToken_eq_ok.2 ⟨hd, by omega⟩
  cases h.symm.trans hok

theorem rejected_later {e : Exc} (hd : svc.decryptAndValidate L token = .ok data)
    (h : svc.verifyToken L t token = .error e) (ht : t ≤ t') :
    svc.verifyToken L t' token = .error oauthCodeInvalid := by
  have hage := verifyToken_eq_error hd h
  have hmono := unixTime_mono ht
  cases hv : svc.verifyToken L t' token with
  | error e' => rw [verifyToken_error hv]
  | ok data' =>
    obtain ⟨hd', hle⟩ := verifyToken_eq_ok.1 hv
    cases hd.symm.trans hd'
    omega

/-- Two acceptances of one token give the same payload and are both within the time to live of
its `created_at`, so that they are no further apart than the time to live unless the payload is
dated after the first. A token accepted once and rejected later is rejected from then on. -/
theorem replay_window (L : Library) (svc : TokenService) (token : String) (t₁ t₂ : Instant) :
    (∀ data₁ data₂, svc.verifyToken L t₁ token = .ok data₁ →
      svc.verifyToken L t₂ token = .ok data₂ →
        data₂ = data₁ ∧ unixTime t₂ ≤ data₁.createdAt + svc.ttlSeconds ∧
        unixTime t₂ - unixTime t₁ ≤ svc.ttlSeconds + max 0 (data₁.createdAt - unixTime t₁)) ∧
    ∀ data₁ e, svc.verifyToken L t₁ token = .ok data₁ → svc.verifyToken L t₂ token = .error e →
      ∀ t, t₂ ≤ t → svc.verifyToken L t token = .error oauthCodeInvalid := by
  constructor
  · intro data₁ data₂ h₁ h₂
    obtain ⟨hd₁, -⟩ := verifyToken_eq_ok.1 h₁
    obtain ⟨hd₂, hage⟩ := verifyToken_eq_ok.1 h₂
    cases hd₁.symm.trans hd₂
    exact ⟨rfl, by omega, by omega⟩
  · intro data₁ e h₁ h₂ t ht'
    obtain ⟨hd, -⟩ := verifyToken_eq_ok.1 h₁
    exact rejected_later hd h₂ ht'

end TokenService

namespace Recorded

theorem replay_window_recorded :
    unixTime (1700000300 * 1000000) - unixTime (1700000000 * 1000000) ≤
      service.ttlSeconds + max 0 (data₁.createdAt - unixTime (1700000000 * 1000000)) := by
  have hwindow := TokenService.replay_window recordedLibrary service token₁
    (1700000000 * 1000000) (1700000300 * 1000000)
  exact (hwindow.1 data₁ data₁ (verifyToken₁ (by decide)) (verifyToken₁ (by decide))).2.2

theorem replay_of_future_token :
    ¬∀ (L : Library) (svc : TokenService) (token : String) (t₁ t₂ : Instant)
      (data₁ data₂ : TokenPayload), 0 ≤ svc.ttlSeconds → t₁ ≤ t₂ →
      svc.verifyToken L t₁ token = .ok data₁ → svc.verifyToken L t₂ token = .ok data₂ →
        unixTime t₂ - unixTime t₁ ≤ svc.ttlSeconds := by
  intro h
  have hle := h recordedLibrary service token₁ (1699999000 * 1000000) (1700000300 * 1000000)
    data₁ data₁ (by decide) (by decide) (verifyToken₁ (by decide)) (verifyToken₁ (by decide))
  exact absurd hle (by decide)

end Recorded

end WikiBackend
