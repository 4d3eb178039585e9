import WikiBackend.Token.RoundTrip

/-! Removing the padding is exactly the inverse of adding it, and everything else is refused. -/

namespace WikiBackend

inductive PaddingFault (data : Bytes) : Prop where
  | empty : data = [] → PaddingFault data
  | zero : data.getLast? = some 0 → PaddingFault data
  | large {last : UInt8} : data.getLast? = some last → 16 < last.toNat → PaddingFault data
  | inconsistent {last : UInt8} {i : Nat} : data.getLast? = some last →
      data.length - last.toNat ≤ i → i < data.length → data[i]? ≠ some last → PaddingFault data

variable {data data' y : Bytes} {last : UInt8}

theorem lastBytes_eq_replicate {n : Nat} (hn : n ≤ data.length) :
    lastBytes data n = List.replicate n last ↔
      ∀ i, data.length - n ≤ i → i < data.length → data[i]? = some last := by
  rw [lastBytes, List.eq_replicate_iff]
  constructor
  · rintro ⟨-, h⟩ i hi hlt
    have hmem : data[i] ∈ data.drop (data.length - n) :=
      List.mem_drop_iff_getElem.2 ⟨i - (data.length - n), by omega, getElem_congr_idx (Nat.add_sub_of_le hi)⟩
    rw [List.getElem?_eq_getElem hlt, h _ hmem]
  · intro h
    refine ⟨by rw [List.length_drop]; omega, fun c hc => ?_⟩
    obtain ⟨j, hj, rfl⟩ := List.mem_drop_iff_getElem.1 hc
    exact Option.some.inj ((List.getElem?_eq_getElem _).symm.trans (h _ (by omega) (by omega)))

structure Padded (data : Bytes) (last : UInt8) : Prop where
  getLast : data.getLast? = some last
  pos : 1 ≤ last.toNat
  le : last.toNat ≤ 16
  bytes : lastBytes data last.toNat = List.replicate last.toNat last

theorem pkcs7Unpad_eq_ok :
    pkcs7Unpad data = .ok y ↔ ∃ last, Padded data last ∧ y = dropLastBytes data last.toNat := by
  constructor
  · intro h
    simp only [pkcs7Unpad] at h
    split at h
    · cases h
    · next last hlast =>
      split_ifs at h with hrange hbytes
      rw [not_or, Nat.not_lt, Nat.not_lt] at hrange
      cases h
      exact ⟨last, ⟨hlast, hrange.1, hrange.2, not_not.1 hbytes⟩, rfl⟩
  · rintro ⟨last, ⟨hlast, hpos, hle, hbytes⟩, rfl⟩
    simp only [pkcs7Unpad, hlast]
    rw [if_neg (by simp only [ivLength]; omega), if_neg (not_not.2 hbytes)]
    rfl

theorem pkcs7Unpad_eq_error (h : ¬∃ last, Padded data last) :
    pkcs7Unpad data = .error oauthCodeInvalid := by
  simp only [pkcs7Unpad]
  split
  · rfl
  · next last hlast =>
    split_ifs with hrange hbytes
    · rfl
    · rfl
    · rw [not_or, Nat.not_lt, Nat.not_lt] at hrange
      exact absurd ⟨last, hlast, hrange.1, hrange.2, not_not.1 hbytes⟩ h

theorem Padded.le_length (h : Padded data last) (h16 : 16 ∣ data.length) :
    last.toNat ≤ data.length := by
  have hne : data ≠ [] := by
    rintro rfl
    exact absurd h.getLast (by simp)
  have hlen : 0 < data.length := List.length_pos_iff.2 hne
  have hle := h.le
  exact Nat.le_trans hle (Nat.le_of_dvd hlen h16)

theorem Padded.eq_pkcs7Pad (h : Padded data last) (h16 : 16 ∣ data.length) :
    data = pkcs7Pad (dropLastBytes data last.toNat) := by
  have hle := h.le_length h16
  have hpos := h.pos
  have hmax := h.le
  have hlen : (dropLastBytes data last.toNat).length = data.length - last.toNat := by
    rw [dropLastBytes, List.length_take]
    omega
  have hpad : 16 - (dropLastBytes data last.toNat).length % 16 = last.toNat := by
    rw [hlen]
    omega
  calc data = dropLastBytes data last.toNat ++ lastBytes data last.toNat :=
        (List.take_append_drop _ data).symm
    _ = dropLastBytes data last.toNat ++ List.replicate last.toNat (UInt8.ofNat last.toNat) := by
        rw [h.bytes, UInt8.ofNat_toNat]
    _ = pkcs7Pad (dropLastBytes data last.toNat) := by
        simp only [pkcs7Pad, hpad]

theorem pkcs7Unpad_eq_ok_iff (h16 : 16 ∣ data.length) :
    pkcs7Unpad data = .ok y ↔ data = pkcs7Pad y := by
  constructor
  · intro h
    obtain ⟨last, hp, rfl⟩ := pkcs7Unpad_eq_ok.1 h
    exact hp.eq_pkcs7Pad h16
  · rintro rfl
    exact pkcs7Unpad_pkcs7Pad y

theorem paddingFault_iff (h16 : 16 ∣ data.length) :
    PaddingFault data ↔ ¬∃ last, Padded data last := by
  constructor
  · rintro (rfl | hlast | ⟨hlast, hlarge⟩ | ⟨hlast, hi, hlt, hne⟩) ⟨last, hp⟩
    · exact absurd hp.getLast (by simp)
    · have hpos := hp.pos
      cases hlast.symm.trans hp.getLast
      exact absurd hpos (by decide)
    · cases hlast.symm.trans hp.getLast
      exact absurd hp.le (Nat.not_le.2 hlarge)
    · cases hlast.symm.trans hp.getLast
      exact hne ((lastBytes_eq_replicate (hp.le_length h16)).1 hp.bytes _ hi hlt)
  · intro h
    rcases hlast : data.getLast? with _ | last
    · exact .empty (List.getLast?_eq_none_iff.1 hlast)
    · have hne : data ≠ [] := by
        rintro rfl
        cases hlast
      have hlen : 16 ≤ data.length := Nat.le_of_dvd (List.length_pos_iff.2 hne) h16
      rcases Nat.eq_zero_or_pos last.toNat with hzero | hpos
      · exact .zero (by rw [hlast, ← UInt8.ofNat_toNat (x := last), hzero]; rfl)
      rcases Nat.lt_or_ge 16 last.toNat with hlarge | hle
      · exact .large hlast hlarge
      have hbytes : ¬∀ i, data.length - last.toNat ≤ i → i < data.length → data[i]? = some last :=
        fun hall => h ⟨last, hlast, hpos, hle, (lastBytes_eq_replicate (Nat.le_trans hle hlen)).2 hall⟩
      push Not at hbytes
      obtain ⟨i, hi, hlt, hne⟩ := hbytes
      exact .inconsistent hlast hi hlt hne

/-- On whole blocks: what is returned is what was padded, every fault is refused, and there is
no other outcome. -/
theorem pkcs7Unpad_inverse (h16 : 16 ∣ data.length) :
    (∀ y, pkcs7Unpad data = .ok y ↔ data = pkcs7Pad y) ∧
      (pkcs7Unpad data = .error oauthCodeInvalid ↔ PaddingFault data) ∧
      (PaddingFault data ↔ ∀ y, data ≠ pkcs7Pad y) ∧
      (∀ y, pkcs7Unpad (pkcs7Pad y) = .ok y) ∧
      ∀ data' y, 16 ∣ data'.length → pkcs7Unpad data = .ok y → pkcs7Unpad data' = .ok y →
        data = data' := by
  have hrefused : (¬∃ last, Padded data last) ↔ ∀ y, data ≠ pkcs7Pad y := by
    constructor
    · rintro h y rfl
      obtain ⟨last, hp, -⟩ := pkcs7Unpad_eq_ok.1 (pkcs7Unpad_pkcs7Pad y)
      exact h ⟨last, hp⟩
    · rintro h ⟨last, hp⟩
      exact h _ (hp.eq_pkcs7Pad h16)
  refine ⟨fun y => pkcs7Unpad_eq_ok_iff h16, ⟨fun h => ?_, fun h => ?_⟩, ?_, pkcs7Unpad_pkcs7Pad, ?_⟩
  · rw [paddingFault_iff h16, hrefused]
    rintro y rfl
    cases (pkcs7Unpad_pkcs7Pad y).symm.trans h
  · exact pkcs7Unpad_eq_error ((paddingFault_iff h16).1 h)
  · exact (paddingFault_iff h16).trans hrefused
  · intro data' y h16' h h'
    rw [(pkcs7Unpad_eq_ok_iff h16).1 h, (pkcs7Unpad_eq_ok_iff h16').1 h']

theorem pkcs7Unpad_inverse_block :
    (∀ y, pkcs7Unpad (pkcs7Pad [1, 2, 3]) = .ok y ↔ pkcs7Pad [1, 2, 3] = pkcs7Pad y) ∧
      pkcs7Unpad (pkcs7Pad [1, 2, 3]) = .ok [1, 2, 3] := by
  have h16 : 16 ∣ (pkcs7Pad [1, 2, 3]).length := dvd_length_pkcs7Pad _
  have h := pkcs7Unpad_inverse h16
  exact ⟨h.1, h.2.2.2.1 _⟩

end WikiBackend
