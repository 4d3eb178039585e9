import WikiBackend.Token.Authentic

/-! Which payloads of authentic tokens are accepted: the raw JSON values of the fields against
the types they are declared with. -/

namespace WikiBackend

open TokenService

variable {L : Library} {svc : TokenService} {payload : Dict} {text token : String} {now : Instant}
  {data : TokenPayload}

/-! ## Typed fields -/

def Holds (payload : Dict) (name : String) (value : Option PyStr) : Prop :=
  payload.lookup name = some (optStr value)

def MayHold (payload : Dict) (name : String) (value : Option PyStr) : Prop :=
  Holds payload name value ∨ payload.lookup name = none ∧ value = none

structure TextFields (payload : Dict) (data : TokenPayload) : Prop where
  username : Holds payload "username" data.username
  firstName : MayHold payload "first_name" data.firstName
  lastName : MayHold payload "last_name" data.lastName
  photoUrl : MayHold payload "photo_url" data.photoUrl
  permission : MayHold payload "permission" data.permission

theorem requiredField_eq_ok {α : Type} {name : String} {a : α}
    {validate : Json → Except LibError α} :
    requiredField payload name validate = .ok a ↔
      ∃ v, payload.lookup name = some v ∧ validate v = .ok a := by
  unfold requiredField
  cases payload.lookup name with
  | none => simp
  | some v => simp

theorem validateOptStr_eq_ok (hC : L.Coerces) {v : Json} {a : Option PyStr} :
    validateOptStr L v = .ok a ↔ v = optStr a := by
  cases v with
  | null => cases a <;> simp [validateOptStr, optStr]
  | _ =>
    rename_i x
    cases a with
    | none =>
      simp only [validateOptStr, optStr, reduceCtorEq, iff_false]
      intro h
      generalize L.validateStr _ = y at h
      cases y <;> cases h
    | some s =>
      rw [optStr, ← hC.str, validateOptStr]
      · generalize L.validateStr _ = y
        cases y with
        | error e =>
          constructor
          · intro h
            cases h
          · intro h
            cases h
        | ok s' =>
          constructor
          · intro h
            exact congrArg _ (Option.some.inj (Except.ok.inj h))
          · intro h
            exact congrArg _ (congrArg _ (Except.ok.inj h))
      · intro h
        cases h

theorem defaultField_eq_ok (hC : L.Coerces) {name : String} {a : Option PyStr} :
    defaultField payload name none (validateOptStr L) = .ok a ↔ MayHold payload name a := by
  unfold defaultField MayHold Holds
  cases payload.lookup name with
  | none => simp [eq_comm]
  | some v => simp [validateOptStr_eq_ok hC]

theorem modelValidate_eq_ok (hC : L.Coerces) :
    modelValidate L payload = .ok data ↔
      (∃ v, payload.lookup "telegram_id" = some v ∧ Lax.asInt v = some data.telegramId) ∧
      (∃ v, payload.lookup "created_at" = some v ∧ Lax.asInt v = some data.createdAt) ∧
      TextFields payload data := by
  have husername {a : Option PyStr} :
      requiredField payload "username" (validateOptStr L) = .ok a ↔ Holds payload "username" a := by
    simp only [requiredField_eq_ok, validateOptStr_eq_ok hC, exists_eq_right, Holds]
  simp only [modelValidate, bind_eq_ok, husername, defaultField_eq_ok hC]
  simp only [requiredField_eq_ok, hC.int]
  constructor
  · rintro ⟨telegramId, htg, username, hu, createdAt, hc, _, hf, _, hl, _, hp, _, hm, h⟩
    cases h
    exact ⟨htg, hc, hu, hf, hl, hp, hm⟩
  · rintro ⟨htg, hc, hu, hf, hl, hp, hm⟩
    exact ⟨_, htg, _, hu, _, hc, _, hf, _, hl, _, hp, _, hm, rfl⟩

/-! ## Accepted types -/

def defaultFields : List String := ["first_name", "last_name", "photo_url", "permission"]

structure WellTyped (payload : Dict) : Prop where
  telegramId : ∃ n, payload.lookup "telegram_id" = some (.int n)
  createdAt : ∃ n, payload.lookup "created_at" = some (.int n)
  username : ∃ value, Holds payload "username" value
  texts : ∀ name ∈ defaultFields, ∃ value, MayHold payload name value

/-- `telegram_id` or `created_at` is a boolean, a float or a numeral that stands for an integer; the
other fields have the declared types, and the payload is fresh. -/
def TypeHole (ttlSeconds : Int) (now : Instant) (payload : Dict) : Prop :=
  ∃ v w n c, payload.lookup "telegram_id" = some v ∧ payload.lookup "created_at" = some w ∧
    (v = .int n ∨ Lax.Reads v n) ∧ (w = .int c ∨ Lax.Reads w c) ∧
    (Lax.Reads v n ∨ Lax.Reads w c) ∧
    (∃ value, Holds payload "username" value) ∧
    (∀ name ∈ defaultFields, ∃ value, MayHold payload name value) ∧
    unixTime now - c ≤ ttlSeconds

theorem TextFields.texts (h : TextFields payload data) :
    ∀ name ∈ defaultFields, ∃ value, MayHold payload name value := by
  intro name hname
  simp only [defaultFields, List.mem_cons, List.not_mem_nil, or_false] at hname
  rcases hname with rfl | rfl | rfl | rfl
  · exact ⟨_, h.firstName⟩
  · exact ⟨_, h.lastName⟩
  · exact ⟨_, h.photoUrl⟩
  · exact ⟨_, h.permission⟩

theorem exists_textFields {value : Option PyStr} (telegramId createdAt : Int)
    (hu : Holds payload "username" value)
    (ht : ∀ name ∈ defaultFields, ∃ value, MayHold payload name value) :
    ∃ data : TokenPayload, TextFields payload data ∧ data.telegramId = telegramId ∧
      data.createdAt = createdAt := by
  obtain ⟨firstName, hf⟩ := ht "first_name" (by decide)
  obtain ⟨lastName, hl⟩ := ht "last_name" (by decide)
  obtain ⟨photoUrl, hp⟩ := ht "photo_url" (by decide)
  obtain ⟨permission, hm⟩ := ht "permission" (by decide)
  exact ⟨⟨telegramId, value, createdAt, firstName, lastName, photoUrl, permission⟩,
    ⟨hu, hf, hl, hp, hm⟩, rfl, rfl⟩

def TypeSound (L : Library) (svc : TokenService) (now : Instant) (token : String)
    (payload : Dict) : Prop :=
  (∀ data, svc.verifyToken L now token = .ok data → WellTyped payload) ∧
    (¬WellTyped payload → svc.verifyToken L now token = .error oauthCodeInvalid)

/-- Accepted payloads have the declared types exactly where pydantic does not read anything but
an integer for a fresh integer. -/
theorem type_sound_iff (hL : L.Lawful) (hC : L.Coerces) (he : Encrypts L svc text token)
    (hp : Plaintext L payload text) :
    TypeSound L svc now token payload ↔ ¬TypeHole svc.ttlSeconds now payload := by
  constructor
  · rintro ⟨hsound, -⟩ ⟨v, w, n, c, hv, hw, hn, hc, hreads, ⟨value, hu⟩, ht, hage⟩
    obtain ⟨data, htext, rfl, rfl⟩ := exists_textFields n c hu ht
    have hval : modelValidate L payload = .ok data :=
      (modelValidate_eq_ok hC).2
        ⟨⟨v, hv, Lax.asInt_eq_some.2 hn⟩, ⟨w, hw, Lax.asInt_eq_some.2 hc⟩, htext⟩
    have htyped := hsound data ((verifyToken_of_encrypts hL he hp).2 ⟨hval, hage⟩)
    obtain ⟨m, hm⟩ := htyped.telegramId
    obtain ⟨m', hm'⟩ := htyped.createdAt
    rw [hv] at hm
    rw [hw] at hm'
    cases hm
    cases hm'
    -- neither value is a JSON integer and read as one
    rcases hreads with hreads | hreads <;> cases hreads
  · intro hhole
    have hsound : ∀ data, svc.verifyToken L now token = .ok data → WellTyped payload := by
      intro data hok
      obtain ⟨hval, hage⟩ := (verifyToken_of_encrypts hL he hp).1 hok
      obtain ⟨⟨v, hv, hn⟩, ⟨w, hw, hc⟩, htext⟩ := (modelValidate_eq_ok hC).1 hval
      replace hn := Lax.asInt_eq_some.1 hn
      replace hc := Lax.asInt_eq_some.1 hc
      have hint : ¬(Lax.Reads v data.telegramId ∨ Lax.Reads w data.createdAt) := fun hreads =>
        hhole ⟨v, w, _, _, hv, hw, hn, hc, hreads, ⟨_, htext.username⟩, htext.texts, hage⟩
      rw [not_or] at hint
      obtain rfl := hn.resolve_right hint.1
      obtain rfl := hc.resolve_right hint.2
      exact ⟨⟨_, hv⟩, ⟨_, hw⟩, ⟨_, htext.username⟩, htext.texts⟩
    refine ⟨hsound, ?_⟩
    intro htyped
    cases hv : svc.verifyToken L now token with
    | error e => rw [verifyToken_error hv]
    | ok data => exact absurd (hsound data hv) htyped

namespace Recorded

def numeralId : Recording where
  payload :=
    [("telegram_id", .str "123"), ("username", .str "ada"), ("created_at", .int 1700000000)]
  text := "\x7b\"telegram_id\": \"123\", \"username\": \"ada\", \"created_at\": 1700000000\x7d"
  iv := [48, 49, 50, 51, 52, 53, 54, 55, 56, 57, 58, 59, 60, 61, 62, 63]
  ciphertext :=
    [196, 255, 101, 61, 7, 252, 98, 211, 121, 92, 33, 161, 48, 94, 15, 27, 190, 217, 18, 54, 212,
     194, 153, 44, 199, 140, 68, 10, 50, 23, 26, 91, 68, 32, 145, 127, 6, 120, 4, 133, 250, 153,
     220, 189, 236, 185, 159, 230, 102, 214, 170, 66, 109, 44, 195, 80, 28, 77, 212, 93, 117, 50,
     203, 5, 90, 127, 20, 217, 224, 229, 70, 242, 181, 131, 91, 198, 55, 108, 172, 183]
  tag :=
    [83, 160, 102, 49, 68, 45, 220, 120, 199, 10, 1, 131, 149, 46, 243, 252, 187, 198, 201, 200,
     89, 49, 47, 245, 79, 252, 208, 207, 74, 88, 134, 92]
  ivLength := rfl
  ciphertextLength := by decide +kernel
  tagLength := rfl

theorem type_sound_iff_expired :
    TypeSound numeralId.library numeralId.service (1700000301 * 1000000) numeralId.token
      numeralId.payload := by
  apply (type_sound_iff numeralId.lawful numeralId.coerces numeralId.encrypts
    numeralId.plaintext).2
  rintro ⟨_, w, _, c, -, hw, -, hc, -, -, -, hage⟩
  cases hw
  rcases hc with hc | hc
  · cases hc
    exact absurd hage (by decide)
  · cases hc

theorem numeral_accepted :
    ¬∀ (L : Library) (svc : TokenService) (text token : String) (payload : Dict) (now : Instant),
      L.Lawful → L.Coerces → Encrypts L svc text token → Plaintext L payload text →
        TypeSound L svc now token payload := by
  intro h
  have hsound := h numeralId.library numeralId.service numeralId.text numeralId.token
    numeralId.payload (1700000000 * 1000000) numeralId.lawful numeralId.coerces numeralId.encrypts
    numeralId.plaintext
  have hid : Lax.asInt (.str "123") = some 123 := by decide +kernel
  have hval : modelValidate numeralId.library numeralId.payload =
      .ok ⟨123, some "ada", 1700000000, none, none, none, none⟩ :=
    (modelValidate_eq_ok numeralId.coerces).2 ⟨⟨_, rfl, hid⟩, ⟨_, rfl, rfl⟩,
      ⟨rfl, .inr ⟨rfl, rfl⟩, .inr ⟨rfl, rfl⟩, .inr ⟨rfl, rfl⟩, .inr ⟨rfl, rfl⟩⟩⟩
  have hok := (verifyToken_of_encrypts numeralId.lawful numeralId.encrypts numeralId.plaintext).2
    ⟨hval, show unixTime (1700000000 * 1000000) - 1700000000 ≤ 300 by decide⟩
  obtain ⟨n, hn⟩ := (hsound.1 _ hok).telegramId
  cases hn

end Recorded

/-! ## Documented payloads -/

/-- The documented payload: two integers, and five optional text fields. -/
structure Documents (payload : Dict) (data : TokenPayload) : Prop where
  telegramId : payload.lookup "telegram_id" = some (.int data.telegramId)
  createdAt : payload.lookup "created_at" = some (.int data.createdAt)
  username : MayHold payload "username" data.username
  firstName : MayHold payload "first_name" data.firstName
  lastName : MayHold payload "last_name" data.lastName
  photoUrl : MayHold payload "photo_url" data.photoUrl
  permission : MayHold payload "permission" data.permission

/-- A fresh documented payload is accepted, with its values, exactly if it has a `username`. -/
theorem documented_accepted_iff (hL : L.Lawful) (hV : L.Validates) (he : Encrypts L svc text token)
    (hp : Plaintext L payload text) (hd : Documents payload data)
    (hage : unixTime now - data.createdAt ≤ svc.ttlSeconds) :
    svc.verifyToken L now token = .ok data ↔ (payload.lookup "username").isSome := by
  rw [verifyToken_of_encrypts hL he hp]
  constructor
  · rintro ⟨hval, -⟩
    unfold modelValidate at hval
    cases hu : payload.lookup "username" with
    | some v => rfl
    | none =>
      have hmissing : requiredField payload "username" (validateOptStr L) = .error .validationError := by
        rw [requiredField, hu]
      rw [requiredField_eq hd.telegramId (hV.int _), hmissing] at hval
      cases hval
  · intro hsome
    have husername : Holds payload "username" data.username := by
      rcases hd.username with hu | ⟨hnone, -⟩
      · exact hu
      · rw [hnone] at hsome
        cases hsome
    exact ⟨modelValidate_of_describes hV ⟨hd.telegramId, husername, hd.createdAt, hd.firstName,
      hd.lastName, hd.photoUrl, hd.permission⟩, hage⟩

namespace Recorded

def withoutUsername : Recording where
  payload := [("telegram_id", .int 42), ("created_at", .int 1700000000)]
  text := "\x7b\"telegram_id\": 42, \"created_at\": 1700000000\x7d"
  iv := [64, 65, 66, 67, 68, 69, 70, 71, 72, 73, 74, 75, 76, 77, 78, 79]
  ciphertext :=
    [198, 160, 20, 33, 50, 2, 183, 74, 46, 137, 124, 104, 98, 172, 176, 80, 225, 54, 121, 162, 246,
     241, 118, 168, 159, 74, 146, 186, 63, 11, 236, 29, 220, 151, 234, 146, 212, 244, 119, 188, 23,
     165, 30, 240, 22, 158, 110, 230]
  tag :=
    [209, 33, 25, 163, 79, 1, 225, 248, 61, 183, 158, 136, 235, 124, 249, 196, 73, 214, 82, 32,
     189, 106, 85, 249, 178, 106, 1, 207, 168, 1, 183, 204]
  ivLength := rfl
  ciphertextLength := by decide +kernel
  tagLength := rfl

theorem documents_withoutUsername :
    Documents withoutUsername.payload ⟨42, none, 1700000000, none, none, none, none⟩ where
  telegramId := rfl
  createdAt := rfl
  username := .inr ⟨rfl, rfl⟩
  firstName := .inr ⟨rfl, rfl⟩
  lastName := .inr ⟨rfl, rfl⟩
  photoUrl := .inr ⟨rfl, rfl⟩
  permission := .inr ⟨rfl, rfl⟩

theorem documented_accepted_iff_without_username :
    withoutUsername.service.verifyToken withoutUsername.library (1700000000 * 1000000)
      withoutUsername.token ≠ .ok ⟨42, none, 1700000000, none, none, none, none⟩ := by
  intro hok
  have hsome := (documented_accepted_iff withoutUsername.lawful withoutUsername.coerces.validates
    withoutUsername.encrypts withoutUsername.plaintext documents_withoutUsername (by decide)).1 hok
  cases hsome

theorem without_username_rejected :
    ¬∀ (L : Library) (svc : TokenService) (text token : String) (payload : Dict)
      (data : TokenPayload) (now : Instant), L.Lawful → L.Validates → Encrypts L svc text token →
      Plaintext L payload text → Documents payload data →
      unixTime now - data.createdAt ≤ svc.ttlSeconds →
        svc.verifyToken L now token = .ok data := by
  intro h
  have hok := h withoutUsername.library withoutUsername.service withoutUsername.text
    withoutUsername.token withoutUsername.payload ⟨42, none, 1700000000, none, none, none, none⟩
    (1700000000 * 1000000) withoutUsername.lawful withoutUsername.coerces.validates
    withoutUsername.encrypts withoutUsername.plaintext documents_withoutUsername (by decide)
  have hval := ((verifyToken_of_encrypts withoutUsername.lawful withoutUsername.encrypts
    withoutUsername.plaintext).1 hok).1
  cases hval

end Recorded

end WikiBackend
