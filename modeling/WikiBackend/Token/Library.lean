import WikiBackend.Codec.Base64
import WikiBackend.Core.Errors
import WikiBackend.Core.Text

/-! Bytes, JSON values, and the library functions that the token code calls.
What the cryptographic and parsing libraries compute is left open; each of
them may raise. -/

namespace WikiBackend

abbrev Bytes := List UInt8

def encodeUtf8 (s : String) : Bytes := s.toUTF8.data.toList

def decodeUtf8 (b : Bytes) : Except LibError String :=
  match String.fromUTF8? ⟨b.toArray⟩ with
  | some s => .ok s
  | none => .error .unicodeDecodeError

theorem decodeUtf8_encodeUtf8 (s : String) : decodeUtf8 (encodeUtf8 s) = .ok s := by
  have h : (⟨(encodeUtf8 s).toArray⟩ : ByteArray) = s.toUTF8 := by simp [encodeUtf8]
  have hv : s.toUTF8.IsValidUTF8 := s.isValidUTF8
  simp only [decodeUtf8, h, String.fromUTF8?]
  rw [dif_pos hv]
  rfl

def hexdigest (b : Bytes) : String :=
  String.ofList (b.flatMap fun x => [Nat.digitChar (x.toNat / 16), Nat.digitChar (x.toNat % 16)])

theorem digitChar_inj : ∀ m < 16, ∀ n < 16, Nat.digitChar m = Nat.digitChar n → m = n := by decide

theorem digitChar_ne_space : ∀ n < 16, ' ' ≠ Nat.digitChar n := by decide

theorem space_notMem_hexdigest (b : Bytes) : ' ' ∉ (hexdigest b).toList := by
  rw [hexdigest, String.toList_ofList, List.mem_flatMap]
  rintro ⟨x, -, hx⟩
  have hlt := x.toNat_lt
  rcases List.mem_pair.1 hx with hx | hx
  · exact digitChar_ne_space _ (by omega) hx
  · exact digitChar_ne_space _ (by omega) hx

theorem hexdigest_injective : Function.Injective hexdigest := by
  intro b b' h
  replace h := String.ofList_injective h
  induction b generalizing b' with
  | nil => cases b' with
    | nil => rfl
    | cons y b' => simp at h
  | cons x b ih =>
    cases b' with
    | nil => simp at h
    | cons y b' =>
      simp only [List.flatMap_cons, List.cons_append, List.nil_append, List.cons.injEq] at h
      obtain ⟨hq, hr, h⟩ := h
      have hx := x.toNat_lt
      have hy := y.toNat_lt
      have hq := digitChar_inj _ (by omega) _ (by omega) hq
      have hr := digitChar_inj _ (by omega) _ (by omega) hr
      rw [ih h, UInt8.toNat_inj.1 (show x.toNat = y.toNat by omega)]

/-- A Python `float`: `mantissa * 2 ^ exponent`, or one of the special values. -/
inductive PyFloat where
  | finite (mantissa exponent : Int)
  | inf (negative : Bool)
  | nan
  deriving DecidableEq

inductive Json where
  | null
  | bool (b : Bool)
  | int (n : Int)
  | float (x : PyFloat)
  | str (s : PyStr)
  | arr (xs : List Json)
  | obj (fields : List (PyStr × Json))

abbrev Dict := List (PyStr × Json)

abbrev Dict.lookup (payload : Dict) (name : PyStr) : Option Json := List.lookup name payload

/-- The calls of `hashlib`, `hmac`, `Crypto.Cipher.AES` in CBC mode, `base64`, `json` and pydantic
that the token service and the issuer make. -/
structure Library where
  sha256 : Bytes → Bytes
  hmacSha256 : Bytes → Bytes → Bytes
  aesCbcEncrypt : Bytes → Bytes → Bytes → Except LibError Bytes
  aesCbcDecrypt : Bytes → Bytes → Bytes → Except LibError Bytes
  b64decodeValidate : String → Except LibError Bytes
  urlsafeB64decode : String → Except LibError Bytes
  jsonDumps : Json → String
  jsonLoads : String → Except LibError Json
  -- `json.loads` of the bytes of a JWT segment
  jsonLoadsBytes : Bytes → Except LibError Json
  -- fields declared `int` and `str`
  validateInt : Json → Except LibError Int
  validateStr : Json → Except LibError PyStr

/-! ## The base64 module -/

def b64decodeString (strict : Bool) (cs : List Char) : Except LibError Bytes :=
  if cs.any (128 ≤ ·.toNat) then .error .valueError
  else
    match Base64.decode strict cs with
    | some b => .ok b
    | none => .error .binasciiError

/-- `base64.b64decode(s, validate=True)` -/
def stdB64decodeValidate (s : String) : Except LibError Bytes := b64decodeString true s.toList

def stdUrlsafeB64decode (s : String) : Except LibError Bytes :=
  b64decodeString false (s.toList.map Base64.fromUrlSafe)

def b64encode (data : Bytes) : String := String.ofList (Base64.encode data)

theorem stdB64decodeValidate_b64encode (data : Bytes) :
    stdB64decodeValidate (b64encode data) = .ok data := by
  have h : (Base64.encode data).any (128 ≤ ·.toNat) = false := by
    rw [List.any_eq_false]
    intro c hc
    rcases Base64.mem_encode hc with rfl | ⟨v, hv, rfl⟩
    · decide
    · simpa using Base64.encodeChar_ascii hv
  simp [stdB64decodeValidate, b64decodeString, b64encode, h, Base64.decode_encode]

end WikiBackend
