import WikiBackend.Core.Errors
import WikiBackend.Core.Text

/-! The settings of the application, read from environment variables. -/

namespace WikiBackend

abbrev Environ := String → Option String

def getenv (env : Environ) (name default : String) : String := (env name).getD default

/-! ## Integers in text -/

/-- The zeros of the decimal digits of Unicode; the other nine follow each of them. -/
def digitZeros : List Nat :=
  [0x30, 0x660, 0x6f0, 0x7c0, 0x966, 0x9e6, 0xa66, 0xae6, 0xb66, 0xbe6, 0xc66, 0xce6, 0xd66,
   0xde6, 0xe50, 0xed0, 0xf20, 0x1040, 0x1090, 0x17e0, 0x1810, 0x1946, 0x19d0, 0x1a80, 0x1a90,
   0x1b50, 0x1bb0, 0x1c40, 0x1c50, 0xa620, 0xa8d0, 0xa900, 0xa9d0, 0xa9f0, 0xaa50, 0xabf0, 0xff10,
   0x104a0, 0x10d30, 0x10d40, 0x11066, 0x110f0, 0x11136, 0x111d0, 0x112f0, 0x11450, 0x114d0,
   0x11650, 0x116c0, 0x116d0, 0x116da, 0x11730, 0x118e0, 0x11950, 0x11bf0, 0x11c50, 0x11d50,
   0x11da0, 0x11f50, 0x16130, 0x16a60, 0x16ac0, 0x16b50, 0x16d70, 0x1ccf0, 0x1d7ce, 0x1d7d8,
   0x1d7e2, 0x1d7ec, 0x1d7f6, 0x1e140, 0x1e2f0, 0x1e4f0, 0x1e5f1, 0x1e950, 0x1fbf0]

def digitValue (c : Char) : Option Nat :=
  (digitZeros.find? fun z => z ≤ c.toNat && c.toNat < z + 10).map (c.toNat - ·)

def readDigits : List Char → Option (List Nat)
  | [] => none
  | c :: cs => do
    let digit ← digitValue c
    match cs with
    | [] => return [digit]
    | '_' :: cs => return digit :: (← readDigits cs)
    | cs => return digit :: (← readDigits cs)

/-- The most digits that `int` converts. -/
def maxStrDigits : Nat := 4300

def pyInt (s : String) : Except LibError Int :=
  let (negative, digits) :=
    match trimChars isWhiteSpace s.toList with
    | '-' :: cs => (true, cs)
    | '+' :: cs => (false, cs)
    | cs => (false, cs)
  match readDigits digits with
  | none => .error .valueError
  | some digits =>
    if digits.length > maxStrDigits then .error .valueError
    else
      let n : Nat := digits.foldl (fun n digit => 10 * n + digit) 0
      .ok (if negative then -n else n)

example : pyInt " -1_000 " = .ok (-1000) := by decide +kernel

-- `str.strip` removes this character, `int` does not skip it
example : pyInt "\x1c5" = .error .valueError := by decide +kernel

/-! ## Settings -/

structure Settings where
  oauthNameApplicationId : String
  oauthNameSecretKey : String
  tokenTtlSeconds : Int
  sessionTtlSeconds : Int
  corsOrigins : List String
  deriving DecidableEq

def envRequired (env : Environ) (name : String) : Except LibError String :=
  match env name with
  | none => .error (.runtimeError s!"Missing required environment variable: {name}")
  | some value =>
    if strip value = "" then .error (.runtimeError s!"Missing required environment variable: {name}")
    else .ok (strip value)

def envIntRequired (env : Environ) (name : String) : Except LibError Int := do
  let value ← envRequired env name
  match pyInt value with
  | .ok n => return n
  | .error e =>
    if e.isValueError then throw (.runtimeError s!"Invalid integer for {name}") else throw e

def getSettings (env : Environ) : Except LibError Settings := do
  let applicationId ← envRequired env "OAUTH_NAME_APPLICATION_ID"
  let secretKey ← envRequired env "OAUTH_NAME_SECRET_KEY"
  let tokenTtlSeconds ← envIntRequired env "TOKEN_TTL_SECONDS"
  let sessionTtlSeconds ← envIntRequired env "SESSION_TTL_SECONDS"
  let corsOrigins := ((getenv env "CORS_ORIGINS" "*").toList.splitOn ',').map fun origin =>
    String.ofList (stripChars origin)
  return ⟨applicationId, secretKey, tokenTtlSeconds, sessionTtlSeconds, corsOrigins⟩

theorem envRequired_eq_ok {env : Environ} {name value : String}
    (h : envRequired env name = .ok value) : ∃ raw, env name = some raw ∧ value = strip raw := by
  unfold envRequired at h
  cases he : env name with
  | none =>
    rw [he] at h
    cases h
  | some raw =>
    rw [he] at h
    simp only at h
    split at h
    · cases h
    · exact ⟨raw, rfl, (Except.ok.inj h).symm⟩

theorem secrets_of_getSettings {env : Environ} {settings : Settings}
    (h : getSettings env = .ok settings) :
    ∃ applicationId secretKey, env "OAUTH_NAME_APPLICATION_ID" = some applicationId ∧
      env "OAUTH_NAME_SECRET_KEY" = some secretKey ∧
      settings.oauthNameApplicationId = strip applicationId ∧
      settings.oauthNameSecretKey = strip secretKey := by
  simp only [getSettings, bind_eq_ok] at h
  obtain ⟨_, hid, _, hsk, _, -, _, -, h⟩ := h
  cases h
  obtain ⟨applicationId, hid', rfl⟩ := envRequired_eq_ok hid
  obtain ⟨secretKey, hsk', rfl⟩ := envRequired_eq_ok hsk
  exact ⟨applicationId, secretKey, hid', hsk', rfl, rfl⟩

end WikiBackend
