import Mathlib.Tactic.Common

/-! Error codes, exceptions, and the exception handlers that turn what a route
raises into a response. -/

namespace WikiBackend

inductive ErrorCode where
  | validationError
  | oauthCodeInvalid
  | oauthStateInvalid
  | sessionMissing
  | sessionExpired
  | rateLimitExceeded
  | internalError
  deriving DecidableEq

def ErrorCode.value : ErrorCode → String
  | validationError => "VALIDATION_ERROR"
  | oauthCodeInvalid => "OAUTH_CODE_INVALID"
  | oauthStateInvalid => "OAUTH_STATE_INVALID"
  | sessionMissing => "SESSION_MISSING"
  | sessionExpired => "SESSION_EXPIRED"
  | rateLimitExceeded => "RATE_LIMIT_EXCEEDED"
  | internalError => "INTERNAL_ERROR"

structure AppError where
  statusCode : Nat
  code : ErrorCode
  deriving DecidableEq

inductive PostgresError where
  | dataError
  | characterNotInRepertoire
  | stringDataRightTruncation
  | sequenceGeneratorLimitExceeded
  | integrityConstraintViolation
  | connectionError
  deriving DecidableEq

inductive LibError where
  | binasciiError
  | unicodeDecodeError
  | jsonDecodeError
  | validationError
  | valueError
  | overflowError
  | runtimeError (msg : String)
  | postgres (e : PostgresError)
  | other (name : String)
  deriving DecidableEq

/-- Python's `except ValueError` catches these, the first four as subclasses. -/
def LibError.isValueError : LibError → Bool
  | binasciiError | unicodeDecodeError | jsonDecodeError | validationError | valueError => true
  | _ => false

inductive Exc where
  | app (e : AppError)
  | lib (e : LibError)
  deriving DecidableEq

def Exc.isValueError : Exc → Bool
  | app _ => false
  | lib e => e.isValueError

abbrev appError (statusCode : Nat) (code : ErrorCode) : Exc := .app ⟨statusCode, code⟩

/-- Status and body of an error response; its timestamp is left out. -/
structure ErrorResponse where
  statusCode : Nat
  status : String
  message : String
  deriving DecidableEq

def errorPayload (statusCode : Nat) (code : ErrorCode) : ErrorResponse :=
  ⟨statusCode, "error", code.value⟩

def appErrorHandler (e : AppError) : ErrorResponse := errorPayload e.statusCode e.code

def validationExceptionHandler : ErrorResponse := errorPayload 400 .validationError

def httpExceptionHandler (statusCode : Nat) : ErrorResponse :=
  errorPayload statusCode
    (match statusCode with
    | 400 => .validationError
    | 401 => .oauthCodeInvalid
    | 422 => .validationError
    | 429 => .rateLimitExceeded
    | _ => .internalError)

def unhandledExceptionHandler (_ : LibError) : ErrorResponse := errorPayload 500 .internalError

def handleException : Exc → ErrorResponse
  | .app e => appErrorHandler e
  | .lib e => unhandledExceptionHandler e

theorem bind_eq_ok {ε α β : Type} {x : Except ε α} {f : α → Except ε β} {b : β} :
    (x >>= f) = .ok b ↔ ∃ a, x = .ok a ∧ f a = .ok b := by
  cases x with
  | error e => exact ⟨fun h => (nomatch h), fun ⟨_, h, _⟩ => (nomatch h)⟩
  | ok a => exact ⟨fun h => ⟨a, rfl, h⟩, fun ⟨_, h, h'⟩ => Except.ok.inj h ▸ h'⟩

end WikiBackend
