import WikiBackend.Db.Statements
import WikiBackend.Effects.Schedule
import WikiBackend.Token.Service

/-! What a request handler asks of its environment, and how the world answers. -/

namespace WikiBackend

open Effects

inductive Eff where
  /-- `datetime.now(timezone.utc)`, and `time.time()` -/
  | clock
  /-- `secrets.token_urlsafe(32)` -/
  | tokenUrlsafe
  /-- `uuid4()` -/
  | uuid4
  | sql (q : Stmt)
  deriving DecidableEq

abbrev Eff.Answer : Eff → Type
  | clock => Instant
  | tokenUrlsafe => String
  | uuid4 => UUID
  | sql q => Except LibError q.Rows

instance (q : Stmt) : DecidableEq q.Rows := by
  cases q <;> exact inferInstance

instance (e : Eff) : DecidableEq e.Answer := by
  cases e <;> exact inferInstance

abbrev Act (α : Type) := Handler Eff Eff.Answer Exc α

abbrev Ev := Event Eff Eff.Answer

abbrev perform (e : Eff) : Act e.Answer := Handler.perform e

abbrev clock : Act Instant := perform .clock

abbrev tokenUrlsafe : Act String := perform .tokenUrlsafe

abbrev uuid4 : Act UUID := perform .uuid4

abbrev fromExcept {α : Type} (x : Except Exc α) : Act α := Handler.ofExcept x

def sql (q : Stmt) : Act q.Rows := do
  match ← perform (.sql q) with
  | .ok rows => pure rows
  | .error e => throw (.lib e)

/-- `try: x; except Exception: raise AppError(500, INTERNAL_ERROR)` -/
def orInternalError {α : Type} (x : Act α) : Act α :=
  tryCatch x fun _ => throw (appError 500 .internalError)

inductive Choice where
  | reading (now : Instant)
  | token (s : String)
  | uuid (u : UUID)
  | execute (s : ServerChoice)
  | fail (e : LibError)

/-- The clock never goes back, no session token is generated twice, and a
statement is executed or raises before it took effect. -/
def World.exec (fold : Char → Char) (w : World) (i : Nat) :
    (e : Eff) → Choice → Option (e.Answer × World)
  | .clock, .reading now => if w.clock ≤ now then some (now, { w with clock := now }) else none
  | .tokenUrlsafe, .token s =>
    if s ∈ w.tokens then none else some (s, { w with tokens := s :: w.tokens })
  | .uuid4, .uuid u => some (u, w)
  | .sql q, .execute s => some (q.execute fold s i w)
  | .sql q, .fail e => some (.error e, q.fail i w)
  | _, _ => none

/-- The same while nothing fails outside of the application: the server executes every statement,
and generates ids that are not in use. -/
def World.execUndisturbed (fold : Char → Char) (w : World) (i : Nat) :
    (e : Eff) → Choice → Option (e.Answer × World)
  | _, .fail _ => none
  | .sql (.insertSpace name), .execute s =>
    if s.uuid ∈ w.db.spaces.map (·.id) then none
    else w.exec fold i (.sql (.insertSpace name)) (.execute s)
  | e, choice => w.exec fold i e choice

def choiceFor : Ev → Choice
  | ⟨.clock, now⟩ => .reading now
  | ⟨.tokenUrlsafe, s⟩ => .token s
  | ⟨.uuid4, u⟩ => .uuid u
  | ⟨.sql (.insertSpace _), .ok u⟩ => .execute ⟨0, u, []⟩
  | ⟨.sql _, .ok _⟩ => .execute ⟨0, 0, []⟩
  | ⟨.sql _, .error e⟩ => .fail e

end WikiBackend
