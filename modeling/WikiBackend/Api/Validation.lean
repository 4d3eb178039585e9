import WikiBackend.Api.Routes

/-! What the framework does before it calls a route: it reads the body and the query parameters of
a request and validates their declared constraints. -/

namespace WikiBackend

open Effects

inductive RawBody where
  | absent
  /-- `json.loads` raises on it -/
  | unreadable (e : LibError)
  /-- not of a JSON media type, and kept as it is -/
  | bytes (data : Bytes)
  | json (v : Json)

inductive RawRequest where
  | createSpace (body : RawBody) (authorization : Option String)
  | searchUsers (q limit : Option String) (authorization : Option String)

def RawRequest.authorization : RawRequest → Option String
  | createSpace _ authorization => authorization
  | searchUsers _ _ authorization => authorization

section
variable (L : Library)

def constrainedStr (v : Json) : Except LibError String := do
  match ← L.validateStr v with
  | .text s => return s
  | .surrogates _ _ _ => throw .validationError

def SpaceCreateRequest.modelValidate : Json → Except LibError SpaceCreateRequest
  | .obj fields => do
    let name ← requiredField fields "name" (constrainedStr L)
    if h : 1 ≤ name.length ∧ name.length ≤ 255 then return ⟨name, h.1, h.2⟩
    else throw .validationError
  | _ => throw .validationError

def SearchQuery.validate (q limit : Option String) : Except LibError SearchQuery :=
  match q with
  | none => throw .validationError
  | some q => do
    let limit ←
      match limit with
      | none => pure 20
      | some limit => L.validateInt (.str limit)
    if h : (3 ≤ q.length ∧ q.length ≤ 64) ∧ 0 < limit ∧ limit ≤ 100 then
      return ⟨q, limit, h.1.1, h.1.2, h.2.1, h.2.2⟩
    else throw .validationError

def RawRequest.validate : RawRequest → Except ErrorResponse Request
  | createSpace body authorization =>
    match body with
    | .absent => .error validationExceptionHandler
    -- the framework raises a validation error for malformed JSON, and an HTTP error for the rest
    | .unreadable .jsonDecodeError => .error validationExceptionHandler
    | .unreadable _ => .error (httpExceptionHandler 400)
    | .bytes _ => .error validationExceptionHandler
    | .json v =>
      match SpaceCreateRequest.modelValidate L v with
      | .ok body => .ok (.createSpace body authorization)
      | .error _ => .error validationExceptionHandler
  | searchUsers q limit authorization =>
    match SearchQuery.validate L q limit with
    | .ok query => .ok (.searchUsers query authorization)
    | .error _ => .error validationExceptionHandler

end

def RawRequest.WellFormed (L : Library) (raw : RawRequest) : Prop := ∃ req, raw.validate L = .ok req

def App.serve (app : App) (raw : RawRequest) : Prog Eff Eff.Answer (Except ErrorResponse Response) :=
  match raw.validate app.lib with
  | .error response => pure (.error response)
  | .ok req => do
    let r ← (app.handler req).run
    return r.mapError handleException

/-- The application may answer the request like this while nothing fails outside of it. -/
def App.Responds (app : App) (w : World) (i : Nat) (raw : RawRequest)
    (r : Except ErrorResponse Response) : Prop :=
  ∃ evs w', Finishes (app.serve raw) evs r ∧ app.undisturbed.Answers i w evs w'

variable {app : App} {L : Library} {w w' : World} {i : Nat} {raw : RawRequest} {req : Request}
  {evs : List Ev} {r : Except ErrorResponse Response}

theorem RawRequest.validate_error {response : ErrorResponse}
    (h : raw.validate L = .error response) : response = validationExceptionHandler := by
  unfold RawRequest.validate at h
  split at h
  · split at h
    · cases h
      rfl
    · cases h
      rfl
    · cases h
      rfl
    · cases h
      rfl
    · split at h <;> cases h
      rfl
  · split at h <;> cases h
    rfl

theorem RawRequest.validate_ok (h : raw.validate L = .ok req) :
    (∃ body, req = .createSpace body raw.authorization) ∨
      ∃ query, req = .searchUsers query raw.authorization := by
  unfold RawRequest.validate at h
  split at h
  · split at h
    · cases h
    · cases h
    · cases h
    · cases h
    · split at h <;> cases h
      exact .inl ⟨_, rfl⟩
  · split at h <;> cases h
    exact .inr ⟨_, rfl⟩

theorem App.finishes_serve_ok (h : raw.validate app.lib = .ok req) :
    Finishes (app.serve raw) evs r ↔
      ∃ x, Finishes (app.handler req).run evs x ∧ r = x.mapError handleException := by
  have hserve : app.serve raw = (app.handler req).run.bind fun x =>
      .ret (x.mapError handleException) := by
    rw [App.serve, h]
    rfl
  rw [hserve, finishes_bind]
  constructor
  · rintro ⟨evs₁, x, evs₂, rfl, hf, hr⟩
    obtain ⟨rfl, rfl⟩ := finishes_ret.1 hr
    exact ⟨x, by rwa [List.append_nil], rfl⟩
  · rintro ⟨x, hf, rfl⟩
    exact ⟨evs, x, [], (List.append_nil evs).symm, hf, finishes_ret.2 ⟨rfl, rfl⟩⟩

theorem App.finishes_serve_error (h : ¬raw.WellFormed app.lib) :
    Finishes (app.serve raw) evs r ↔ evs = [] ∧ r = .error validationExceptionHandler := by
  cases hv : raw.validate app.lib with
  | ok req => exact absurd ⟨req, hv⟩ h
  | error response =>
    obtain rfl := RawRequest.validate_error hv
    simp only [App.serve, hv, finishes_pureProg]

end WikiBackend
