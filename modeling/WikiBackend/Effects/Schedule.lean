import WikiBackend.Effects.Pool

/-! Executing recorded runs. A record is checked step by step against the programs
and the world, which makes a run of it. -/

namespace Effects.System

variable {E : Type} {A : E → Type} {W Req Res C : Type} [∀ e, DecidableEq (A e)]
  {S : System E A W Req Res C} {choice : Event E A → C} {w w' : W} {i : Nat}

def answered (S : System E A W Req Res C) (choice : Event E A → C) (i : Nat) :
    W → List (Event E A) → Option W
  | w, [] => some w
  | w, ev :: evs =>
    match S.exec w i ev.1 (choice ev) with
    | some (a, w') => if a = ev.2 then answered S choice i w' evs else none
    | none => none

theorem answers_of_answered {evs : List (Event E A)} (h : answered S choice i w evs = some w') :
    S.Answers i w evs w' := by
  induction evs generalizing w with
  | nil =>
    cases h
    exact .nil _
  | cons ev evs ih =>
    simp only [answered] at h
    split at h
    · rename_i a w₁ hx
      split at h
      · rename_i ha
        exact .cons ⟨_, ha ▸ hx⟩ (ih h)
      · cases h
    · cases h

theorem exists_answers (choice : Event E A → C) (evs : List (Event E A)) {P : W → Bool}
    (h : (answered S choice i w evs).any P) : ∃ w', S.Answers i w evs w' ∧ P w' := by
  obtain ⟨w', hw, hp⟩ := (Option.any_eq_true _ _).1 h
  exact ⟨w', answers_of_answered hw, hp⟩

variable [DecidableEq E]

def stepped (S : System E A W Req Res C) (choice : Event E A → C) (c : Config E A W Req Res) :
    Label E A Req → Option (Config E A W Req Res)
  | .started i req =>
    if i = c.procs.length then some ⟨c.world, c.procs ++ [(req, S.body req)]⟩ else none
  | .did i e a =>
    match c.procs[i]? with
    | some (req, .op e' k) =>
      if he : e' = e then
        match S.exec c.world i e (choice ⟨e, a⟩) with
        | some (a', w) => if a' = a then some ⟨w, c.procs.set i (req, k (he ▸ a))⟩ else none
        | none => none
      else none
    | _ => none

def replayed (S : System E A W Req Res C) (choice : Event E A → C)
    (G : List (Label E A Req) → Config E A W Req Res → Label E A Req → Prop)
    [∀ ls c l, Decidable (G ls c l)] :
    List (Label E A Req) → Config E A W Req Res → List (Label E A Req) →
      Option (Config E A W Req Res)
  | _, c, [] => some c
  | ls, c, l :: ls' =>
    match stepped S choice c l with
    | some c' => if G ls c l then replayed S choice G (ls ++ [l]) c' ls' else none
    | none => none

variable {c c₀ c₁ : Config E A W Req Res} {l : Label E A Req} {ls ls' : List (Label E A Req)}
  {G : List (Label E A Req) → Config E A W Req Res → Label E A Req → Prop}

theorem step_of_stepped (h : stepped S choice c l = some c₁) : S.Step c l c₁ := by
  cases l with
  | started i req =>
    simp only [stepped] at h
    split at h <;> cases h
    rename_i hi
    subst hi
    exact .start req
  | did i e a =>
    simp only [stepped] at h
    split at h
    · rename_i req e' k hp
      split at h
      · rename_i he
        subst he
        split at h
        · rename_i a' w hx
          split at h <;> cases h
          rename_i ha
          exact .run hp ⟨_, ha ▸ hx⟩
        · cases h
      · cases h
    · cases h

theorem runUnder_of_replayed [∀ ls c l, Decidable (G ls c l)] (h₀ : S.RunUnder G c₀ ls c)
    (h : replayed S choice G ls c ls' = some c₁) : S.RunUnder G c₀ (ls ++ ls') c₁ := by
  induction ls' generalizing c ls with
  | nil =>
    cases h
    rwa [List.append_nil]
  | cons l ls' ih =>
    simp only [replayed] at h
    split at h
    · rename_i c' hs
      split at h
      · rename_i hg
        rw [List.append_cons]
        exact ih (.snoc h₀ (step_of_stepped hs) hg) h
      · cases h
    · cases h

theorem exists_runUnder [∀ ls c l, Decidable (G ls c l)] (choice : Event E A → C)
    (ls : List (Label E A Req)) {P : Config E A W Req Res → Bool}
    (h : (replayed S choice G [] c ls).any P) : ∃ c₁, S.RunUnder G c ls c₁ ∧ P c₁ := by
  obtain ⟨c₁, hc, hp⟩ := (Option.any_eq_true _ _).1 h
  exact ⟨c₁, runUnder_of_replayed (.nil c) hc, hp⟩

theorem exists_run (choice : Event E A → C) (ls : List (Label E A Req))
    {P : Config E A W Req Res → Bool}
    (h : (replayed S choice (fun _ _ _ => True) [] c ls).any P) : ∃ c₁, S.Run c ls c₁ ∧ P c₁ := by
  obtain ⟨c₁, hr, hp⟩ := exists_runUnder choice ls h
  exact ⟨c₁, hr.run, hp⟩

/-! ## Runs of known paths -/

def worldAfter (S : System E A W Req Res C) (choice : Event E A → C) :
    W → List (Label E A Req) → Option W
  | w, [] => some w
  | w, .started _ _ :: ls => worldAfter S choice w ls
  | w, .did i e a :: ls =>
    match S.exec w i e (choice ⟨e, a⟩) with
    | some (a', w') => if a' = a then worldAfter S choice w' ls else none
    | none => none

def numbered : Nat → List (Label E A Req) → Bool
  | _, [] => true
  | n, .started i _ :: ls => i == n && numbered (n + 1) ls
  | n, .did i _ _ :: ls => decide (i < n) && numbered n ls

omit [DecidableEq E] in
/-- A record is extended step by step, each program going along its own path. -/
theorem run_of_paths (h : S.Run (.init w) ls c) (hw : worldAfter S choice c.world ls' = some w')
    (hn : numbered c.procs.length ls')
    (hp : ∀ i req, .started i req ∈ ls ++ ls' →
      ∃ p, Follows (S.body req) (own i (ls ++ ls')) p) :
    ∃ c', S.Run (.init w) (ls ++ ls') c' ∧ c'.world = w' := by
  induction ls' generalizing ls c with
  | nil =>
    rw [List.append_nil]
    exact ⟨c, h, Option.some.inj hw⟩
  | cons l ls' ih =>
    rw [List.append_cons] at hp ⊢
    cases l with
    | started i req =>
      simp only [numbered, Bool.and_eq_true, beq_iff_eq] at hn
      obtain ⟨rfl, hn⟩ := hn
      refine ih (.snoc h (.start req)) hw ?_ hp
      rwa [List.length_append, List.length_singleton]
    | did i e a =>
      simp only [numbered, Bool.and_eq_true, decide_eq_true_eq] at hn
      obtain ⟨hi, hn⟩ := hn
      simp only [worldAfter] at hw
      split at hw
      · rename_i a' w₁ hx
        split at hw
        · rename_i ha
          subst ha
          obtain ⟨⟨req, p⟩, hproc⟩ : ∃ x, c.procs[i]? = some x :=
            ⟨_, List.getElem?_eq_getElem hi⟩
          obtain ⟨hm, hf⟩ := h.follows hproc
          -- the path of the program goes on with this operation
          obtain ⟨q, hq⟩ := hp i req (by simp [hm])
          rw [List.append_assoc, own_append, follows_append] at hq
          obtain ⟨m, hf', hq⟩ := hq
          obtain rfl := hf.unique hf'
          rw [List.singleton_append, own, if_pos rfl] at hq
          obtain ⟨k, rfl⟩ : ∃ k, p = .op e k := by
            cases hq with
            | cons _ => exact ⟨_, rfl⟩
          refine ih (.snoc h (.run hproc ⟨_, hx⟩)) hw ?_ hp
          rwa [List.length_set]
        · cases hw
      · cases hw

omit [DecidableEq E] in
theorem exists_run_of_paths (choice : Event E A → C) {P : W → Bool}
    (hw : (worldAfter S choice w ls).any P) (hn : numbered 0 ls)
    (hp : ∀ i req, .started i req ∈ ls → ∃ p, Follows (S.body req) (own i ls) p) :
    ∃ c, S.Run (.init w) ls c ∧ P c.world := by
  obtain ⟨w', hw', hP⟩ := (Option.any_eq_true _ _).1 hw
  obtain ⟨c, hr, rfl⟩ := run_of_paths (.nil (.init w)) hw' hn (by simpa using hp)
  exact ⟨c, hr, hP⟩

end Effects.System

namespace Effects.System

variable {E : Type} {A : E → Type} {W Req Res C : Type} {S : System E A W Req Res C}
  {c c₁ : Config E A W Req Res} {l : Label E A Req} {ls ls' : List (Label E A Req)}
  {P : List (Label E A Req) → Label E A Req → Prop} [∀ ls l, Decidable (P ls l)]

def meets (P : List (Label E A Req) → Label E A Req → Prop) [∀ ls l, Decidable (P ls l)] :
    List (Label E A Req) → List (Label E A Req) → Bool
  | _, [] => true
  | ls, l :: ls' => decide (P ls l) && meets P (ls ++ [l]) ls'

theorem of_meets {l₁ l₂ : List (Label E A Req)} (h : meets P ls ls') (hls : ls' = l₁ ++ l :: l₂) :
    P (ls ++ l₁) l := by
  induction l₁ generalizing ls ls' with
  | nil =>
    subst hls
    simp only [List.nil_append, meets, Bool.and_eq_true, decide_eq_true_eq] at h
    rw [List.append_nil]
    exact h.1
  | cons l' l₁ ih =>
    subst hls
    simp only [List.cons_append, meets, Bool.and_eq_true] at h
    rw [List.append_cons]
    exact ih h.2 rfl

theorem runUnder_of_meets (hr : S.Run c ls c₁) (h : meets P [] ls) :
    S.RunUnder (fun ls _ l => P ls l) c ls c₁ := by
  apply hr.under
  intro l₁ l l₂ hls
  exact of_meets h hls

end Effects.System
