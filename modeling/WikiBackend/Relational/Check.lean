import WikiBackend.Relational.Migration

/-! A check of migration scripts that runs on the catalog alone. A script that passes it succeeds
on every store of that catalog whose rows meet the known requirements. -/

namespace Relational

variable {τ κ ν : Type} [DecidableEq τ] [DecidableEq κ] [DecidableEq ν]

namespace Requirement

def into (t : τ) : Requirement τ κ → Bool
  | .references t₁ _ t₂ _ => t₂ = t && t₁ ≠ t
  | _ => false

def mentions (t : τ) (c : κ) : Requirement τ κ → Bool
  | .typed t' c' _ | .notNull t' c' => t' = t && c' = c
  | .unique t' cs => t' = t && c ∈ cs
  | .references t₁ c₁ t₂ c₂ => (t₁ = t && c₁ = c) || (t₂ = t && c₂ = c)

def types (t : τ) (c : κ) (p : ColType → Bool) : Requirement τ κ → Bool
  | .typed t' c' type => t' = t && c' = c && p type
  | _ => false

def refers (t : τ) (c : κ) (p : τ → κ → Bool) : Requirement τ κ → Bool
  | .references t₁ c₁ t₂ c₂ => t₁ = t && c₁ = c && p t₂ c₂
  | _ => false

end Requirement

variable {d d' : Rows τ κ} {q : Requirement τ κ} {t : τ} {c : κ} {type : ColType}
  {known : Finset (Requirement τ κ)}

/-! ## What rewritten rows still meet -/

omit [DecidableEq κ] in
theorem Requirement.keys_eq {cs : List κ} {p : κ → Prop} {rs rs' : List (Row κ)}
    (h : SameRows p rs rs') (hcs : ∀ c ∈ cs, p c) : keys cs rs' = keys cs rs := by
  unfold keys
  rw [h.map_eq]
  intro r r' hr
  exact List.map_congr_left fun c hc => hr c (hcs c hc)

theorem Requirement.holds_of_sameRows (h : ∀ t, SameRows (fun c => q.mentions t c) (d t) (d' t))
    (hq : q.Holds d) : q.Holds d' := by
  cases q with
  | typed t c type =>
    have hv := (h t).values_eq (c := c) (by simp [mentions])
    have hq : ∀ v ∈ (d t).map (· c), type.admits v := List.forall_mem_map.2 hq
    exact List.forall_mem_map.1 (hv ▸ hq)
  | notNull t c =>
    have hv := (h t).values_eq (c := c) (by simp [mentions])
    have hq : ∀ v ∈ (d t).map (· c), v ≠ .null := List.forall_mem_map.2 hq
    rw [← hv] at hq
    intro r hr
    exact hq _ (List.mem_map_of_mem hr)
  | unique t cs =>
    have hk : keys cs (d' t) = keys cs (d t) :=
      keys_eq (h t) fun c hc => by simpa [mentions] using hc
    simp only [Holds, hk]
    exact hq
  | references t c t' c' =>
    have hv := (h t).values_eq (c := c) (by simp [mentions])
    have hv' := (h t').values_eq (c := c') (by simp [mentions])
    have hq : ∀ v ∈ (d t).map (· c), v = .null ∨ v ∈ (d t').map (· c') := by
      rw [List.forall_mem_map]
      intro r hr
      apply (hq r hr).imp_right
      rintro ⟨r', hr', he⟩
      exact he ▸ List.mem_map_of_mem hr'
    rw [← hv, ← hv', List.forall_mem_map] at hq
    intro r hr
    exact (hq r hr).imp_right List.mem_map.1

omit [DecidableEq κ] in
theorem Requirement.holds_of_cleared (hi : !q.into t) (hq : q.Holds d) :
    q.Holds (Function.update d t []) := by
  by_cases hs : q.source = t
  · exact holds_of_empty (by rw [hs, Function.update_self])
  · cases q with
    | references t₁ c₁ t₂ c₂ =>
      have hs' : t₁ ≠ t := hs
      have ht : t₂ ≠ t := by
        rintro rfl
        simp [into, hs'] at hi
      simp only [Holds, Function.update_of_ne hs', Function.update_of_ne ht]
      exact hq
    | typed t' _ _ | notNull t' _ | unique t' _ =>
      have hs' : t' ≠ t := hs
      simp only [Holds, Function.update_of_ne hs']
      exact hq

/-! ## What is known after a statement -/

def Column.filled (t : τ) (c : Column κ) : Finset (Requirement τ κ) :=
  (if c.type.admits (c.fill 0) then {.typed t c.name c.type} else ∅) ∪
    if c.fill 0 = .null then ∅ else {.notNull t c.name}

def Op.carry (known : Finset (Requirement τ κ)) : Op τ κ ν → Finset (Requirement τ κ)
  | .createTable t columns constraints =>
    known.filter (fun q => !q.into t) ∪
      ((tableObjects t columns constraints).flatMap Object.requirements).toFinset
  | .dropTable t => known.filter fun q => !q.into t
  | .addColumn t c => known.filter (fun q => !q.mentions t c.name) ∪ c.filled t
  | .dropColumn t c => known.filter fun q => !q.mentions t c
  | _ => known

theorem Column.holds_of_mem_filled {c : Column κ} (now : Int) (h : q ∈ c.filled t) :
    q.Holds (d.setColumn t c.name (c.fill now)) := by
  have hrows : ∀ r ∈ d.setColumn t c.name (c.fill now) t, r c.name = c.fill now := by
    rw [Rows.setColumn, Function.update_self, List.forall_mem_map]
    intro r _
    exact Function.update_self ..
  simp only [filled, Finset.mem_union] at h
  rcases h with h | h
  · split at h
    · next ha =>
      rw [Finset.mem_singleton.1 h]
      intro r hr
      rw [hrows r hr]
      unfold fill at ha ⊢
      split
      · next hd =>
        rw [if_pos hd] at ha
        cases htype : c.type <;> rw [htype] at ha <;> first | rfl | cases ha
      · cases htype : c.type <;> rfl
    · exact absurd h (Finset.notMem_empty _)
  · split at h
    · exact absurd h (Finset.notMem_empty _)
    · next hn =>
      rw [Finset.mem_singleton.1 h]
      intro r hr
      rw [hrows r hr]
      unfold fill at hn ⊢
      split
      · intro h
        cases h
      · next hd => exact absurd (if_neg hd) hn

omit [DecidableEq τ] [DecidableEq κ] [DecidableEq ν] in
theorem Object.source_of_mem_table {columns : List (Column κ)}
    {constraints : List (ν × Constraint τ κ)}
    (h : q ∈ (tableObjects t columns constraints).flatMap Object.requirements) : q.source = t := by
  obtain ⟨o, ho, hq⟩ := List.mem_flatMap.1 h
  rw [source_of_mem hq]
  simp only [tableObjects, List.mem_cons, List.mem_append, List.mem_map] at ho
  obtain rfl | ⟨_, -, rfl⟩ | ⟨_, -, rfl⟩ := ho <;> rfl

omit [DecidableEq ν] in
theorem Op.holds_of_mem_carry {op : Op τ κ ν} (now : Int) (hk : ∀ q ∈ known, q.Holds d)
    (h : q ∈ op.carry known) : q.Holds (op.rewrite now d) := by
  have hset {t : τ} {c : κ} {v : Value} (h : q ∈ known.filter fun q => !q.mentions t c) :
      q.Holds (d.setColumn t c v) := by
    obtain ⟨hq, hm⟩ := Finset.mem_filter.1 h
    refine Requirement.holds_of_sameRows (fun t' => sameRows_setColumn ?_) (hk q hq)
    rintro c' hc' rfl rfl
    simp [hc'] at hm
  have hclear {t : τ} (h : q ∈ known.filter fun q => !q.into t) :
      q.Holds (Function.update d t []) := by
    obtain ⟨hq, hi⟩ := Finset.mem_filter.1 h
    exact Requirement.holds_of_cleared hi (hk q hq)
  cases op with
  | createTable t columns constraints =>
    rcases Finset.mem_union.1 h with h | h
    · exact hclear h
    · apply Requirement.holds_of_empty
      rw [Object.source_of_mem_table (List.mem_toFinset.1 h)]
      exact Function.update_self ..
  | dropTable t => exact hclear h
  | addColumn t c =>
    rcases Finset.mem_union.1 h with h | h
    · exact hset h
    · exact Column.holds_of_mem_filled now h
  | dropColumn t c => exact hset h
  | _ => exact hk q h

/-! ## The check -/

def Typed (known : Finset (Requirement τ κ)) (t : τ) (c : κ) (type : ColType) : Prop :=
  ∃ q ∈ known, q.types t c (·.narrower type)

instance : Decidable (Typed known t c type) := by
  unfold Typed
  infer_instance

/-- A value has the types of the column that it is in, and of those that this one refers to. -/
def Requirement.follows (known : Finset (Requirement τ κ)) : Requirement τ κ → Bool
  | .typed t c type =>
    Typed known t c type ∨ ∃ q ∈ known, q.refers t c fun t' c' => Typed known t' c' type
  | _ => false

def Implies (known : Finset (Requirement τ κ)) (q : Requirement τ κ) : Prop :=
  q ∈ known ∨ q.follows known

instance : Decidable (Implies known q) := by
  unfold Implies
  infer_instance

theorem holds_of_typed (hk : ∀ q ∈ known, q.Holds d) (h : Typed known t c type) :
    ∀ r ∈ d t, type.admits (r c) := by
  obtain ⟨q, hq, ht⟩ := h
  cases q with
  | typed t' c' type' =>
    simp only [Requirement.types, Bool.and_eq_true, decide_eq_true_eq] at ht
    obtain ⟨⟨rfl, rfl⟩, hn⟩ := ht
    intro r hr
    exact ColType.admits_of_narrower hn (hk _ hq r hr)
  | _ => cases ht

theorem ColType.admits_null (type : ColType) : type.admits .null := by
  cases type <;> rfl

theorem holds_of_implies (hk : ∀ q ∈ known, q.Holds d) (h : Implies known q) : q.Holds d := by
  rcases h with h | h
  · exact hk q h
  cases q with
  | typed t c type =>
    rcases of_decide_eq_true h with h | ⟨q, hq, hr⟩
    · exact holds_of_typed hk h
    cases q with
    | references t₁ c₁ t₂ c₂ =>
      simp only [Requirement.refers, Bool.and_eq_true, decide_eq_true_eq] at hr
      obtain ⟨⟨rfl, rfl⟩, ht⟩ := hr
      intro r hr
      rcases hk _ hq r hr with hn | ⟨r', hr', he⟩
      · rw [hn]
        exact type.admits_null
      · rw [← he]
        exact holds_of_typed hk ht r' hr'
    | _ => cases hr
  | _ => cases h

def check : List (Op τ κ ν) → Catalog τ κ ν → Finset (Requirement τ κ) → Option (Catalog τ κ ν)
  | [], s, _ => some s
  | op :: ops, s, known =>
    match op.alter s with
    | .ok s =>
      if s.Sound ∧ ∀ o ∈ s, ∀ q ∈ o.requirements, Implies (op.carry known) q then
        check ops s (op.carry known)
      else none
    | .error _ => none

variable {now : Int} {op : Op τ κ ν} {ops : List (Op τ κ ν)} {db db' : Store τ κ ν}
  {s s' : Catalog τ κ ν}

theorem check_cons : check (op :: ops) s known = some s' ↔
    ∃ s₁ : Catalog τ κ ν, op.alter s = .ok s₁ ∧ s₁.Sound ∧
      (∀ o ∈ s₁, ∀ q ∈ o.requirements, Implies (op.carry known) q) ∧
      check ops s₁ (op.carry known) = some s' := by
  simp only [check]
  constructor
  · intro h
    split at h
    · next s₁ hs =>
      split at h
      · next hc => exact ⟨s₁, hs, hc.1, hc.2, h⟩
      · cases h
    · cases h
  · rintro ⟨s₁, hs, hsound, hq, h⟩
    rw [hs]
    simp only
    rw [if_pos ⟨hsound, hq⟩]
    exact h

theorem alterAll_of_check (h : check ops s known = some s') : alterAll ops s = .ok s' := by
  induction ops generalizing s known with
  | nil =>
    cases h
    rfl
  | cons op ops ih =>
    obtain ⟨s₁, hs, -, -, h⟩ := check_cons.1 h
    simp only [alterAll, hs]
    exact ih h

/-- A script that passes the check succeeds. -/
theorem run_of_check (now : Int) (h : check ops db.catalog known = some s)
    (hk : ∀ q ∈ known, q.Holds db.rows) :
    ∃ db', run now ops db = .ok db' ∧ db'.catalog = s ∧
      ∀ q ∈ ops.foldl Op.carry known, q.Holds db'.rows := by
  induction ops generalizing db known with
  | nil =>
    cases h
    exact ⟨db, rfl, rfl, hk⟩
  | cons op ops ih =>
    obtain ⟨s₁, hs, hsound, hq, h⟩ := check_cons.1 h
    have hk₁ : ∀ q ∈ op.carry known, q.Holds (op.rewrite now db.rows) :=
      fun q => Op.holds_of_mem_carry now hk
    have hvalid : s₁.Valid (op.rewrite now db.rows) := by
      intro q hm
      obtain ⟨o, ho, hm⟩ := Catalog.mem_requirements.1 hm
      exact holds_of_implies hk₁ (hq o ho q hm)
    have hstep : ∃ db₁ : Store τ κ ν, db₁.catalog = s₁ ∧ db₁.rows = op.rewrite now db.rows :=
      ⟨⟨s₁, _, hsound, hvalid⟩, rfl, rfl⟩
    obtain ⟨db₁, rfl, hrows⟩ := hstep
    obtain ⟨db', hrun, hcat, hk'⟩ := ih h (hrows ▸ hk₁)
    exact ⟨db', run_cons.2 ⟨db₁, Op.apply_eq_ok.2 ⟨hs, hrows⟩, hrun⟩, hcat, hk'⟩

omit [DecidableEq ν] in
theorem unique_mem_carry {cs : List κ} (hs : ∀ c ∈ cs, !op.sets t c)
    (hm : .unique t cs ∈ known) : .unique t cs ∈ op.carry known := by
  have hset {t' : τ} {c' : κ} (h : ∀ c ∈ cs, t' = t → c' ≠ c) :
      .unique t cs ∈ known.filter fun q => !q.mentions t' c' := by
    refine Finset.mem_filter.2 ⟨hm, ?_⟩
    simp only [Requirement.mentions, Bool.not_eq_true', Bool.and_eq_false_iff,
      decide_eq_false_iff_not]
    by_cases ht : t = t'
    · exact .inr fun hc => h c' hc ht.symm rfl
    · exact .inl ht
  cases op with
  | createTable t' _ _ => exact Finset.mem_union_left _ (Finset.mem_filter.2 ⟨hm, rfl⟩)
  | dropTable t' => exact Finset.mem_filter.2 ⟨hm, rfl⟩
  | addColumn t' c' =>
    refine Finset.mem_union_left _ (hset ?_)
    rintro c hc rfl rfl
    simpa [Op.sets] using hs _ hc
  | dropColumn t' c' =>
    apply hset
    rintro c hc rfl rfl
    simpa [Op.sets] using hs _ hc
  | _ => exact hm

theorem unique_of_run {cs : List κ} (h : run now ops db = .ok db')
    (hs : ∀ op ∈ ops, ∀ c ∈ cs, !op.sets t c) (hu : (Requirement.unique t cs).Holds db.rows) :
    (Requirement.unique t cs).Holds db'.rows := by
  induction ops generalizing db with
  | nil =>
    cases h
    exact hu
  | cons op ops ih =>
    obtain ⟨db₁, hop, h⟩ := run_cons.1 h
    rw [List.forall_mem_cons] at hs
    refine ih h hs.2 ?_
    rw [(Op.apply_eq_ok.1 hop).2]
    have hone : ∀ q ∈ ({.unique t cs} : Finset (Requirement τ κ)), q.Holds db.rows := by
      intro q hq
      rwa [Finset.mem_singleton.1 hq]
    exact Op.holds_of_mem_carry now hone (unique_mem_carry hs.1 (Finset.mem_singleton_self _))

end Relational
