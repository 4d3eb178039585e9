import WikiBackend.Effects.Pool

/-! Requests that leave no trace. When the operations of some requests change nothing that an
answer depends on, the run without these operations is a run with the same answers. -/

namespace Effects

variable {E : Type} {A : E → Type} {W Req Res C : Type}

def Label.shown (hidden : Nat → Bool) : Label E A Req → Bool
  | .started _ _ => true
  | .did i _ _ => !hidden i

namespace System

/-- Two worlds related by `B` allow the same answers and stay related, also when only the first
of them answers an operation of which `P` holds. -/
structure Hides (S : System E A W Req Res C) (P : Event E A → Prop) (B : W → W → Prop) : Prop where
  hidden : ∀ {w w₁ w' i e a}, S.Trans w i e a w₁ → P ⟨e, a⟩ → B w w' → B w₁ w'
  shown : ∀ {w w₁ w' i e a}, S.Trans w i e a w₁ → B w w' → ∃ w₁', S.Trans w' i e a w₁' ∧ B w₁ w₁'

structure Erased (B : W → W → Prop) (hidden : Nat → Bool) (c c' : Config E A W Req Res) : Prop where
  world : B c.world c'.world
  length : c'.procs.length = c.procs.length
  procs : ∀ i, hidden i = false → c'.procs[i]? = c.procs[i]?

variable {S : System E A W Req Res C} {P : Event E A → Prop} {B : W → W → Prop}
  {hidden : Nat → Bool} {c c₁ c' : Config E A W Req Res} {l : Label E A Req}
  {ls : List (Label E A Req)}

theorem Erased.hide {i : Nat} {e : E} {a : A e} (h : Erased B hidden c c')
    (hst : S.Step c (.did i e a) c₁) (hi : hidden i = true) (hw : B c₁.world c'.world) :
    Erased B hidden c₁ c' := by
  cases hst with
  | run hp ht =>
    refine ⟨hw, ?_, fun j hj => ?_⟩
    · rw [List.length_set]
      exact h.length
    · have hij : i ≠ j := by
        rintro rfl
        cases hi.symm.trans hj
      rw [List.getElem?_set_ne hij]
      exact h.procs j hj

theorem Erased.start {i : Nat} {req : Req} (h : Erased B hidden c c')
    (hst : S.Step c (.started i req) c₁) :
    ∃ c₁', S.Step c' (.started i req) c₁' ∧ Erased B hidden c₁ c₁' := by
  cases hst with
  | start =>
    have hst : S.Step c' (.started c.procs.length req)
        ⟨c'.world, c'.procs ++ [(req, S.body req)]⟩ := by
      rw [← h.length]
      exact .start req
    refine ⟨_, hst, h.world, ?_, fun j hj => ?_⟩
    · simp only [List.length_append, h.length]
    · simp only [List.getElem?_append, h.length, h.procs j hj]

theorem Erased.show {i : Nat} {e : E} {a : A e} {w' : W} (h : Erased B hidden c c')
    (hst : S.Step c (.did i e a) c₁) (hi : hidden i = false) (ht : S.Trans c'.world i e a w')
    (hw : B c₁.world w') : ∃ c₁', S.Step c' (.did i e a) c₁' ∧ Erased B hidden c₁ c₁' := by
  cases hst with
  | run hp _ =>
    refine ⟨_, .run ((h.procs i hi).trans hp) ht, hw, ?_, fun j hj => ?_⟩
    · simp only [List.length_set, h.length]
    · simp only [List.getElem?_set, h.length, h.procs j hj]

/-- The operations of the hidden requests can be left out of a run, if at each step of it the
worlds stay related: when only the first one answers a hidden operation, and with the same answer
of the second one to any other. -/
theorem Run.erase_of (h : S.Run c ls c₁)
    (hhidden : ∀ {l₁ l₂ i e a c₂ c₃ w'}, ls = l₁ ++ .did i e a :: l₂ → S.Run c l₁ c₂ →
      S.Step c₂ (.did i e a) c₃ → S.Run c₃ l₂ c₁ → hidden i = true → B c₂.world w' → B c₃.world w')
    (hshown : ∀ {l₁ l₂ i e a c₂ c₃ w'}, ls = l₁ ++ .did i e a :: l₂ → S.Run c l₁ c₂ →
      S.Step c₂ (.did i e a) c₃ → S.Run c₃ l₂ c₁ → hidden i = false → B c₂.world w' →
      ∃ w₁', S.Trans w' i e a w₁' ∧ B c₃.world w₁')
    (hc : Erased B hidden c c') :
    ∃ c₁', S.Run c' (ls.filter (·.shown hidden)) c₁' ∧ Erased B hidden c₁ c₁' := by
  induction h with
  | nil => exact ⟨c', .nil c', hc⟩
  | @snoc _ _ ls l h hst ih =>
    obtain ⟨c₂, hr, he⟩ := ih
      (fun hls h₁ hs h₂ => hhidden (by rw [hls]; exact List.append_assoc ..) h₁ hs (h₂.snoc hst))
      (fun hls h₁ hs h₂ => hshown (by rw [hls]; exact List.append_assoc ..) h₁ hs (h₂.snoc hst))
    rw [List.filter_append, List.filter_singleton]
    cases l with
    | started i req =>
      obtain ⟨c₃, hst', he'⟩ := he.start hst
      exact ⟨c₃, hr.snoc hst', he'⟩
    | did i e a =>
      cases hi : hidden i with
      | false =>
        obtain ⟨w', ht, hw⟩ := hshown rfl h hst (.nil _) hi he.world
        obtain ⟨c₃, hst', he'⟩ := he.show hst hi ht hw
        refine ⟨c₃, ?_, he'⟩
        rw [Label.shown, hi]
        exact hr.snoc hst'
      | true =>
        refine ⟨c₂, ?_, he.hide hst hi (hhidden rfl h hst (.nil _) hi he.world)⟩
        rw [Label.shown, hi, Bool.not_true, cond_false, List.append_nil]
        exact hr

theorem Run.erase (hB : S.Hides P B) (h : S.Run c ls c₁)
    (hP : ∀ i e a, hidden i = true → .did i e a ∈ ls → P ⟨e, a⟩) (hc : Erased B hidden c c') :
    ∃ c₁', S.Run c' (ls.filter (·.shown hidden)) c₁' ∧ Erased B hidden c₁ c₁' := by
  refine h.erase_of ?_ ?_ hc
  · rintro l₁ l₂ i e a c₂ c₃ w' rfl - hst - hi hw
    exact hB.hidden hst.trans (hP i e a hi (by simp)) hw
  · intro l₁ l₂ i e a c₂ c₃ w' _ _ hst _ _ hw
    exact hB.shown hst.trans hw

end System

end Effects
