import Mathlib.Logic.Relation
import WikiBackend.Effects.Pool

/-! One program among others. Between two of its operations the others may do anything to the
world they share. -/

namespace Effects.System

variable {E : Type} {A : E → Type} {W Req Res C : Type} (S : System E A W Req Res C)

def Other (i : Nat) (w w' : W) : Prop := ∃ j e a, j ≠ i ∧ S.Trans w j e a w'

/-- The world answers `evs`, performed in this order by request `i` with others acting before
each of them, and the last answer leaves `w'`. -/
inductive Amid (i : Nat) : W → List (Event E A) → W → Prop where
  | nil (w : W) : Amid i w [] w
  | cons {w w₁ w₂ w' : W} {e : E} {a : A e} {evs : List (Event E A)} :
      Relation.ReflTransGen (S.Other i) w w₁ → S.Trans w₁ i e a w₂ → Amid i w₂ evs w' →
      Amid i w (⟨e, a⟩ :: evs) w'

variable {S} {w w' : W} {i : Nat} {evs : List (Event E A)}

theorem Answers.amid (h : S.Answers i w evs w') : S.Amid i w evs w' := by
  induction h with
  | nil => exact .nil _
  | cons ht _ ih => exact .cons .refl ht ih

theorem Amid.last {e : E} {a : A e} (h : S.Amid i w (evs ++ [⟨e, a⟩]) w') :
    ∃ m, S.Trans m i e a w' := by
  induction evs generalizing w with
  | nil =>
    rcases h with _ | ⟨-, ht, _ | _⟩
    exact ⟨_, ht⟩
  | cons ev evs ih =>
    rcases h with _ | ⟨-, -, h⟩
    exact ih h

theorem Amid.trans_of_mem {e : E} {a : A e} (h : S.Amid i w evs w') (hm : ⟨e, a⟩ ∈ evs) :
    ∃ m m', S.Trans m i e a m' := by
  induction h with
  | nil => cases hm
  | cons _ ht _ ih =>
    rcases List.mem_cons.1 hm with he | hm
    · cases he
      exact ⟨_, _, ht⟩
    · exact ih hm

end Effects.System
