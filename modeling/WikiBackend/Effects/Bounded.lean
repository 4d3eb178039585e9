import WikiBackend.Effects.Prog

/-! Programs that perform at most a given number of operations, whatever they are answered. -/

namespace Effects

variable {E : Type} {A : E → Type} {α β ε : Type} {m n : Nat}

def Prog.Bounded : Prog E A α → Nat → Prop
  | .ret _, _ => True
  | .op _ k, n => ∃ m, n = m + 1 ∧ ∀ a, (k a).Bounded m

theorem Prog.bounded_ret (a : α) : (.ret a : Prog E A α).Bounded n := trivial

theorem Prog.Bounded.mono {p : Prog E A α} (h : p.Bounded m) (hmn : m ≤ n) : p.Bounded n := by
  induction p generalizing m n with
  | ret a => exact bounded_ret a
  | op e k ih =>
    obtain ⟨m, rfl, hk⟩ := h
    obtain ⟨n, rfl⟩ := Nat.exists_eq_add_of_le' (Nat.le_trans (Nat.le_add_left 1 m) hmn)
    exact ⟨n, rfl, fun a => ih a (hk a) (Nat.le_of_succ_le_succ hmn)⟩

theorem Prog.Bounded.bind {p : Prog E A α} {f : α → Prog E A β} (h : p.Bounded m)
    (hf : ∀ a, (f a).Bounded n) : (p.bind f).Bounded (m + n) := by
  induction p generalizing m with
  | ret a => exact (hf a).mono (Nat.le_add_left n m)
  | op e k ih =>
    obtain ⟨m, rfl, hk⟩ := h
    exact ⟨m + n, Nat.add_right_comm m 1 n, fun a => ih a (hk a)⟩

/-! ## Programs that may raise -/

namespace Handler

def Bounded (n : Nat) (x : Handler E A ε α) : Prop := Prog.Bounded x.run n

theorem bounded_pure (a : α) : Bounded n (pure a : Handler E A ε α) := Prog.bounded_ret _

theorem bounded_throw (y : ε) : Bounded n (throw y : Handler E A ε α) := Prog.bounded_ret _

theorem bounded_ofExcept (y : Except ε α) : Bounded n (ofExcept y : Handler E A ε α) :=
  Prog.bounded_ret _

theorem bounded_perform (e : E) : Bounded 1 (perform e : Handler E A ε (A e)) :=
  ⟨0, rfl, fun _ => Prog.bounded_ret _⟩

variable {x : Handler E A ε α} {f : α → Handler E A ε β}

theorem Bounded.mono (h : Bounded m x) (hmn : m ≤ n) : Bounded n x := Prog.Bounded.mono h hmn

theorem Bounded.andThen (h : Bounded m x) (hf : ∀ a, Bounded n (f a)) :
    Bounded (m + n) (x >>= f) := by
  refine Prog.Bounded.bind h ?_
  rintro (y | a)
  · exact Prog.bounded_ret _
  · exact hf a

theorem Bounded.tryCatch {g : ε → Handler E A ε α} (h : Bounded m x) (hg : ∀ y, Bounded n (g y)) :
    Bounded (m + n) (tryCatch x g) := by
  refine Prog.Bounded.bind h ?_
  rintro (y | a)
  · exact hg y
  · exact Prog.bounded_ret _

end Handler

end Effects
