import Mathlib.Data.List.Basic
import Mathlib.Tactic.Common

/-! Programs that talk to an environment, as trees of operations and answers.
A path of a program records every operation it performed with the answer it
got; what a program can do is read off its paths, without any environment. -/

namespace Effects

/-- A program either returns, or performs `e` and goes on with the answer. -/
inductive Prog (E : Type) (A : E → Type) (α : Type) where
  | ret (a : α)
  | op (e : E) (k : A e → Prog E A α)

variable {E : Type} {A : E → Type} {α β ε : Type}

namespace Prog

def bind : Prog E A α → (α → Prog E A β) → Prog E A β
  | ret a, f => f a
  | op e k, f => op e fun x => (k x).bind f

instance : Monad (Prog E A) where
  pure := ret
  bind := bind

theorem bind_ret (p : Prog E A α) : p.bind ret = p := by
  induction p with
  | ret a => rfl
  | op e k ih => simp only [bind, ih]

theorem bind_bind {γ : Type} (p : Prog E A α) (f : α → Prog E A β) (g : β → Prog E A γ) :
    (p.bind f).bind g = p.bind fun a => (f a).bind g := by
  induction p with
  | ret a => rfl
  | op e k ih => simp only [bind, ih]

instance : LawfulMonad (Prog E A) := .mk' _
  (fun p => bind_ret p) (fun _ _ => rfl) (fun p f g => bind_bind p f g)

end Prog

abbrev Event (E : Type) (A : E → Type) := (e : E) × A e

inductive Follows : Prog E A α → List (Event E A) → Prog E A α → Prop where
  | nil (p : Prog E A α) : Follows p [] p
  | cons {e : E} {k : A e → Prog E A α} {a : A e} {evs : List (Event E A)} {q : Prog E A α} :
      Follows (k a) evs q → Follows (.op e k) (⟨e, a⟩ :: evs) q

def Finishes (p : Prog E A α) (evs : List (Event E A)) (r : α) : Prop := Follows p evs (.ret r)

def Issues (p : Prog E A α) (evs : List (Event E A)) (e : E) : Prop :=
  ∃ k, Follows p evs (.op e k)

theorem Follows.snoc {p q : Prog E A α} {evs : List (Event E A)} {e : E}
    {k : A e → Prog E A α} (h : Follows p evs q) (hq : q = .op e k) (a : A e) :
    Follows p (evs ++ [⟨e, a⟩]) (k a) := by
  induction h with
  | nil p => subst hq; exact .cons (.nil _)
  | cons _ ih => exact .cons (ih hq)

theorem Follows.bind {p q : Prog E A α} {evs : List (Event E A)} (h : Follows p evs q)
    (f : α → Prog E A β) : Follows (p.bind f) evs (q.bind f) := by
  induction h with
  | nil p => exact .nil _
  | cons _ ih => exact .cons ih

theorem Follows.unique {p q q' : Prog E A α} {evs : List (Event E A)}
    (h : Follows p evs q) (h' : Follows p evs q') : q = q' := by
  induction h with
  | nil p => cases h'; rfl
  | cons _ ih => cases h' with | cons h' => exact ih h'

theorem follows_append {p q : Prog E A α} {evs evs' : List (Event E A)} :
    Follows p (evs ++ evs') q ↔ ∃ m, Follows p evs m ∧ Follows m evs' q := by
  induction evs generalizing p with
  | nil =>
    refine ⟨fun h => ⟨p, .nil p, h⟩, ?_⟩
    rintro ⟨m, hm, h⟩
    cases hm
    exact h
  | cons ev evs ih =>
    constructor
    · rintro (_ | h)
      obtain ⟨m, hm, h⟩ := ih.1 h
      exact ⟨m, .cons hm, h⟩
    · rintro ⟨m, _ | hm, h⟩
      exact .cons (ih.2 ⟨m, hm, h⟩)

theorem Finishes.unique {p : Prog E A α} {evs evs' : List (Event E A)} {r r' : α}
    (h : Finishes p evs r) (h' : Finishes p (evs ++ evs') r') : evs' = [] ∧ r' = r := by
  obtain ⟨m, h₁, h₂⟩ := follows_append.1 h'
  obtain rfl := h₁.unique h
  cases h₂
  exact ⟨rfl, rfl⟩

@[simp] theorem finishes_ret {a r : α} {evs : List (Event E A)} :
    Finishes (.ret a : Prog E A α) evs r ↔ evs = [] ∧ r = a := by
  constructor
  · rintro (_ | _)
    exact ⟨rfl, rfl⟩
  · rintro ⟨rfl, rfl⟩
    exact .nil _

@[simp] theorem finishes_pureProg {a r : α} {evs : List (Event E A)} :
    Finishes (pure a : Prog E A α) evs r ↔ evs = [] ∧ r = a := finishes_ret

theorem finishes_op {e : E} {k : A e → Prog E A α} {evs : List (Event E A)} {r : α} :
    Finishes (.op e k) evs r ↔ ∃ a evs', evs = ⟨e, a⟩ :: evs' ∧ Finishes (k a) evs' r := by
  constructor
  · rintro (_ | h)
    exact ⟨_, _, rfl, h⟩
  · rintro ⟨a, evs', rfl, h⟩
    exact .cons h

@[simp] theorem issues_ret {a : α} {evs : List (Event E A)} {e : E} :
    ¬Issues (.ret a : Prog E A α) evs e := by
  rintro ⟨k, h⟩
  cases h

@[simp] theorem issues_pureProg {a : α} {evs : List (Event E A)} {e : E} :
    ¬Issues (pure a : Prog E A α) evs e := issues_ret

theorem issues_op {e e' : E} {k : A e → Prog E A α} {evs : List (Event E A)} :
    Issues (.op e k) evs e' ↔
      (evs = [] ∧ e' = e) ∨ ∃ a evs', evs = ⟨e, a⟩ :: evs' ∧ Issues (k a) evs' e' := by
  constructor
  · rintro ⟨k', _ | h⟩
    · exact .inl ⟨rfl, rfl⟩
    · exact .inr ⟨_, _, rfl, _, h⟩
  · rintro (⟨rfl, rfl⟩ | ⟨a, evs', rfl, k', h⟩)
    · exact ⟨k, .nil _⟩
    · exact ⟨k', .cons h⟩

theorem finishes_bind {p : Prog E A α} {f : α → Prog E A β} {evs : List (Event E A)} {r : β} :
    Finishes (p.bind f) evs r ↔
      ∃ evs₁ a evs₂, evs = evs₁ ++ evs₂ ∧ Finishes p evs₁ a ∧ Finishes (f a) evs₂ r := by
  induction p generalizing evs with
  | ret a => simp [Prog.bind]
  | op e k ih =>
    simp only [Prog.bind, finishes_op, ih]
    constructor
    · rintro ⟨x, _, rfl, evs₁, a, evs₂, rfl, h₁, h₂⟩
      exact ⟨_, a, evs₂, rfl, ⟨x, evs₁, rfl, h₁⟩, h₂⟩
    · rintro ⟨_, a, evs₂, rfl, ⟨x, evs₁, rfl, h₁⟩, h₂⟩
      exact ⟨x, _, rfl, evs₁, a, evs₂, rfl, h₁, h₂⟩

theorem issues_bind {p : Prog E A α} {f : α → Prog E A β} {evs : List (Event E A)} {e : E} :
    Issues (p.bind f) evs e ↔ Issues p evs e ∨
      ∃ evs₁ a evs₂, evs = evs₁ ++ evs₂ ∧ Finishes p evs₁ a ∧ Issues (f a) evs₂ e := by
  induction p generalizing evs with
  | ret a => simp [Prog.bind]
  | op e' k ih =>
    simp only [Prog.bind, issues_op, finishes_op, ih]
    constructor
    · rintro (h | ⟨x, _, rfl, h | ⟨evs₁, a, evs₂, rfl, h₁, h₂⟩⟩)
      · exact .inl (.inl h)
      · exact .inl (.inr ⟨x, _, rfl, h⟩)
      · exact .inr ⟨_, a, evs₂, rfl, ⟨x, evs₁, rfl, h₁⟩, h₂⟩
    · rintro ((h | ⟨x, _, rfl, h⟩) | ⟨_, a, evs₂, rfl, ⟨x, evs₁, rfl, h₁⟩, h₂⟩)
      · exact .inl h
      · exact .inr ⟨x, _, rfl, .inl h⟩
      · exact .inr ⟨x, _, rfl, .inr ⟨evs₁, a, evs₂, rfl, h₁, h₂⟩⟩

/-! ## Programs that may raise -/

abbrev Handler (E : Type) (A : E → Type) (ε α : Type) := ExceptT ε (Prog E A) α

namespace Handler

def perform (e : E) : Handler E A ε (A e) := ExceptT.lift (.op e .ret)

def ofExcept (x : Except ε α) : Handler E A ε α := ExceptT.mk (.ret x)

end Handler

variable {evs : List (Event E A)} {e : E} {x : Handler E A ε α} {f : α → Handler E A ε β}

@[simp] theorem finishes_pure {a : α} {r : Except ε α} :
    Finishes (pure a : Handler E A ε α).run evs r ↔ evs = [] ∧ r = .ok a := finishes_ret

@[simp] theorem finishes_throw {x : ε} {r : Except ε α} :
    Finishes (throw x : Handler E A ε α).run evs r ↔ evs = [] ∧ r = .error x := finishes_ret

@[simp] theorem finishes_ofExcept {x r : Except ε α} :
    Finishes (Handler.ofExcept x : Handler E A ε α).run evs r ↔ evs = [] ∧ r = x := finishes_ret

@[simp] theorem finishes_perform {r : Except ε (A e)} :
    Finishes (Handler.perform e : Handler E A ε (A e)).run evs r ↔
      ∃ a, evs = [⟨e, a⟩] ∧ r = .ok a := by
  apply finishes_op.trans
  constructor
  · rintro ⟨a, _, rfl, h⟩
    obtain ⟨rfl, rfl⟩ := finishes_ret.1 h
    exact ⟨a, rfl, rfl⟩
  · rintro ⟨a, rfl, rfl⟩
    exact ⟨a, [], rfl, finishes_ret.2 ⟨rfl, rfl⟩⟩

@[simp] theorem issues_pure {a : α} : ¬Issues (pure a : Handler E A ε α).run evs e := issues_ret

@[simp] theorem issues_throw {x : ε} : ¬Issues (throw x : Handler E A ε α).run evs e := issues_ret

@[simp] theorem issues_ofExcept {x : Except ε α} :
    ¬Issues (Handler.ofExcept x : Handler E A ε α).run evs e := issues_ret

theorem finishes_andThen {r : Except ε β} :
    Finishes (x >>= f).run evs r ↔
      (∃ y, Finishes x.run evs (.error y) ∧ r = .error y) ∨
      ∃ evs₁ a evs₂, evs = evs₁ ++ evs₂ ∧ Finishes x.run evs₁ (.ok a) ∧
        Finishes (f a).run evs₂ r := by
  apply finishes_bind.trans
  constructor
  · rintro ⟨evs₁, y | a, evs₂, rfl, h₁, h₂⟩
    · obtain ⟨rfl, rfl⟩ := finishes_ret.1 h₂
      exact .inl ⟨y, by rwa [List.append_nil], rfl⟩
    · exact .inr ⟨evs₁, a, evs₂, rfl, h₁, h₂⟩
  · rintro (⟨y, h, rfl⟩ | ⟨evs₁, a, evs₂, rfl, h₁, h₂⟩)
    · exact ⟨evs, .error y, [], by simp, h, finishes_ret.2 ⟨rfl, rfl⟩⟩
    · exact ⟨evs₁, .ok a, evs₂, rfl, h₁, h₂⟩

theorem Follows.andThen_raise {e : E} {y : ε} (h : Follows x.run evs (.op e fun _ => .ret (.error y)))
    (f : α → Handler E A ε β) : Follows (x >>= f).run evs (.op e fun _ => .ret (.error y)) :=
  h.bind (ExceptT.bindCont f)

theorem issues_andThen {e : E} :
    Issues (x >>= f).run evs e ↔ Issues x.run evs e ∨
      ∃ evs₁ a evs₂, evs = evs₁ ++ evs₂ ∧ Finishes x.run evs₁ (.ok a) ∧
        Issues (f a).run evs₂ e := by
  refine issues_bind.trans (or_congr_right ?_)
  constructor
  · rintro ⟨evs₁, y | a, evs₂, rfl, h₁, h₂⟩
    · exact absurd h₂ issues_ret
    · exact ⟨evs₁, a, evs₂, rfl, h₁, h₂⟩
  · rintro ⟨evs₁, a, evs₂, rfl, h₁, h₂⟩
    exact ⟨evs₁, .ok a, evs₂, rfl, h₁, h₂⟩

theorem finishes_throw_andThen {y : ε} {r : Except ε β} :
    Finishes ((throw y : Handler E A ε α) >>= f).run evs r ↔ evs = [] ∧ r = .error y := finishes_ret

theorem issues_throw_andThen {y : ε} :
    ¬Issues ((throw y : Handler E A ε α) >>= f).run evs e := issues_ret

theorem finishes_andThen_pure {g : α → β} {r : Except ε β} :
    Finishes (x >>= fun a => pure (g a)).run evs r ↔ ∃ y, Finishes x.run evs y ∧ r = y.map g := by
  rw [finishes_andThen]
  constructor
  · rintro (⟨y, h, rfl⟩ | ⟨evs₁, a, _, rfl, h, h₂⟩)
    · exact ⟨.error y, h, rfl⟩
    · obtain ⟨rfl, rfl⟩ := finishes_pure.1 h₂
      exact ⟨.ok a, by rwa [List.append_nil], rfl⟩
  · rintro ⟨y | a, h, rfl⟩
    · exact .inl ⟨y, h, rfl⟩
    · exact .inr ⟨evs, a, [], by simp, h, finishes_pure.2 ⟨rfl, rfl⟩⟩

theorem finishes_andThen_pure_ok {g : α → β} {b : β} :
    Finishes (x >>= fun a => pure (g a)).run evs (.ok b) ↔
      ∃ a, Finishes x.run evs (.ok a) ∧ b = g a := by
  rw [finishes_andThen_pure]
  constructor
  · rintro ⟨y | a, h, hr⟩
    · cases hr
    · exact ⟨a, h, Except.ok.inj hr⟩
  · rintro ⟨a, h, rfl⟩
    exact ⟨.ok a, h, rfl⟩

theorem finishes_andThen_pure_error {g : α → β} {y : ε} :
    Finishes (x >>= fun a => pure (g a)).run evs (.error y) ↔ Finishes x.run evs (.error y) := by
  rw [finishes_andThen_pure]
  constructor
  · rintro ⟨y' | a, h, hr⟩
    · rwa [Except.error.inj hr]
    · cases hr
  · intro h
    exact ⟨.error y, h, rfl⟩

theorem issues_andThen_pure {g : α → β} :
    Issues (x >>= fun a => pure (g a)).run evs e ↔ Issues x.run evs e := by
  rw [issues_andThen]
  simp only [issues_pure, and_false, exists_false, or_false]

theorem finishes_perform_andThen {f : A e → Handler E A ε β} {r : Except ε β} :
    Finishes (Handler.perform e >>= f).run evs r ↔
      ∃ a evs', evs = ⟨e, a⟩ :: evs' ∧ Finishes (f a).run evs' r := finishes_op

theorem issues_perform_andThen {f : A e → Handler E A ε β} {e' : E} :
    Issues (Handler.perform e >>= f).run evs e' ↔
      (evs = [] ∧ e' = e) ∨ ∃ a evs', evs = ⟨e, a⟩ :: evs' ∧ Issues (f a).run evs' e' := issues_op

theorem finishes_ofExcept_andThen {y : Except ε α} {r : Except ε β} :
    Finishes (Handler.ofExcept y >>= f).run evs r ↔
      (∃ z, y = .error z ∧ evs = [] ∧ r = .error z) ∨ ∃ a, y = .ok a ∧ Finishes (f a).run evs r := by
  rw [finishes_andThen]
  constructor
  · rintro (⟨z, h, rfl⟩ | ⟨_, a, evs₂, rfl, h, h₂⟩)
    · obtain ⟨rfl, rfl⟩ := finishes_ofExcept.1 h
      exact .inl ⟨z, rfl, rfl, rfl⟩
    · obtain ⟨rfl, rfl⟩ := finishes_ofExcept.1 h
      exact .inr ⟨a, rfl, h₂⟩
  · rintro (⟨z, rfl, rfl, rfl⟩ | ⟨a, rfl, h⟩)
    · exact .inl ⟨z, finishes_ofExcept.2 ⟨rfl, rfl⟩, rfl⟩
    · exact .inr ⟨[], a, evs, rfl, finishes_ofExcept.2 ⟨rfl, rfl⟩, h⟩

theorem issues_ofExcept_andThen {y : Except ε α} {e : E} :
    Issues (Handler.ofExcept y >>= f).run evs e ↔ ∃ a, y = .ok a ∧ Issues (f a).run evs e := by
  rw [issues_andThen]
  constructor
  · rintro (h | ⟨_, a, evs₂, rfl, h, h₂⟩)
    · exact absurd h issues_ofExcept
    · obtain ⟨rfl, rfl⟩ := finishes_ofExcept.1 h
      exact ⟨a, rfl, h₂⟩
  · rintro ⟨a, rfl, h⟩
    exact .inr ⟨[], a, evs, rfl, finishes_ofExcept.2 ⟨rfl, rfl⟩, h⟩

theorem finishes_tryCatch {h : ε → Handler E A ε α} {r : Except ε α} :
    Finishes (tryCatch x h).run evs r ↔
      (∃ a, Finishes x.run evs (.ok a) ∧ r = .ok a) ∨
      ∃ evs₁ y evs₂, evs = evs₁ ++ evs₂ ∧ Finishes x.run evs₁ (.error y) ∧
        Finishes (h y).run evs₂ r := by
  apply finishes_bind.trans
  constructor
  · rintro ⟨evs₁, y | a, evs₂, rfl, h₁, h₂⟩
    · exact .inr ⟨evs₁, y, evs₂, rfl, h₁, h₂⟩
    · obtain ⟨rfl, rfl⟩ := finishes_ret.1 h₂
      exact .inl ⟨a, by rwa [List.append_nil], rfl⟩
  · rintro (⟨a, h₁, rfl⟩ | ⟨evs₁, y, evs₂, rfl, h₁, h₂⟩)
    · exact ⟨evs, .ok a, [], by simp, h₁, finishes_ret.2 ⟨rfl, rfl⟩⟩
    · exact ⟨evs₁, .error y, evs₂, rfl, h₁, h₂⟩

theorem issues_tryCatch {h : ε → Handler E A ε α} {e : E} :
    Issues (tryCatch x h).run evs e ↔ Issues x.run evs e ∨
      ∃ evs₁ y evs₂, evs = evs₁ ++ evs₂ ∧ Finishes x.run evs₁ (.error y) ∧
        Issues (h y).run evs₂ e := by
  refine issues_bind.trans (or_congr_right ?_)
  constructor
  · rintro ⟨evs₁, y | a, evs₂, rfl, h₁, h₂⟩
    · exact ⟨evs₁, y, evs₂, rfl, h₁, h₂⟩
    · exact absurd h₂ issues_ret
  · rintro ⟨evs₁, y, evs₂, rfl, h₁, h₂⟩
    exact ⟨evs₁, .error y, evs₂, rfl, h₁, h₂⟩

end Effects
