import Mathlib.Data.List.Induction
import WikiBackend.Effects.Prog

/-! A pool of programs run concurrently over one shared world. A scheduler
starts requests at any time and lets any running program perform its next
operation; the run is recorded as the list of these steps. -/

namespace Effects

/-- Request handlers over a world that answers their operations. The choice
resolves what the world leaves open; an operation may be blocked. -/
structure System (E : Type) (A : E → Type) (W Req Res C : Type) where
  body : Req → Prog E A Res
  exec : W → Nat → (e : E) → C → Option (A e × W)

variable {E : Type} {A : E → Type} {W Req Res C : Type}

inductive Label (E : Type) (A : E → Type) (Req : Type) where
  | started (i : Nat) (req : Req)
  | did (i : Nat) (e : E) (a : A e)

structure Config (E : Type) (A : E → Type) (W Req Res : Type) where
  world : W
  procs : List (Req × Prog E A Res)

def Config.init (w : W) : Config E A W Req Res := ⟨w, []⟩

def Config.Returned (c : Config E A W Req Res) (i : Nat) (r : Res) : Prop :=
  ∃ req, c.procs[i]? = some (req, .ret r)

def Config.result? (c : Config E A W Req Res) (i : Nat) : Option Res :=
  match c.procs[i]? with
  | some (_, .ret r) => some r
  | _ => none

theorem Config.returned_of_result? {c : Config E A W Req Res} {i : Nat} {r : Res}
    (h : c.result? i = some r) : c.Returned i r := by
  unfold Config.result? at h
  split at h
  · rename_i req r' hp
    cases h
    exact ⟨req, hp⟩
  · cases h

def own (i : Nat) : List (Label E A Req) → List (Event E A)
  | [] => []
  | .started _ _ :: ls => own i ls
  | .did j e a :: ls => if j = i then ⟨e, a⟩ :: own i ls else own i ls

theorem own_append (i : Nat) (ls ls' : List (Label E A Req)) :
    own i (ls ++ ls') = own i ls ++ own i ls' := by
  induction ls with
  | nil => rfl
  | cons l ls ih =>
    cases l with
    | started j req => simpa only [List.cons_append, own] using ih
    | did j e a =>
      simp only [List.cons_append, own, ih]
      split <;> rfl

theorem mem_own {i : Nat} {e : E} {a : A e} {ls : List (Label E A Req)} :
    (⟨e, a⟩ : Event E A) ∈ own i ls ↔ .did i e a ∈ ls := by
  induction ls with
  | nil => simp [own]
  | cons l ls ih =>
    cases l with
    | started j req => simpa [own] using ih
    | did j e' a' =>
      simp only [own, List.mem_cons, Label.did.injEq]
      split
      · rename_i hj
        subst hj
        simp only [List.mem_cons, ih, Sigma.mk.injEq, true_and]
      · rename_i hj
        simp only [ih, Ne.symm hj, false_and, false_or]

theorem own_eq_append_cons {i : Nat} {e : E} {a : A e} {ls : List (Label E A Req)}
    (xs : List (Event E A)) {ys : List (Event E A)} (h : own i ls = xs ++ ⟨e, a⟩ :: ys) :
    ∃ l₁ l₂, ls = l₁ ++ .did i e a :: l₂ ∧ own i l₁ = xs ∧ own i l₂ = ys := by
  induction ls generalizing xs with
  | nil => simp [own] at h
  | cons l ls ih =>
    cases l with
    | started j req =>
      obtain ⟨l₁, l₂, rfl, h₁, h₂⟩ := ih xs h
      exact ⟨.started j req :: l₁, l₂, rfl, h₁, h₂⟩
    | did j e' a' =>
      simp only [own] at h
      split at h
      · rename_i hj
        subst hj
        cases xs with
        | nil =>
          obtain ⟨he, rfl⟩ := List.cons.inj h
          cases he
          exact ⟨[], ls, rfl, rfl, rfl⟩
        | cons x xs =>
          obtain ⟨rfl, h'⟩ := List.cons.inj h
          obtain ⟨l₁, l₂, rfl, rfl, h₂⟩ := ih xs h'
          exact ⟨.did j e' a' :: l₁, l₂, rfl, by simp only [own, if_true], h₂⟩
      · rename_i hj
        obtain ⟨l₁, l₂, rfl, rfl, h₂⟩ := ih xs h
        exact ⟨.did j e' a' :: l₁, l₂, rfl, by simp only [own, if_neg hj], h₂⟩

def Label.event? : Label E A Req → Option (Event E A)
  | .started _ _ => none
  | .did _ e a => some ⟨e, a⟩

def events (ls : List (Label E A Req)) : List (Event E A) := ls.filterMap Label.event?

theorem eq_or_before {l l' : Label E A Req} {ls : List (Label E A Req)} (h : l ∈ ls)
    (h' : l' ∈ ls) : l = l' ∨ (∃ l₁ l₂, ls = l₁ ++ l :: l₂ ∧ l' ∈ l₁) ∨
      ∃ l₁ l₂, ls = l₁ ++ l' :: l₂ ∧ l ∈ l₁ := by
  obtain ⟨l₁, l₂, rfl⟩ := List.append_of_mem h
  rcases List.mem_append.1 h' with h₁ | h₂
  · exact .inr (.inl ⟨l₁, l₂, rfl, h₁⟩)
  rcases List.mem_cons.1 h₂ with rfl | h₃
  · exact .inl rfl
  · obtain ⟨l₃, l₄, rfl⟩ := List.append_of_mem h₃
    have hls : l₁ ++ l :: (l₃ ++ l' :: l₄) = (l₁ ++ l :: l₃) ++ l' :: l₄ := by simp
    exact .inr (.inr ⟨_, _, hls, List.mem_append_right _ List.mem_cons_self⟩)

theorem append_cons_append_cons (l₁ l₂ l₃ : List (Label E A Req)) (x y : Label E A Req) :
    (l₁ ++ x :: l₂) ++ y :: l₃ = (l₁ ++ [x]) ++ ((l₂ ++ [y]) ++ l₃) := by
  simp only [List.append_assoc, List.cons_append, List.nil_append]

namespace System

variable (S : System E A W Req Res C)

def Trans (w : W) (i : Nat) (e : E) (a : A e) (w' : W) : Prop :=
  ∃ c, S.exec w i e c = some (a, w')

inductive Step : Config E A W Req Res → Label E A Req → Config E A W Req Res → Prop where
  | start {c : Config E A W Req Res} (req : Req) :
      Step c (.started c.procs.length req) ⟨c.world, c.procs ++ [(req, S.body req)]⟩
  | run {c : Config E A W Req Res} {i : Nat} {req : Req} {e : E} {k : A e → Prog E A Res}
      {a : A e} {w : W} (hp : c.procs[i]? = some (req, .op e k))
      (ht : S.Trans c.world i e a w) :
      Step c (.did i e a) ⟨w, c.procs.set i (req, k a)⟩

inductive Run : Config E A W Req Res → List (Label E A Req) → Config E A W Req Res → Prop where
  | nil (c : Config E A W Req Res) : Run c [] c
  | snoc {c c₁ c₂ : Config E A W Req Res} {ls : List (Label E A Req)} {l : Label E A Req} :
      Run c ls c₁ → S.Step c₁ l c₂ → Run c (ls ++ [l]) c₂

variable {S} {c c₁ c₂ : Config E A W Req Res} {ls ls' : List (Label E A Req)}
  {l : Label E A Req} {w : W} {i : Nat} {req : Req}

theorem Step.trans {e : E} {a : A e} (h : S.Step c (.did i e a) c₁) :
    S.Trans c.world i e a c₁.world := by
  cases h with
  | run _ ht => exact ht

theorem Step.world (h : S.Step c l c₁) :
    c₁.world = c.world ∨ ∃ i e a, l = .did i e a ∧ S.Trans c.world i e a c₁.world := by
  cases h with
  | start req => exact .inl rfl
  | run _ ht => exact .inr ⟨_, _, _, rfl, ht⟩

theorem Step.single (h : S.Step c l c₁) : S.Run c [l] c₁ := .snoc (.nil c) h

theorem Run.append (h₁ : S.Run c ls c₁) (h₂ : S.Run c₁ ls' c₂) : S.Run c (ls ++ ls') c₂ := by
  induction h₂ with
  | nil => rwa [List.append_nil]
  | snoc _ hs ih =>
    rw [← List.append_assoc]
    exact .snoc ih hs

theorem run_append :
    S.Run c (ls ++ ls') c₂ ↔ ∃ c₁, S.Run c ls c₁ ∧ S.Run c₁ ls' c₂ := by
  constructor
  · intro h
    induction ls' using List.reverseRecOn generalizing c₂ with
    | nil =>
      rw [List.append_nil] at h
      exact ⟨c₂, h, .nil c₂⟩
    | append_singleton ls' l ih =>
      rw [← List.append_assoc] at h
      generalize hm : (ls ++ ls') ++ [l] = m at h
      cases h with
      | nil => simp at hm
      | snoc hr hs =>
        obtain ⟨rfl, hl⟩ := List.append_inj' hm rfl
        obtain ⟨c₁, h₁, h₂⟩ := ih hr
        cases hl
        exact ⟨c₁, h₁, .snoc h₂ hs⟩
  · rintro ⟨c₁, h₁, h₂⟩
    exact h₁.append h₂

theorem run_single : S.Run c [l] c₁ ↔ S.Step c l c₁ := by
  refine ⟨fun h => ?_, Step.single⟩
  generalize hm : [l] = m at h
  cases h with
  | nil => simp at hm
  | snoc hr hs =>
    obtain ⟨rfl, hl⟩ := List.append_inj' ((List.nil_append _).trans hm) rfl
    cases hl
    generalize hm : ([] : List (Label E A Req)) = m at hr
    cases hr with
    | nil => exact hs
    | snoc _ _ => simp at hm

theorem Run.split (h : S.Run c (ls ++ l :: ls') c₂) :
    ∃ c₁ c₁', S.Run c ls c₁ ∧ S.Step c₁ l c₁' ∧ S.Run c₁' ls' c₂ := by
  rw [List.append_cons, run_append] at h
  obtain ⟨c₁', h, h₂⟩ := h
  obtain ⟨c₁, h₁, hs⟩ := run_append.1 h
  exact ⟨c₁, c₁', h₁, run_single.1 hs, h₂⟩

theorem Run.split_mem (h : S.Run c ls c₂) (hm : l ∈ ls) :
    ∃ l₁ l₂ c₁ c₁', ls = l₁ ++ l :: l₂ ∧ S.Run c l₁ c₁ ∧ S.Step c₁ l c₁' ∧ S.Run c₁' l₂ c₂ := by
  obtain ⟨l₁, l₂, rfl⟩ := List.append_of_mem hm
  obtain ⟨c₁, c₁', h₁, hs, h₂⟩ := h.split
  exact ⟨l₁, l₂, c₁, c₁', rfl, h₁, hs, h₂⟩

/-! ## Invariant rules -/

/-- What every answered operation keeps, every run keeps. -/
theorem Run.invariant {P : W → Prop}
    (hP : ∀ {w i e a w'}, S.Trans w i e a w' → P w → P w')
    (h : S.Run c ls c₁) (h₀ : P c.world) : P c₁.world := by
  induction h with
  | nil => exact h₀
  | snoc _ hs ih =>
    cases hs with
    | start => exact ih
    | run _ ht => exact hP ht ih

theorem Run.evolves {R : W → W → Prop} [Std.Refl R] [IsTrans W R]
    (hR : ∀ {w i e a w'}, S.Trans w i e a w' → R w w')
    (h : S.Run c ls c₁) : R c.world c₁.world :=
  h.invariant (P := R c.world) (fun ht h' => IsTrans.trans _ _ _ h' (hR ht)) (refl _)

/-- A view of the world that every answered operation moves by `f` is a fold of the record. -/
theorem Run.view {V : Type} {v : W → V} {f : V → Event E A → V}
    (hf : ∀ {w i e a w'}, S.Trans w i e a w' → v w' = f (v w) ⟨e, a⟩)
    (h : S.Run c ls c₁) : v c₁.world = (events ls).foldl f (v c.world) := by
  induction h with
  | nil => rfl
  | snoc _ hs ih =>
    rw [events, List.filterMap_append, List.foldl_append, ← events, ← ih]
    cases hs with
    | start => rfl
    | run _ ht => exact hf ht

/-! ## Runs whose steps all meet a condition -/

/-- The condition is on the record so far, the pool before the step, and the step. -/
inductive RunUnder (S : System E A W Req Res C)
    (G : List (Label E A Req) → Config E A W Req Res → Label E A Req → Prop) :
    Config E A W Req Res → List (Label E A Req) → Config E A W Req Res → Prop where
  | nil (c : Config E A W Req Res) : RunUnder S G c [] c
  | snoc {c c₁ c₂ : Config E A W Req Res} {ls : List (Label E A Req)} {l : Label E A Req} :
      RunUnder S G c ls c₁ → S.Step c₁ l c₂ → G ls c₁ l → RunUnder S G c (ls ++ [l]) c₂

variable {G : List (Label E A Req) → Config E A W Req Res → Label E A Req → Prop}

theorem RunUnder.run (h : S.RunUnder G c ls c₁) : S.Run c ls c₁ := by
  induction h with
  | nil => exact .nil _
  | snoc _ hs _ ih => exact .snoc ih hs

theorem RunUnder.split (h : S.RunUnder G c (ls ++ l :: ls') c₂) :
    ∃ c₁ c₁', S.RunUnder G c ls c₁ ∧ S.Step c₁ l c₁' ∧ G ls c₁ l ∧ S.Run c₁' ls' c₂ := by
  generalize hm : ls ++ l :: ls' = m at h
  induction h generalizing ls' with
  | nil => simp at hm
  | @snoc c₃ c₄ m l' hr hs hg ih =>
    rcases List.eq_nil_or_concat' ls' with rfl | ⟨ls', l'', rfl⟩
    · obtain ⟨rfl, he⟩ := List.append_inj' hm rfl
      cases he
      exact ⟨_, _, hr, hs, hg, .nil _⟩
    · rw [← List.cons_append, ← List.append_assoc] at hm
      obtain ⟨hm₁, he⟩ := List.append_inj' hm rfl
      cases he
      obtain ⟨c₁, c₁', h₁, hs₁, hg₁, h₂⟩ := ih hm₁
      exact ⟨c₁, c₁', h₁, hs₁, hg₁, .snoc h₂ hs⟩

/-! Where the condition is on the record alone, every run with that record meets it. -/

section
variable {c₀ : Config E A W Req Res} {P : List (Label E A Req) → Label E A Req → Prop}

theorem RunUnder.of_run (h : S.RunUnder (fun ls _ l => P ls l) c₀ ls c₁) (hr : S.Run c ls c₂) :
    S.RunUnder (fun ls _ l => P ls l) c ls c₂ := by
  induction hr generalizing c₁ with
  | nil => exact .nil _
  | snoc _ hs ih =>
    obtain ⟨_, _, h₁, -, hg, -⟩ := h.split
    exact .snoc (ih h₁) hs hg

theorem Run.under (h : S.Run c ls c₁) (hP : ∀ l₁ l l₂, ls = l₁ ++ l :: l₂ → P l₁ l) :
    S.RunUnder (fun ls _ l => P ls l) c ls c₁ := by
  induction h with
  | nil => exact .nil _
  | @snoc c₁ c₂ ls l _ hs ih =>
    refine .snoc (ih ?_) hs (hP ls l [] rfl)
    rintro l₁ l' l₂ rfl
    exact hP l₁ l' (l₂ ++ [l]) (by simp)

theorem RunUnder.later {Q : W → Prop} {ls'' : List (Label E A Req)}
    (h : S.RunUnder (fun ls _ l => P ls l) c₀ (ls ++ (ls' ++ ls'')) c)
    (hQ : ∀ {ls c l c'}, S.RunUnder (fun ls _ l => P ls l) c₀ ls c → S.Step c l c' → P ls l →
      Q c.world → Q c'.world)
    (h₁ : S.Run c₀ ls c₁) (h₂ : S.Run c₁ ls' c₂) (hq : Q c₁.world) : Q c₂.world := by
  induction h₂ generalizing ls'' with
  | nil => exact hq
  | @snoc c₃ c₄ ls' l h₂ hs ih =>
    rw [List.append_assoc] at h
    have hq₃ := ih h
    rw [← List.append_assoc, List.singleton_append] at h
    obtain ⟨_, _, h₃, -, hg, -⟩ := h.split
    exact hQ (h₃.of_run (h₁.append h₂)) hs hg hq₃

end

/-! ## Every running program is where its own operations took it -/

theorem Run.own_nil (h : S.Run (Config.init w) ls c) (hi : c.procs.length ≤ i) : own i ls = [] := by
  induction h with
  | nil => rfl
  | snoc _ hs ih =>
    cases hs with
    | start req =>
      simp only [List.length_append] at hi
      rw [own_append, ih (by omega)]
      rfl
    | @run j req e k a w' hp ht =>
      rw [List.length_set] at hi
      have hj : j ≠ i := by
        rintro rfl
        simp [List.getElem?_eq_none hi] at hp
      simp [own_append, ih hi, own, hj]

theorem Run.procs_length_le (h : S.Run c ls c₁) : c.procs.length ≤ c₁.procs.length := by
  induction h with
  | nil => exact Nat.le_refl _
  | snoc _ hs ih =>
    cases hs with
    | start req =>
      rw [List.length_append]
      exact Nat.le_add_right_of_le ih
    | run _ _ => rwa [List.length_set]

theorem Run.own_nil_of_started {c₀ : Config E A W Req Res} (h₁ : S.Run (Config.init w) ls c₀)
    (h₂ : S.Run c₀ ls' c) (hm : .started i req ∈ ls') : own i ls = [] := by
  obtain ⟨l₁, l₂, c₁, c₂, rfl, h₃, hs, -⟩ := h₂.split_mem hm
  cases hs with
  | start => exact h₁.own_nil h₃.procs_length_le

theorem Run.follows {p : Prog E A Res} (h : S.Run (Config.init w) ls c)
    (hi : c.procs[i]? = some (req, p)) :
    .started i req ∈ ls ∧ Follows (S.body req) (own i ls) p := by
  induction h generalizing p with
  | nil => simp [Config.init] at hi
  | @snoc c _ _ _ hr hs ih =>
    cases hs with
    | start req' =>
      rw [own_append, List.mem_append]
      rcases Nat.lt_or_ge i c.procs.length with hlt | hge
      · rw [List.getElem?_append_left hlt] at hi
        obtain ⟨hm, hf⟩ := ih hi
        have hown : own i [.started c.procs.length req'] = ([] : List (Event E A)) := rfl
        rw [hown, List.append_nil]
        exact ⟨.inl hm, hf⟩
      · have hlen : i < (c.procs ++ [(req', S.body req')]).length :=
          (List.getElem?_eq_some_iff.1 hi).1
        obtain rfl : i = c.procs.length := by
          simp only [List.length_append, List.length_singleton] at hlen
          omega
        simp only [List.getElem?_concat_length, Option.some.injEq, Prod.mk.injEq] at hi
        obtain ⟨rfl, rfl⟩ := hi
        rw [hr.own_nil (Nat.le_refl _)]
        exact ⟨.inr (List.mem_singleton.2 rfl), .nil _⟩
    | @run j req' e k a w' hp ht =>
      rw [own_append, List.mem_append]
      by_cases hj : j = i
      · subst hj
        rw [List.getElem?_set_self (List.getElem?_eq_some_iff.1 hp).1] at hi
        simp only [Option.some.injEq, Prod.mk.injEq] at hi
        obtain ⟨rfl, rfl⟩ := hi
        obtain ⟨hm, hf⟩ := ih hp
        exact ⟨.inl hm, by simpa [own] using hf.snoc rfl a⟩
      · rw [List.getElem?_set_ne hj] at hi
        obtain ⟨hm, hf⟩ := ih hi
        exact ⟨.inl hm, by simpa [own, hj] using hf⟩

theorem Run.issued {e : E} {a : A e} (h : S.Run (Config.init w) ls c)
    (hs : S.Step c (.did i e a) c₁) :
    ∃ req, .started i req ∈ ls ∧ Issues (S.body req) (own i ls) e := by
  cases hs with
  | @run _ req _ k _ _ hp ht =>
    obtain ⟨hm, hf⟩ := h.follows hp
    exact ⟨req, hm, k, hf⟩

theorem Run.returned {r : Res} (h : S.Run (Config.init w) ls c) (hr : c.Returned i r) :
    ∃ req, .started i req ∈ ls ∧ Finishes (S.body req) (own i ls) r := by
  obtain ⟨req, hp⟩ := hr
  exact ⟨req, h.follows hp⟩

theorem Run.procs_of_mem (h : S.Run (Config.init w) ls c) (hi : .started i req ∈ ls) :
    ∃ p, c.procs[i]? = some (req, p) := by
  induction h with
  | nil => simp at hi
  | snoc _ hs ih =>
    rw [List.mem_append, List.mem_singleton] at hi
    cases hs with
    | start req' =>
      rcases hi with hi | hi
      · obtain ⟨p, hp⟩ := ih hi
        exact ⟨p, by rw [List.getElem?_append_left (List.getElem?_eq_some_iff.1 hp).1, hp]⟩
      · cases hi
        exact ⟨_, List.getElem?_concat_length⟩
    | @run j req' e k a w' hp ht =>
      rcases hi with hi | hi
      · obtain ⟨p, hp'⟩ := ih hi
        by_cases hj : j = i
        · subst hj
          obtain ⟨rfl, -⟩ := Prod.mk.inj (Option.some.inj (hp.symm.trans hp'))
          exact ⟨k a, List.getElem?_set_self (List.getElem?_eq_some_iff.1 hp).1⟩
        · exact ⟨p, by rw [List.getElem?_set_ne hj, hp']⟩
      · cases hi

theorem Run.started_unique {req' : Req} (h : S.Run (Config.init w) ls c) (hi : .started i req ∈ ls)
    (hi' : .started i req' ∈ ls) : req = req' := by
  obtain ⟨p, hp⟩ := h.procs_of_mem hi
  obtain ⟨p', hp'⟩ := h.procs_of_mem hi'
  exact (Prod.mk.inj (Option.some.inj (hp.symm.trans hp'))).1

/-! ## One program alone -/

inductive Answers (S : System E A W Req Res C) (i : Nat) : W → List (Event E A) → W → Prop where
  | nil (w : W) : Answers S i w [] w
  | cons {w w' w'' : W} {e : E} {a : A e} {evs : List (Event E A)} :
      S.Trans w i e a w' → Answers S i w' evs w'' → Answers S i w (⟨e, a⟩ :: evs) w''

theorem answers_append {evs evs' : List (Event E A)} {w' : W} :
    S.Answers i w (evs ++ evs') w' ↔ ∃ m, S.Answers i w evs m ∧ S.Answers i m evs' w' := by
  induction evs generalizing w with
  | nil =>
    refine ⟨fun h => ⟨w, .nil w, h⟩, ?_⟩
    rintro ⟨m, hm, h⟩
    cases hm
    exact h
  | cons ev evs ih =>
    constructor
    · rintro (_ | ⟨ht, h⟩)
      obtain ⟨m, hm, h⟩ := ih.1 h
      exact ⟨m, .cons ht hm, h⟩
    · rintro ⟨m, _ | ⟨ht, hm⟩, h⟩
      exact .cons ht (ih.2 ⟨m, hm, h⟩)

theorem answers_cons {e : E} {a : A e} {evs : List (Event E A)} {w' : W} :
    S.Answers i w (⟨e, a⟩ :: evs) w' ↔ ∃ m, S.Trans w i e a m ∧ S.Answers i m evs w' := by
  constructor
  · rintro (_ | ⟨ht, h⟩)
    exact ⟨_, ht, h⟩
  · rintro ⟨m, ht, h⟩
    exact .cons ht h

@[simp] theorem answers_nil {w' : W} : S.Answers i w [] w' ↔ w' = w := by
  constructor
  · rintro (_ | _)
    rfl
  · rintro rfl
    exact .nil _

theorem Run.solo {c₀ : Config E A W Req Res} {evs : List (Event E A)} {p : Prog E A Res} {w' : W}
    (h : S.Run c₀ ls c) (hf : Follows (S.body req) evs p)
    (ha : S.Answers c.procs.length c.world evs w') :
    S.Run c₀ (ls ++ .started c.procs.length req ::
      evs.map fun ev => .did c.procs.length ev.1 ev.2) ⟨w', c.procs ++ [(req, p)]⟩ := by
  suffices alone : ∀ {w : W} {q : Prog E A Res}, Follows q evs p →
      S.Answers c.procs.length w evs w' →
      S.Run ⟨w, c.procs ++ [(req, q)]⟩ (evs.map fun ev => .did c.procs.length ev.1 ev.2)
        ⟨w', c.procs ++ [(req, p)]⟩ by
    exact h.append ((Step.single (.start req)).append (alone hf ha))
  clear hf ha
  intro w q hf ha
  induction hf generalizing w with
  | nil =>
    cases ha
    exact .nil _
  | @cons e k a evs p _ ih =>
    obtain ⟨w₁, ht, ha₁⟩ := answers_cons.1 ha
    have hstep : S.Step ⟨w, c.procs ++ [(req, .op e k)]⟩ (.did c.procs.length e a)
        ⟨w₁, c.procs ++ [(req, k a)]⟩ := by
      have hs := Step.run (S := S) (c := ⟨w, c.procs ++ [(req, .op e k)]⟩)
        List.getElem?_concat_length ht
      rwa [List.set_append_right _ _ (Nat.le_refl _), Nat.sub_self, List.set_cons_zero] at hs
    exact hstep.single.append (ih ha₁)

end System

end Effects
