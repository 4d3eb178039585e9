import Mathlib.Data.List.Perm.Subperm
import WikiBackend.Effects.Bounded
import WikiBackend.Effects.Pool

/-! Requests that share a fixed number of keys, such as the connections of a pool. A request
waits until it holds a key that no other request holds, performs its operations under
that key, and gives it back when it is over; or it is refused a key and over at once. -/

namespace Effects

inductive Phase (E : Type) (A : E → Type) (Res : Type) where
  | waiting
  | holding (key : Nat) (rest : Prog E A Res)
  | answered (r : Res)
  | refused (r : Res)

inductive LeaseLabel (E : Type) (A : E → Type) (Req : Type) where
  | arrived (i : Nat) (req : Req)
  | acquired (i key : Nat)
  | did (i : Nat) (e : E) (a : A e)
  | released (i : Nat)
  | refused (i : Nat)

structure Leases (E : Type) (A : E → Type) (W Req Res : Type) where
  world : W
  procs : List (Req × Phase E A Res)

variable {E : Type} {A : E → Type} {W Req Res C L : Type}

namespace Phase

def key? : Phase E A Res → Option Nat
  | holding key _ => some key
  | _ => none

def rest (body : Prog E A Res) : Phase E A Res → Prog E A Res
  | waiting => body
  | holding _ p => p
  | answered r => .ret r
  | refused _ => body

end Phase

def Label.isStart : Label E A Req → Bool
  | started _ _ => true
  | did _ _ _ => false

namespace LeaseLabel

def erase : LeaseLabel E A Req → List (Label E A Req)
  | arrived i req => [.started i req]
  | did i e a => [.did i e a]
  | acquired _ _ | released _ | refused _ => []

def isArrival : LeaseLabel E A Req → Bool
  | arrived _ _ => true
  | _ => false

def serves : LeaseLabel E A Req → Bool
  | arrived _ _ | refused _ => false
  | _ => true

variable {ls : List (LeaseLabel E A Req)} {i : Nat}

theorem mem_erase_started {req : Req} :
    .started i req ∈ ls.flatMap erase ↔ .arrived i req ∈ ls := by
  rw [List.mem_flatMap]
  constructor
  · rintro ⟨l, hl, hm⟩
    cases l with
    | arrived j req' =>
      cases List.mem_singleton.1 hm
      exact hl
    | did j e a => cases List.mem_singleton.1 hm
    | _ => cases hm
  · exact fun hm => ⟨_, hm, List.mem_singleton.2 rfl⟩

theorem mem_erase_did {e : E} {a : A e} :
    .did i e a ∈ ls.flatMap erase ↔ .did i e a ∈ ls := by
  rw [List.mem_flatMap]
  constructor
  · rintro ⟨l, hl, hm⟩
    cases l with
    | did j e' a' =>
      cases List.mem_singleton.1 hm
      exact hl
    | arrived j req => cases List.mem_singleton.1 hm
    | _ => cases hm
  · exact fun hm => ⟨_, hm, List.mem_singleton.2 rfl⟩

end LeaseLabel

def Prog.unanswered : Prog E A Res → Bool
  | .ret _ => false
  | .op _ _ => true

namespace Leases

def init (w : W) : Leases E A W Req Res := ⟨w, []⟩

def key? (c : Leases E A W Req Res) (i : Nat) : Option Nat := c.procs[i]?.bind (·.2.key?)

def keys (c : Leases E A W Req Res) : List Nat := c.procs.filterMap (·.2.key?)

def Over (c : Leases E A W Req Res) (i : Nat) (r : Res) : Prop :=
  ∃ req, c.procs[i]? = some (req, .answered r)

def Refused (c : Leases E A W Req Res) (i : Nat) (r : Res) : Prop :=
  ∃ req, c.procs[i]? = some (req, .refused r)

def Ended (c : Leases E A W Req Res) (i : Nat) (r : Res) : Prop := c.Over i r ∨ c.Refused i r

def Done (c : Leases E A W Req Res) : Prop := ∀ i, i < c.procs.length → ∃ r, c.Ended i r

end Leases

namespace System

variable (S : System E A W Req Res C) (size : Nat) (refusal : Req → Res → Prop)

/-- `refusal` tells which results a request may end with that is refused a key. -/
inductive LeaseStep :
    Leases E A W Req Res → LeaseLabel E A Req → Leases E A W Req Res → Prop where
  | arrive {c : Leases E A W Req Res} (req : Req) :
      LeaseStep c (.arrived c.procs.length req) ⟨c.world, c.procs ++ [(req, .waiting)]⟩
  | acquire {c : Leases E A W Req Res} {i key : Nat} {req : Req}
      (hp : c.procs[i]? = some (req, .waiting)) (hk : key < size)
      (hfree : ∀ j, c.key? j ≠ some key) :
      LeaseStep c (.acquired i key) ⟨c.world, c.procs.set i (req, .holding key (S.body req))⟩
  | run {c : Leases E A W Req Res} {i key : Nat} {req : Req} {e : E} {k : A e → Prog E A Res}
      {a : A e} {w : W} (hp : c.procs[i]? = some (req, .holding key (.op e k)))
      (ht : S.Trans c.world key e a w) :
      LeaseStep c (.did i e a) ⟨w, c.procs.set i (req, .holding key (k a))⟩
  | release {c : Leases E A W Req Res} {i key : Nat} {req : Req} {r : Res}
      (hp : c.procs[i]? = some (req, .holding key (.ret r))) :
      LeaseStep c (.released i) ⟨c.world, c.procs.set i (req, .answered r)⟩
  | refuse {c : Leases E A W Req Res} {i : Nat} {req : Req} {r : Res}
      (hp : c.procs[i]? = some (req, .waiting)) (hr : refusal req r) :
      LeaseStep c (.refused i) ⟨c.world, c.procs.set i (req, .refused r)⟩

inductive LeaseRun :
    Leases E A W Req Res → List (LeaseLabel E A Req) → Leases E A W Req Res → Prop where
  | nil (c : Leases E A W Req Res) : LeaseRun c [] c
  | snoc {c c₁ c₂ : Leases E A W Req Res} {ls : List (LeaseLabel E A Req)}
      {l : LeaseLabel E A Req} :
      LeaseRun c ls c₁ → S.LeaseStep size refusal c₁ l c₂ → LeaseRun c (ls ++ [l]) c₂

/-- An operation reads and writes what `same` worlds share and, of what belongs to a key, only
the part of its own. -/
structure Keyed (same : W → W → Prop) (loc : W → Nat → L) : Prop where
  refl : ∀ w, same w w
  symm : ∀ {w w'}, same w w' → same w' w
  transfer : ∀ {w v w' : W} {i j : Nat} {e : E} {a : A e}, S.Trans w i e a v → same w w' →
    loc w i = loc w' j → ∃ v', S.Trans w' j e a v' ∧ same v v' ∧ loc v i = loc v' j
  frame : ∀ {w v : W} {i j : Nat} {e : E} {a : A e}, S.Trans w i e a v → j ≠ i → loc v j = loc w j

variable {S size refusal} {same : W → W → Prop} {loc : W → Nat → L} {idle : L}
  {c c' : Leases E A W Req Res} {l : LeaseLabel E A Req} {ls : List (LeaseLabel E A Req)} {w : W}
  {i : Nat} {req : Req}

/-! ## Keys that requests hold -/

theorem key?_eq {ph : Phase E A Res} (hp : c.procs[i]? = some (req, ph)) : c.key? i = ph.key? := by
  rw [Leases.key?, hp]
  rfl

theorem key?_set {p : Req × Phase E A Res} {ph : Phase E A Res}
    (hp : c.procs[i]? = some (req, ph)) (j : Nat) :
    (⟨w, c.procs.set i p⟩ : Leases E A W Req Res).key? j =
      if j = i then p.2.key? else c.key? j := by
  have hi : i < c.procs.length := (List.getElem?_eq_some_iff.1 hp).1
  by_cases hj : j = i
  · subst hj
    rw [if_pos rfl, Leases.key?, List.getElem?_set_self hi]
    rfl
  · rw [if_neg hj, Leases.key?, Leases.key?, List.getElem?_set_ne (Ne.symm hj)]

theorem key?_arrive (j : Nat) :
    (⟨w, c.procs ++ [(req, .waiting)]⟩ : Leases E A W Req Res).key? j = c.key? j := by
  rw [Leases.key?, Leases.key?]
  rcases Nat.lt_trichotomy j c.procs.length with hj | rfl | hj
  · rw [List.getElem?_append_left hj]
  · rw [List.getElem?_concat_length, List.getElem?_eq_none (Nat.le_refl _)]
    rfl
  · rw [List.getElem?_eq_none (Nat.le_of_lt hj), List.getElem?_eq_none]
    rwa [List.length_append, List.length_singleton, Nat.succ_le_iff]

/-! ## The system without the keys -/

/-- The pool runs as the system does: what belongs to the key a request holds is what belongs to
the request, and nothing is left with a request or a key that has nobody on the other side. -/
structure Follow (S : System E A W Req Res C) (same : W → W → Prop) (loc : W → Nat → L) (idle : L)
    (c : Leases E A W Req Res) (d : Config E A W Req Res) : Prop where
  procs : d.procs = c.procs.map fun p => (p.1, p.2.rest (S.body p.1))
  same : same c.world d.world
  held : ∀ {i key}, c.key? i = some key → loc c.world key = loc d.world i
  notHolding : ∀ {i}, c.key? i = none → loc d.world i = idle
  free : ∀ {key}, (∀ i, c.key? i ≠ some key) → loc c.world key = idle
  exclusive : ∀ {i j key}, c.key? i = some key → c.key? j = some key → i = j

variable {d : Config E A W Req Res} {ls' : List (Label E A Req)}

theorem follow_init (hrefl : ∀ w, same w w) (hidle : ∀ i, loc w i = idle) :
    Follow S same loc idle (.init w : Leases E A W Req Res) (.init w) where
  procs := rfl
  same := hrefl w
  held h := by simp [Leases.key?, Leases.init] at h
  notHolding _ := hidle _
  free _ := hidle _
  exclusive h := by simp [Leases.key?, Leases.init] at h

theorem Follow.length_procs (h : Follow S same loc idle c d) :
    d.procs.length = c.procs.length := by
  rw [h.procs, List.length_map]

theorem Follow.getElem? {ph : Phase E A Res} (h : Follow S same loc idle c d)
    (hp : c.procs[i]? = some (req, ph)) : d.procs[i]? = some (req, ph.rest (S.body req)) := by
  rw [h.procs, List.getElem?_map, hp]
  rfl

theorem Follow.procs_set {ph ph' : Phase E A Res} (h : Follow S same loc idle c d)
    (hp : c.procs[i]? = some (req, ph)) (hr : ph'.rest (S.body req) = ph.rest (S.body req)) :
    d.procs = (c.procs.set i (req, ph')).map fun p => (p.1, p.2.rest (S.body p.1)) := by
  obtain ⟨hi, hd⟩ := List.getElem?_eq_some_iff.1 (h.getElem? hp)
  rw [List.map_set, hr, ← h.procs, ← hd, List.set_getElem_self]

theorem Follow.arrive (h : Follow S same loc idle c d) (req : Req) :
    Follow S same loc idle ⟨c.world, c.procs ++ [(req, .waiting)]⟩
      ⟨d.world, d.procs ++ [(req, S.body req)]⟩ := by
  refine ⟨?_, h.same, ?_, ?_, ?_, ?_⟩
  · rw [List.map_append, ← h.procs]
    rfl
  · intro i key hk
    exact h.held (key?_arrive i ▸ hk)
  · intro i hk
    exact h.notHolding (key?_arrive i ▸ hk)
  · intro key hf
    exact h.free fun i => key?_arrive (c := c) i ▸ hf i
  · intro i j key hi hj
    exact h.exclusive (key?_arrive i ▸ hi) (key?_arrive j ▸ hj)

theorem Follow.acquire {key : Nat} (h : Follow S same loc idle c d)
    (hp : c.procs[i]? = some (req, .waiting)) (hfree : ∀ j, c.key? j ≠ some key) :
    Follow S same loc idle ⟨c.world, c.procs.set i (req, .holding key (S.body req))⟩ d := by
  refine ⟨h.procs_set hp rfl, h.same, ?_, ?_, ?_, ?_⟩
  · intro j key' hk
    rw [key?_set hp] at hk
    split at hk
    · rename_i hj
      subst hj
      cases hk
      -- both sides of the new pair are idle
      rw [h.free hfree, h.notHolding (key?_eq hp)]
    · exact h.held hk
  · intro j hk
    rw [key?_set hp] at hk
    split at hk
    · cases hk
    · exact h.notHolding hk
  · intro key' hf
    refine h.free fun j hj => ?_
    have hji : j ≠ i := by
      rintro rfl
      rw [key?_eq hp] at hj
      cases hj
    have hf' := hf j
    rw [key?_set hp, if_neg hji] at hf'
    exact hf' hj
  · intro j j' key' hj hj'
    rw [key?_set hp] at hj hj'
    split at hj <;> split at hj'
    · rename_i h₁ h₂
      rw [h₁, h₂]
    · cases hj
      exact absurd hj' (hfree j')
    · cases hj'
      exact absurd hj (hfree j)
    · exact h.exclusive hj hj'

theorem Follow.run (hS : S.Keyed same loc) {key : Nat} {e : E} {k : A e → Prog E A Res} {a : A e}
    {v : W} (h : Follow S same loc idle c d)
    (hp : c.procs[i]? = some (req, .holding key (.op e k))) (ht : S.Trans c.world key e a w)
    (hv : S.Trans d.world i e a v) (hsame : same w v) (hloc : loc w key = loc v i) :
    Follow S same loc idle ⟨w, c.procs.set i (req, .holding key (k a))⟩
      ⟨v, d.procs.set i (req, k a)⟩ := by
  have hkey : c.key? i = some key := key?_eq hp
  -- the request keeps its key, and so do the others
  have hkeys : ∀ j, (⟨w, c.procs.set i (req, .holding key (k a))⟩ : Leases E A W Req Res).key? j =
      c.key? j := by
    intro j
    rw [key?_set hp]
    split
    · rename_i hj
      rw [hj, hkey]
      rfl
    · rfl
  refine ⟨?_, hsame, ?_, ?_, ?_, ?_⟩
  · rw [List.map_set, ← h.procs]
    rfl
  · intro j key' hj
    rw [hkeys] at hj
    by_cases hji : j = i
    · subst hji
      cases hkey.symm.trans hj
      exact hloc
    · have hk : key' ≠ key := fun he => hji (h.exclusive (he ▸ hj) hkey)
      rw [hS.frame ht hk, hS.frame hv hji, h.held hj]
  · intro j hj
    rw [hkeys] at hj
    have hji : j ≠ i := by
      rintro rfl
      rw [hkey] at hj
      cases hj
    rw [hS.frame hv hji, h.notHolding hj]
  · intro key' hf
    have hf' : ∀ j, c.key? j ≠ some key' := fun j => hkeys j ▸ hf j
    have hk : key' ≠ key := fun he => hf' i (he ▸ hkey)
    rw [hS.frame ht hk, h.free hf']
  · intro j j' key' hj hj'
    exact h.exclusive (hkeys j ▸ hj) (hkeys j' ▸ hj')

theorem Follow.release {key : Nat} {r : Res} (h : Follow S same loc idle c d)
    (hp : c.procs[i]? = some (req, .holding key (.ret r))) (hidle : loc d.world i = idle) :
    Follow S same loc idle ⟨c.world, c.procs.set i (req, .answered r)⟩ d := by
  have hkey : c.key? i = some key := key?_eq hp
  refine ⟨h.procs_set hp rfl, h.same, ?_, ?_, ?_, ?_⟩
  · intro j key' hj
    rw [key?_set hp] at hj
    split at hj
    · cases hj
    · exact h.held hj
  · intro j hj
    rw [key?_set hp] at hj
    split at hj
    · rename_i hji
      rw [hji, hidle]
    · exact h.notHolding hj
  · intro key' hf
    by_cases hk : key' = key
    · rw [hk, h.held hkey, hidle]
    · refine h.free fun j hj => ?_
      have hji : j ≠ i := by
        rintro rfl
        exact hk (Option.some.inj (hj.symm.trans hkey))
      have hf' := hf j
      rw [key?_set hp, if_neg hji] at hf'
      exact hf' hj
  · intro j j' key' hj hj'
    rw [key?_set hp] at hj hj'
    split at hj <;> split at hj'
    · cases hj
    · cases hj
    · cases hj'
    · exact h.exclusive hj hj'

theorem Follow.refuse {r : Res} (h : Follow S same loc idle c d)
    (hp : c.procs[i]? = some (req, .waiting)) :
    Follow S same loc idle ⟨c.world, c.procs.set i (req, .refused r)⟩ d := by
  have hkeys : ∀ j, (⟨c.world, c.procs.set i (req, .refused r)⟩ : Leases E A W Req Res).key? j =
      c.key? j := by
    intro j
    rw [key?_set hp]
    split
    · next hj =>
      rw [hj, key?_eq hp]
      rfl
    · rfl
  refine ⟨h.procs_set hp rfl, h.same, ?_, ?_, ?_, ?_⟩
  · exact fun hj => h.held (hkeys _ ▸ hj)
  · exact fun hj => h.notHolding (hkeys _ ▸ hj)
  · exact fun hf => h.free fun j => hkeys j ▸ hf j
  · exact fun hj hj' => h.exclusive (hkeys _ ▸ hj) (hkeys _ ▸ hj')

def Clean (S : System E A W Req Res C) (loc : W → Nat → L) (idle : L) (w : W) : Prop :=
  ∀ {ls : List (Label E A Req)} {d : Config E A W Req Res} {i : Nat} {r : Res},
    S.Run (.init w) ls d → d.Returned i r → loc d.world i = idle

/-- Every run of the pool is one of the system. -/
theorem LeaseRun.follow (hS : S.Keyed same loc) (hidle : ∀ i, loc w i = idle)
    (hclean : Clean S loc idle w) (h : S.LeaseRun size refusal (.init w) ls c) :
    ∃ d, S.Run (.init w) (ls.flatMap LeaseLabel.erase) d ∧ Follow S same loc idle c d := by
  generalize hc : (Leases.init w : Leases E A W Req Res) = c₀ at h
  induction h with
  | nil =>
    subst hc
    exact ⟨.init w, .nil _, follow_init hS.refl hidle⟩
  | snoc _ hs ih =>
    obtain ⟨d, hr, hf⟩ := ih
    rw [List.flatMap_append, List.flatMap_singleton]
    cases hs with
    | arrive req => exact ⟨_, .snoc hr (hf.length_procs ▸ .start req), hf.arrive req⟩
    | acquire hp _ hfree => exact ⟨d, by simpa [LeaseLabel.erase] using hr, hf.acquire hp hfree⟩
    | run hp ht =>
      obtain ⟨v, hv, hsame, hloc⟩ := hS.transfer ht hf.same (hf.held (key?_eq hp))
      exact ⟨_, .snoc hr (.run (hf.getElem? hp) hv), hf.run hS hp ht hv hsame hloc⟩
    | release hp =>
      refine ⟨d, by simpa [LeaseLabel.erase] using hr, hf.release hp ?_⟩
      exact hclean hr ⟨_, hf.getElem? hp⟩
    | refuse hp _ => exact ⟨d, by simpa [LeaseLabel.erase] using hr, hf.refuse hp⟩

/-! ## The system with the keys -/

theorem LeaseRun.append {c₂ : Leases E A W Req Res} {ls' : List (LeaseLabel E A Req)}
    (h : S.LeaseRun size refusal c ls c') (h' : S.LeaseRun size refusal c' ls' c₂) :
    S.LeaseRun size refusal c (ls ++ ls') c₂ := by
  induction h' with
  | nil => rwa [List.append_nil]
  | snoc _ hs ih =>
    rw [← List.append_assoc]
    exact .snoc ih hs

theorem LeaseRun.key_lt (h : S.LeaseRun size refusal (.init w) ls c) {key : Nat}
    (hk : c.key? i = some key) : key < size := by
  generalize hc : (Leases.init w : Leases E A W Req Res) = c₀ at h
  induction h generalizing i with
  | nil =>
    subst hc
    simp [Leases.key?, Leases.init] at hk
  | snoc _ hs ih =>
    cases hs with
    | arrive req => exact ih (key?_arrive i ▸ hk)
    | acquire hp hlt _ =>
      rw [key?_set hp] at hk
      split at hk
      · cases hk
        exact hlt
      · exact ih hk
    | run hp _ =>
      rw [key?_set hp] at hk
      split at hk
      · cases hk
        exact ih (key?_eq hp)
      · exact ih hk
    | release hp | refuse hp _ =>
      rw [key?_set hp] at hk
      split at hk
      · cases hk
      · exact ih hk

/-! ## Refused requests -/

theorem getElem?_set_phase {ph ph' : Phase E A Res} {j : Nat} {p : Req × Phase E A Res}
    (hp : c.procs[i]? = some (req, ph)) (hj : (c.procs.set i (req, ph'))[j]? = some p) :
    j = i ∧ p = (req, ph') ∨ j ≠ i ∧ c.procs[j]? = some p := by
  by_cases hji : j = i
  · subst hji
    rw [List.getElem?_set_self (List.getElem?_eq_some_iff.1 hp).1] at hj
    exact .inl ⟨rfl, (Option.some.inj hj).symm⟩
  · rw [List.getElem?_set_ne (Ne.symm hji)] at hj
    exact .inr ⟨hji, hj⟩

theorem LeaseRun.refusal_of_refused (h : S.LeaseRun size refusal (.init w) ls c) {r : Res}
    (hp : c.procs[i]? = some (req, .refused r)) : refusal req r := by
  generalize hc : (Leases.init w : Leases E A W Req Res) = c₀ at h
  induction h with
  | nil =>
    subst hc
    simp [Leases.init] at hp
  | snoc _ hs ih =>
    cases hs with
    | arrive req' =>
      rw [List.getElem?_append] at hp
      split at hp
      · exact ih hp
      · cases List.mem_singleton.1 (List.mem_of_getElem? hp)
    | acquire hq _ _ | run hq _ | release hq =>
      rcases getElem?_set_phase hq hp with ⟨-, he⟩ | ⟨-, hp⟩
      · cases he
      · exact ih hp
    | refuse hq hr =>
      rcases getElem?_set_phase hq hp with ⟨-, he⟩ | ⟨-, hp⟩
      · cases he
        exact hr
      · exact ih hp

def Untouched (c : Leases E A W Req Res) (i : Nat) : Prop :=
  ∀ p, c.procs[i]? = some p → p.2 = .waiting ∨ ∃ r, p.2 = .refused r

theorem Untouched.of_set {j : Nat} {ph ph' : Phase E A Res} (hp : c.procs[j]? = some (req, ph))
    (h : Untouched (⟨w, c.procs.set j (req, ph')⟩ : Leases E A W Req Res) i)
    (hph : ph' ≠ .waiting ∧ ∀ r, ph' ≠ .refused r) : j ≠ i ∧ Untouched c i := by
  -- a step of `i` itself shows in its phase
  have hji : j ≠ i := by
    rintro rfl
    have hself := List.getElem?_set_self (a := (req, ph')) (List.getElem?_eq_some_iff.1 hp).1
    rcases h _ hself with he | ⟨r, he⟩
    · exact hph.1 he
    · exact hph.2 r he
  refine ⟨hji, fun p hi => h p ?_⟩
  rw [List.getElem?_set_ne hji]
  exact hi

theorem LeaseStep.untouched (hs : S.LeaseStep size refusal c l c') (h : Untouched c' i) :
    Untouched c i ∧ ∀ e a, l ≠ .did i e a := by
  cases hs with
  | arrive req =>
    refine ⟨fun p hp => h p ?_, fun e a he => by cases he⟩
    rw [List.getElem?_append_left (List.getElem?_eq_some_iff.1 hp).1]
    exact hp
  | acquire hp _ _ => exact ⟨(h.of_set hp (by simp)).2, fun e a he => by cases he⟩
  | run hp _ =>
    obtain ⟨hji, hu⟩ := h.of_set hp (by simp)
    refine ⟨hu, fun e a he => ?_⟩
    cases he
    exact hji rfl
  | release hp => exact ⟨(h.of_set hp (by simp)).2, fun e a he => by cases he⟩
  | @refuse j req r hp _ =>
    refine ⟨fun p hi => ?_, fun e a he => by cases he⟩
    by_cases hji : j = i
    · subst hji
      cases hp.symm.trans hi
      exact .inl rfl
    · refine h p ?_
      rw [List.getElem?_set_ne hji]
      exact hi

theorem LeaseRun.not_did (h : S.LeaseRun size refusal (.init w) ls c) (hi : Untouched c i)
    (e : E) (a : A e) : .did i e a ∉ ls := by
  generalize hc : (Leases.init w : Leases E A W Req Res) = c₀ at h
  induction h with
  | nil => exact List.not_mem_nil
  | snoc _ hs ih =>
    obtain ⟨hu, hl⟩ := hs.untouched hi
    rw [List.mem_append, List.mem_singleton]
    rintro (hm | rfl)
    · exact ih hu hm
    · exact hl e a rfl

theorem LeaseRun.own_of_refused (h : S.LeaseRun size refusal (.init w) ls c) {r : Res}
    (hr : c.Refused i r) : own i (ls.flatMap LeaseLabel.erase) = [] := by
  obtain ⟨req, hp⟩ := hr
  have huntouched : Untouched c i := by
    intro p hi
    cases hp.symm.trans hi
    exact .inr ⟨r, rfl⟩
  rw [List.eq_nil_iff_forall_not_mem]
  rintro ⟨e, a⟩ hm
  exact h.not_did huntouched e a (LeaseLabel.mem_erase_did.1 (mem_own.1 hm))

theorem Follow.nodup_keys (h : Follow S same loc idle c d) : c.keys.Nodup := by
  rw [Leases.keys, List.Nodup, List.pairwise_filterMap, List.pairwise_iff_getElem]
  intro i j hi hj hij key hk key' hk' he
  have hget : ∀ {i : Nat} (hi : i < c.procs.length) {key : Nat},
      c.procs[i].2.key? = some key → c.key? i = some key := by
    intro i hi key hk
    rw [Leases.key?, List.getElem?_eq_getElem hi]
    exact hk
  exact Nat.ne_of_lt hij (h.exclusive (hget hi hk) (he ▸ hget hj hk'))

theorem mem_keys {key : Nat} : key ∈ c.keys ↔ ∃ i, c.key? i = some key := by
  rw [Leases.keys, List.mem_filterMap]
  constructor
  · rintro ⟨p, hp, hk⟩
    obtain ⟨i, hi⟩ := List.getElem?_of_mem hp
    exact ⟨i, by rw [Leases.key?, hi]; exact hk⟩
  · rintro ⟨i, hk⟩
    obtain ⟨p, hp, hk⟩ := Option.bind_eq_some_iff.1 hk
    exact ⟨p, List.mem_of_getElem? hp, hk⟩

theorem LeaseRun.length_keys_le (h : S.LeaseRun size refusal (.init w) ls c)
    (hf : Follow S same loc idle c d) : c.keys.length ≤ size := by
  have hsub : c.keys ⊆ List.range size := by
    intro key hk
    obtain ⟨i, hi⟩ := mem_keys.1 hk
    exact List.mem_range.2 (h.key_lt hi)
  simpa using (List.Nodup.subperm hf.nodup_keys hsub).length_le

def unanswered (d : Config E A W Req Res) : Nat := d.procs.countP (·.2.unanswered)

inductive Phase.Prompt : Phase E A Res → Prop where
  | answered {r : Res} : Prompt (.answered r)
  | holding {key : Nat} {e : E} {k : A e → Prog E A Res} : Prompt (.holding key (.op e k))

def Prompt (c : Leases E A W Req Res) : Prop :=
  ∀ (i : Nat) (p : Req × Phase E A Res), c.procs[i]? = some p → Phase.Prompt p.2

theorem Follow.length_keys (h : Follow S same loc idle c d) (hc : Prompt c) :
    c.keys.length = unanswered d := by
  rw [Leases.keys, List.length_filterMap_eq_countP, unanswered, h.procs, List.countP_map]
  refine List.countP_congr fun p hp => ?_
  obtain ⟨i, hi⟩ := List.getElem?_of_mem hp
  obtain ⟨req, ph⟩ := p
  cases hc i _ hi <;> simp [Phase.key?, Phase.rest, Prog.unanswered]

theorem Follow.holding {e : E} {k : A e → Prog E A Res} (h : Follow S same loc idle c d)
    (hc : Prompt c) (hp : d.procs[i]? = some (req, .op e k)) :
    ∃ key, c.procs[i]? = some (req, .holding key (.op e k)) := by
  rw [h.procs, List.getElem?_map] at hp
  obtain ⟨⟨req', ph⟩, hq, he⟩ := Option.map_eq_some_iff.1 hp
  cases hc i _ hq <;> cases he
  exact ⟨_, hq⟩

theorem Follow.over {r : Res} (h : Follow S same loc idle c d) (hc : Prompt c)
    (hr : d.Returned i r) : c.Over i r := by
  obtain ⟨req, hp⟩ := hr
  rw [h.procs, List.getElem?_map] at hp
  obtain ⟨⟨req', ph⟩, hq, he⟩ := Option.map_eq_some_iff.1 hp
  cases hc i _ hq <;> cases he
  exact ⟨_, hq⟩

theorem exists_free (h : c.keys.length < size) : ∃ key < size, ∀ j, c.key? j ≠ some key := by
  by_contra hn
  push Not at hn
  have hsub : List.range size ⊆ c.keys := by
    intro key hk
    obtain ⟨j, hj⟩ := hn key (List.mem_range.1 hk)
    exact mem_keys.2 ⟨j, hj⟩
  have hle := (List.nodup_range.subperm hsub).length_le
  rw [List.length_range] at hle
  exact Nat.not_lt.2 hle h

theorem Follow.prompt (size : Nat) {key : Nat} {p : Prog E A Res}
    (h : Follow S same loc idle c d)
    (hp : c.procs[i]? = some (req, .holding key p))
    (hidle : ∀ r, d.Returned i r → loc d.world i = idle)
    (hc : ∀ j p, j ≠ i → c.procs[j]? = some p → Phase.Prompt p.2) :
    ∃ ls' c', S.LeaseRun size refusal c ls' c' ∧ ls'.flatMap LeaseLabel.erase = [] ∧
      Follow S same loc idle c' d ∧ Prompt c' := by
  cases p with
  | op e k =>
    refine ⟨[], c, .nil c, rfl, h, fun j p hj => ?_⟩
    by_cases hji : j = i
    · subst hji
      cases hp.symm.trans hj
      exact .holding
    · exact hc j p hji hj
  | ret r =>
    have hidle' := hidle r ⟨req, h.getElem? hp⟩
    refine ⟨_, _, .snoc (.nil c) (.release hp), rfl, h.release hp hidle', fun j p hj => ?_⟩
    by_cases hji : j = i
    · subst hji
      rw [List.getElem?_set_self (List.getElem?_eq_some_iff.1 hp).1] at hj
      cases hj
      exact .answered
    · rw [List.getElem?_set_ne (Ne.symm hji)] at hj
      exact hc j p hji hj

theorem Follow.exists_start {d' : Config E A W Req Res} (h : Follow S same loc idle c d)
    (hc : Prompt c) (hst : S.Step d (.started i req) d') (hlt : unanswered d < size)
    (hidle : ∀ j r, d'.Returned j r → loc d'.world j = idle) :
    ∃ ls c', S.LeaseRun size refusal c ls c' ∧ ls.flatMap LeaseLabel.erase = [.started i req] ∧
      Follow S same loc idle c' d' ∧ Prompt c' := by
  cases hst with
  | start =>
    rw [← h.length_keys hc] at hlt
    obtain ⟨key, hkey, hfree⟩ := exists_free hlt
    have hfree' : ∀ j, (⟨c.world, c.procs ++ [(req, .waiting)]⟩ :
        Leases E A W Req Res).key? j ≠ some key := fun j => key?_arrive (c := c) j ▸ hfree j
    have hget := List.getElem?_concat_length (l := c.procs) (a := (req, .waiting))
    have hf := (h.arrive req).acquire hget hfree'
    have hothers : ∀ j p, j ≠ c.procs.length →
        ((c.procs ++ [(req, Phase.waiting)]).set c.procs.length
          (req, .holding key (S.body req)))[j]? = some p → Phase.Prompt p.2 := by
      intro j p hj hp
      rw [List.getElem?_set_ne (Ne.symm hj)] at hp
      have hlen := (List.getElem?_eq_some_iff.1 hp).1
      simp only [List.length_append, List.length_singleton] at hlen
      rw [List.getElem?_append_left (by omega)] at hp
      exact hc j p hp
    obtain ⟨ls, c', hl, he, hf', hc'⟩ := hf.prompt size (List.getElem?_set_self (by simp))
      (hidle _) hothers
    have harrive : S.LeaseRun size refusal c [.arrived c.procs.length req] _ := .snoc (.nil c) (.arrive req)
    refine ⟨_, c', (harrive.snoc (.acquire hget hkey hfree')).append hl, ?_, hf', hc'⟩
    simp [he, LeaseLabel.erase, h.length_procs]

theorem Follow.exists_run {d' : Config E A W Req Res} {e : E} {a : A e} (hS : S.Keyed same loc)
    (h : Follow S same loc idle c d) (hc : Prompt c) (hst : S.Step d (.did i e a) d')
    (hidle : ∀ j r, d'.Returned j r → loc d'.world j = idle) :
    ∃ ls c', S.LeaseRun size refusal c ls c' ∧ ls.flatMap LeaseLabel.erase = [.did i e a] ∧
      Follow S same loc idle c' d' ∧ Prompt c' := by
  cases hst with
  | @run _ req _ k _ v hp ht =>
    obtain ⟨key, hq⟩ := h.holding hc hp
    obtain ⟨w', hw', hsame, hloc⟩ := hS.transfer ht (hS.symm h.same) (h.held (key?_eq hq)).symm
    have hf := h.run hS hq hw' ht (hS.symm hsame) hloc.symm
    have hothers : ∀ j p, j ≠ i →
        (c.procs.set i (req, .holding key (k a)))[j]? = some p → Phase.Prompt p.2 := by
      intro j p hj hp
      rw [List.getElem?_set_ne (Ne.symm hj)] at hp
      exact hc j p hp
    obtain ⟨ls, c', hl, he, hf', hc'⟩ := hf.prompt size
      (List.getElem?_set_self (List.getElem?_eq_some_iff.1 hq).1) (hidle _) hothers
    have hrun : S.LeaseRun size refusal c [.did i e a] _ := .snoc (.nil c) (.run hq hw')
    refine ⟨_, c', hrun.append hl, ?_, hf', hc'⟩
    simp [he, LeaseLabel.erase]

/-- A run of the system in which no request starts while `size` others are unanswered is one of
the pool. -/
theorem exists_leaseRun (hS : S.Keyed same loc) (hidle : ∀ i, loc w i = idle)
    (hclean : Clean S loc idle w) {ls : List (Label E A Req)}
    (h : S.RunUnder (fun _ d l => l.isStart → unanswered d < size)
      (.init w) ls d) :
    ∃ ls' c, S.LeaseRun size refusal (.init w) ls' c ∧ ls'.flatMap LeaseLabel.erase = ls ∧
      Follow S same loc idle c d ∧ Prompt c := by
  generalize hd : (Config.init w : Config E A W Req Res) = d₀ at h
  induction h with
  | nil =>
    subst hd
    exact ⟨[], .init w, .nil _, rfl, follow_init hS.refl hidle, by simp [Prompt, Leases.init]⟩
  | @snoc d d' ls l hr hs hg ih =>
    obtain ⟨ls', c, hl, rfl, hf, hc⟩ := ih
    subst hd
    have hclean' : ∀ i r, d'.Returned i r → loc d'.world i = idle :=
      fun i r => hclean (.snoc hr.run hs)
    have hstep : ∃ ls₁ c', S.LeaseRun size refusal c ls₁ c' ∧ ls₁.flatMap LeaseLabel.erase = [l] ∧
        Follow S same loc idle c' d' ∧ Prompt c' := by
      cases l with
      | started i req => exact hf.exists_start hc hs (hg rfl) hclean'
      | did i e a => exact hf.exists_run hS hc hs hclean'
    obtain ⟨ls₁, c', hl₁, he, hf₁, hc₁⟩ := hstep
    exact ⟨_, c', hl.append hl₁, by rw [List.flatMap_append, he], hf₁, hc₁⟩

theorem length_procs_of_run (h : S.Run (.init w) ls' d) :
    d.procs.length = ls'.countP Label.isStart := by
  generalize hd : (Config.init w : Config E A W Req Res) = d₀ at h
  induction h with
  | nil =>
    subst hd
    rfl
  | snoc _ hs ih =>
    rw [List.countP_append, ← ih]
    cases hs with
    | start req => simp [Label.isStart]
    | run hp ht => simp [Label.isStart]

theorem Run.runUnder_of_few (h : S.Run (.init w) ls' d) (hfew : ls'.countP Label.isStart ≤ size) :
    S.RunUnder (fun _ d l => l.isStart → unanswered d < size) (.init w) ls' d := by
  generalize hd : (Config.init w : Config E A W Req Res) = d₀ at h ⊢
  induction h with
  | nil => exact .nil _
  | @snoc d₁ _ ls l hr hs ih =>
    rw [List.countP_append] at hfew
    refine .snoc (ih (Nat.le_trans (Nat.le_add_right _ _) hfew)) hs fun hl => ?_
    have hle : unanswered d₁ ≤ d₁.procs.length := List.countP_le_length
    have hone : [l].countP Label.isStart = 1 := by rw [List.countP_singleton, if_pos hl]
    subst hd
    rw [length_procs_of_run hr] at hle
    omega

/-! ## Nobody waits forever -/

inductive Left (n : Nat) : Req × Phase E A Res → Nat → Prop where
  | waiting {req : Req} : Left n (req, .waiting) (n + 2)
  | holding {req : Req} {key m : Nat} {p : Prog E A Res} : p.Bounded m →
      Left n (req, .holding key p) (m + 1)
  | answered {req : Req} {r : Res} : Left n (req, .answered r) 0
  | refused {req : Req} {r : Res} : Left n (req, .refused r) 0

inductive Total {α : Type} (P : α → Nat → Prop) : List α → Nat → Prop where
  | nil : Total P [] 0
  | cons {a : α} {l : List α} {m s : Nat} : P a m → Total P l s → Total P (a :: l) (m + s)

section
variable {α : Type} {P : α → Nat → Prop} {xs : List α} {a b : α} {m s : Nat}

theorem Total.concat (h : Total P xs s) (ha : P a m) : Total P (xs ++ [a]) (s + m) := by
  induction h with
  | nil => exact Nat.add_comm 0 m ▸ .cons ha .nil
  | @cons b xs k s hb _ ih =>
    rw [Nat.add_assoc]
    exact .cons hb ih

theorem Total.set_lt (h : Total P xs s) (hi : xs[i]? = some a)
    (hlt : ∀ {m}, P a m → ∃ m', P b m' ∧ m' < m) : ∃ s', Total P (xs.set i b) s' ∧ s' < s := by
  induction h generalizing i with
  | nil => simp at hi
  | @cons x xs m s hx hxs ih =>
    cases i with
    | zero =>
      cases hi
      obtain ⟨m', hb, hm⟩ := hlt hx
      exact ⟨m' + s, .cons hb hxs, Nat.add_lt_add_right hm s⟩
    | succ i =>
      obtain ⟨s', hs', hlt'⟩ := ih hi
      exact ⟨m + s', .cons hx hs', Nat.add_lt_add_left hlt' m⟩

end

variable {n : Nat}

theorem LeaseStep.total (hb : ∀ req, (S.body req).Bounded n) (hs : S.LeaseStep size refusal c l c')
    {s : Nat} (ht : Total (Left n) c.procs s) :
    if l.isArrival then Total (Left n) c'.procs (s + (n + 2))
    else ∃ s', Total (Left n) c'.procs s' ∧ s' < s := by
  cases hs with
  | arrive req => exact ht.concat .waiting
  | acquire hp _ _ =>
    refine ht.set_lt hp fun hm => ?_
    cases hm
    exact ⟨n + 1, .holding (hb _), Nat.lt_succ_self _⟩
  | @run _ _ _ _ _ a _ hp _ =>
    refine ht.set_lt hp fun hm => ?_
    cases hm with
    | holding hk =>
      obtain ⟨m, rfl, hk⟩ := hk
      exact ⟨m + 1, .holding (hk a), Nat.lt_succ_self _⟩
  | release hp =>
    refine ht.set_lt hp fun hm => ?_
    cases hm
    exact ⟨0, .answered, Nat.succ_pos _⟩
  | refuse hp _ =>
    refine ht.set_lt hp fun hm => ?_
    cases hm
    exact ⟨0, .refused, Nat.succ_pos _⟩

theorem isArrival_of_serves {l : LeaseLabel E A Req} (h : l.serves) : l.isArrival = false := by
  cases l with
  | arrived => cases h
  | _ => rfl

theorem LeaseRun.total (hb : ∀ req, (S.body req).Bounded n)
    (h : S.LeaseRun size refusal (.init w) ls c) :
    ∃ s, Total (Left n) c.procs s ∧
      (ls.filter (!·.isArrival)).length + s ≤ (ls.filter (·.isArrival)).length * (n + 2) := by
  generalize hc : (Leases.init w : Leases E A W Req Res) = c₀ at h
  induction h with
  | nil =>
    subst hc
    exact ⟨0, .nil, Nat.le_of_eq (Nat.zero_mul _).symm⟩
  | @snoc _ _ ls l _ hs ih =>
    obtain ⟨s, ht, hle⟩ := ih
    have hstep := hs.total hb ht
    simp only [List.filter_append, List.length_append, Nat.add_mul]
    cases hl : l.isArrival
    · simp only [hl, Bool.false_eq_true, if_false] at hstep
      obtain ⟨s', ht', hlt⟩ := hstep
      refine ⟨s', ht', ?_⟩
      simp [hl]
      omega
    · simp only [hl, if_true] at hstep
      refine ⟨_, hstep, ?_⟩
      simp [hl]
      omega

theorem exists_step (hsize : 0 < size) (htotal : ∀ w key e, ∃ a w', S.Trans w key e a w')
    (hd : ¬c.Done) : ∃ l c', S.LeaseStep size refusal c l c' ∧ l.serves := by
  by_cases hold : ∃ i key, c.key? i = some key
  · obtain ⟨i, key, hk⟩ := hold
    obtain ⟨⟨req, ph⟩, hp, hph⟩ := Option.bind_eq_some_iff.1 hk
    cases ph with
    | holding key' p =>
      cases p with
      | ret r => exact ⟨_, _, .release hp, rfl⟩
      | op e k =>
        obtain ⟨a, w', ht⟩ := htotal c.world key' e
        exact ⟨_, _, .run hp ht, rfl⟩
    | _ => cases hph
  · -- nobody holds a key, so a request that is not over can take any
    simp only [Leases.Done, not_forall] at hd
    obtain ⟨i, hi, hn⟩ := hd
    obtain ⟨⟨req, ph⟩, hp⟩ : ∃ x, c.procs[i]? = some x := ⟨_, List.getElem?_eq_getElem hi⟩
    cases ph with
    | waiting => exact ⟨_, _, .acquire hp hsize fun j hj => hold ⟨j, 0, hj⟩, rfl⟩
    | holding key p => exact absurd ⟨i, key, key?_eq hp⟩ hold
    | answered r => exact absurd ⟨r, .inl ⟨req, hp⟩⟩ hn
    | refused r => exact absurd ⟨r, .inr ⟨req, hp⟩⟩ hn

theorem exists_done (hb : ∀ req, (S.body req).Bounded n) (hsize : 0 < size)
    (htotal : ∀ w key e, ∃ a w', S.Trans w key e a w') {s : Nat}
    (ht : Total (Left n) c.procs s) :
    ∃ ls c', S.LeaseRun size refusal c ls c' ∧ (∀ l ∈ ls, l.serves) ∧ c'.Done := by
  suffices key : ∀ {ls} {c₁ : Leases E A W Req Res}, S.LeaseRun size refusal c ls c₁ →
      (∀ l ∈ ls, l.serves) → Total (Left n) c₁.procs s →
      ∃ ls c', S.LeaseRun size refusal c ls c' ∧ (∀ l ∈ ls, l.serves) ∧ c'.Done from
    key (.nil c) (by simp) ht
  clear ht
  induction s using Nat.strongRecOn with
  | ind s ih =>
    intro ls c₁ hr hls ht
    by_cases hd : c₁.Done
    · exact ⟨ls, c₁, hr, hls, hd⟩
    · obtain ⟨l, c₂, hs, hl⟩ : ∃ l c', S.LeaseStep size refusal c₁ l c' ∧ l.serves :=
        exists_step hsize htotal hd
      have hstep := hs.total hb ht
      simp only [isArrival_of_serves hl, Bool.false_eq_true, if_false] at hstep
      obtain ⟨s', ht', hlt⟩ := hstep
      refine ih s' hlt (.snoc hr hs) ?_ ht'
      intro l' hl'
      rcases List.mem_append.1 hl' with hm | hm
      · exact hls l' hm
      · rw [List.mem_singleton.1 hm, hl]

end System

end Effects
