import Mathlib.Data.List.Nodup

/-! Tables as lists of rows with a key column: lookup by key, and update of the
rows with a given key by a change that leaves the key alone. -/

namespace Keyed

variable {α β κ : Type} [DecidableEq κ] {key : α → κ} {k k' : κ} {f : α → α} {r : α} {l l' : List α}

def lookup (key : α → κ) (k : κ) (l : List α) : Option α := l.find? fun r => key r = k

def modify (key : α → κ) (k : κ) (f : α → α) (l : List α) : List α :=
  l.map fun r => if key r = k then f r else r

@[simp] theorem lookup_nil : lookup key k [] = none := rfl

theorem lookup_cons : lookup key k (r :: l) = if key r = k then some r else lookup key k l := by
  simp only [lookup, List.find?_cons]
  split <;> simp_all

theorem lookup_append : lookup key k (l ++ l') = (lookup key k l).or (lookup key k l') :=
  List.find?_append

theorem lookup_eq_none : lookup key k l = none ↔ ∀ r ∈ l, key r ≠ k := by
  simp [lookup]

theorem mem_of_lookup (h : lookup key k l = some r) : r ∈ l := List.mem_of_find?_eq_some h

theorem key_of_lookup (h : lookup key k l = some r) : key r = k := by
  simpa using List.find?_some h

theorem lookup_of_mem (hn : (l.map key).Nodup) (h : r ∈ l) : lookup key (key r) l = some r := by
  induction l with
  | nil => cases h
  | cons s l ih =>
    rw [List.map_cons, List.nodup_cons] at hn
    rw [lookup_cons]
    rcases List.mem_cons.1 h with rfl | h
    · exact if_pos rfl
    · have hs : key s ≠ key r := fun he => hn.1 (he ▸ List.mem_map_of_mem h)
      rw [if_neg hs, ih hn.2 h]

theorem lookup_eq_some_iff (hn : (l.map key).Nodup) :
    lookup key k l = some r ↔ r ∈ l ∧ key r = k := by
  constructor
  · exact fun h => ⟨mem_of_lookup h, key_of_lookup h⟩
  · rintro ⟨h, rfl⟩
    exact lookup_of_mem hn h

theorem filter_eq_lookup (hn : (l.map key).Nodup) :
    (l.filter fun r => key r = k) = (lookup key k l).toList := by
  induction l with
  | nil => rfl
  | cons s l ih =>
    rw [List.map_cons, List.nodup_cons] at hn
    rw [lookup_cons, List.filter_cons]
    by_cases hs : key s = k
    · have hl : lookup key k l = none :=
        lookup_eq_none.2 fun r hr he => hn.1 (hs.trans he.symm ▸ List.mem_map_of_mem hr)
      simp only [hs, decide_true, if_true, ih hn.2, hl, Option.toList_none, Option.toList_some]
    · simp only [hs, decide_false, Bool.false_eq_true, if_false, ih hn.2]

theorem lookup_modify (hf : ∀ r, key (f r) = key r) :
    lookup key k' (modify key k f l) =
      (lookup key k' l).map fun r => if k' = k then f r else r := by
  induction l with
  | nil => rfl
  | cons r l ih =>
    have hk : key (if key r = k then f r else r) = key r := by split <;> simp [hf]
    change lookup key k' ((if key r = k then f r else r) :: modify key k f l) = _
    rw [lookup_cons, lookup_cons, hk, ih]
    split
    · rename_i h
      simp [h]
    · rfl

theorem mem_modify : r ∈ modify key k f l ↔ ∃ s ∈ l, r = if key s = k then f s else s := by
  simp only [modify, List.mem_map, eq_comm]

theorem map_modify {β : Type} {g : α → β} (hg : ∀ r, g (f r) = g r) :
    (modify key k f l).map g = l.map g := by
  rw [modify, List.map_map]
  apply List.map_congr_left
  intro r _
  rw [Function.comp_apply]
  split
  · exact hg r
  · rfl

theorem filter_modify {p : α → Bool} (hp : ∀ r ∈ l, key r = k → p r = false ∧ p (f r) = false) :
    (modify key k f l).filter p = l.filter p := by
  induction l with
  | nil => rfl
  | cons r l ih =>
    change List.filter p ((if key r = k then f r else r) :: modify key k f l) = _
    rw [List.filter_cons, List.filter_cons, ih fun r' hr' => hp r' (List.mem_cons_of_mem _ hr')]
    by_cases hk : key r = k
    · obtain ⟨hr, hf⟩ := hp r List.mem_cons_self hk
      rw [if_pos hk, hr, hf]
      rfl
    · rw [if_neg hk]

theorem filter_modify_of_keeps {p : α → Bool} (hp : ∀ r, p (f r) = p r) :
    (modify key k f l).filter p = modify key k f (l.filter p) := by
  have hcomp : (p ∘ fun r => if key r = k then f r else r) = p := by
    funext r
    rw [Function.comp_apply]
    split
    · exact hp r
    · rfl
  rw [modify, List.filter_map, hcomp, modify]

theorem modify_eq_self_iff (hn : (l.map key).Nodup) :
    modify key k f l = l ↔ ∀ r, lookup key k l = some r → f r = r := by
  have hmap : modify key k f l = l ↔ ∀ r ∈ l, (if key r = k then f r else r) = r := by
    simpa only [modify, List.map_id_fun, id] using
      List.map_inj_left (l := l) (f := fun r => if key r = k then f r else r) (g := id)
  rw [hmap]
  constructor
  · intro h r hr
    simpa only [key_of_lookup hr, if_true] using h r (mem_of_lookup hr)
  · intro h r hr
    split
    · rename_i hk
      exact h r (hk ▸ lookup_of_mem hn hr)
    · rfl

omit [DecidableEq κ] in
theorem nodup_map_concat :
    ((l ++ [r]).map key).Nodup ↔ key r ∉ l.map key ∧ (l.map key).Nodup := by
  rw [List.map_append, List.map_singleton, ← List.concat_eq_append, List.nodup_concat]

omit [DecidableEq κ] in
theorem map_append_subset {t : List α} (h : l.map key ⊆ l'.map key) :
    (l ++ t).map key ⊆ (l' ++ t).map key := by
  rw [List.map_append, List.map_append]
  have hl : l.map key ⊆ l'.map key ++ t.map key :=
    List.Subset.trans h (List.subset_append_left ..)
  exact List.append_subset.2 ⟨hl, List.subset_append_right ..⟩

end Keyed
