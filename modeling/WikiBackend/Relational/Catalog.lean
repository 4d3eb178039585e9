import Mathlib.Data.Finset.Lattice.Fold
import Mathlib.Data.Finset.Union
import Mathlib.Data.List.Forall2
import Mathlib.Data.List.Nodup
import Mathlib.Logic.Function.Basic
import Mathlib.Order.Lattice.Nat
import Mathlib.Tactic.Common
import WikiBackend.Relational.Varchar

/-! A store of rows with its catalog. Each object of the catalog requires something of the rows,
and a statement takes effect if what it leaves meets all requirements. -/

namespace Relational

inductive Value where
  | null
  | int (n : Int)
  | text (s : String)
  | time (t : Int)
  | uuid (u : BitVec 128)
  deriving DecidableEq

def Value.sqlEq (v v' : Value) : Bool := v ≠ .null && v = v'

theorem Value.sqlEq_int {v : Value} {n : Int} : v.sqlEq (.int n) ↔ v = .int n := by
  simp only [sqlEq, Bool.and_eq_true, decide_eq_true_eq, and_iff_right_iff_imp]
  rintro rfl h
  cases h

inductive ColType where
  | integer
  | bigint
  | varchar (n : Nat)
  | timestamptz
  | uuid
  deriving DecidableEq

namespace ColType

def admits : ColType → Value → Bool
  | _, .null => true
  | .integer, .int n => -2147483648 ≤ n && n ≤ 2147483647
  | .bigint, .int n => -9223372036854775808 ≤ n && n ≤ 9223372036854775807
  | .varchar n, .text s => s.length ≤ n && !s.toList.contains '\x00'
  | .timestamptz, .time _ => true
  | .uuid, .uuid _ => true
  | _, _ => false

def convertible : ColType → ColType → Bool
  | .integer, .bigint => true
  | .bigint, .integer => true
  | .varchar n, .varchar m => n ≤ m
  | type, type' => type = type'

def narrower (type type' : ColType) : Bool :=
  type = type' ||
    match type, type' with
    | .integer, .bigint => true
    | .varchar n, .varchar m => n ≤ m
    | _, _ => false

theorem admits_of_narrower {type type' : ColType} {v : Value} (h : type.narrower type')
    (hv : type.admits v) : type'.admits v := by
  simp only [narrower, Bool.or_eq_true, decide_eq_true_eq] at h
  rcases h with rfl | h
  · exact hv
  split at h
  · cases v <;> simp only [admits, Bool.and_eq_true, decide_eq_true_eq, Bool.false_eq_true] at hv ⊢
    omega
  · simp only [decide_eq_true_eq] at h
    cases v <;> simp only [admits, Bool.and_eq_true, decide_eq_true_eq, Bool.false_eq_true] at hv ⊢
    exact ⟨hv.1.trans h, hv.2⟩
  · cases h

end ColType

inductive Default where
  | now
  | nextval
  deriving DecidableEq

structure Column (κ : Type) where
  name : κ
  type : ColType
  nullable : Bool
  default : Option Default
  deriving DecidableEq

inductive Constraint (τ κ : Type) where
  | primaryKey (columns : List κ)
  | unique (columns : List κ)
  | foreignKey (column : κ) (target : τ) (targetColumn : κ)
  deriving DecidableEq

inductive Object (τ κ ν : Type) where
  | table (t : τ)
  | column (t : τ) (c : Column κ)
  | constraint (name : ν) (t : τ) (c : Constraint τ κ)
  | index (name : ν) (t : τ) (columns : List κ) (unique : Bool)
  deriving DecidableEq

inductive Requirement (τ κ : Type) where
  | typed (t : τ) (c : κ) (type : ColType)
  | notNull (t : τ) (c : κ)
  | unique (t : τ) (cs : List κ)
  | references (t : τ) (c : κ) (t' : τ) (c' : κ)
  deriving DecidableEq

abbrev Row (κ : Type) := κ → Value

abbrev Rows (τ κ : Type) := τ → List (Row κ)

abbrev Catalog (τ κ ν : Type) [DecidableEq τ] [DecidableEq κ] [DecidableEq ν] :=
  Finset (Object τ κ ν)

variable {τ κ ν : Type}

/-! ## Rows -/

def SameRows (p : κ → Prop) (rs rs' : List (Row κ)) : Prop :=
  List.Forall₂ (fun r r' => ∀ c, p c → r' c = r c) rs rs'

namespace SameRows

variable {p p' : κ → Prop} {rs rs' rs'' : List (Row κ)}

theorem refl (p : κ → Prop) (rs : List (Row κ)) : SameRows p rs rs :=
  List.forall₂_same.2 fun _ _ _ _ => rfl

theorem trans (h : SameRows p rs rs') (h' : SameRows p rs' rs'') : SameRows p rs rs'' := by
  induction h generalizing rs'' with
  | nil => exact h'
  | cons hr _ ih =>
    cases h' with
    | cons hr' h' => exact .cons (fun c hc => (hr' c hc).trans (hr c hc)) (ih h')

theorem mono (h : SameRows p rs rs') (hp : ∀ c, p' c → p c) : SameRows p' rs rs' :=
  List.Forall₂.imp (fun _ _ hr c hc => hr c (hp c hc)) h

theorem map_eq {α : Type} {f : Row κ → α} (h : SameRows p rs rs')
    (hf : ∀ r r', (∀ c, p c → r' c = r c) → f r' = f r) : rs'.map f = rs.map f := by
  induction h with
  | nil => rfl
  | cons hr _ ih => rw [List.map_cons, List.map_cons, hf _ _ hr, ih]

theorem values_eq {c : κ} (h : SameRows p rs rs') (hc : p c) : rs'.map (· c) = rs.map (· c) :=
  h.map_eq fun _ _ hr => hr c hc

end SameRows

/-! ## Requirements -/

namespace Requirement

/-- The values of a unique key; a key with a null in it is not compared with others. -/
def keys (cs : List κ) (rs : List (Row κ)) : List (List Value) :=
  (rs.map fun r => cs.map r).filter fun k => .null ∉ k

def Holds (d : Rows τ κ) : Requirement τ κ → Prop
  | .typed t c type => ∀ r ∈ d t, type.admits (r c)
  | .notNull t c => ∀ r ∈ d t, r c ≠ .null
  | .unique t cs => (keys cs (d t)).Nodup
  | .references t c t' c' => ∀ r ∈ d t, r c = .null ∨ ∃ r' ∈ d t', r' c' = r c

instance (d : Rows τ κ) (q : Requirement τ κ) : Decidable (q.Holds d) := by
  cases q <;> unfold Holds <;> infer_instance

def source : Requirement τ κ → τ
  | .typed t _ _ | .notNull t _ | .unique t _ | .references t _ _ _ => t

theorem holds_of_empty {d : Rows τ κ} {q : Requirement τ κ} (h : d q.source = []) : q.Holds d := by
  cases q with
  | unique t cs =>
    simp only [source] at h
    simp only [Holds, keys, h, List.map_nil, List.filter_nil, List.nodup_nil]
  | _ =>
    simp only [source] at h
    simp only [Holds, h]
    exact List.forall_mem_nil _

def HoldsOfRow [DecidableEq τ] (t : τ) (r : Row κ) : Requirement τ κ → Prop
  | .typed t' c type => t' = t → type.admits (r c)
  | .notNull t' c => t' = t → r c ≠ .null
  | .unique _ _ | .references _ _ _ _ => True

instance [DecidableEq τ] (t : τ) (r : Row κ) (q : Requirement τ κ) :
    Decidable (q.HoldsOfRow t r) := by
  cases q <;> unfold HoldsOfRow <;> infer_instance

def isKey : Requirement τ κ → Bool
  | .unique _ _ | .references _ _ _ _ => true
  | .typed _ _ _ | .notNull _ _ => false

theorem holds_iff_of_rows [DecidableEq τ] {d : Rows τ κ} {q : Requirement τ κ} (hq : q.isKey = false) :
    q.Holds d ↔ ∀ t, ∀ r ∈ d t, q.HoldsOfRow t r := by
  cases q with
  | typed t' c type | notNull t' c =>
    constructor
    · rintro h t r hr rfl
      exact h r hr
    · intro h r hr
      exact h t' r hr rfl
  | unique _ _ | references _ _ _ _ => cases hq

/-! Keys and references of rows that stand for something else. -/

section
variable {α β γ : Type} {row : α → Row κ} {row' : β → Row κ} {as : List α} {bs : List β}

theorem nodup_keys_map {cs : List κ} {key : α → γ} {value : γ → List Value}
    (hv : Function.Injective value) (hn : ∀ k, .null ∉ value k)
    (hrow : ∀ a, cs.map (row a) = value (key a)) :
    (keys cs (as.map row)).Nodup ↔ (as.map key).Nodup := by
  have hkeys : keys cs (as.map row) = (as.map key).map value := by
    simp only [keys, List.map_map]
    rw [List.filter_eq_self.2]
    · exact List.map_congr_left fun a _ => hrow a
    · intro k hk
      obtain ⟨a, -, rfl⟩ := List.mem_map.1 hk
      simpa only [Function.comp_apply, hrow, decide_eq_true_eq] using hn (key a)
  rw [hkeys, List.nodup_map_iff hv]

theorem nodup_keys_single {c : κ} {key : α → γ} {value : γ → Value}
    (hv : Function.Injective value) (hn : ∀ k, value k ≠ .null) (hrow : ∀ a, row a c = value (key a)) :
    (keys [c] (as.map row)).Nodup ↔ (as.map key).Nodup := by
  have hinj : Function.Injective fun k => [value k] := fun _ _ h => hv (List.cons.inj h).1
  refine nodup_keys_map hinj (fun k hk => hn k (List.mem_singleton.1 hk).symm) fun a => ?_
  rw [List.map_singleton, hrow]

theorem references_map {c c' : κ} {key : α → γ} {key' : β → γ} {value : γ → Value}
    (hv : Function.Injective value) (hn : ∀ k, value k ≠ .null) (hrow : ∀ a, row a c = value (key a))
    (hrow' : ∀ b, row' b c' = value (key' b)) :
    (∀ r ∈ as.map row, r c = .null ∨ ∃ r' ∈ bs.map row', r' c' = r c) ↔
      ∀ a ∈ as, ∃ b ∈ bs, key' b = key a := by
  rw [List.forall_mem_map]
  simp only [List.mem_map, exists_exists_and_eq_and, hrow, hrow', hn, false_or, hv.eq_iff]

end

end Requirement

def Constraint.requirements (t : τ) : Constraint τ κ → List (Requirement τ κ)
  | .primaryKey cs => .unique t cs :: cs.map (.notNull t)
  | .unique cs => [.unique t cs]
  | .foreignKey c t' c' => [.references t c t' c']

namespace Object

def requirements : Object τ κ ν → List (Requirement τ κ)
  | .table _ => []
  | .column t c => .typed t c.name c.type :: if c.nullable then [] else [.notNull t c.name]
  | .constraint _ t c => c.requirements t
  | .index _ t cs unique => if unique then [.unique t cs] else []

def owner : Object τ κ ν → τ
  | .table t | .column t _ | .constraint _ t _ | .index _ t _ _ => t

theorem source_of_mem {o : Object τ κ ν} {q : Requirement τ κ} (h : q ∈ o.requirements) :
    q.source = o.owner := by
  cases o with
  | table t => cases h
  | column t c =>
    simp only [requirements, List.mem_cons] at h
    rcases h with rfl | h
    · rfl
    · split at h
      · cases h
      · rw [List.mem_singleton.1 h]
        rfl
  | constraint n t c =>
    cases c with
    | primaryKey cs =>
      rcases List.mem_cons.1 h with rfl | h
      · rfl
      · obtain ⟨c, -, rfl⟩ := List.mem_map.1 h
        rfl
    | unique cs =>
      rw [List.mem_singleton.1 h]
      rfl
    | foreignKey c t' c' =>
      rw [List.mem_singleton.1 h]
      rfl
  | index n t cs unique =>
    simp only [requirements] at h
    split at h
    · rw [List.mem_singleton.1 h]
      rfl
    · cases h

variable [DecidableEq τ] [DecidableEq κ] [DecidableEq ν]

def indexed : Constraint τ κ → Bool
  | .foreignKey _ _ _ => false
  | _ => true

def sameName : Object τ κ ν → Object τ κ ν → Bool
  | .table t, .table t' => t = t'
  | .column t c, .column t' c' => t = t' && c.name = c'.name
  | .constraint n t c, .constraint n' t' c' => n = n' && (t = t' || (indexed c && indexed c'))
  | .constraint n _ c, .index n' _ _ _ => n = n' && indexed c
  | .index n _ _ _, .constraint n' _ c => n = n' && indexed c
  | .index n _ _ _, .index n' _ _ _ => n = n'
  | _, _ => false

def isColumn (t : τ) (c : κ) (p : Column κ → Bool) : Object τ κ ν → Bool
  | .column t' c' => t' = t && c'.name = c && p c'
  | _ => false

def isKey (t : τ) (cs : List κ) : Object τ κ ν → Bool
  | .constraint _ t' (.primaryKey cs') => t' = t && cs' = cs
  | .constraint _ t' (.unique cs') => t' = t && cs' = cs
  | .index _ t' cs' unique => t' = t && cs' = cs && unique
  | _ => false

def involves (t : τ) (c : κ) : Object τ κ ν → Bool
  | .table _ => false
  | .column t' c' => t' = t && c'.name = c
  | .constraint _ t' (.primaryKey cs) => t' = t && c ∈ cs
  | .constraint _ t' (.unique cs) => t' = t && c ∈ cs
  | .constraint _ t' (.foreignKey c' _ _) => t' = t && c' = c
  | .index _ t' cs _ => t' = t && c ∈ cs

end Object

/-! ## Catalogs -/

namespace Catalog

variable [DecidableEq τ] [DecidableEq κ] [DecidableEq ν]

def requirements (s : Catalog τ κ ν) : Finset (Requirement τ κ) :=
  s.biUnion fun o => o.requirements.toFinset

theorem mem_requirements {s : Catalog τ κ ν} {q : Requirement τ κ} :
    q ∈ s.requirements ↔ ∃ o ∈ s, q ∈ o.requirements := by
  simp only [requirements, Finset.mem_biUnion, List.mem_toFinset]

def HasColumn (s : Catalog τ κ ν) (t : τ) (c : κ) (p : Column κ → Bool) : Prop :=
  ∃ o ∈ s, o.isColumn t c p

/-- The lengths of the texts in the column; in a sound catalog there is one at most. -/
def lengths (s : Catalog τ κ ν) (t : τ) (c : κ) : Finset Nat :=
  s.biUnion fun
    | .column t' ⟨c', .varchar n, _, _⟩ => if t' = t ∧ c' = c then {n} else ∅
    | _ => ∅

def cast (s : Catalog τ κ ν) (t : τ) (c : κ) : Value → Value
  | .text str => .text (if s.lengths t c = ∅ then str else clip ((s.lengths t c).sup id) str)
  | v => v

theorem cast_eq_null {s : Catalog τ κ ν} {t : τ} {c : κ} {v : Value} :
    s.cast t c v = .null ↔ v = .null := by
  cases v <;> simp [cast]

instance (s : Catalog τ κ ν) (t : τ) (c : κ) (p : Column κ → Bool) : Decidable (s.HasColumn t c p) := by
  unfold HasColumn
  infer_instance

def Supports (s : Catalog τ κ ν) : Object τ κ ν → Prop
  | .table _ => True
  | .column t _ => .table t ∈ s
  | .constraint _ t (.primaryKey cs) => ∀ c ∈ cs, s.HasColumn t c fun col => !col.nullable
  | .constraint _ t (.unique cs) => ∀ c ∈ cs, s.HasColumn t c fun _ => true
  | .constraint _ t (.foreignKey c t' c') =>
    (∃ o ∈ s, o.isKey t' [c']) ∧ s.HasColumn t c fun col =>
      s.HasColumn t' c' fun col' => col.type.convertible col'.type
  | .index _ t cs _ => ∀ c ∈ cs, s.HasColumn t c fun _ => true

instance (s : Catalog τ κ ν) (o : Object τ κ ν) : Decidable (s.Supports o) := by
  unfold Supports
  split <;> infer_instance

structure Sound (s : Catalog τ κ ν) : Prop where
  names : ∀ o ∈ s, ∀ o' ∈ s, o.sameName o' → o = o'
  supports : ∀ o ∈ s, s.Supports o

instance (s : Catalog τ κ ν) : Decidable s.Sound :=
  decidable_of_iff ((∀ o ∈ s, ∀ o' ∈ s, o.sameName o' → o = o') ∧ ∀ o ∈ s, s.Supports o)
    ⟨fun ⟨h, h'⟩ => ⟨h, h'⟩, fun ⟨h, h'⟩ => ⟨h, h'⟩⟩

def Valid (s : Catalog τ κ ν) (d : Rows τ κ) : Prop := ∀ q ∈ s.requirements, q.Holds d

instance (s : Catalog τ κ ν) (d : Rows τ κ) : Decidable (s.Valid d) := by
  unfold Valid
  infer_instance

end Catalog

namespace Catalog

variable [DecidableEq τ] [DecidableEq κ] [DecidableEq ν]

def AdmitsRow (s : Catalog τ κ ν) (t : τ) (r : Row κ) : Prop :=
  ∀ q ∈ s.requirements, q.HoldsOfRow t r

instance (s : Catalog τ κ ν) (t : τ) (r : Row κ) : Decidable (s.AdmitsRow t r) := by
  unfold AdmitsRow
  infer_instance

def rowRequirements (s : Catalog τ κ ν) (t : τ) : Finset (Requirement τ κ) :=
  s.requirements.filter fun q => !q.isKey && q.source = t

theorem admitsRow_iff {s : Catalog τ κ ν} {t : τ} {r : Row κ} :
    s.AdmitsRow t r ↔ ∀ q ∈ s.rowRequirements t, q.HoldsOfRow t r := by
  constructor
  · exact fun h q hq => h q (Finset.mem_filter.1 hq).1
  · intro h q hq
    cases q with
    | typed t' c type | notNull t' c =>
      intro ht
      exact h _ (Finset.mem_filter.2 ⟨hq, decide_eq_true ht⟩) ht
    | unique _ _ | references _ _ _ _ => trivial

theorem valid_iff {s : Catalog τ κ ν} {d : Rows τ κ} :
    s.Valid d ↔ (∀ q ∈ s.requirements, q.isKey → q.Holds d) ∧ ∀ t, ∀ r ∈ d t, s.AdmitsRow t r := by
  constructor
  · intro h
    refine ⟨fun q hq _ => h q hq, fun t r hr q hq => ?_⟩
    cases hk : q.isKey with
    | false => exact (Requirement.holds_iff_of_rows hk).1 (h q hq) t r hr
    | true =>
      cases q with
      | unique _ _ | references _ _ _ _ => trivial
      | typed _ _ _ | notNull _ _ => cases hk
  · rintro ⟨hkeys, hrows⟩ q hq
    cases hk : q.isKey with
    | false => exact (Requirement.holds_iff_of_rows hk).2 fun t r hr => hrows t r hr q hq
    | true => exact hkeys q hq hk

end Catalog

/-! ## Stores -/

inductive Fault where
  | catalog
  | rows
  deriving DecidableEq

structure Store (τ κ ν : Type) [DecidableEq τ] [DecidableEq κ] [DecidableEq ν] where
  catalog : Catalog τ κ ν
  rows : Rows τ κ
  sound : catalog.Sound
  valid : catalog.Valid rows

variable [DecidableEq τ] [DecidableEq κ] [DecidableEq ν] {s : Catalog τ κ ν} {d : Rows τ κ}
  {db : Store τ κ ν}

def Store.empty : Store τ κ ν where
  catalog := ∅
  rows _ := []
  sound := ⟨fun _ h => absurd h (Finset.notMem_empty _), fun _ h => absurd h (Finset.notMem_empty _)⟩
  valid := fun _ h => absurd h (Finset.notMem_empty _)

def install (s : Catalog τ κ ν) (d : Rows τ κ) : Except Fault (Store τ κ ν) :=
  if hs : s.Sound then
    if hd : s.Valid d then .ok ⟨s, d, hs, hd⟩ else .error .rows
  else .error .catalog

theorem install_eq_ok :
    install s d = .ok db ↔ s.Sound ∧ s.Valid d ∧ db.catalog = s ∧ db.rows = d := by
  unfold install
  constructor
  · intro h
    split at h
    · split at h <;> cases h
      exact ⟨‹_›, ‹_›, rfl, rfl⟩
    · cases h
  · rintro ⟨hs, hd, rfl, rfl⟩
    rw [dif_pos hs, dif_pos hd]

end Relational
