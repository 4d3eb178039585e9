import Mathlib.Data.Finset.Image
import WikiBackend.Relational.Catalog

/-! Migration scripts: what a statement does to the catalog and to the rows, and which rows a script
leaves as they are. -/

namespace Relational

variable {τ κ ν : Type} [DecidableEq τ] [DecidableEq κ] [DecidableEq ν]

inductive Op (τ κ ν : Type) where
  | createTable (t : τ) (columns : List (Column κ)) (constraints : List (ν × Constraint τ κ))
  | dropTable (t : τ)
  | addColumn (t : τ) (c : Column κ)
  | dropColumn (t : τ) (c : κ)
  | alterNullable (t : τ) (c : κ) (nullable : Bool)
  | alterType (t : τ) (c : κ) (type : ColType)
  | createIndex (name : ν) (t : τ) (columns : List κ) (unique : Bool)
  | dropIndex (name : ν) (t : τ)
  | createConstraint (name : ν) (t : τ) (c : Constraint τ κ)
  | dropConstraint (name : ν) (t : τ)

/-! ## The catalog -/

namespace Catalog

def create (s : Catalog τ κ ν) (os : List (Object τ κ ν)) : Except Fault (Catalog τ κ ν) :=
  if ∃ o ∈ os, ∃ o' ∈ s, o.sameName o' then .error .catalog else .ok (s ∪ os.toFinset)

/-- Removes `o` with all objects that go with it. -/
def drop (s : Catalog τ κ ν) (isTarget goesToo : Object τ κ ν → Bool) :
    Except Fault (Catalog τ κ ν) :=
  if ∃ o ∈ s, isTarget o then .ok (s.filter fun o => !goesToo o) else .error .catalog

def alterColumn (s : Catalog τ κ ν) (t : τ) (c : κ) (mayAlter : Column κ → Bool)
    (f : Column κ → Column κ) : Except Fault (Catalog τ κ ν) :=
  if s.HasColumn t c mayAlter then
    .ok (s.image fun
      | .column t' col => .column t' (if t' = t ∧ col.name = c then f col else col)
      | o => o)
  else .error .catalog

end Catalog

def tableObjects (t : τ) (columns : List (Column κ)) (constraints : List (ν × Constraint τ κ)) :
    List (Object τ κ ν) :=
  .table t :: (columns.map (.column t) ++ constraints.map fun x => .constraint x.1 t x.2)

namespace Op

def alter (s : Catalog τ κ ν) : Op τ κ ν → Except Fault (Catalog τ κ ν)
  | .createTable t columns constraints => s.create (tableObjects t columns constraints)
  | .dropTable t => s.drop (fun o => o = .table t) fun o => o.owner = t
  | .addColumn t c =>
    -- a sequence comes with the table of its column
    if c.default = some .nextval then .error .catalog else s.create [.column t c]
  | .dropColumn t c => s.drop (·.isColumn t c fun _ => true) (·.involves t c)
  | .alterNullable t c nullable =>
    s.alterColumn t c (fun _ => true) fun col => { col with nullable := nullable }
  | .alterType t c type =>
    s.alterColumn t c (·.type.convertible type) fun col => { col with type := type }
  | .createIndex name t columns unique => s.create [.index name t columns unique]
  | .dropIndex name t =>
    let target : Object τ κ ν → Bool
      | .index name' t' _ _ => name' = name && t' = t
      | _ => false
    s.drop target target
  | .createConstraint name t c => s.create [.constraint name t c]
  | .dropConstraint name t =>
    let target : Object τ κ ν → Bool
      | .constraint name' t' _ => name' = name && t' = t
      | _ => false
    s.drop target target

end Op

/-! ## The rows -/

def Column.fill (now : Int) (c : Column κ) : Value :=
  if c.default = some .now then .time now else .null

def Rows.setColumn (d : Rows τ κ) (t : τ) (c : κ) (v : Value) : Rows τ κ :=
  Function.update d t ((d t).map fun r => Function.update r c v)

namespace Op

def rewrite (now : Int) (d : Rows τ κ) : Op τ κ ν → Rows τ κ
  | .createTable t _ _ | .dropTable t => Function.update d t []
  | .addColumn t c => d.setColumn t c.name (c.fill now)
  | .dropColumn t c => d.setColumn t c .null
  | _ => d

def apply (now : Int) (db : Store τ κ ν) (op : Op τ κ ν) : Except Fault (Store τ κ ν) :=
  match op.alter db.catalog with
  | .ok s => install s (op.rewrite now db.rows)
  | .error e => .error e

theorem apply_eq_ok {now : Int} {db db' : Store τ κ ν} {op : Op τ κ ν} :
    op.apply now db = .ok db' ↔ op.alter db.catalog = .ok db'.catalog ∧
      db'.rows = op.rewrite now db.rows := by
  unfold apply
  constructor
  · intro h
    split at h
    · next s hs =>
      obtain ⟨-, -, hc, hd⟩ := install_eq_ok.1 h
      exact ⟨hc ▸ hs, hd⟩
    · cases h
  · rintro ⟨hs, hd⟩
    rw [hs]
    exact install_eq_ok.2 ⟨db'.sound, hd ▸ db'.valid, rfl, hd⟩

end Op

def run (now : Int) : List (Op τ κ ν) → Store τ κ ν → Except Fault (Store τ κ ν)
  | [], db => .ok db
  | op :: ops, db =>
    match op.apply now db with
    | .ok db => run now ops db
    | .error e => .error e

variable {now : Int} {op : Op τ κ ν} {ops ops' : List (Op τ κ ν)} {db db' db'' : Store τ κ ν}
  {d : Rows τ κ} {q : Requirement τ κ} {t : τ} {c : κ}

theorem run_cons : run now (op :: ops) db = .ok db'' ↔
    ∃ db', op.apply now db = .ok db' ∧ run now ops db' = .ok db'' := by
  simp only [run]
  constructor
  · intro h
    split at h
    · next db' hop => exact ⟨db', hop, h⟩
    · cases h
  · rintro ⟨db', hop, h⟩
    rw [hop]
    exact h

theorem run_append : run now (ops ++ ops') db = .ok db'' ↔
    ∃ db', run now ops db = .ok db' ∧ run now ops' db' = .ok db'' := by
  induction ops generalizing db with
  | nil =>
    refine ⟨fun h => ⟨db, rfl, h⟩, ?_⟩
    rintro ⟨_, h, h'⟩
    cases h
    exact h'
  | cons op ops ih =>
    rw [List.cons_append, run_cons]
    constructor
    · rintro ⟨db₁, hop, h⟩
      obtain ⟨db₂, h, h'⟩ := ih.1 h
      exact ⟨db₂, run_cons.2 ⟨db₁, hop, h⟩, h'⟩
    · rintro ⟨db₂, h, h'⟩
      obtain ⟨db₁, hop, h⟩ := run_cons.1 h
      exact ⟨db₁, hop, ih.2 ⟨db₂, h, h'⟩⟩

def alterAll : List (Op τ κ ν) → Catalog τ κ ν → Except Fault (Catalog τ κ ν)
  | [], s => .ok s
  | op :: ops, s =>
    match op.alter s with
    | .ok s => alterAll ops s
    | .error e => .error e

theorem alterAll_of_run (h : run now ops db = .ok db') :
    alterAll ops db.catalog = .ok db'.catalog := by
  induction ops generalizing db with
  | nil =>
    cases h
    rfl
  | cons op ops ih =>
    obtain ⟨db₁, hop, h⟩ := run_cons.1 h
    simp only [alterAll, (Op.apply_eq_ok.1 hop).1]
    exact ih h

/-! ## What stays of the rows -/

namespace Op

def clears (t : τ) : Op τ κ ν → Bool
  | .createTable t' _ _ | .dropTable t' => t' = t
  | _ => false

def sets (t : τ) (c : κ) : Op τ κ ν → Bool
  | .addColumn t' c' => t' = t && c'.name = c
  | .dropColumn t' c' => t' = t && c' = c
  | _ => false

end Op

theorem sameRows_setColumn {p : κ → Prop} {v : Value} {t' : τ} (hp : ∀ c', p c' → t' = t → c' ≠ c) :
    SameRows p (d t') (d.setColumn t c v t') := by
  unfold Rows.setColumn
  by_cases ht : t' = t
  · subst ht
    rw [Function.update_self]
    refine List.forall₂_map_right_iff.2 (List.forall₂_same.2 ?_)
    intro r _ c' hc'
    exact Function.update_of_ne (hp c' hc' rfl) _ _
  · rw [Function.update_of_ne ht]
    exact .refl p _

omit [DecidableEq ν] in
theorem sameRows_rewrite (ht : !op.clears t) :
    SameRows (fun c => !op.sets t c) (d t) (op.rewrite now d t) := by
  cases op with
  | createTable t' _ _ | dropTable t' =>
    have hne : t ≠ t' := by
      rintro rfl
      simp [Op.clears] at ht
    simp only [Op.rewrite, Function.update_of_ne hne]
    exact .refl _ _
  | addColumn t' c' =>
    apply sameRows_setColumn
    rintro c hc rfl rfl
    simp [Op.sets] at hc
  | dropColumn t' c' =>
    apply sameRows_setColumn
    rintro c hc rfl rfl
    simp [Op.sets] at hc
  | _ => exact .refl _ _

theorem rows_eq_nil_of_run (h : run now ops db = .ok db') (ht : db.rows t = []) :
    db'.rows t = [] := by
  induction ops generalizing db with
  | nil =>
    cases h
    exact ht
  | cons op ops ih =>
    obtain ⟨db₁, hop, h⟩ := run_cons.1 h
    apply ih h
    rw [(Op.apply_eq_ok.1 hop).2]
    by_cases hc : op.clears t
    · cases op with
      | createTable t' _ _ | dropTable t' =>
        obtain rfl : t' = t := of_decide_eq_true hc
        exact Function.update_self ..
      | _ => cases hc
    · have hrows : SameRows _ (db.rows t) (op.rewrite now db.rows t) :=
        sameRows_rewrite (by simpa using hc)
      rw [ht] at hrows
      exact List.forall₂_nil_left_iff.1 hrows

theorem sameRows_of_run (h : run now ops db = .ok db') (ht : ∀ op ∈ ops, !op.clears t) :
    SameRows (fun c => ∀ op ∈ ops, !op.sets t c) (db.rows t) (db'.rows t) := by
  induction ops generalizing db with
  | nil =>
    cases h
    exact .refl _ _
  | cons op ops ih =>
    obtain ⟨db₁, hop, h⟩ := run_cons.1 h
    rw [List.forall_mem_cons] at ht
    have hrows := (Op.apply_eq_ok.1 hop).2
    have hone : SameRows _ (db.rows t) (db₁.rows t) := hrows ▸ sameRows_rewrite ht.1
    refine (hone.mono ?_).trans ((ih h ht.2).mono ?_)
    · intro c hc
      exact hc op List.mem_cons_self
    · intro c hc op' hop'
      exact hc op' (List.mem_cons_of_mem _ hop')

/-! The rows of the tables that are in both catalogs are kept, in the columns that are in both. -/

namespace Catalog

def Shared (s s' : Catalog τ κ ν) (t : τ) (c : κ) : Prop :=
  s.HasColumn t c (fun _ => true) ∧ s'.HasColumn t c fun _ => true

instance (s s' : Catalog τ κ ν) : Decidable (s.Shared s' t c) := by
  unfold Shared
  infer_instance

end Catalog

def KeepsRows (db db' : Store τ κ ν) : Prop :=
  ∀ t, .table t ∈ db.catalog → .table t ∈ db'.catalog →
    SameRows (db.catalog.Shared db'.catalog t) (db.rows t) (db'.rows t)

/-- The statement touches nothing that is in both catalogs. -/
def Op.Spares (s s' : Catalog τ κ ν) : Op τ κ ν → Prop
  | .createTable t _ _ | .dropTable t => ¬(.table t ∈ s ∧ .table t ∈ s')
  | .addColumn t c => ¬s.Shared s' t c.name
  | .dropColumn t c => ¬s.Shared s' t c
  | _ => True

instance (s s' : Catalog τ κ ν) : Decidable (op.Spares s s') := by
  unfold Op.Spares
  split <;> infer_instance

theorem keepsRows_of_run (h : run now ops db = .ok db')
    (hs : ∀ op ∈ ops, op.Spares db.catalog db'.catalog) : KeepsRows db db' := by
  intro t ht ht'
  refine (sameRows_of_run h fun op hop => ?_).mono fun c hc op hop => ?_
  · have hop := hs op hop
    cases op with
    | createTable t' _ _ | dropTable t' =>
      have hne : t' ≠ t := by
        rintro rfl
        exact hop ⟨ht, ht'⟩
      simpa [Op.clears] using hne
    | _ => rfl
  · have hop := hs op hop
    cases op with
    | addColumn t' c' | dropColumn t' c' =>
      simp only [Op.sets, Bool.not_eq_true', Bool.and_eq_false_iff, decide_eq_false_iff_not]
      by_contra hn
      rw [not_or, not_not, not_not] at hn
      obtain ⟨rfl, rfl⟩ := hn
      exact hop hc
    | _ => rfl

end Relational
