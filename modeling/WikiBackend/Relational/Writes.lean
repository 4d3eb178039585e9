import WikiBackend.Relational.Catalog

/-! Statements that write rows, on a store of any catalog. A statement that names a column which is
not in the catalog fails. -/

namespace Relational

variable {τ κ ν : Type} [DecidableEq τ] [DecidableEq κ] [DecidableEq ν]

/-- What the server supplies to a statement: its time, and the next value of the sequence. -/
structure Moment where
  now : Int
  nextval : Int

def Moment.value (m : Moment) : Default → Value
  | .now => .time m.now
  | .nextval => .int m.nextval

def assign (sets : List (κ × Value)) (r : Row κ) : Row κ := fun c => (sets.lookup c).getD (r c)

namespace Catalog

def HasColumns (s : Catalog τ κ ν) (t : τ) (named : List (κ × Value)) : Prop :=
  ∀ x ∈ named, s.HasColumn t x.1 fun _ => true

instance (s : Catalog τ κ ν) (t : τ) (named : List (κ × Value)) : Decidable (s.HasColumns t named) := by
  unfold HasColumns
  infer_instance

def defaults (s : Catalog τ κ ν) (m : Moment) (t : τ) : Row κ := fun c =>
  if s.HasColumn t c (·.default = some .now) then m.value .now
  else if s.HasColumn t c (·.default = some .nextval) then m.value .nextval
  else .null

def castAll (s : Catalog τ κ ν) (t : τ) (named : List (κ × Value)) : List (κ × Value) :=
  named.map fun x => (x.1, s.cast t x.1 x.2)

def newRow (s : Catalog τ κ ν) (m : Moment) (t : τ) (named : List (κ × Value)) : Row κ :=
  assign (s.castAll t named) (s.defaults m t)

end Catalog

namespace Store

def setRows (db : Store τ κ ν) (t : τ) (rs : List (Row κ)) : Except Fault (Store τ κ ν) :=
  if h : db.catalog.Valid (Function.update db.rows t rs) then
    .ok ⟨db.catalog, Function.update db.rows t rs, db.sound, h⟩
  else .error .rows

def insert (db : Store τ κ ν) (m : Moment) (t : τ) (named : List (κ × Value)) :
    Except Fault (Store τ κ ν) :=
  if db.catalog.HasColumns t named then
    db.setRows t (db.rows t ++ [db.catalog.newRow m t named])
  else .error .catalog

def updateWhere (db : Store τ κ ν) (t : τ) (c : κ) (v : Value) (sets : List (κ × Value)) :
    Except Fault (Store τ κ ν) :=
  if db.catalog.HasColumns t ((c, v) :: sets) then
    db.setRows t ((db.rows t).map fun r =>
      if (r c).sqlEq v then assign (db.catalog.castAll t sets) r else r)
  else .error .catalog

/-- `INSERT INTO t (...) VALUES (...) ON CONFLICT (c) DO UPDATE SET ...`, where `set` gets the
excluded row and the row it conflicts with. -/
def upsert (db : Store τ κ ν) (m : Moment) (t : τ) (c : κ) (named : List (κ × Value))
    (set : Row κ → Row κ → List (κ × Value)) : Except Fault (Store τ κ ν) :=
  let excluded := db.catalog.newRow m t named
  if db.catalog.HasColumns t named ∧ .unique t [c] ∈ db.catalog.requirements then
    if db.catalog.AdmitsRow t excluded then
      if ∃ r ∈ db.rows t, (r c).sqlEq (excluded c) then
        db.setRows t ((db.rows t).map fun r =>
          if (r c).sqlEq (excluded c) then assign (db.catalog.castAll t (set excluded r)) r else r)
      else db.setRows t (db.rows t ++ [excluded])
    else .error .rows
  else .error .catalog

variable {db db' : Store τ κ ν} {m : Moment} {t : τ} {c : κ} {v : Value} {named : List (κ × Value)}

def OnlyWrites (t : τ) (db db' : Store τ κ ν) : Prop :=
  db'.catalog = db.catalog ∧ ∀ t', t' ≠ t → db'.rows t' = db.rows t'

theorem onlyWrites_of_setRows {rs : List (Row κ)} (h : db.setRows t rs = .ok db') :
    OnlyWrites t db db' ∧ db'.rows t = rs := by
  unfold setRows at h
  split at h <;> cases h
  exact ⟨⟨rfl, fun t' ht => Function.update_of_ne ht _ _⟩, Function.update_self ..⟩

theorem hasColumns_of_insert (h : db.insert m t named = .ok db') : db.catalog.HasColumns t named := by
  unfold insert at h
  split at h
  · assumption
  · cases h

theorem hasColumns_of_updateWhere (h : db.updateWhere t c v named = .ok db') :
    db.catalog.HasColumns t ((c, v) :: named) := by
  unfold updateWhere at h
  split at h
  · assumption
  · cases h

theorem onlyWrites_of_insert (h : db.insert m t named = .ok db') : OnlyWrites t db db' := by
  unfold insert at h
  split at h
  · exact (onlyWrites_of_setRows h).1
  · cases h

theorem onlyWrites_of_updateWhere (h : db.updateWhere t c v named = .ok db') :
    OnlyWrites t db db' := by
  unfold updateWhere at h
  split at h
  · exact (onlyWrites_of_setRows h).1
  · cases h

theorem upsert_cases {set : Row κ → Row κ → List (κ × Value)}
    (h : db.upsert m t c named set = .ok db') :
    OnlyWrites t db db' ∧
      (db'.rows t = (db.rows t).map (fun r =>
          if (r c).sqlEq (db.catalog.newRow m t named c) then
            assign (db.catalog.castAll t (set (db.catalog.newRow m t named) r)) r
          else r) ∧ (∃ r ∈ db.rows t, (r c).sqlEq (db.catalog.newRow m t named c)) ∨
        db'.rows t = db.rows t ++ [db.catalog.newRow m t named] ∧
          ∀ r ∈ db.rows t, ¬(r c).sqlEq (db.catalog.newRow m t named c)) := by
  simp only [upsert] at h
  split at h
  · split at h
    · split at h
      · next hc =>
        obtain ⟨ho, hr⟩ := onlyWrites_of_setRows h
        exact ⟨ho, .inl ⟨hr, hc⟩⟩
      · next hc =>
        obtain ⟨ho, hr⟩ := onlyWrites_of_setRows h
        exact ⟨ho, .inr ⟨hr, fun r hm he => hc ⟨r, hm, he⟩⟩⟩
    · cases h
  · cases h

end Store

end Relational
