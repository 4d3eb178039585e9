import Mathlib.Data.List.Infix
import WikiBackend.Services.Paths

/-! The user search. Its query becomes part of a pattern as it is, so that the search is for a
substring exactly where the query holds none of the characters that a pattern reads otherwise. -/

namespace WikiBackend

/-! ## Patterns -/

def patternChars : List Char := ['%', '_', '\\']

/-- No other character is folded to one of them, and they are kept. -/
def KeepsPatternChars (fold : Char → Char) : Prop :=
  ∀ m ∈ patternChars, ∀ c, fold c = m ↔ c = m

variable {p t : List Char}

theorem likeMatch_percent : likeMatch ('%' :: p) t ↔ ∃ t', t' <:+ t ∧ likeMatch p t' := by
  simp only [likeMatch, List.any_eq_true, List.mem_tails]

theorem likeMatch_rest : likeMatch ['%'] t :=
  likeMatch_percent.2 ⟨[], List.nil_suffix, rfl⟩

theorem likeMatch_underscore {c : Char} : likeMatch ('_' :: p) (c :: t) = likeMatch p t := rfl

theorem likeMatch_escape {e c : Char} :
    likeMatch ('\\' :: e :: p) (c :: t) = (c == e && likeMatch p t) := rfl

theorem likeMatch_literal {e : Char} (he : e ∉ patternChars) :
    likeMatch (e :: p) t = match t with
      | [] => false
      | c :: t => c == e && likeMatch p t := by
  simp only [patternChars, List.mem_cons, List.not_mem_nil, or_false, not_or] at he
  obtain ⟨h₁, h₂, h₃⟩ := he
  rw [likeMatch.eq_def]
  grind

theorem likeMatch_append_percent (hp : ∀ c ∈ p, c ∉ patternChars) :
    likeMatch (p ++ ['%']) t ↔ p <+: t := by
  induction p generalizing t with
  | nil => exact iff_of_true likeMatch_rest List.nil_prefix
  | cons e p ih =>
    rw [List.cons_append, likeMatch_literal (hp e List.mem_cons_self)]
    cases t with
    | nil => simp
    | cons c t =>
      rw [List.cons_prefix_cons, Bool.and_eq_true, beq_iff_eq, eq_comm,
        ih fun c hc => hp c (List.mem_cons_of_mem _ hc)]

theorem likeMatch_anywhere (hp : ∀ c ∈ p, c ∉ patternChars) :
    likeMatch ('%' :: (p ++ ['%'])) t ↔ p <:+: t := by
  rw [likeMatch_percent, List.infix_iff_prefix_suffix]
  constructor
  · rintro ⟨t', ht, hm⟩
    exact ⟨t', (likeMatch_append_percent hp).1 hm, ht⟩
  · rintro ⟨t', hm, ht⟩
    exact ⟨t', ht, (likeMatch_append_percent hp).2 hm⟩

/-- A text that the pattern matches, though it is another text than the pattern. -/
def unescape : List Char → List Char
  | [] => []
  | '%' :: p => unescape p
  | '_' :: p => 'a' :: unescape p
  | ['\\'] => ['%']
  | '\\' :: e :: p => e :: unescape p
  | e :: p => e :: unescape p

variable {fold : Char → Char}

theorem unescape_literal {e : Char} (he : e ∉ patternChars) :
    unescape (e :: p) = e :: unescape p := by
  simp only [patternChars, List.mem_cons, List.not_mem_nil, or_false, not_or] at he
  obtain ⟨h₁, h₂, h₃⟩ := he
  rw [unescape]
  · exact h₁
  · exact h₂
  · exact fun h _ => h₃ h
  · exact fun _ _ h _ => h₃ h

theorem literal_of_cases {e : Char} (h₁ : e = '%' → False) (h₂ : e = '_' → False)
    (h₃ : e = '\\' → p = [] → False) (h₄ : ∀ e' p', e = '\\' → p = e' :: p' → False) :
    e ∉ patternChars := by
  simp only [patternChars, List.mem_cons, List.not_mem_nil, or_false]
  rintro (h | h | h)
  · exact h₁ h
  · exact h₂ h
  · cases p with
    | nil => exact h₃ h rfl
    | cons e' p' => exact h₄ e' p' h rfl

theorem likeMatch_unescape (hf : KeepsPatternChars fold) (p : List Char) :
    likeMatch (p.map fold ++ ['%']) ((unescape p).map fold) := by
  have hfold {m : Char} (hm : m ∈ patternChars) : fold m = m := (hf m hm m).2 rfl
  induction p using unescape.induct with
  | case1 => exact likeMatch_rest
  | case2 p ih =>
    rw [List.map_cons, hfold (by decide)]
    exact likeMatch_percent.2 ⟨_, List.suffix_refl _, ih⟩
  | case3 p ih =>
    rw [List.map_cons, hfold (by decide)]
    exact likeMatch_underscore.trans ih
  | case4 =>
    rw [List.map_cons, hfold (by decide), unescape, List.map_cons, hfold (by decide)]
    rfl
  | case5 e p ih =>
    rw [List.map_cons, hfold (by decide), unescape]
    exact likeMatch_escape.trans (by rw [beq_self_eq_true]; exact ih)
  | case6 e p h₁ h₂ h₃ h₄ ih =>
    have he := literal_of_cases h₁ h₂ h₃ h₄
    have hfe : fold e ∉ patternChars := by
      intro hm
      exact he ((hf _ hm e).1 rfl ▸ hm)
    rw [List.map_cons, unescape_literal he, List.cons_append, likeMatch_literal hfe, List.map_cons]
    simpa only [beq_self_eq_true, Bool.true_and] using ih

theorem length_unescape_le (p : List Char) : (unescape p).length ≤ p.length := by
  induction p using unescape.induct with
  | case1 => exact Nat.le_refl _
  | case2 p ih => exact Nat.le_succ_of_le ih
  | case3 p ih => exact Nat.succ_le_succ ih
  | case4 => exact Nat.le_refl _
  | case5 e p ih => exact Nat.le_succ_of_le (Nat.succ_le_succ ih)
  | case6 e p h₁ h₂ h₃ h₄ ih =>
    rw [unescape_literal (literal_of_cases h₁ h₂ h₃ h₄)]
    exact Nat.succ_le_succ ih

theorem unescape_ne (hf : KeepsPatternChars fold) {m : Char} (hm : m ∈ patternChars)
    (hp : m ∈ p) : (unescape p).map fold ≠ p.map fold := by
  have hlen {p q : List Char} (h : p.length < q.length) : p.map fold ≠ q.map fold := by
    intro he
    have hl := congrArg List.length he
    rw [List.length_map, List.length_map] at hl
    exact Nat.ne_of_lt h hl
  have hfold {m : Char} (hm : m ∈ patternChars) : fold m = m := (hf m hm m).2 rfl
  induction p using unescape.induct with
  | case1 => cases hp
  | case2 p ih => exact hlen (Nat.lt_succ_of_le (length_unescape_le p))
  | case3 p ih =>
    intro he
    have ha := (List.cons.inj he).1.trans (hfold (by decide))
    exact absurd ((hf '_' (by decide) 'a').1 ha) (by decide)
  | case4 =>
    intro he
    have ha := (List.cons.inj he).1.trans (hfold (by decide))
    exact absurd ((hf '\\' (by decide) '%').1 ha) (by decide)
  | case5 e p ih => exact hlen (Nat.succ_lt_succ (Nat.lt_succ_of_le (length_unescape_le p)))
  | case6 e p h₁ h₂ h₃ h₄ ih =>
    have he := literal_of_cases h₁ h₂ h₃ h₄
    rw [unescape_literal he]
    intro heq
    have hp : m ∈ p := by
      rcases List.mem_cons.1 hp with rfl | hp
      · exact absurd hm he
      · exact hp
    exact ih hp (List.cons.inj heq).2

/-! ## Searches -/

open Effects

def Contains (fold : Char → Char) (query name : String) : Prop :=
  query.toList.map fold <:+: name.toList.map fold

instance (query name : String) : Decidable (Contains fold query name) :=
  inferInstanceAs (Decidable (_ <:+: _))

def Database.usersContaining (db : Database) (fold : Char → Char) (query : String) : List UserRow :=
  db.users.filter fun u => u.username.any fun name => Contains fold query name

def Searches (fold : Char → Char) (s : ServerChoice) (i : Nat) (w : World) (query : String)
    (limit : Int) (r : Except Exc (List UserProfile)) : Prop :=
  Finishes (UserRepository.searchByUsername query limit).run
    [sqlEv (.usersByUsername ("%" ++ query ++ "%") limit)
      (Stmt.execute fold s i w (.usersByUsername ("%" ++ query ++ "%") limit)).1] r

/-- Over every table the search returns different users whose name contains the query, and as
many of them as there are, up to the limit. -/
def ExactSearch (fold : Char → Char) (query : String) : Prop :=
  ∀ (s : ServerChoice) (i : Nat) (w : World) (limit : Int), 1 ≤ limit → limit ≤ 100 →
    ∃ users, Searches fold s i w query limit (.ok users) ∧ (users.map (·.id)).Nodup ∧
      (∀ u ∈ users, ∃ name, u.username = some name ∧ Contains fold query name) ∧
      users.length = min limit.toNat (w.db.usersContaining fold query).length

def PlainQuery (query : String) : Prop := ∀ c ∈ query.toList, c ∉ patternChars ∧ c ≠ '\x00'

variable {s : ServerChoice} {i : Nat} {w : World} {query : String} {limit : Int}

theorem searches_iff {r : Except Exc (List UserProfile)} :
    Searches fold s i w query limit r ↔
      r = call ((w.db.usersByUsername fold s ("%" ++ query ++ "%") limit).map
        (·.map (·.toProfile))) := by
  unfold Searches UserRepository.searchByUsername
  rw [finishes_sql_andThen]
  simp only [Stmt.execute]
  cases w.db.usersByUsername fold s ("%" ++ query ++ "%") limit with
  | error e =>
    constructor
    · rintro (⟨e', h, rfl⟩ | ⟨rows, evs', h, -⟩)
      · cases h
        rfl
      · cases h
    · rintro rfl
      exact .inl ⟨e, rfl, rfl⟩
  | ok rows =>
    constructor
    · rintro (⟨e', h, rfl⟩ | ⟨rows', evs', h, hf⟩)
      · cases h
      · cases h
        exact (finishes_pure.1 hf).2
    · rintro rfl
      exact .inr ⟨rows, [], rfl, finishes_pure.2 ⟨rfl, rfl⟩⟩

theorem arrange_perm (rows : List UserRow) : (s.arrange rows).Perm rows := by
  unfold ServerChoice.arrange
  split
  · rename_i h
    exact List.isPerm_iff.1 h
  · exact .refl _

theorem toList_pattern (hf : KeepsPatternChars fold) :
    ("%" ++ query ++ "%").toList.map fold = '%' :: (query.toList.map fold ++ ['%']) := by
  have hp : fold '%' = '%' := (hf '%' (by decide) '%').2 rfl
  simp [String.toList_append, hp]

theorem hasNul_pattern : hasNul ("%" ++ query ++ "%") = hasNul query := by
  simp [hasNul, String.toList_append]

theorem ilike_pattern (hf : KeepsPatternChars fold) (hq : PlainQuery query) :
    ilike fold ("%" ++ query ++ "%") = fun name => decide (Contains fold query name) := by
  funext name
  have hp : ∀ c ∈ query.toList.map fold, c ∉ patternChars := by
    intro c hc hm
    obtain ⟨e, he, rfl⟩ := List.mem_map.1 hc
    exact (hq e he).1 ((hf _ hm e).1 rfl ▸ hm)
  rw [ilike, toList_pattern hf, Bool.eq_iff_iff, likeMatch_anywhere hp, decide_eq_true_eq]
  rfl

theorem usersByUsername_of_plain (hf : KeepsPatternChars fold) (hq : PlainQuery query) :
    w.db.usersByUsername fold s ("%" ++ query ++ "%") limit =
      .ok ((s.arrange (w.db.usersContaining fold query)).take limit.toNat) := by
  have hnul : hasNul query = false := by
    rw [hasNul, List.contains_eq_mem, decide_eq_false_iff_not]
    exact fun hm => (hq _ hm).2 rfl
  rw [Database.usersByUsername, if_neg]
  · simp only [ilike_pattern hf hq, Database.usersContaining]
  · simp [hasNul_pattern, hnul]

theorem exact_of_plain (hf : KeepsPatternChars fold) (hq : PlainQuery query) :
    ExactSearch fold query := by
  intro s i w limit _ _
  have hperm := arrange_perm (s := s) (w.db.usersContaining fold query)
  refine ⟨_, searches_iff.2 (by rw [usersByUsername_of_plain hf hq]; rfl), ?_, ?_, ?_⟩
  · have hids : ((w.db.usersContaining fold query).map (·.id)).Nodup :=
      w.db.constraints.usersId.sublist (List.filter_sublist.map _)
    have hids := (hperm.map (·.id)).nodup_iff.2 hids
    rw [List.map_map]
    exact hids.sublist ((List.take_sublist _ _).map _)
  · intro u hu
    obtain ⟨r, hr, rfl⟩ := List.mem_map.1 hu
    have hr := hperm.mem_iff.1 (List.mem_of_mem_take hr)
    obtain ⟨-, hname⟩ := List.mem_filter.1 hr
    obtain ⟨name, hname, hc⟩ := (Option.any_eq_true _ _).1 hname
    exact ⟨name, hname, of_decide_eq_true hc⟩
  · rw [List.length_map, List.length_take, hperm.length_eq]

def tableOf (name : String) : Database :=
  .ofUser ⟨1, 42, some name, none, none, none, none, 0, 0, 0⟩

theorem not_exact_of_match (name : String) (hq : hasNul query = false)
    (hm : ilike fold ("%" ++ query ++ "%") name) (hc : ¬Contains fold query name) :
    ¬ExactSearch fold query := by
  intro h
  obtain ⟨users, hs, -, hall, -⟩ :=
    h ⟨0, 0, []⟩ 0 { World.initial with db := tableOf name } 1 (by decide) (by decide)
  rw [searches_iff, Database.usersByUsername, if_neg (by simp [hasNul_pattern, hq])] at hs
  have hrows : (tableOf name).users.filter
      (fun u => u.username.any (ilike fold ("%" ++ query ++ "%"))) = (tableOf name).users := by
    simp [tableOf, Database.ofUser, hm]
  rw [hrows] at hs
  cases hs
  obtain ⟨_, hname, hc'⟩ := hall _ List.mem_cons_self
  cases hname
  exact hc hc'

/-- The search is exact for the plain queries, and for no other. -/
theorem search_exact_iff (hf : KeepsPatternChars fold) :
    ExactSearch fold query ↔ PlainQuery query := by
  refine ⟨fun h => ?_, exact_of_plain hf⟩
  have hnul : hasNul query = false := by
    rw [Bool.eq_false_iff]
    intro hn
    obtain ⟨users, hs, -⟩ := h ⟨0, 0, []⟩ 0 World.initial 1 (by decide) (by decide)
    rw [searches_iff, Database.usersByUsername, if_pos (by simp [hasNul_pattern, hn])] at hs
    cases hs
  intro c hc
  constructor
  · intro hm
    refine not_exact_of_match (String.ofList (unescape query.toList)) hnul ?_ ?_ h
    · rw [ilike, toList_pattern hf, String.toList_ofList]
      exact likeMatch_percent.2 ⟨_, List.suffix_refl _, likeMatch_unescape hf _⟩
    · rw [Contains, String.toList_ofList]
      intro hin
      have hlen : ((unescape query.toList).map fold).length ≤ (query.toList.map fold).length := by
        rw [List.length_map, List.length_map]
        exact length_unescape_le _
      exact unescape_ne hf hm hc (hin.eq_of_length_le hlen).symm
  · rintro rfl
    rw [hasNul, List.contains_eq_mem, decide_eq_false_iff_not] at hnul
    exact hnul hc

namespace Recorded

theorem keepsPatternChars_toLower : KeepsPatternChars Char.toLower := by
  intro m hm c
  have hm : m.toNat < 97 ∧ (m.toNat < 65 ∨ 90 < m.toNat) := by
    simp only [patternChars, List.mem_cons, List.not_mem_nil, or_false] at hm
    rcases hm with rfl | rfl | rfl <;> decide
  unfold Char.toLower
  split
  · rename_i h
    have hlo : 65 ≤ c.toNat := UInt32.le_iff_toNat_le.1 h.1
    have hhi : c.toNat ≤ 90 := UInt32.le_iff_toNat_le.1 h.2
    apply iff_of_false
    · intro he
      have hval : (c.toNat + 32) % 4294967296 = m.toNat := congrArg Char.toNat he
      omega
    · rintro rfl
      omega
  · exact Iff.rfl

theorem search_exact_iff_underscore : ¬ExactSearch Char.toLower "a_b" := by
  intro h
  exact absurd ((search_exact_iff keepsPatternChars_toLower).1 h '_' (by decide)).1 (by decide)

theorem search_finds_other_name :
    ¬∀ (fold : Char → Char) (query : String), KeepsPatternChars fold → 3 ≤ query.length →
      query.length ≤ 64 → ExactSearch fold query := by
  intro h
  have hexact := h Char.toLower "a_b" keepsPatternChars_toLower (by decide) (by decide)
  exact not_exact_of_match "axb" (by decide) (by decide) (by decide) hexact

end Recorded

end WikiBackend
