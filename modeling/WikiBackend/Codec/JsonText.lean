import Mathlib.Data.List.Count
import Mathlib.Tactic.Common

/-! The texts of RFC 8259, with the literals `NaN`, `Infinity` and `-Infinity` besides. -/

namespace JsonText

def Whitespace (cs : List Char) : Prop := ∀ c ∈ cs, c = ' ' ∨ c = '\t' ∨ c = '\n' ∨ c = '\r'

def IsDigit (c : Char) : Prop := '0' ≤ c ∧ c ≤ '9'

def IsHexDigit (c : Char) : Prop := IsDigit c ∨ 'a' ≤ c ∧ c ≤ 'f' ∨ 'A' ≤ c ∧ c ≤ 'F'

def Digits (cs : List Char) : Prop := cs ≠ [] ∧ ∀ c ∈ cs, IsDigit c

inductive IntPart : List Char → Prop where
  | zero : IntPart ['0']
  | digits {c : Char} {cs : List Char} : IsDigit c → c ≠ '0' → (∀ d ∈ cs, IsDigit d) →
      IntPart (c :: cs)

inductive Fraction : List Char → Prop where
  | none : Fraction []
  | some {cs : List Char} : Digits cs → Fraction ('.' :: cs)

inductive Exponent : List Char → Prop where
  | none : Exponent []
  | some {e : Char} {sign cs : List Char} : e = 'e' ∨ e = 'E' →
      sign = [] ∨ sign = ['+'] ∨ sign = ['-'] → Digits cs → Exponent (e :: sign ++ cs)

inductive Number : List Char → Prop where
  | mk {sign int frac exp : List Char} : sign = [] ∨ sign = ['-'] → IntPart int → Fraction frac →
      Exponent exp → Number (sign ++ int ++ frac ++ exp)

def literals : List (List Char) :=
  ["true".toList, "false".toList, "null".toList, "NaN".toList, "Infinity".toList,
    "-Infinity".toList]

inductive Chars : List Char → Prop where
  | nil : Chars []
  | plain {c : Char} {cs : List Char} : c ≠ '"' → c ≠ '\\' → 0x20 ≤ c.toNat → Chars cs →
      Chars (c :: cs)
  | escape {c : Char} {cs : List Char} : c ∈ "\"\\/bfnrt".toList → Chars cs → Chars ('\\' :: c :: cs)
  | unicode {a b c d : Char} {cs : List Char} : IsHexDigit a → IsHexDigit b → IsHexDigit c →
      IsHexDigit d → Chars cs → Chars ('\\' :: 'u' :: a :: b :: c :: d :: cs)

inductive Str : List Char → Prop where
  | mk {cs : List Char} : Chars cs → Str ('"' :: cs ++ ['"'])

inductive Key : List Char → Prop where
  | mk {ws cs ws' : List Char} : Whitespace ws → Str cs → Whitespace ws' → Key (ws ++ cs ++ ws')

mutual

inductive Value : List Char → Prop where
  | literal {cs : List Char} : cs ∈ literals → Value cs
  | number {cs : List Char} : Number cs → Value cs
  | string {cs : List Char} : Str cs → Value cs
  | emptyArray {ws : List Char} : Whitespace ws → Value ('[' :: ws ++ [']'])
  | array {cs : List Char} : Elements cs → Value ('[' :: cs ++ [']'])
  | emptyObject {ws : List Char} : Whitespace ws → Value ('\x7b' :: ws ++ ['\x7d'])
  | object {cs : List Char} : Members cs → Value ('\x7b' :: cs ++ ['\x7d'])

inductive Text : List Char → Prop where
  | mk {ws cs ws' : List Char} : Whitespace ws → Value cs → Whitespace ws' → Text (ws ++ cs ++ ws')

inductive Elements : List Char → Prop where
  | one {cs : List Char} : Text cs → Elements cs
  | more {cs rest : List Char} : Text cs → Elements rest → Elements (cs ++ ',' :: rest)

inductive Members : List Char → Prop where
  | one {key cs : List Char} : Key key → Text cs → Members (key ++ ':' :: cs)
  | more {key cs rest : List Char} : Key key → Text cs → Members rest →
      Members (key ++ ':' :: cs ++ ',' :: rest)

end

/-! ## Points outside strings -/

variable {cs : List Char}

theorem Whitespace.count_dot (h : Whitespace cs) : cs.count '.' = 0 := by
  rw [List.count_eq_zero]
  intro hmem
  rcases h _ hmem with h | h | h | h <;> exact absurd h (by decide)

theorem count_dot_of_digits (h : ∀ c ∈ cs, IsDigit c) : cs.count '.' = 0 := by
  rw [List.count_eq_zero]
  intro hmem
  exact absurd (h _ hmem) (by unfold IsDigit; decide)

theorem IntPart.count_dot (h : IntPart cs) : cs.count '.' = 0 := by
  cases h with
  | zero => rfl
  | digits hc _ hcs => exact count_dot_of_digits (List.forall_mem_cons.2 ⟨hc, hcs⟩)

theorem Fraction.count_dot (h : Fraction cs) : cs.count '.' ≤ 1 := by
  cases h with
  | none => exact Nat.zero_le 1
  | some hd =>
    have hcount := count_dot_of_digits hd.2
    exact Nat.le_of_eq (by rw [List.count_cons_self, hcount])

theorem Exponent.count_dot (h : Exponent cs) : cs.count '.' = 0 := by
  cases h with
  | none => rfl
  | some he hs hd =>
    rw [List.count_append, count_dot_of_digits hd.2]
    rcases he with rfl | rfl <;> rcases hs with rfl | rfl | rfl <;> decide

theorem Number.count_dot (h : Number cs) : cs.count '.' ≤ 1 := by
  cases h with
  | mk hs hi hf he =>
    have hf := hf.count_dot
    rw [List.count_append, List.count_append, List.count_append, hi.count_dot, he.count_dot]
    rcases hs with rfl | rfl
    · simpa using hf
    · simpa using hf

theorem Text.count_dot (h : Text cs) (hopen : ∀ c ∈ ['"', '[', '\x7b'], c ∉ cs) :
    cs.count '.' ≤ 1 := by
  cases h with
  | @mk ws cs ws' hws hv hws' =>
    have hnot : ∀ c ∈ ['"', '[', '\x7b'], c ∉ cs := fun c hc hmem =>
      hopen c hc (List.mem_append_left _ (List.mem_append_right _ hmem))
    rw [List.count_append, List.count_append, hws.count_dot, hws'.count_dot, Nat.zero_add]
    cases hv with
    | literal hl =>
      have h : ∀ cs ∈ literals, cs.count '.' ≤ 1 := by decide
      exact h _ hl
    | number hn => exact hn.count_dot
    | string hs =>
      obtain ⟨hs⟩ := hs
      exact absurd List.mem_cons_self (hnot '"' (by decide))
    | emptyArray _ => exact absurd List.mem_cons_self (hnot '[' (by decide))
    | array _ => exact absurd List.mem_cons_self (hnot '[' (by decide))
    | emptyObject _ => exact absurd List.mem_cons_self (hnot '\x7b' (by decide))
    | object _ => exact absurd List.mem_cons_self (hnot '\x7b' (by decide))

end JsonText
