import Mathlib.Data.List.Basic
import Mathlib.Tactic.Common

/-! Base64 of RFC 4648: the encoder, and the decoder as the four-state machine
that reads one character at a time, in its strict and its lenient mode. -/

namespace Base64

def alphabet : List Char :=
  "ABCDEFGHIJKLMNOPQRSTUVWXYZabcdefghijklmnopqrstuvwxyz0123456789+/".toList

def encodeChar (v : Nat) : Char := alphabet.getD v 'A'

def decodeChar (c : Char) : Option Nat :=
  let n := c.toNat
  if 65 ≤ n ∧ n ≤ 90 then some (n - 65)
  else if 97 ≤ n ∧ n ≤ 122 then some (n - 71)
  else if 48 ≤ n ∧ n ≤ 57 then some (n + 4)
  else if c = '+' then some 62
  else if c = '/' then some 63
  else none

def encode : List UInt8 → List Char
  | [] => []
  | [a] => [encodeChar (a.toNat / 4), encodeChar (a.toNat % 4 * 16), '=', '=']
  | [a, b] =>
    [encodeChar (a.toNat / 4), encodeChar (a.toNat % 4 * 16 + b.toNat / 16),
      encodeChar (b.toNat % 16 * 4), '=']
  | a :: b :: c :: bs =>
    encodeChar (a.toNat / 4) :: encodeChar (a.toNat % 4 * 16 + b.toNat / 16) ::
      encodeChar (b.toNat % 16 * 4 + c.toNat / 64) :: encodeChar (c.toNat % 64) :: encode bs

/-- The state of the decoder inside a group: how many characters of it were
read, the bits left over from the last one, and the padding seen since. -/
structure State where
  quadPos : Nat
  leftover : Nat
  pads : Nat
  paddingStarted : Bool

def start : State := ⟨0, 0, 0, false⟩

def State.push (s : State) (v : Nat) : List UInt8 × State :=
  match s.quadPos with
  | 0 => ([], { s with quadPos := 1, leftover := v, pads := 0 })
  | 1 => ([UInt8.ofNat (s.leftover * 4 + v / 16)],
      { s with quadPos := 2, leftover := v % 16, pads := 0 })
  | 2 => ([UInt8.ofNat (s.leftover * 16 + v / 4)],
      { s with quadPos := 3, leftover := v % 4, pads := 0 })
  | _ => ([UInt8.ofNat (s.leftover * 64 + v)], { s with quadPos := 0, leftover := 0, pads := 0 })

def decodeFrom (strict : Bool) (s : State) : List Char → Option (List UInt8)
  | [] => if s.quadPos = 0 then some [] else none
  | c :: cs =>
    if c = '=' then
      if strict ∧ s.quadPos = 0 then none
      else if 2 ≤ s.quadPos ∧ 4 ≤ s.quadPos + (s.pads + 1) then
        -- the group is complete: the rest of the text is not read
        if strict ∧ cs ≠ [] then none else some []
      else
        decodeFrom strict
          { s with pads := if 2 ≤ s.quadPos then s.pads + 1 else s.pads, paddingStarted := true } cs
    else
      match decodeChar c with
      | none => if strict then none else decodeFrom strict s cs
      | some v =>
        if strict ∧ s.paddingStarted then none
        else (decodeFrom strict (s.push v).2 cs).map ((s.push v).1 ++ ·)

def decode (strict : Bool) (cs : List Char) : Option (List UInt8) := decodeFrom strict start cs

def fromUrlSafe (c : Char) : Char := if c = '-' then '+' else if c = '_' then '/' else c

theorem encodeChar_spec : ∀ v : Fin 64,
    decodeChar (encodeChar v) = some v.val ∧ encodeChar v ≠ '=' ∧ (encodeChar v).toNat < 128 := by
  decide +kernel

theorem decodeChar_encodeChar {v : Nat} (hv : v < 64) : decodeChar (encodeChar v) = some v :=
  (encodeChar_spec ⟨v, hv⟩).1

theorem encodeChar_ne_pad {v : Nat} (hv : v < 64) : encodeChar v ≠ '=' :=
  (encodeChar_spec ⟨v, hv⟩).2.1

theorem encodeChar_ascii {v : Nat} (hv : v < 64) : (encodeChar v).toNat < 128 :=
  (encodeChar_spec ⟨v, hv⟩).2.2

theorem decodeFrom_encodeChar {strict : Bool} {s : State} {v : Nat} {cs : List Char} (hv : v < 64)
    (hs : s.paddingStarted = false) :
    decodeFrom strict s (encodeChar v :: cs) =
      (decodeFrom strict (s.push v).2 cs).map ((s.push v).1 ++ ·) := by
  simp [decodeFrom, encodeChar_ne_pad hv, decodeChar_encodeChar hv, hs]

theorem decodeFrom_two {strict : Bool} {u v : Nat} {cs : List Char} (hu : u < 64) (hv : v < 64) :
    decodeFrom strict start (encodeChar u :: encodeChar v :: cs) =
      (decodeFrom strict ⟨2, v % 16, 0, false⟩ cs).map (UInt8.ofNat (u * 4 + v / 16) :: ·) := by
  rw [decodeFrom_encodeChar hu rfl]
  simp only [State.push, start]
  rw [decodeFrom_encodeChar hv rfl]
  simp only [State.push, Option.map_map]
  rfl

theorem decodeFrom_third {strict : Bool} {u v : Nat} {cs : List Char} (hv : v < 64) :
    decodeFrom strict ⟨2, u, 0, false⟩ (encodeChar v :: cs) =
      (decodeFrom strict ⟨3, v % 4, 0, false⟩ cs).map (UInt8.ofNat (u * 16 + v / 4) :: ·) := by
  rw [decodeFrom_encodeChar hv rfl]
  rfl

theorem decodeFrom_fourth {strict : Bool} {u v : Nat} {cs : List Char} (hv : v < 64) :
    decodeFrom strict ⟨3, u, 0, false⟩ (encodeChar v :: cs) =
      (decodeFrom strict start cs).map (UInt8.ofNat (u * 64 + v) :: ·) := by
  rw [decodeFrom_encodeChar hv rfl]
  rfl

theorem decodeFrom_one_pad (strict : Bool) (u : Nat) :
    decodeFrom strict ⟨3, u, 0, false⟩ ['='] = some [] := by simp [decodeFrom]

theorem decodeFrom_two_pads (strict : Bool) (u : Nat) :
    decodeFrom strict ⟨2, u, 0, false⟩ ['=', '='] = some [] := by simp [decodeFrom]

theorem ofNat_of_toNat (b : UInt8) {n : Nat} (h : n = b.toNat) : UInt8.ofNat n = b := by
  rw [h, UInt8.ofNat_toNat]

theorem decode_encode (strict : Bool) (bs : List UInt8) : decode strict (encode bs) = some bs := by
  have hlt : ∀ b : UInt8, b.toNat < 256 := fun b => b.toNat_lt
  unfold decode
  induction bs using encode.induct with
  | case1 => rfl
  | case2 a =>
    have ha := hlt a
    rw [encode, decodeFrom_two (by omega) (by omega), decodeFrom_two_pads, Option.map_some,
      ofNat_of_toNat a (by omega)]
  | case3 a b =>
    have ha := hlt a
    have hb := hlt b
    rw [encode, decodeFrom_two (by omega) (by omega), decodeFrom_third (by omega),
      decodeFrom_one_pad, Option.map_some, Option.map_some, ofNat_of_toNat a (by omega),
      ofNat_of_toNat b (by omega)]
  | case4 a b c bs ih =>
    have ha := hlt a
    have hb := hlt b
    have hc := hlt c
    rw [encode, decodeFrom_two (by omega) (by omega), decodeFrom_third (by omega),
      decodeFrom_fourth (by omega), ih, Option.map_some, Option.map_some, Option.map_some,
      ofNat_of_toNat a (by omega), ofNat_of_toNat b (by omega),
      ofNat_of_toNat c (by omega)]

theorem mem_encode {bs : List UInt8} {c : Char} (h : c ∈ encode bs) :
    c = '=' ∨ ∃ v < 64, c = encodeChar v := by
  have hlt : ∀ b : UInt8, b.toNat < 256 := fun b => b.toNat_lt
  induction bs using encode.induct with
  | case1 => cases h
  | case2 a =>
    have ha := hlt a
    simp only [encode, List.mem_cons, List.not_mem_nil, or_false] at h
    rcases h with h | h | h | h
    · exact .inr ⟨_, by omega, h⟩
    · exact .inr ⟨_, by omega, h⟩
    · exact .inl h
    · exact .inl h
  | case3 a b =>
    have ha := hlt a
    have hb := hlt b
    simp only [encode, List.mem_cons, List.not_mem_nil, or_false] at h
    rcases h with h | h | h | h
    · exact .inr ⟨_, by omega, h⟩
    · exact .inr ⟨_, by omega, h⟩
    · exact .inr ⟨_, by omega, h⟩
    · exact .inl h
  | case4 a b c' bs ih =>
    have ha := hlt a
    have hb := hlt b
    have hc := hlt c'
    simp only [encode, List.mem_cons] at h
    rcases h with h | h | h | h | h
    · exact .inr ⟨_, by omega, h⟩
    · exact .inr ⟨_, by omega, h⟩
    · exact .inr ⟨_, by omega, h⟩
    · exact .inr ⟨_, by omega, h⟩
    · exact ih h

end Base64
