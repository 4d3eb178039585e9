import Mathlib.Algebra.Group.Int.Defs
import WikiBackend.Token.Library

/-! What pydantic's lax mode takes for an integer: integers, booleans, floats without a fraction
that fit into 64 bits, and numerals in a string. -/

namespace WikiBackend.Lax

def isDigit (c : Char) : Bool := '0' ≤ c && c ≤ '9'

def startsNumber (c : Char) : Bool := ('1' ≤ c && c ≤ '9') || c = '-'

/-- The rest after leading zeros and underscores; a zero in front of the decimal point stays, and
so does the last character of a string of zeros. -/
def afterZeros (last : Char) : List Char → Option (List Char)
  | [] => some [last]
  | c :: cs =>
    if c = '0' || c = '_' then afterZeros c cs
    else if startsNumber c then some (c :: cs)
    else if c = '.' then some (last :: c :: cs)
    else none

def stripLeadingZeros : List Char → Option (List Char)
  | [] => none
  | c :: cs =>
    if c = '0' then afterZeros c cs else if startsNumber c then some (c :: cs) else none

def stripDecimalZeros (cs : List Char) : List Char :=
  match cs.dropWhile (· ≠ '.') with
  | _ :: c :: zeros =>
    if (c :: zeros).all (· = '0') then cs.takeWhile (· ≠ '.') else cs
  | _ => cs

def stripUnderscores (cs : List Char) : Option (List Char) :=
  let parts := cs.splitOn '_'
  if parts.any (·.isEmpty) then none else some parts.flatten

def maxLength : Nat := 4300

def jsonInt (cs : List Char) : Option Int :=
  let (negative, digits) :=
    match cs with
    | '-' :: digits => (true, digits)
    | digits => (false, digits)
  if cs.length > maxLength || digits.isEmpty || !digits.all isDigit ||
      (digits.head? = some '0' && digits ≠ ['0']) then none
  else
    let n : Nat := digits.foldl (fun n c => 10 * n + (c.toNat - '0'.toNat)) 0
    some (if negative then -n else n)

def strAsInt (s : String) : Option Int := do
  let (sign, cs) ←
    match trimChars isWhiteSpace s.toList with
    | '+' :: '-' :: _ => none
    | '+' :: cs => some ([], cs)
    | '-' :: cs => some (['-'], cs)
    | cs => some ([], cs)
  let cs ← stripLeadingZeros cs
  let cs ← stripUnderscores (sign ++ stripDecimalZeros cs)
  jsonInt cs

def floatAsInt : PyFloat → Option Int
  | .finite m e =>
    let fits (n : Int) : Option Int :=
      if -9223372036854775808 < n && n < 9223372036854775808 then some n else none
    if 0 ≤ e then fits (m * 2 ^ e.toNat)
    else if m % 2 ^ (-e).toNat = 0 then fits (m / 2 ^ (-e).toNat)
    else none
  | .inf _ | .nan => none

def asInt : Json → Option Int
  | .int n => some n
  | .bool b => some (if b then 1 else 0)
  | .float x => floatAsInt x
  | .str (.text s) => strAsInt s
  | _ => none

example : asInt (.str " +0_42.0 ") = some 42 ∧ asInt (.float (.finite 123 0)) = some 123 ∧
    asInt (.str "１２３") = none ∧ asInt (.float (.finite 3 (-1))) = none := by decide +kernel

/-- The value is no JSON integer but is read as this one: a boolean, a float without a fraction, or
a numeral. -/
inductive Reads : Json → Int → Prop where
  | true : Reads (.bool true) 1
  | false : Reads (.bool false) 0
  | float {x : PyFloat} {n : Int} : floatAsInt x = some n → Reads (.float x) n
  | numeral {s : String} {n : Int} : strAsInt s = some n → Reads (.str s) n

theorem asInt_eq_some {v : Json} {n : Int} : asInt v = some n ↔ v = .int n ∨ Reads v n := by
  constructor
  · intro h
    cases v with
    | int m =>
      cases h
      exact .inl rfl
    | bool b =>
      cases b with
      | true =>
        cases h
        exact .inr .true
      | false =>
        cases h
        exact .inr .false
    | float x => exact .inr (.float h)
    | str s =>
      cases s with
      | text s => exact .inr (.numeral h)
      | surrogates points valid lone => cases h
    | _ => cases h
  · rintro (rfl | h)
    · rfl
    · cases h with
      | true | false => rfl
      | float h | numeral h => exact h

def validateInt (v : Json) : Except LibError Int :=
  match asInt v with
  | some n => .ok n
  | none => .error .validationError

def validateStr : Json → Except LibError PyStr
  | .str s => .ok s
  | _ => .error .validationError

theorem validateInt_eq_ok {v : Json} {n : Int} : validateInt v = .ok n ↔ asInt v = some n := by
  unfold validateInt
  cases asInt v <;> simp

theorem validateStr_eq_ok {v : Json} {s : PyStr} : validateStr v = .ok s ↔ v = .str s := by
  cases v <;> simp [validateStr]

end WikiBackend.Lax
