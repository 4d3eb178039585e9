import Mathlib.Tactic.Common

/-! Python strings, and the string methods the handlers use. -/

namespace WikiBackend

def isSurrogate (point : Nat) : Bool := 0xd800 ≤ point && point ≤ 0xdfff

/-- A Python `str`: text, or code points with surrogates among them, which have no encoding.
`json.loads` makes the latter of an escape such as `\ud800`. -/
inductive PyStr where
  | text (s : String)
  | surrogates (points : List Nat) (valid : points.all (· < 0x110000))
      (lone : points.any isSurrogate)
  deriving DecidableEq

instance : Coe String PyStr := ⟨.text⟩

def PyStr.text? : PyStr → Option String
  | text s => some s
  | surrogates _ _ _ => none

/-- The characters with the property White_Space, which `int(s)` skips. -/
def isWhiteSpace (c : Char) : Bool :=
  let n := c.toNat
  (0x09 ≤ n && n ≤ 0x0d) || n == 0x20 || n == 0x85 || n == 0xa0 || n == 0x1680 ||
    (0x2000 ≤ n && n ≤ 0x200a) || n == 0x2028 || n == 0x2029 || n == 0x202f || n == 0x205f ||
    n == 0x3000

/-- `str.isspace` of one character: the characters `str.strip` removes. -/
def isSpace (c : Char) : Bool := isWhiteSpace c || (0x1c ≤ c.toNat && c.toNat ≤ 0x1f)

def trimChars (space : Char → Bool) (cs : List Char) : List Char :=
  ((cs.dropWhile space).reverse.dropWhile space).reverse

def stripChars (cs : List Char) : List Char := trimChars isSpace cs

def strip (s : String) : String := String.ofList (stripChars s.toList)

def partitionSpace (s : String) : String × String :=
  (String.ofList (s.toList.takeWhile (· ≠ ' ')),
    String.ofList ((s.toList.dropWhile (· ≠ ' ')).drop 1))

/-- `s.lower()`, as far as a comparison with an ASCII word can tell. -/
def lower (s : String) : String := String.ofList (s.toList.map Char.toLower)

def hasNul (s : String) : Bool := s.toList.contains '\x00'

end WikiBackend
