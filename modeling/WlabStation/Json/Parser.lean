import Mathlib.Algebra.Field.Rat
import Mathlib.Data.List.TakeWhile

/-! JSON texts: the values they denote and a recursive descent parser over
characters. Numbers are exact, and the members of an object keep their order
and their repetitions. -/
namespace WlabStation.Json

inductive Value where
  | null
  | bool (b : Bool)
  | num (q : ℚ)
  | str (s : List Char)
  | arr (vs : List Value)
  | obj (ms : List (List Char × Value))

def isWs (c : Char) : Bool := c = ' ' || c = '\t' || c = '\n' || c = '\r'

def skipWs (s : List Char) : List Char := s.dropWhile isWs

/-- A character that stands for itself in a string: not a quotation mark, a
backslash or a control character. -/
def Plain (c : Char) : Prop := c ≠ '\x22' ∧ c ≠ '\\' ∧ 32 ≤ c.toNat

instance (c : Char) : Decidable (Plain c) := by
  unfold Plain
  infer_instance

/-- Decided along the text, not over all characters. -/
instance decidableForallMem (cs : List Char) (p : Char → Prop) [DecidablePred p] :
    Decidable (∀ c ∈ cs, p c) :=
  List.decidableBAll p cs

def hexDigit (c : Char) : Option ℕ :=
  if 48 ≤ c.toNat ∧ c.toNat ≤ 57 then some (c.toNat - 48)
  else if 65 ≤ c.toNat ∧ c.toNat ≤ 70 then some (c.toNat - 55)
  else if 97 ≤ c.toNat ∧ c.toNat ≤ 102 then some (c.toNat - 87)
  else none

/-- Four hexadecimal digits. -/
def hexQuad : List Char → Option (ℕ × List Char)
  | a :: b :: c :: d :: s => do
      let a ← hexDigit a
      let b ← hexDigit b
      let c ← hexDigit c
      let d ← hexDigit d
      return (((a * 16 + b) * 16 + c) * 16 + d, s)
  | _ => none

def simpleEscape (c : Char) : Option Char :=
  if c = '\x22' ∨ c = '\\' ∨ c = '/' then some c
  else if c = 'b' then some '\x08'
  else if c = 'f' then some '\x0c'
  else if c = 'n' then some '\n'
  else if c = 'r' then some '\r'
  else if c = 't' then some '\t'
  else none

/-- The second half of a surrogate pair whose first half is `h`. -/
def lowSurrogate (h : ℕ) : List Char → Option (Char × List Char)
  | b :: u :: s => do
      let (l, s) ← hexQuad s
      if b = '\\' ∧ u = 'u' ∧ h < 0xDC00 ∧ 0xDC00 ≤ l ∧ l < 0xE000 then
        return (Char.ofNat (0x10000 + (h - 0xD800) * 0x400 + (l - 0xDC00)), s)
      else none
  | _ => none

/-- What follows a backslash. A lone surrogate denotes no character. -/
def parseEscape : List Char → Option (Char × List Char)
  | [] => none
  | c :: s =>
      if c = 'u' then do
        let (h, s) ← hexQuad s
        if h < 0xD800 ∨ 0xE000 ≤ h then return (Char.ofNat h, s) else lowSurrogate h s
      else (simpleEscape c).map fun d => (d, s)

/-- The characters of a string up to its closing quotation mark. -/
def parseString : ℕ → List Char → Option (List Char × List Char)
  | 0, _ => none
  | _ + 1, [] => none
  | n + 1, c :: s =>
      if c = '\x22' then some ([], s)
      else if c = '\\' then do
        let (d, s) ← parseEscape s
        let (ds, s) ← parseString n s
        return (d :: ds, s)
      else if 32 ≤ c.toNat then do
        let (ds, s) ← parseString n s
        return (c :: ds, s)
      else none

/-- At least one digit. -/
def parseDigits (s : List Char) : Option (List Char × List Char) :=
  if s.takeWhile Char.isDigit = [] then none
  else some (s.takeWhile Char.isDigit, s.dropWhile Char.isDigit)

def parseSign : List Char → Bool × List Char
  | '-' :: s => (true, s)
  | s => (false, s)

/-- No digit follows a leading zero. -/
def parseInteger (s : List Char) : Option (List Char × List Char) := do
  let (ds, s) ← parseDigits s
  if ds.head? = some '0' ∧ ds ≠ ['0'] then none else return (ds, s)

def parseFraction : List Char → Option (List Char × List Char)
  | '.' :: s => parseDigits s
  | s => some ([], s)

def parseExponentSign : List Char → Bool × List Char
  | '+' :: s => (false, s)
  | s => parseSign s

def parseExponent : List Char → Option (ℤ × List Char)
  | [] => some (0, [])
  | c :: s =>
      if c = 'e' ∨ c = 'E' then do
        let (neg, s) := parseExponentSign s
        let (ds, s) ← parseDigits s
        let e : ℤ := Nat.ofDigitChars 10 ds 0
        return (if neg then -e else e, s)
      else some (0, c :: s)

def sign (neg : Bool) : ℚ := if neg then -1 else 1

/-- The digits before and behind the decimal point, and a power of ten. -/
def decimal (neg : Bool) (ds fs : List Char) (e : ℤ) : ℚ :=
  sign neg * Nat.ofDigitChars 10 (ds ++ fs) 0 * 10 ^ (e - fs.length)

def parseNumber (s : List Char) : Option (ℚ × List Char) := do
  let (neg, s) := parseSign s
  let (ds, s) ← parseInteger s
  let (fs, s) ← parseFraction s
  let (e, s) ← parseExponent s
  return (decimal neg ds fs e, s)

def parseLiteral (s : List Char) : Option (Value × List Char) :=
  if ['t', 'r', 'u', 'e'] <+: s then some (.bool true, s.drop 4)
  else if ['f', 'a', 'l', 's', 'e'] <+: s then some (.bool false, s.drop 5)
  else if ['n', 'u', 'l', 'l'] <+: s then some (.null, s.drop 4)
  else none

/-- A member's name and the colon after it. -/
def parseName (n : ℕ) (s : List Char) : Option (List Char × List Char) :=
  match skipWs s with
  | '\x22' :: s => do
      let (k, s) ← parseString n s
      match skipWs s with
      | ':' :: s => some (k, s)
      | _ => none
  | _ => none

mutual

/-- The first argument bounds the depth of the calls. -/
def parseValue : ℕ → List Char → Option (Value × List Char)
  | 0, _ => none
  | n + 1, s =>
      match skipWs s with
      | [] => none
      | c :: s =>
          if c = '\x22' then (parseString n s).map fun r => (.str r.1, r.2)
          else if c = '\x7b' then
            match skipWs s with
            | '\x7d' :: s => some (.obj [], s)
            | _ => (parseMembers n s).map fun r => (.obj r.1, r.2)
          else if c = '[' then
            match skipWs s with
            | ']' :: s => some (.arr [], s)
            | _ => (parseElements n s).map fun r => (.arr r.1, r.2)
          else if c = '-' ∨ c.isDigit then (parseNumber (c :: s)).map fun r => (.num r.1, r.2)
          else parseLiteral (c :: s)

/-- The members of an object from its first name on. -/
def parseMembers : ℕ → List Char → Option (List (List Char × Value) × List Char)
  | 0, _ => none
  | n + 1, s => do
      let (k, s) ← parseName n s
      let (v, s) ← parseValue n s
      match skipWs s with
      | ',' :: s => do
          let (ms, s) ← parseMembers n s
          return ((k, v) :: ms, s)
      | '\x7d' :: s => return ([(k, v)], s)
      | _ => none

/-- The elements of an array from the first on. -/
def parseElements : ℕ → List Char → Option (List Value × List Char)
  | 0, _ => none
  | n + 1, s => do
      let (v, s) ← parseValue n s
      match skipWs s with
      | ',' :: s => do
          let (vs, s) ← parseElements n s
          return (v :: vs, s)
      | ']' :: s => return ([v], s)
      | _ => none

end

/-- A text is a value between blanks. -/
def parseText (n : ℕ) (s : List Char) : Option Value := do
  let (v, s) ← parseValue n s
  if skipWs s = [] then return v else none

end WlabStation.Json
