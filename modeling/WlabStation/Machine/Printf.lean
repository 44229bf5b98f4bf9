import WlabStation.Machine.CString
import WlabStation.Machine.Fixed

/-! The conversions of `printf` that the firmware uses: the format is split into
literal text and conversions, and each conversion consumes an argument. -/
namespace WlabStation

/-- Argument of a variadic call: a 32-bit word, the array a `char *` points to,
or a `double` with the text that its conversion makes of it. -/
inductive PrintArg where
  | word (v : ℤ)
  | chars (bytes : List UInt8)
  | double (text : List UInt8)

inductive Piece where
  | lit (s : List Char)
  | str
  | int
  | unsigned
  | fixed
  deriving DecidableEq

def addChar (c : Char) : List Piece → List Piece
  | .lit s :: ps => .lit (c :: s) :: ps
  | ps => .lit [c] :: ps

/-- The pieces of a format; other conversions are not known. -/
def parseFormat : List Char → Option (List Piece)
  | [] => some []
  | '%' :: 's' :: f => (parseFormat f).map (Piece.str :: ·)
  | '%' :: 'd' :: f => (parseFormat f).map (Piece.int :: ·)
  | '%' :: 'u' :: f => (parseFormat f).map (Piece.unsigned :: ·)
  | '%' :: '.' :: '1' :: 'f' :: f => (parseFormat f).map (Piece.fixed :: ·)
  | '%' :: '.' :: '2' :: 'f' :: f => (parseFormat f).map (Piece.fixed :: ·)
  | '%' :: _ => none
  | c :: f => (parseFormat f).map (addChar c)

/-- The decimal digits of a number. -/
def intText (z : ℤ) : List Char := (if z < 0 then ['-'] else []) ++ Nat.toDigits 10 z.natAbs

/-- What one conversion prints. It is undefined for an argument of another kind,
and for a `%s` whose array holds no terminator. -/
def convert : Piece → PrintArg → Option (List UInt8)
  | .str, .chars bytes => cString bytes
  | .int, .word v => some (asciiBytes (intText (i32 v)))
  | .unsigned, .word v => some (asciiBytes (intText (u32 v)))
  | .fixed, .double text => some text
  | _, _ => none

def render : List Piece → List PrintArg → Option (List UInt8)
  | [], _ => some []
  | .lit s :: ps, args => (render ps args).map (asciiBytes s ++ ·)
  | _ :: _, [] => none
  | p :: ps, a :: args => do
      let s ← convert p a
      let t ← render ps args
      return s ++ t

/-- `sprintf` into a sufficient buffer, without the terminator. -/
def sprintf (format : List Char) (args : List PrintArg) : Option (List UInt8) := do
  let ps ← parseFormat format
  render ps args

@[simp] theorem render_nil (args : List PrintArg) : render [] args = some [] := rfl

section
variable (ps : List Piece) (args : List PrintArg)

@[simp] theorem render_lit (s : List Char) :
    render (.lit s :: ps) args = (render ps args).map (asciiBytes s ++ ·) := rfl

@[simp] theorem render_int (v : ℤ) : render (.int :: ps) (.word v :: args) =
    (render ps args).map (asciiBytes (intText (i32 v)) ++ ·) := by
  cases h : render ps args <;> simp [render, convert, h]

@[simp] theorem render_unsigned (v : ℤ) : render (.unsigned :: ps) (.word v :: args) =
    (render ps args).map (asciiBytes (intText (u32 v)) ++ ·) := by
  cases h : render ps args <;> simp [render, convert, h]

@[simp] theorem render_fixed (text : List UInt8) :
    render (.fixed :: ps) (.double text :: args) = (render ps args).map (text ++ ·) := by
  cases h : render ps args <;> simp [render, convert, h]

/-- A string argument is printed up to its terminator, which must be there. -/
theorem render_str (bytes : List UInt8) : render (.str :: ps) (.chars bytes :: args) =
    (cString bytes).bind fun s => (render ps args).map (s ++ ·) := by
  cases h : render ps args <;> cases hs : cString bytes <;> simp [render, convert, h, hs]

end

theorem intText_nonneg (n : ℕ) : intText n = Nat.toDigits 10 n := by
  simp [intText]

theorem toDigits_ascii (n : ℕ) : Ascii (Nat.toDigits 10 n) := by
  intro c hc
  have h := Nat.isDigit_of_mem_toDigits (by decide) (by decide) hc
  simp only [Char.isDigit, Bool.and_eq_true, decide_eq_true_eq] at h
  obtain ⟨hlo, hhi⟩ := h
  have hlo' : 48 ≤ c.toNat := by exact hlo
  have hhi' : c.toNat ≤ 57 := by exact hhi
  omega

/-- A sign in front of digits. -/
theorem sign_ascii {C : Prop} [Decidable C] : Ascii (if C then ['-'] else []) := by
  split_ifs
  · decide
  · exact ascii_nil

theorem point_ascii : ∀ d < 10, Ascii ['.', Nat.digitChar d] := by decide

theorem intText_ascii (z : ℤ) : Ascii (intText z) :=
  (ascii_append _ _).mpr ⟨sign_ascii, toDigits_ascii _⟩

end WlabStation
