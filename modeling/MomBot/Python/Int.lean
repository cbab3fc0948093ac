import Mathlib.Data.String.Basic
import Mathlib.Data.List.DropRight

/-!
# `int` on a string

`int` follows the interpreter's own conversion: surrounding white space is
dropped, one sign may follow, then decimal digits of any script with single
underscores between them.
-/

namespace MomBot.Python

/-- The code points of the digit zero in every script (Unicode category `Nd`);
the digits one to nine follow each of them. -/
def decimalZeros : List ℕ :=
  [0x30, 0x660, 0x6f0, 0x7c0, 0x966, 0x9e6, 0xa66, 0xae6, 0xb66, 0xbe6, 0xc66, 0xce6, 0xd66,
   0xde6, 0xe50, 0xed0, 0xf20, 0x1040, 0x1090, 0x17e0, 0x1810, 0x1946, 0x19d0, 0x1a80, 0x1a90,
   0x1b50, 0x1bb0, 0x1c40, 0x1c50, 0xa620, 0xa8d0, 0xa900, 0xa9d0, 0xa9f0, 0xaa50, 0xabf0, 0xff10,
   0x104a0, 0x10d30, 0x11066, 0x110f0, 0x11136, 0x111d0, 0x112f0, 0x11450, 0x114d0, 0x11650,
   0x116c0, 0x11730, 0x118e0, 0x11950, 0x11c50, 0x11d50, 0x11da0, 0x11f50, 0x16a60, 0x16ac0,
   0x16b50, 0x1d7ce, 0x1d7d8, 0x1d7e2, 0x1d7ec, 0x1d7f6, 0x1e140, 0x1e2f0, 0x1e4f0, 0x1e950,
   0x1fbf0]

/-- The value of a character that is a decimal digit. -/
def decimalValue? (c : Char) : Option ℕ :=
  (decimalZeros.find? fun d => d ≤ c.toNat ∧ c.toNat < d + 10).map (c.toNat - ·)

/-- White space that `int` drops at both ends.  The control characters `0x1c` to
`0x1f` count as space for `str.strip`, but not here. -/
def isIntSpace (c : Char) : Bool :=
  c.toNat ∈ [0x09, 0x0a, 0x0b, 0x0c, 0x0d, 0x20, 0x85, 0xa0, 0x1680, 0x2028, 0x2029, 0x202f,
    0x205f, 0x3000] || (0x2000 ≤ c.toNat && c.toNat ≤ 0x200a)

/-- The digits of a numeral.  An underscore needs a digit on both sides. -/
def digits? : List Char → Option (List ℕ)
  | [] => none
  | [c] => (decimalValue? c).map ([·])
  | c :: '_' :: rest => do
      let d ← decimalValue? c
      let ds ← digits? rest
      return d :: ds
  | c :: next :: rest => do
      let d ← decimalValue? c
      let ds ← digits? (next :: rest)
      return d :: ds

/-- The interpreter refuses to convert more digits than this. -/
def intMaxStrDigits : ℕ := 4300

/-- The digits of a number, as far as `int` takes so many. -/
def natural? (cs : List Char) : Option ℕ := do
  let ds ← digits? cs
  if intMaxStrDigits < ds.length then none
  else return ds.foldl (fun n d => 10 * n + d) 0

/-- A number with at most one sign. -/
def signed? : List Char → Option ℤ
  | '-' :: cs => (natural? cs).map fun n => -(n : ℤ)
  | '+' :: cs => (natural? cs).map (↑)
  | cs => (natural? cs).map (↑)

/-- `int(s)`; `none` is `ValueError`. -/
def int (s : String) : Option ℤ :=
  signed? ((s.toList.dropWhile isIntSpace).rdropWhile isIntSpace)

example : int " +1_000 " = some 1000 ∧ int "٤٢" = some 42 ∧ int "1__0" = none ∧
    int "abc" = none := by
  decide

end MomBot.Python
