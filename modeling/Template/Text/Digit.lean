/-!
# `Template.Text.Digit` — decimal digits of every script

Unicode lists the decimal digits (category Nd) in runs of ten consecutive characters, zero first. A digit
is therefore known by the zero of its run, and its value is its distance from that zero. Numbers in
templates may be written in the digits of any script.

* `digitValue?` — the value of a digit, of any script;
* `asciiDigit?` — the same for 0 to 9 alone;
* `takeDigits`, `groupedDigits?` — the digits at the front of a text, and those of a whole text;
* `decimal`, `integer`, `padded` — numbers written in ASCII digits;
* `ofDigits` — the number that a row of digit values stands for.
-/

namespace Template.Text

/-- The zero of each run of decimal digits outside ASCII, in rising order. -/
def digitZeros : List Nat :=
  [0x0660, 0x06f0, 0x07c0, 0x0966, 0x09e6, 0x0a66, 0x0ae6, 0x0b66, 0x0be6, 0x0c66, 0x0ce6,
   0x0d66, 0x0de6, 0x0e50, 0x0ed0, 0x0f20, 0x1040, 0x1090, 0x17e0, 0x1810, 0x1946, 0x19d0,
   0x1a80, 0x1a90, 0x1b50, 0x1bb0, 0x1c40, 0x1c50, 0xa620, 0xa8d0, 0xa900, 0xa9d0, 0xa9f0,
   0xaa50, 0xabf0, 0xff10, 0x104a0, 0x10d30, 0x11066, 0x110f0, 0x11136, 0x111d0, 0x112f0,
   0x11450, 0x114d0, 0x11650, 0x116c0, 0x11730, 0x118e0, 0x11950, 0x11c50, 0x11d50, 0x11da0,
   0x16a60, 0x16ac0, 0x16b50, 0x1d7ce, 0x1d7d8, 0x1d7e2, 0x1d7ec, 0x1d7f6, 0x1e140, 0x1e2f0,
   0x1e950, 0x1fbf0]

/-- The value of an ASCII digit. -/
def asciiDigit? (c : Char) : Option Nat :=
  if '0' ≤ c ∧ c ≤ '9' then some (c.toNat - '0'.toNat) else none

/-- The value of a decimal digit of any script. -/
def digitValue? (c : Char) : Option Nat :=
  match asciiDigit? c with
  | some d => some d
  | none =>
    (digitZeros.find? fun first => first ≤ c.toNat && c.toNat ≤ first + 9).map fun first =>
      c.toNat - first

/-- The values of the digits at the front of a text, as `value?` reads them, and the rest. -/
def takeDigits (value? : Char → Option Nat) : List Char → List Nat × List Char
  | [] => ([], [])
  | c :: rest =>
    match value? c with
    | some d => (d :: (takeDigits value? rest).1, (takeDigits value? rest).2)
    | none => ([], c :: rest)

/-- The values of the digits of a whole text, in which single underscores may stand between two digits. -/
def groupedDigits? (value? : Char → Option Nat) : List Char → Option (List Nat)
  | [] => none
  | [c] => (value? c).map ([·])
  | c :: '_' :: rest => do
    let d ← value? c
    return d :: (← groupedDigits? value? rest)
  | c :: rest => do
    let d ← value? c
    return d :: (← groupedDigits? value? rest)

/-- The number written by a row of digit values, the most significant first. -/
def ofDigits (digits : List Nat) : Nat :=
  digits.foldl (fun n d => 10 * n + d) 0

/-! ## Writing numbers -/

/-- A natural number in decimal digits, without leading zeros. -/
def decimal (n : Nat) : List Char :=
  Nat.toDigits 10 n

/-- An integer in decimal digits, with a minus sign when it is negative. -/
def integer : Int → List Char
  | .ofNat n => decimal n
  | .negSucc n => '-' :: decimal (n + 1)

/-- A natural number in at least `width` digits, with zeros in front. -/
def padded (width n : Nat) : List Char :=
  List.replicate (width - (decimal n).length) '0' ++ decimal n

/-- How many decimal digits a number needs; none for zero. -/
def decimalLength (n : Nat) : Nat :=
  if n = 0 then 0 else (decimal n).length

/-- Hexadecimal digits in lower case, at least `width` of them. -/
def paddedHex (width n : Nat) : List Char :=
  List.replicate (width - (Nat.toDigits 16 n).length) '0' ++ Nat.toDigits 16 n

/-- The value of a hexadecimal digit in either case. -/
def hexValue? (c : Char) : Option Nat :=
  if '0' ≤ c ∧ c ≤ '9' then some (c.toNat - '0'.toNat)
  else if 'a' ≤ c ∧ c ≤ 'f' then some (c.toNat - 'a'.toNat + 10)
  else if 'A' ≤ c ∧ c ≤ 'F' then some (c.toNat - 'A'.toNat + 10)
  else none

end Template.Text
