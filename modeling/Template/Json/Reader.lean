import Template.Json.Basic

/-!
# `Template.Json.Reader` — documents read from text

The reader goes through a text once, from the left. It accepts the documents of RFC 8259 and, beyond them,
the number words `NaN`, `Infinity` and `-Infinity`. A number without point and exponent is an integer of any
size, every other number is the nearest double. When a name is repeated in an object, the first place and the
last value are kept.

Text that is not a document is refused with what was expected and the place where it was: the line, the
column and the offset, counted in characters.

* `Complaint`, `Fault` — what was missing and where;
* `readString`, `readNumber?`, `readValue` — each takes its part off the front of a text and returns the
  rest;
* `Json.read` — the document that a whole text is.

While reading, a place is given by the number of characters that are left from it on; only `Fault.at` turns
that into a position.
-/

namespace Template.Json

/-- What a text lacks to be a document. -/
inductive Complaint where
  | value
  | extraData
  | propertyName
  | colon
  | comma
  | unterminated
  | controlCharacter
  | escape
  | unicodeEscape
  | byteOrderMark
deriving DecidableEq

/-- The wording of a complaint. -/
def Complaint.text : Complaint → String
  | .value => "Expecting value"
  | .extraData => "Extra data"
  | .propertyName => "Expecting property name enclosed in double quotes"
  | .colon => "Expecting ':' delimiter"
  | .comma => "Expecting ',' delimiter"
  | .unterminated => "Unterminated string starting at"
  | .controlCharacter => "Invalid control character at"
  | .escape => "Invalid \\escape"
  | .unicodeEscape => "Invalid \\uXXXX escape"
  | .byteOrderMark => "Unexpected UTF-8 BOM (decode using utf-8-sig)"

/-- Where and why a text is not a document. -/
structure Fault where
  /-- What is missing. -/
  complaint : Complaint
  /-- The line, counted from one. -/
  line : Nat
  /-- The place in its line, counted from one. -/
  column : Nat
  /-- The number of characters in front. -/
  offset : Nat
deriving DecidableEq

/-- The fault at the place from which on `left` characters are left. -/
def Fault.at (text : List Char) (complaint : Complaint) (left : Nat) : Fault :=
  let offset := text.length - left
  let before := text.take offset
  { complaint
    line := before.count '\n' + 1
    column := (before.reverse.takeWhile (· != '\n')).length + 1
    offset }

/-- The wording of a fault. -/
def Fault.message (fault : Fault) : String :=
  s!"{fault.complaint.text}: line {fault.line} column {fault.column} (char {fault.offset})"

/-- The outcome of taking something off the front of a text: it and the rest, or the complaint with the
number of characters left at its place. -/
abbrev Step (α : Type) := Except (Complaint × Nat) (α × List Char)

/-- A text without the blanks that may stand between the parts of a document. -/
def skipBlanks (text : List Char) : List Char :=
  text.dropWhile fun c => c == ' ' || c == '\t' || c == '\n' || c == '\r'

/-! ## Strings -/

/-- The number written by four hexadecimal digits. -/
def hexValue4? (a b c d : Char) : Option Nat := do
  let a ← Text.hexValue? a
  let b ← Text.hexValue? b
  let c ← Text.hexValue? c
  let d ← Text.hexValue? d
  return ((a * 16 + b) * 16 + c) * 16 + d

/-- The first half of a pair of numbers that stands for one character. -/
def isHighHalf (n : Nat) : Bool := 0xd800 ≤ n && n ≤ 0xdbff

/-- The second half of such a pair. -/
def isLowHalf (n : Nat) : Bool := 0xdc00 ≤ n && n ≤ 0xdfff

/-- The character that two halves stand for. -/
def joinHalves (high low : Nat) : Char :=
  Char.ofNat (0x10000 + (high - 0xd800) * 0x400 + (low - 0xdc00))

/-- The character of a number; half of a pair, standing alone, is no character and is replaced. That it has no encoding
would only show when a text that holds it is put out. -/
def charOf (n : Nat) : Char :=
  if isHighHalf n || isLowHalf n then '\ufffd' else Char.ofNat n

/-- The character of a one-letter escape. -/
def shortEscape? : Char → Option Char
  | '"' => some '"'
  | '\\' => some '\\'
  | '/' => some '/'
  | 'b' => some '\x08'
  | 'f' => some '\x0c'
  | 'n' => some '\n'
  | 'r' => some '\r'
  | 't' => some '\t'
  | _ => none

/-- Puts a character in front of the string that was read. -/
def onto (c : Char) (step : Step (List Char)) : Step (List Char) :=
  step.map fun (text, rest) => (c :: text, rest)

/-- The characters of a string up to its closing quote; `opening` characters were left at its opening
quote. An escape by number needs a character behind it. -/
def readString (opening : Nat) : List Char → Step (List Char)
  | [] => .error (.unterminated, opening)
  | '"' :: rest => .ok ([], rest)
  | ['\\'] => .error (.unterminated, opening)
  | '\\' :: 'u' :: a :: b :: c :: d :: e :: rest =>
    match hexValue4? a b c d with
    | none => .error (.unicodeEscape, rest.length + 6)
    | some n =>
      match e, rest with
      | '\\', 'u' :: a' :: b' :: c' :: d' :: e' :: rest' =>
        if isHighHalf n then
          match hexValue4? a' b' c' d' with
          | none => .error (.unicodeEscape, rest'.length + 6)
          | some m =>
            if isLowHalf m then onto (joinHalves n m) (readString opening (e' :: rest'))
            else
              onto (charOf n)
                (readString opening ('\\' :: 'u' :: a' :: b' :: c' :: d' :: e' :: rest'))
        else
          onto (charOf n)
            (readString opening ('\\' :: 'u' :: a' :: b' :: c' :: d' :: e' :: rest'))
      | e, rest => onto (charOf n) (readString opening (e :: rest))
  | '\\' :: 'u' :: rest => .error (.unicodeEscape, rest.length + 1)
  | '\\' :: c :: rest =>
    match shortEscape? c with
    | some c => onto c (readString opening rest)
    | none => .error (.escape, rest.length + 2)
  | c :: rest =>
    if c.toNat < 0x20 then .error (.controlCharacter, rest.length + 1)
    else onto c (readString opening rest)
termination_by text => text.length

/-! ## Numbers -/

/-- The digits behind a point, if there are any. -/
def takeFraction : List Char → Option (List Nat × List Char)
  | '.' :: rest =>
    match Text.takeDigits Text.asciiDigit? rest with
    | ([], _) => none
    | (digits, rest) => some (digits, rest)
  | _ => none

/-- The exponent, if there is a complete one. -/
def takeExponent : List Char → Option (Int × List Char)
  | c :: rest =>
    if c = 'e' ∨ c = 'E' then
      let (negative, rest) := match rest with
        | '-' :: rest => (true, rest)
        | '+' :: rest => (false, rest)
        | rest => (false, rest)
      match Text.takeDigits Text.asciiDigit? rest with
      | ([], _) => none
      | (digits, rest) =>
        let size : Int := Text.ofDigits digits
        some (if negative then -size else size, rest)
    else none
  | [] => none

/-- The digits before the point: a zero, or a row that starts with another digit. -/
def takeWhole (text : List Char) : Option (List Nat × List Char) :=
  match text with
  | '0' :: rest => some ([0], rest)
  | _ =>
    match Text.takeDigits Text.asciiDigit? text with
    | ([], _) => none
    | (digits, rest) => some (digits, rest)

/-- A number at the front of a text. -/
def readNumber? (text : List Char) : Option (Number × List Char) :=
  let (negative, unsigned) := match text with
    | '-' :: rest => (true, rest)
    | rest => (false, rest)
  match takeWhole unsigned with
  | none => none
  | some (whole, rest) =>
    match takeFraction rest, takeExponent ((takeFraction rest).elim rest (·.2)) with
    | none, none =>
      let n : Int := Text.ofDigits whole
      some (.integer (if negative then -n else n), rest)
    | fraction, exponent =>
      let fractionDigits := fraction.elim [] (·.1)
      let rest := (exponent.map (·.2)).getD (fraction.elim rest (·.2))
      let digits := Text.ofDigits (whole ++ fractionDigits)
      let place := exponent.elim 0 (·.1) - fractionDigits.length
      some (.real (.ofDecimal negative digits place), rest)

/-! ## Values -/

/-- The words for values, and the rest of a text that starts with one. -/
def readWord? : List Char → Option (Json × List Char)
  | 'n' :: 'u' :: 'l' :: 'l' :: rest => some (.null, rest)
  | 't' :: 'r' :: 'u' :: 'e' :: rest => some (.bool true, rest)
  | 'f' :: 'a' :: 'l' :: 's' :: 'e' :: rest => some (.bool false, rest)
  | 'N' :: 'a' :: 'N' :: rest => some (.number (.real .nan), rest)
  | 'I' :: 'n' :: 'f' :: 'i' :: 'n' :: 'i' :: 't' :: 'y' :: rest =>
    some (.number (.real (.infinite false)), rest)
  | '-' :: 'I' :: 'n' :: 'f' :: 'i' :: 'n' :: 'i' :: 't' :: 'y' :: rest =>
    some (.number (.real (.infinite true)), rest)
  | _ => none

mutual

/-- A value at the front of a text. `fuel` bounds the nesting of calls; between two calls that take nothing
off the text there is one that does, so twice the length of the text is always enough. -/
def readValue : (fuel : Nat) → List Char → Step Json
  | 0, text => .error (.value, text.length)
  | fuel + 1, text =>
    match text with
    | '"' :: rest =>
      (readString text.length rest).map fun (s, rest) => (.string (String.ofList s), rest)
    | '[' :: rest =>
      match skipBlanks rest with
      | ']' :: rest => .ok (.array [], rest)
      | rest => (readItems fuel rest).map fun (items, rest) => (.array items, rest)
    | '{' :: rest =>
      match skipBlanks rest with
      | '}' :: rest => .ok (.object [], rest)
      | rest =>
        (readMembers fuel rest).map fun (members, rest) => (.object (merge [] members), rest)
    | _ =>
      match readWord? text with
      | some found => .ok found
      | none =>
        match readNumber? text with
        | some (n, rest) => .ok (.number n, rest)
        | none => .error (.value, text.length)

/-- The items of an array that is not empty, up to its closing bracket. -/
def readItems : (fuel : Nat) → List Char → Step (List Json)
  | 0, text => .error (.value, text.length)
  | fuel + 1, text =>
    match readValue fuel text with
    | .error fault => .error fault
    | .ok (item, rest) =>
      match skipBlanks rest with
      | ']' :: rest => .ok ([item], rest)
      | ',' :: rest =>
        (readItems fuel (skipBlanks rest)).map fun (items, rest) => (item :: items, rest)
      | rest => .error (.comma, rest.length)

/-- The members of an object that is not empty, up to its closing brace. -/
def readMembers : (fuel : Nat) → List Char → Step (List (String × Json))
  | 0, text => .error (.value, text.length)
  | fuel + 1, text =>
    match text with
    | '"' :: rest =>
      match readString text.length rest with
      | .error fault => .error fault
      | .ok (name, rest) =>
        match skipBlanks rest with
        | ':' :: rest =>
          match readValue fuel (skipBlanks rest) with
          | .error fault => .error fault
          | .ok (value, rest) =>
            let member := (String.ofList name, value)
            match skipBlanks rest with
            | '}' :: rest => .ok ([member], rest)
            | ',' :: rest =>
              (readMembers fuel (skipBlanks rest)).map fun (members, rest) =>
                (member :: members, rest)
            | rest => .error (.comma, rest.length)
        | rest => .error (.colon, rest.length)
    | _ => .error (.propertyName, text.length)

end

/-- The document that a text is, up to blanks around it. -/
def read (text : List Char) : Except Fault Json :=
  if text.head? = some '\ufeff' then .error (Fault.at text .byteOrderMark text.length)
  else match readValue (2 * text.length + 2) (skipBlanks text) with
    | .error (complaint, left) => .error (Fault.at text complaint left)
    | .ok (value, rest) =>
      match skipBlanks rest with
      | [] => .ok value
      | rest => .error (Fault.at text .extraData rest.length)

end Template.Json
