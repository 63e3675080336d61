/-!
# `Template.Text.Fold` — lower case for comparison with ASCII words

Units, switches and truth words are compared without regard to case, and every word that they are
compared with is ASCII. Outside ASCII a single character has an ASCII letter as its lower case: the Kelvin
sign U+212A, which becomes `k`. Folding ASCII letters and that sign is thus enough to decide every such
comparison; no other character can turn into part of an ASCII word.
-/

namespace Template.Text

/-- Lower case as far as it reaches ASCII: the capital letters and the Kelvin sign. -/
def foldChar (c : Char) : Char :=
  if 'A' ≤ c ∧ c ≤ 'Z' then Char.ofNat (c.toNat + 32)
  else if c.toNat = 0x212a then 'k'
  else c

/-- A text in lower case, for comparison with ASCII words. -/
def fold (text : List Char) : List Char :=
  text.map foldChar

/-- The lower case of the ASCII letters alone. -/
def foldAscii (text : List Char) : List Char :=
  text.map fun c => if 'A' ≤ c ∧ c ≤ 'Z' then Char.ofNat (c.toNat + 32) else c

end Template.Text
