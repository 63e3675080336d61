/-!
# `Template.Text.Blank` — blank characters and trimming

Tokens, their segments, numbers and switches may all be surrounded by blanks. A blank is any character
that Unicode counts as white space, together with the four separators U+001C to U+001F. The zero-width
space U+200B and the byte order mark U+FEFF are not blank.

* `isBlank` — the class;
* `trim` — a text without its leading and trailing blanks;
* `trim_blank_append`, `trim_append_blank` — blanks at either end do not matter to `trim`.
-/

namespace Template.Text

/-- White space in the sense of Unicode, and the separators U+001C to U+001F. -/
def isBlank (c : Char) : Bool :=
  let n := c.toNat
  (0x09 ≤ n && n ≤ 0x0d) || (0x1c ≤ n && n ≤ 0x20) || n == 0x85 || n == 0xa0 || n == 0x1680 ||
    (0x2000 ≤ n && n ≤ 0x200a) || n == 0x2028 || n == 0x2029 || n == 0x202f || n == 0x205f ||
    n == 0x3000

/-- White space in the sense of Unicode alone: a blank that is not one of the four separators. -/
def isSpace (c : Char) : Bool :=
  isBlank c && !(0x1c ≤ c.toNat && c.toNat ≤ 0x1f)

/-- A text without the trailing characters of a class. -/
def dropEnd (p : Char → Bool) (text : List Char) : List Char :=
  (text.reverse.dropWhile p).reverse

/-- A text without the leading and trailing characters of a class. -/
def stripBy (p : Char → Bool) (text : List Char) : List Char :=
  dropEnd p (text.dropWhile p)

/-- A text without its leading and trailing blanks. -/
def trim (text : List Char) : List Char :=
  stripBy isBlank text

/-! ## Blanks at the ends do not matter -/

theorem dropEnd_append_of_all {p : Char → Bool} {blanks : List Char} (h : blanks.all p)
    (text : List Char) : dropEnd p (text ++ blanks) = dropEnd p text := by
  unfold dropEnd
  rw [List.reverse_append]
  congr 1
  rw [List.dropWhile_append_of_pos]
  intro c hc
  exact List.all_eq_true.mp h c (List.mem_reverse.mp hc)

theorem trim_blank_append {blanks : List Char} (h : blanks.all isBlank) (text : List Char) :
    trim (blanks ++ text) = trim text := by
  unfold trim stripBy
  rw [List.dropWhile_append_of_pos (List.all_eq_true.mp h)]

theorem dropWhile_append_of_all {p : Char → Bool} {blanks : List Char} (h : blanks.all p)
    (text : List Char) :
    dropEnd p ((text ++ blanks).dropWhile p) = dropEnd p (text.dropWhile p) := by
  rw [List.dropWhile_append]
  split
  · rename_i hd
    have hnil : text.dropWhile p = [] := by simpa using hd
    rw [hnil]
    have hb : blanks.dropWhile p = [] := by
      clear hd hnil
      induction blanks with
      | nil => rfl
      | cons c rest ih => simp_all [List.dropWhile]
    simp [hb]
  · exact dropEnd_append_of_all h _

theorem trim_append_blank {blanks : List Char} (h : blanks.all isBlank) (text : List Char) :
    trim (text ++ blanks) = trim text :=
  dropWhile_append_of_all h text

end Template.Text
