import Template.Text.Blank
import Template.Text.Search

/-!
# `Template.Token.Scan` — the tokens of a text

A token starts with two opening braces and ends with two closing ones, and may hold other tokens. A text is
read from the left: two opening braces always open, two closing ones close the token last opened and are
plain characters when none is open, and any other character stands for itself. What is opened and never
closed is no token, and neither is anything inside of it.

* `outermost` — the tokens that lie in no other token, in the order of the text;
* `interior` — what stands between the braces of a token;
* `tokens` — all tokens, each before those inside of it and each text once;
* `depth` — how many tokens are open at once, at most;
* `innermost` — those of a list of tokens that hold no other one of the list;
* `isToken` — whether a whole text, up to blanks around it, looks like one token.
-/

namespace Template.Token

/-- The tokens that lie in no other one. `depth` tokens are open, and `taken` holds the characters read since
the outermost of them was opened, the last one first. -/
def outermostFrom (depth : Nat) (taken : List Char) : List Char → List (List Char)
  | '{' :: '{' :: rest => outermostFrom (depth + 1) ('{' :: '{' :: taken) rest
  | '}' :: '}' :: rest =>
    match depth with
    | 0 => outermostFrom 0 [] ('}' :: rest)
    | 1 => ('}' :: '}' :: taken).reverse :: outermostFrom 0 [] rest
    | d + 2 => outermostFrom (d + 1) ('}' :: '}' :: taken) rest
  | c :: rest => outermostFrom depth (if depth = 0 then [] else c :: taken) rest
  | [] => []

/-- The tokens of a text that lie in no other one, in order. -/
def outermost (text : List Char) : List (List Char) :=
  outermostFrom 0 [] text

/-- What stands between the braces of a token. -/
def interior (token : List Char) : List Char :=
  (token.drop 2).dropLast.dropLast

theorem length_le_of_mem_outermostFrom {t : List Char} (depth : Nat) (taken text : List Char)
    (h : t ∈ outermostFrom depth taken text) : t.length ≤ taken.length + text.length := by
  fun_induction outermostFrom depth taken text with
  | case1 depth taken rest ih => have := ih h; simp at this ⊢; omega
  | case2 taken rest ih => have := ih h; simp at this ⊢; omega
  | case3 taken rest ih =>
    rcases List.mem_cons.mp h with h | h
    · subst h; simp
    · have := ih h; simp at this ⊢; omega
  | case4 taken rest d ih => have := ih h; simp at this ⊢; omega
  | case5 depth taken c rest _ _ ih =>
    have := ih h
    split at this <;> simp at this ⊢ <;> omega
  | case6 => simp at h

/-- A token is longer than its interior, and no longer than the text it was found in. -/
theorem length_interior_lt {t text : List Char} (h : t ∈ outermost text) :
    (interior t).length < text.length := by
  have hle := length_le_of_mem_outermostFrom 0 [] text h
  have hpos : text ≠ [] := by rintro rfl; simp [outermost, outermostFrom] at h
  have := List.length_pos_iff.mpr hpos
  simp [interior] at hle ⊢
  omega

/-- Every occurrence of a token, each before those inside of it. -/
def occurrences (text : List Char) : List (List Char) :=
  (outermost text).attach.flatMap fun ⟨token, _⟩ => token :: occurrences (interior token)
termination_by text.length
decreasing_by exact length_interior_lt ‹_›

/-- All tokens of a text, each before those inside of it. A token that occurs again is not repeated. -/
def tokens (text : List Char) : List (List Char) :=
  (occurrences text).eraseDups

theorem occurrences_eq (text : List Char) :
    occurrences text =
      (outermost text).flatMap fun token => token :: occurrences (interior token) := by
  rw [occurrences]
  simp

/-! ## Depth -/

/-- The most tokens open at once in the rest of a text, when `opened` of them are open now and `deepest` were
open at once so far. -/
def depthFrom (opened deepest : Nat) : List Char → Nat
  | '{' :: '{' :: rest => depthFrom (opened + 1) (max deepest (opened + 1)) rest
  | '}' :: '}' :: rest =>
    match opened with
    | 0 => depthFrom 0 deepest ('}' :: rest)
    | d + 1 => depthFrom d deepest rest
  | _ :: rest => depthFrom opened deepest rest
  | [] => deepest

/-- How many tokens are open at once, at most; those that are never closed count as well. -/
def depth (text : List Char) : Nat :=
  depthFrom 0 0 text

/-! ## Selection -/

/-- The tokens of a list that hold no other token of the list. -/
def innermost (all : List (List Char)) : List (List Char) :=
  all.filter fun token => !all.any fun other => other != token && Text.occursIn other token

/-- Whether a text, up to blanks around it, starts with two opening braces, ends with two closing ones and
has at least one character and no line feed between them. -/
def isToken (text : List Char) : Bool :=
  let text := Text.trim text
  5 ≤ text.length && text.take 2 == ['{', '{'] && text.drop (text.length - 2) == ['}', '}'] &&
    !(interior text).contains '\n'

end Template.Token
