import Template.Proofs.Balance

/-!
# `Template.Proofs.Depth` — the depth of any text

The depth of a text is measured in one reading from the left, with a count of the tokens that are open. The
scanner finds the tokens of the same text one in the other. Here the measure is taken along the ways in which a
text is read (`scan_induction`), whatever braces there are in it: a character that opens nothing does not
matter, and a token is one deeper than what it holds.

## Contents
- `depthFrom_max` — what was open before only raises the result.
- `depth_cons`, `depth_token` — the depth of a text, from that of its parts.
- `depth_le_of_mem_tokens` — a text is as deep as every token in it.
-/

namespace Template.Token

open Content (depthFrom_open depthFrom_close)

/-! ## One reading -/

/-- The most tokens open at once so far is carried along. -/
theorem depthFrom_max (opened first second : Nat) (text : List Char) :
    depthFrom opened (max first second) text = max first (depthFrom opened second text) := by
  induction opened, second, text using depthFrom.induct with
  | case1 opened second rest ih =>
    rw [depthFrom_open, depthFrom_open, Nat.max_assoc, ih]
  | case2 second rest ih =>
    rw [depthFrom, depthFrom, ih]
  | case3 second rest opened ih =>
    rw [depthFrom_close, depthFrom_close, ih]
  | case4 opened second c rest hopen hclose ih =>
    rw [depthFrom, depthFrom, ih]
    · exact hopen
    · exact hclose
    · exact hopen
    · exact hclose
  | case5 opened second => rfl

theorem depthFrom_alone (opened deepest : Nat) {c : Char} {rest : List Char} (h : Alone c rest) :
    depthFrom opened deepest (c :: rest) = depthFrom opened deepest rest := by
  rw [depthFrom]
  · intro tail hc hrest
    exact (h _ tail hrest).1 ⟨hc, rfl⟩
  · intro tail hc hrest
    exact (h _ tail hrest).2 ⟨hc, rfl⟩

/-! ## Parts of a text -/

/-- What opens nothing does not matter. -/
theorem depth_cons {c : Char} {rest : List Char} (h : ¬ ∃ tail, c = '{' ∧ rest = '{' :: tail) :
    depth (c :: rest) = depth rest := by
  unfold depth
  rcases alone_or_pair c rest with hc | hopen | ⟨tail, rfl, rfl⟩
  · exact depthFrom_alone 0 0 hc
  · exact absurd hopen h
  · rw [depthFrom]

/-- A token in front, if its interior is read as a whole. -/
theorem depth_token_of {inside : List Char}
    (h : ∀ rest, depthFrom 1 1 (inside ++ '}' :: rest) = depthFrom 1 (max 1 (1 + depth inside)) ('}' :: rest))
    (rest : List Char) : depth (bracket inside ++ rest) = max (depth inside + 1) (depth rest) := by
  have hmax : max 1 (1 + depth inside) = max (depth inside + 1) 0 := by omega
  rw [depth, bracket_append, depthFrom_open, Nat.zero_add, Nat.max_eq_right (Nat.zero_le 1), h,
    depthFrom_close, hmax, depthFrom_max, ← depth]

/-- Inside of a token, balanced text is read as a whole, and the reading is at the same depth behind it. -/
theorem depthFrom_balanced {inside : List Char} (h : Balanced inside) {opened deepest : Nat}
    (hd : opened ≤ deepest) (rest : List Char) :
    depthFrom opened deepest (inside ++ '}' :: rest) =
      depthFrom opened (max deepest (opened + depth inside)) ('}' :: rest) := by
  induction h generalizing opened deepest rest with
  | nil =>
    have hempty : depth [] = 0 := rfl
    rw [List.nil_append, hempty, Nat.add_zero, Nat.max_eq_left hd]
  | @plain c more hc _ ih =>
    have hown : depth (c :: more) = depth more := depthFrom_alone 0 0 hc.of_append
    rw [List.cons_append, depthFrom_alone opened deepest (hc.append rest), ih hd, hown]
  | @token own more _ _ ihOwn ihMore =>
    have hdepth : depth (bracket own ++ more) = max (depth own + 1) (depth more) :=
      depth_token_of (ihOwn (Nat.le_refl 1)) more
    rw [List.append_assoc, bracket_append, depthFrom_open, ihOwn (Nat.le_max_right _ _), depthFrom_close,
      ihMore (by omega), hdepth]
    -- what is left is the depth that the two sides have seen
    congr 1
    omega

/-- **A token is one deeper than what it holds**, and the text behind it adds its own depth. -/
theorem depth_token {inside : List Char} (h : Balanced inside) (rest : List Char) :
    depth (bracket inside ++ rest) = max (depth inside + 1) (depth rest) :=
  depth_token_of (depthFrom_balanced h (Nat.le_refl 1)) rest

theorem depth_token_self {inside : List Char} (h : Balanced inside) :
    depth (bracket inside) = depth inside + 1 := by
  have hdepth := depth_token h []
  have hempty : depth [] = 0 := rfl
  rwa [List.append_nil, hempty, Nat.max_eq_left (Nat.zero_le _)] at hdepth

/-! ## Tokens of a text -/

theorem depth_le_of_mem_occurrences {text token : List Char} (h : token ∈ occurrences text) :
    depth token ≤ depth text := by
  induction text using scan_induction with
  | nil =>
    rw [occurrences_nil] at h
    exact absurd h List.not_mem_nil
  | plain c rest hplain ih =>
    rw [occurrences_cons hplain] at h
    rw [depth_cons hplain]
    exact ih h
  | token inside rest hinside ihInside ihRest =>
    rw [occurrences_bracket hinside] at h
    rw [depth_token hinside]
    rcases List.mem_cons.mp h with rfl | h
    · rw [depth_token_self hinside]
      exact Nat.le_max_left _ _
    · rcases List.mem_append.mp h with h | h
      · have hle := ihInside h
        omega
      · exact Nat.le_trans (ihRest h) (Nat.le_max_right _ _)
  | unclosed rest hunclosed =>
    rw [occurrences_unclosed hunclosed] at h
    exact absurd h List.not_mem_nil

/-- **A text is as deep as every token in it**, at least. -/
theorem depth_le_of_mem_tokens {text token : List Char} (h : token ∈ tokens text) :
    depth token ≤ depth text :=
  depth_le_of_mem_occurrences (List.mem_eraseDups.mp h)

end Template.Token
