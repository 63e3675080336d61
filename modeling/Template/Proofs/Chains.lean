import Mathlib.Order.Bounds.Defs
import Template.Proofs.Depth
import Template.Proofs.Pieces

/-!
# `Template.Proofs.Chains` — the depth of a token is the length of a chain

The depth of a text is counted in one reading, the tokens in it are found by many, since the interior of each is read
anew. The two agree. A text in which everything that is opened is closed is as deep as the deepest of its tokens
(`depth_eq_deepest`). The interior of a token is such a text, so a token is one deeper than the deepest token in it;
and going on to that one, and to the deepest in it, gives a chain of tokens that is as long as the first one is deep.
No chain is longer (`depth_is_chain_length`).

## Contents
- `deepest` — the greatest depth of a token in a text.
- `depth_eq_deepest`, `depth_found` — depths from those of the tokens inside.
- `Chain`, `depth_is_chain_length` — tokens one in the other.
-/

namespace Template.Token

variable {text token : List Char}

/-! ## The deepest token -/

/-- The greatest depth of a token in a text; 0 if there is none. -/
def deepest (text : List Char) : Nat :=
  ((tokens text).map depth).max?.getD 0

theorem deepest_of_tokens_eq_nil (h : tokens text = []) : deepest text = 0 := by
  rw [deepest, h]
  rfl

theorem max?_depths (hne : tokens text ≠ []) : ((tokens text).map depth).max? = some (deepest text) := by
  cases hmax : ((tokens text).map depth).max? with
  | none =>
    rw [List.max?_eq_none_iff, List.map_eq_nil_iff] at hmax
    exact absurd hmax hne
  | some d => rw [deepest, hmax, Option.getD_some]

theorem exists_deepest (hne : tokens text ≠ []) : ∃ token ∈ tokens text, depth token = deepest text :=
  List.mem_map.mp (List.max?_mem (max?_depths hne))

theorem depth_le_deepest (h : token ∈ tokens text) : depth token ≤ deepest text :=
  (List.max?_eq_some_iff.mp (max?_depths (List.ne_nil_of_mem h))).2 _ (List.mem_map_of_mem h)

/-- **A text in which everything is closed is as deep as one of its tokens**, unless it holds none. -/
theorem exists_occurrence_of_depth (hopen : leftOpen text = 0) (hd : depth text ≠ 0) :
    ∃ token ∈ occurrences text, depth token = depth text := by
  induction text using scan_induction with
  | nil => exact absurd rfl hd
  | plain c rest hplain ih =>
    rw [leftOpen_cons hplain] at hopen
    rw [depth_cons hplain] at hd ⊢
    rw [occurrences_cons hplain]
    exact ih hopen hd
  | token inside rest hinside _ ihRest =>
    rw [leftOpen_bracket hinside] at hopen
    rw [occurrences_bracket hinside, depth_token hinside]
    -- the deepest token is the one in front, or one behind it
    by_cases hle : depth rest ≤ depth inside + 1
    · refine ⟨bracket inside, List.mem_cons_self, ?_⟩
      rw [depth_token_self hinside, Nat.max_eq_left hle]
    · obtain ⟨token, htoken, hdepth⟩ := ihRest hopen (by omega)
      refine ⟨token, List.mem_cons_of_mem _ (List.mem_append_right _ htoken), ?_⟩
      omega
  | unclosed rest hunclosed => exact absurd hopen (leftOpen_unclosed_ne hunclosed)

/-- A token is at least one deep. -/
theorem depth_pos_of_mem (h : token ∈ tokens text) : 0 < depth token := by
  obtain ⟨inside, hinside, rfl, -⟩ := exists_balanced_of_mem_tokens h
  rw [depth_token_self hinside]
  exact Nat.succ_pos _

theorem exists_token_of_depth (hopen : leftOpen text = 0) (hne : tokens text ≠ []) :
    ∃ token ∈ tokens text, depth token = depth text := by
  obtain ⟨first, hfirst⟩ := List.exists_mem_of_ne_nil _ hne
  have hpos := depth_pos_of_mem hfirst
  have hle := depth_le_of_mem_tokens hfirst
  obtain ⟨token, htoken, hdepth⟩ := exists_occurrence_of_depth hopen (by omega)
  exact ⟨token, List.mem_eraseDups.mpr htoken, hdepth⟩

/-- **A text in which everything is closed is as deep as its deepest token.** -/
theorem depth_eq_deepest (hopen : leftOpen text = 0) : depth text = deepest text := by
  by_cases hne : tokens text = []
  · rw [deepest_of_tokens_eq_nil hne]
    rcases Nat.eq_zero_or_pos (depth text) with hzero | hpos
    · exact hzero
    · obtain ⟨token, htoken, -⟩ := exists_occurrence_of_depth hopen (Nat.ne_of_gt hpos)
      rw [← List.mem_eraseDups, ← tokens, hne] at htoken
      cases htoken
  · obtain ⟨token, htoken, hdepth⟩ := exists_token_of_depth hopen hne
    obtain ⟨other, hother, hdeepest⟩ := exists_deepest hne
    have hle := depth_le_of_mem_tokens hother
    have hle' := depth_le_deepest htoken
    omega

/-- A token is one deeper than the deepest token in it. -/
theorem depth_found (h : token ∈ tokens text) : depth token = 1 + deepest (interior token) := by
  obtain ⟨inside, hinside, rfl, -⟩ := exists_balanced_of_mem_tokens h
  rw [depth_token_self hinside, interior_bracket, depth_eq_deepest (leftOpen_balanced hinside), Nat.add_comm]

/-! ## Chains -/

/-- `Chain token inner`: each token of the row `inner` is found inside of the one before it, and the first of them
inside of `token`. -/
inductive Chain : List Char → List (List Char) → Prop where
  | last (token : List Char) : Chain token []
  | holds {token next : List Char} {inner : List (List Char)} (hnext : next ∈ tokens (interior token))
      (h : Chain next inner) : Chain token (next :: inner)

/-- What is found inside of a token is found in the text, and is less deep. -/
theorem mem_and_depth_lt_of_interior (h : token ∈ tokens text) {next : List Char}
    (hnext : next ∈ tokens (interior token)) : next ∈ tokens text ∧ depth next < depth token := by
  obtain ⟨inside, hinside, rfl, hall⟩ := exists_balanced_of_mem_tokens h
  rw [interior_bracket] at hnext
  constructor
  · apply hall
    rw [tokens_bracket_self hinside]
    exact List.mem_cons_of_mem _ hnext
  · rw [depth_token_self hinside]
    exact Nat.lt_succ_of_le (depth_le_of_mem_tokens hnext)

theorem Chain.mem {inner : List (List Char)} (hchain : Chain token inner) (h : token ∈ tokens text) :
    ∀ other ∈ inner, other ∈ tokens text := by
  induction hchain with
  | last token => simp
  | holds hnext _ ih =>
    have hmem := (mem_and_depth_lt_of_interior h hnext).1
    rw [List.forall_mem_cons]
    exact ⟨hmem, ih hmem⟩

/-- No chain is longer than its first token is deep. -/
theorem Chain.length_le {inner : List (List Char)} (hchain : Chain token inner) (h : token ∈ tokens text) :
    inner.length + 1 ≤ depth token := by
  induction hchain with
  | last token => exact depth_pos_of_mem h
  | holds hnext _ ih =>
    obtain ⟨hmem, hlt⟩ := mem_and_depth_lt_of_interior h hnext
    have hle := ih hmem
    rw [List.length_cons]
    omega

/-- Going on to a deepest token as long as there is one gives a chain as long as the first token is deep. -/
theorem exists_chain (h : token ∈ tokens text) : ∃ inner, Chain token inner ∧ inner.length + 1 = depth token := by
  -- the next token is the deepest in this one, so the induction is on the depth and not on the text
  induction hd : depth token generalizing token with
  | zero => exact absurd hd (Nat.ne_of_gt (depth_pos_of_mem h))
  | succ n ih =>
    have hfound := depth_found h
    by_cases hne : tokens (interior token) = []
    · rw [deepest_of_tokens_eq_nil hne] at hfound
      refine ⟨[], .last token, ?_⟩
      rw [List.length_nil]
      omega
    · obtain ⟨next, hnext, hdeepest⟩ := exists_deepest hne
      obtain ⟨inner, hchain, hlength⟩ := ih (mem_and_depth_lt_of_interior h hnext).1 (by omega)
      refine ⟨next :: inner, .holds hnext hchain, ?_⟩
      rw [List.length_cons, hlength]

/-! ## Depth and chains -/

/-- **The depth of a token is the length of the longest chain** of tokens that starts with it: it is one more than the
greatest depth of a token inside of it. A text is at least as deep as every token in it; and if it holds tokens, and
everything that is opened in it is closed, it is as deep as one of them. -/
theorem depth_is_chain_length (text : List Char) :
    (∀ token ∈ tokens text,
      depth token = 1 + deepest (interior token) ∧
      IsGreatest {n | ∃ inner, Chain token inner ∧ (∀ other ∈ inner, other ∈ tokens text) ∧ n = inner.length + 1}
        (depth token) ∧
      depth token ≤ depth text) ∧
    (tokens text ≠ [] → leftOpen text = 0 → ∃ token ∈ tokens text, depth token = depth text) := by
  refine ⟨?_, fun hne hopen => exists_token_of_depth hopen hne⟩
  intro token htoken
  refine ⟨depth_found htoken, ⟨?_, ?_⟩, depth_le_of_mem_tokens htoken⟩
  · obtain ⟨inner, hchain, hlength⟩ := exists_chain htoken
    exact ⟨inner, hchain, hchain.mem htoken, hlength.symm⟩
  · rintro n ⟨inner, hchain, -, rfl⟩
    exact hchain.length_le htoken

/-- A text with a token behind two stray braces, which holds two tokens, one of which holds a third. -/
theorem depth_is_chain_length_nested :
    let text := "\x7d\x7d\x7b\x7ba:\x7b\x7bb:c\x7d\x7d\x7b\x7bd:\x7b\x7be:f\x7d\x7d\x7d\x7d\x7d\x7d".toList
    let token := "\x7b\x7bd:\x7b\x7be:f\x7d\x7d\x7d\x7d".toList
    token ∈ tokens text ∧ depth token = 1 + deepest (interior token) ∧ leftOpen text = 0 ∧ depth text = 3 ∧
      ∃ other ∈ tokens text, depth other = depth text := by
  intro text token
  have htoken : token ∈ tokens text := by decide +kernel
  have hopen : leftOpen text = 0 := by decide
  obtain ⟨hchains, hdeepest⟩ := depth_is_chain_length text
  exact ⟨htoken, (hchains token htoken).1, hopen, by decide, hdeepest (List.ne_nil_of_mem htoken) hopen⟩

end Template.Token
