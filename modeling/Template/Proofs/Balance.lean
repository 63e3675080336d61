import Template.Proofs.Content

/-!
# `Template.Proofs.Balance` — how a text is read, token by token

The scanner looks for outermost tokens, and then reads the interior of each anew, with nothing open. A pair of
braces might be taken differently by a reading that starts elsewhere. It is not, since the interior of a token
is **balanced**: any reading that has come to its start comes to its end with the same pairs open.

Every text is thus read in one of four ways (`scan_induction`), whatever braces there are in it: it is empty,
or starts with a character that opens nothing, with a token, or with an opening pair that is never closed. What
the scanner finds is given by one equation for each of them.

## Contents
- `Balanced`, `Unclosed` — texts between the braces of a token, and behind a pair that is never closed.
- `scan_induction` — the four ways in which a text is read.
- `occurrences_cons`, `occurrences_bracket`, `occurrences_unclosed` — what the scanner finds in each of them.
- `exists_balanced_of_mem`, `tokens_bracket_self` — tokens in tokens.
- `tokens_framed` — text without braces around a text.
-/

namespace Template.Token

/-! ## Balanced texts -/

/-- Neither brace of a pair: with what follows, the character makes up no pair of braces. -/
def Alone (c : Char) (rest : List Char) : Prop :=
  ∀ d tail, rest = d :: tail → ¬ (c = '{' ∧ d = '{') ∧ ¬ (c = '}' ∧ d = '}')

/-- A text that may stand between the braces of a token. A closing brace in it is followed by something else
than a brace, since at the end of the text it would pair up with the closing brace of the token. -/
inductive Balanced : List Char → Prop where
  | nil : Balanced []
  | plain {c : Char} {rest : List Char} (hc : Alone c (rest ++ ['}'])) (h : Balanced rest) :
      Balanced (c :: rest)
  | token {inside rest : List Char} (hi : Balanced inside) (h : Balanced rest) :
      Balanced (bracket inside ++ rest)

/-- A text behind an opening pair that is not closed in it. -/
inductive Unclosed : List Char → Prop where
  | nil : Unclosed []
  | plain {c : Char} {rest : List Char} (hc : Alone c rest) (h : Unclosed rest) : Unclosed (c :: rest)
  | token {inside rest : List Char} (hi : Balanced inside) (h : Unclosed rest) :
      Unclosed (bracket inside ++ rest)
  | opening {rest : List Char} (h : Unclosed rest) : Unclosed ('{' :: '{' :: rest)

/-- Of what follows, only the first character matters. -/
theorem Alone.append {c d : Char} {rest : List Char} (h : Alone c (rest ++ [d])) (tail : List Char) :
    Alone c (rest ++ d :: tail) := by
  intro e more he
  cases rest with
  | nil => exact h e [] (by simp_all)
  | cons first rest => exact h e (rest ++ [d]) (by simp_all)

theorem Alone.of_append {c : Char} {rest tail : List Char} (h : Alone c (rest ++ tail)) :
    Alone c rest := by
  intro d more he
  exact h d (more ++ tail) (by rw [he, List.cons_append])

theorem alone_of_notBrace {c : Char} (h : c ≠ '{' ∧ c ≠ '}') (rest : List Char) : Alone c rest :=
  fun _ _ _ => ⟨fun hopen => h.1 hopen.1, fun hclose => h.2 hclose.1⟩

/-- A character that a reading takes for neither brace of a pair stands alone. -/
theorem Alone.of_not_pair {c : Char} {rest : List Char} (hopen : ∀ tail, c = '{' → rest = '{' :: tail → False)
    (hclose : ∀ tail, c = '}' → rest = '}' :: tail → False) : Alone c rest := by
  intro d tail hrest
  refine ⟨?_, ?_⟩
  · rintro ⟨rfl, rfl⟩
    exact hopen tail rfl hrest
  · rintro ⟨rfl, rfl⟩
    exact hclose tail rfl hrest

theorem Alone.not_opening {c : Char} {rest : List Char} (h : Alone c rest) :
    ¬ ∃ tail, c = '{' ∧ rest = '{' :: tail := by
  rintro ⟨tail, hc, hrest⟩
  exact (h _ tail hrest).1 ⟨hc, rfl⟩

/-- With what follows, a character stands alone, or opens, or closes. -/
theorem alone_or_pair (c : Char) (rest : List Char) :
    Alone c rest ∨ (∃ tail, c = '{' ∧ rest = '{' :: tail) ∨ ∃ tail, c = '}' ∧ rest = '}' :: tail := by
  cases rest with
  | nil =>
    left
    intro d tail he
    cases he
  | cons d tail =>
    by_cases hopen : c = '{' ∧ d = '{'
    · exact .inr (.inl ⟨tail, hopen.1, by rw [hopen.2]⟩)
    · by_cases hclose : c = '}' ∧ d = '}'
      · exact .inr (.inr ⟨tail, hclose.1, by rw [hclose.2]⟩)
      · left
        intro e more he
        cases he
        exact ⟨hopen, hclose⟩

/-- Behind an opening pair, a text goes on to the closing pair, or there is none. -/
theorem balanced_or_unclosed (text : List Char) :
    (∃ inside rest, Balanced inside ∧ text = inside ++ '}' :: '}' :: rest) ∨ Unclosed text := by
  match text with
  | [] => exact .inr .nil
  | c :: text =>
    rcases alone_or_pair c text with hc | ⟨tail, rfl, rfl⟩ | ⟨tail, rfl, rfl⟩
    · rcases balanced_or_unclosed text with ⟨inside, rest, hinside, rfl⟩ | hopen
      · have hsplit : inside ++ '}' :: '}' :: rest = (inside ++ ['}']) ++ '}' :: rest := by simp
        rw [hsplit] at hc
        exact .inl ⟨c :: inside, rest, .plain hc.of_append hinside, rfl⟩
      · exact .inr (.plain hc hopen)
    · -- another pair is opened: either it is closed and the text goes on behind it, or none is
      rcases balanced_or_unclosed tail with ⟨inside, rest, hinside, rfl⟩ | hopen
      · have hshort : rest.length < (inside ++ '}' :: '}' :: rest).length := by simp; omega
        rcases balanced_or_unclosed rest with ⟨inside', rest', hinside', rfl⟩ | hopen
        · refine .inl ⟨bracket inside ++ inside', rest', .token hinside hinside', ?_⟩
          simp [bracket]
        · right
          rw [← bracket_append]
          exact .token hinside hopen
      · exact .inr (.opening hopen)
    · exact .inl ⟨[], tail, .nil, rfl⟩
termination_by text.length

/-- **Every text is read in one of four ways**: it is empty, starts with a character that opens nothing, with
    a token, or with an opening pair that is not closed. -/
theorem scan_induction {P : List Char → Prop} (nil : P [])
    (plain : ∀ c rest, ¬ (∃ tail, c = '{' ∧ rest = '{' :: tail) → P rest → P (c :: rest))
    (token : ∀ inside rest, Balanced inside → P inside → P rest → P (bracket inside ++ rest))
    (unclosed : ∀ rest, Unclosed rest → P ('{' :: '{' :: rest)) (text : List Char) : P text := by
  match text with
  | [] => exact nil
  | c :: text =>
    by_cases hopen : ∃ tail, c = '{' ∧ text = '{' :: tail
    · obtain ⟨tail, rfl, rfl⟩ := hopen
      rcases balanced_or_unclosed tail with ⟨inside, rest, hinside, rfl⟩ | hopen
      · have hshort : inside.length < (inside ++ '}' :: '}' :: rest).length := by simp
        have hshort' : rest.length < (inside ++ '}' :: '}' :: rest).length := by simp; omega
        rw [← bracket_append]
        exact token inside rest hinside (scan_induction nil plain token unclosed inside)
          (scan_induction nil plain token unclosed rest)
      · exact unclosed tail hopen
    · exact plain c text hopen (scan_induction nil plain token unclosed text)
termination_by text.length

/-! ## The scanner -/

theorem outermostFrom_alone (opened : Nat) (taken : List Char) {c : Char} {rest : List Char}
    (h : Alone c rest) :
    outermostFrom (opened + 1) taken (c :: rest) = outermostFrom (opened + 1) (c :: taken) rest := by
  rw [outermostFrom]
  · rw [if_neg (Nat.succ_ne_zero opened)]
  · intro tail hc hrest
    exact (h _ tail hrest).1 ⟨hc, rfl⟩
  · intro tail hc hrest
    exact (h _ tail hrest).2 ⟨hc, rfl⟩

/-- With nothing open, whatever does not open is passed over. -/
theorem outermost_cons {c : Char} {rest : List Char} (h : ¬ ∃ tail, c = '{' ∧ rest = '{' :: tail) :
    outermost (c :: rest) = outermost rest := by
  unfold outermost
  rcases alone_or_pair c rest with hc | hopen | ⟨tail, rfl, rfl⟩
  · rw [outermostFrom]
    · rw [if_pos rfl]
    · intro tail hopen hrest
      exact (hc _ tail hrest).1 ⟨hopen, rfl⟩
    · intro tail hclose hrest
      exact (hc _ tail hrest).2 ⟨hclose, rfl⟩
  · exact absurd hopen h
  · rw [outermostFrom]

/-- The scanner takes balanced text as a whole. -/
theorem outermostFrom_balanced {inside : List Char} (h : Balanced inside) (opened : Nat)
    (taken rest : List Char) :
    outermostFrom (opened + 1) taken (inside ++ '}' :: rest) =
      outermostFrom (opened + 1) (inside.reverse ++ taken) ('}' :: rest) := by
  induction h generalizing opened taken rest with
  | nil => rfl
  | plain hc _ ih =>
    rw [List.cons_append, outermostFrom_alone opened taken (hc.append rest), ih]
    simp
  | token _ _ ihInside ihRest =>
    rw [List.append_assoc, bracket_append, outermostFrom_open, ihInside, outermostFrom_close, ihRest]
    simp [bracket]

theorem outermost_bracket {inside : List Char} (h : Balanced inside) (rest : List Char) :
    outermost (bracket inside ++ rest) = bracket inside :: outermost rest := by
  unfold outermost
  rw [bracket_append, outermostFrom_open, outermostFrom_balanced h, outermostFrom_close_last]
  simp [bracket]

/-- Behind an opening pair that is not closed the scanner finds nothing. -/
theorem outermostFrom_unclosed {text : List Char} (h : Unclosed text) (opened : Nat) (taken : List Char) :
    outermostFrom (opened + 1) taken text = [] := by
  induction h generalizing opened taken with
  | nil => rfl
  | plain hc _ ih => rw [outermostFrom_alone opened taken hc, ih]
  | token hinside _ ih =>
    rw [bracket_append, outermostFrom_open, outermostFrom_balanced hinside, outermostFrom_close, ih]
  | opening _ ih => rw [outermostFrom_open, ih]

theorem occurrences_nil : occurrences [] = [] := by
  rw [occurrences_eq]
  rfl

theorem occurrences_cons {c : Char} {rest : List Char} (h : ¬ ∃ tail, c = '{' ∧ rest = '{' :: tail) :
    occurrences (c :: rest) = occurrences rest := by
  rw [occurrences_eq, outermost_cons h, ← occurrences_eq]

theorem occurrences_bracket {inside : List Char} (h : Balanced inside) (rest : List Char) :
    occurrences (bracket inside ++ rest) = bracket inside :: (occurrences inside ++ occurrences rest) := by
  rw [occurrences_eq, outermost_bracket h, List.flatMap_cons, interior_bracket, ← occurrences_eq,
    List.cons_append]

theorem occurrences_unclosed {rest : List Char} (h : Unclosed rest) :
    occurrences ('{' :: '{' :: rest) = [] := by
  rw [occurrences_eq, outermost, outermostFrom_open, outermostFrom_unclosed h]
  rfl

/-! ## Tokens in tokens -/

theorem occurrences_bracket_self {inside : List Char} (h : Balanced inside) :
    occurrences (bracket inside) = bracket inside :: occurrences inside := by
  have hocc := occurrences_bracket h []
  rwa [occurrences_nil, List.append_nil, List.append_nil] at hocc

/-- A token that is found holds balanced text, and the tokens in it are found as well. -/
theorem exists_balanced_of_mem {text token : List Char} (h : token ∈ occurrences text) :
    ∃ inside, Balanced inside ∧ token = bracket inside ∧
      ∀ inner ∈ occurrences token, inner ∈ occurrences text := by
  induction text using scan_induction generalizing token with
  | nil =>
    rw [occurrences_nil] at h
    exact absurd h List.not_mem_nil
  | plain c rest hplain ih =>
    rw [occurrences_cons hplain] at h ⊢
    exact ih h
  | token inside rest hinside ihInside ihRest =>
    rw [occurrences_bracket hinside] at h ⊢
    rcases List.mem_cons.mp h with rfl | h
    · refine ⟨inside, hinside, rfl, ?_⟩
      intro inner hinner
      rw [occurrences_bracket_self hinside] at hinner
      rw [← List.cons_append]
      exact List.mem_append_left _ hinner
    · rcases List.mem_append.mp h with h | h
      · obtain ⟨own, hown, heq, hall⟩ := ihInside h
        refine ⟨own, hown, heq, ?_⟩
        intro inner hinner
        exact List.mem_cons_of_mem _ (List.mem_append_left _ (hall inner hinner))
      · obtain ⟨own, hown, heq, hall⟩ := ihRest h
        refine ⟨own, hown, heq, ?_⟩
        intro inner hinner
        exact List.mem_cons_of_mem _ (List.mem_append_right _ (hall inner hinner))
  | unclosed rest hunclosed =>
    rw [occurrences_unclosed hunclosed] at h
    exact absurd h List.not_mem_nil

theorem exists_balanced_of_mem_tokens {text token : List Char} (h : token ∈ tokens text) :
    ∃ inside, Balanced inside ∧ token = bracket inside ∧ ∀ inner ∈ tokens token, inner ∈ tokens text := by
  rw [tokens, List.mem_eraseDups] at h
  obtain ⟨inside, hinside, htoken, hall⟩ := exists_balanced_of_mem h
  refine ⟨inside, hinside, htoken, ?_⟩
  intro inner hinner
  rw [tokens, List.mem_eraseDups] at hinner ⊢
  exact hall inner hinner

theorem length_le_of_mem_occurrences {text token : List Char} (h : token ∈ occurrences text) :
    token.length ≤ text.length := by
  induction text using scan_induction generalizing token with
  | nil =>
    rw [occurrences_nil] at h
    exact absurd h List.not_mem_nil
  | plain c rest hplain ih =>
    rw [occurrences_cons hplain] at h
    exact Nat.le_succ_of_le (ih h)
  | token inside rest hinside ihInside ihRest =>
    rw [occurrences_bracket hinside] at h
    rw [List.length_append]
    rcases List.mem_cons.mp h with rfl | h
    · exact Nat.le_add_right _ _
    · have hlength := length_bracket inside
      rcases List.mem_append.mp h with h | h
      · have hle := ihInside h
        omega
      · have hle := ihRest h
        omega
  | unclosed rest hunclosed =>
    rw [occurrences_unclosed hunclosed] at h
    exact absurd h List.not_mem_nil

/-- The tokens of a token are itself and those in its interior. -/
theorem tokens_bracket_self {inside : List Char} (h : Balanced inside) :
    tokens (bracket inside) = bracket inside :: tokens inside := by
  have hother : ∀ inner ∈ occurrences inside, (!inner == bracket inside) = true := by
    intro inner hinner
    have hle := length_le_of_mem_occurrences hinner
    rw [Bool.not_eq_true', beq_eq_false_iff_ne]
    intro heq
    rw [heq, length_bracket] at hle
    omega
  rw [tokens, occurrences_bracket_self h, List.eraseDups_cons, List.filter_eq_self.mpr hother, tokens]

/-! ## Text without braces around a text -/

section

variable {before behind : List Char}

/-- A character makes up a pair with the next one only, and not across the seam. -/
theorem Alone.append_braceless {c : Char} {rest : List Char} (h : Alone c rest) (hb : Braceless behind) :
    Alone c (rest ++ behind) := by
  intro d tail he
  cases rest with
  | nil =>
    have hd : d ≠ '{' ∧ d ≠ '}' := hb d (by rw [show behind = d :: tail from he]; exact List.mem_cons_self)
    exact ⟨fun hopen => hd.1 hopen.2, fun hclose => hd.2 hclose.2⟩
  | cons first rest =>
    obtain ⟨rfl, -⟩ := List.cons.inj he
    exact h first rest rfl

theorem unclosed_of_braceless (hb : Braceless behind) : Unclosed behind := by
  induction behind with
  | nil => exact .nil
  | cons c rest ih =>
    obtain ⟨hc, hrest⟩ := braceless_cons.mp hb
    exact .plain (alone_of_notBrace hc rest) (ih hrest)

theorem balanced_of_braceless (hb : Braceless behind) : Balanced behind := by
  induction behind with
  | nil => exact .nil
  | cons c rest ih =>
    obtain ⟨hc, hrest⟩ := braceless_cons.mp hb
    exact .plain (alone_of_notBrace hc _) (ih hrest)

/-- What is open at the seam is not closed behind it. -/
theorem Unclosed.append_braceless {text : List Char} (h : Unclosed text) (hb : Braceless behind) :
    Unclosed (text ++ behind) := by
  induction h with
  | nil => exact unclosed_of_braceless hb
  | plain hc _ ih => exact .plain (hc.append_braceless hb) ih
  | token hinside _ ih =>
    rw [List.append_assoc]
    exact .token hinside ih
  | opening _ ih => exact .opening ih

theorem occurrences_braceless_append (hb : Braceless before) (text : List Char) :
    occurrences (before ++ text) = occurrences text := by
  induction before with
  | nil => rfl
  | cons c rest ih =>
    obtain ⟨hc, hrest⟩ := braceless_cons.mp hb
    rw [List.cons_append, occurrences_cons (alone_of_notBrace hc _).not_opening]
    exact ih hrest

/-- Nothing behind a text adds to its tokens, in whichever way the text is read. -/
theorem occurrences_append_braceless (text : List Char) (hb : Braceless behind) :
    occurrences (text ++ behind) = occurrences text := by
  induction text using scan_induction with
  | nil =>
    have hnone := occurrences_braceless_append hb []
    rwa [List.append_nil] at hnone
  | plain c rest hplain ih =>
    have hplain' : ¬ ∃ tail, c = '{' ∧ rest ++ behind = '{' :: tail := by
      rintro ⟨tail, hc, he⟩
      cases rest with
      | nil => exact (hb '{' (by rw [show behind = '{' :: tail from he]; exact List.mem_cons_self)).1 rfl
      | cons first rest => exact hplain ⟨rest, hc, by rw [(List.cons.inj he).1]⟩
    rw [List.cons_append, occurrences_cons hplain', occurrences_cons hplain, ih]
  | token inside rest hinside _ ih =>
    rw [List.append_assoc, occurrences_bracket hinside, occurrences_bracket hinside, ih]
  | unclosed rest hunclosed =>
    rw [occurrences_unclosed hunclosed]
    exact occurrences_unclosed (hunclosed.append_braceless hb)

/-- **The tokens of a framed text are those of the text**, whatever braces there are in it. -/
theorem tokens_framed (hp : Braceless before) (hq : Braceless behind) (text : List Char) :
    tokens (before ++ text ++ behind) = tokens text := by
  rw [tokens, occurrences_append_braceless _ hq, occurrences_braceless_append hp, ← tokens]

end

end Template.Token
