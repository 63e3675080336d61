import Template.Proofs.Search
import Template.Token.Scan

/-!
# `Template.Proofs.Content` — texts written with nested tokens

The **content** of a text is a row of literal stretches and tokens, and between the braces of a token stands
content again. Separators belong to the literal stretches: `\{\{a:\{\{b:c\}\}|d\}\}` is a token whose content
is the stretch `a:`, a token with the content `b:c`, and the stretch `|d`. Content is well-formed if no
literal stretch holds a brace.

The scanner sees in a written text exactly the tokens of its content (`occurrences_render`), the tokens that
hold no other are those without a nested token (`mem_innermost_render`), and replacing such a token in the
text is replacing it in the content (`replaceAll_render`).
-/

namespace Template.Token

/-- A text between the braces of a token. -/
def bracket (inside : List Char) : List Char :=
  '{' :: '{' :: (inside ++ ['}', '}'])

/-- What stands in a text, or between the braces of a token. -/
inductive Content where
  /-- Nothing more. -/
  | empty
  /-- A literal stretch, and what follows. -/
  | text (chars : List Char) (rest : Content)
  /-- A token with the content between its braces, and what follows. -/
  | token (inside rest : Content)

/-- A text without braces. -/
def Braceless (chars : List Char) : Prop :=
  ∀ c ∈ chars, c ≠ '{' ∧ c ≠ '}'

instance (chars : List Char) : Decidable (Braceless chars) :=
  decidable_of_iff (chars.all fun c => c != '{' && c != '}') (by simp [Braceless])

namespace Content

/-- The text that content is written as. -/
def render : Content → List Char
  | empty => []
  | text chars rest => chars ++ rest.render
  | token inside rest => bracket inside.render ++ rest.render

/-- The literal stretches hold no braces. -/
def WellFormed : Content → Prop
  | empty => True
  | text chars rest => Braceless chars ∧ rest.WellFormed
  | token inside rest => inside.WellFormed ∧ rest.WellFormed

/-- How deeply tokens are nested. -/
def depth : Content → Nat
  | empty => 0
  | text _ rest => rest.depth
  | token inside rest => max (inside.depth + 1) rest.depth

/-- Whether there is no token. -/
def isFlat : Content → Bool
  | empty => true
  | text _ rest => rest.isFlat
  | token _ _ => false

/-- The texts of all tokens, each before those inside of it. -/
def tokens : Content → List (List Char)
  | empty => []
  | text _ rest => rest.tokens
  | token inside rest => bracket inside.render :: (inside.tokens ++ rest.tokens)

/-- The texts of the tokens without a nested token. -/
def flats : Content → List (List Char)
  | empty => []
  | text _ rest => rest.flats
  | token inside rest =>
    if inside.isFlat then bracket inside.render :: rest.flats else inside.flats ++ rest.flats

/-- The content with a token that has no nested token replaced by a literal stretch, wherever it stands. -/
def replace (target new : List Char) : Content → Content
  | empty => empty
  | text chars rest => text chars (rest.replace target new)
  | token inside rest =>
    if inside.isFlat && bracket inside.render == target then text new (rest.replace target new)
    else token (inside.replace target new) (rest.replace target new)

end Content

/-! ## Texts without braces -/

theorem braceless_append {a b : List Char} : Braceless (a ++ b) ↔ Braceless a ∧ Braceless b := by
  unfold Braceless
  constructor
  · intro h
    exact ⟨fun c hc => h c (List.mem_append_left b hc), fun c hc => h c (List.mem_append_right a hc)⟩
  · rintro ⟨ha, hb⟩ c hc
    rcases List.mem_append.mp hc with hc | hc
    · exact ha c hc
    · exact hb c hc

theorem braceless_cons {c : Char} {chars : List Char} :
    Braceless (c :: chars) ↔ (c ≠ '{' ∧ c ≠ '}') ∧ Braceless chars :=
  List.forall_mem_cons

theorem Braceless.count_open {chars : List Char} (h : Braceless chars) : chars.count '{' = 0 :=
  List.count_eq_zero.mpr fun hc => (h _ hc).1 rfl

theorem Braceless.count_close {chars : List Char} (h : Braceless chars) : chars.count '}' = 0 :=
  List.count_eq_zero.mpr fun hc => (h _ hc).2 rfl

theorem braceless_of_blank {chars : List Char} (h : chars.all Text.isBlank) : Braceless chars := by
  intro c hc
  have hblank := List.all_eq_true.mp h c hc
  constructor
  · rintro rfl
    exact absurd hblank (by decide)
  · rintro rfl
    exact absurd hblank (by decide)

theorem interior_bracket (inside : List Char) : interior (bracket inside) = inside := by
  unfold interior bracket
  rw [List.drop_succ_cons, List.drop_succ_cons, List.drop_zero,
    show inside ++ ['}', '}'] = (inside ++ ['}']) ++ ['}'] by simp, List.dropLast_concat,
    List.dropLast_concat]

theorem bracket_inj {a b : List Char} : bracket a = bracket b ↔ a = b :=
  ⟨fun h => by rw [← interior_bracket a, h, interior_bracket], fun h => h ▸ rfl⟩

theorem bracket_append (inside rest : List Char) :
    bracket inside ++ rest = '{' :: '{' :: (inside ++ '}' :: '}' :: rest) := by
  simp [bracket]

theorem count_open_bracket (inside : List Char) :
    (bracket inside).count '{' = inside.count '{' + 2 := by
  simp [bracket]

theorem count_close_bracket (inside : List Char) :
    (bracket inside).count '}' = inside.count '}' + 2 := by
  simp [bracket]

theorem length_bracket (inside : List Char) : (bracket inside).length = inside.length + 4 := by
  simp [bracket]

/-- A token is trimmed already. -/
theorem trim_bracket (inside : List Char) : Text.trim (bracket inside) = bracket inside := by
  have h : bracket inside = '{' :: (('{' :: inside ++ ['}']) ++ ['}']) := by simp [bracket]
  rw [h, Text.trim_of_ends (by decide) (by decide)]

theorem isToken_congr {a b : List Char} (h : Text.trim a = Text.trim b) : isToken a = isToken b := by
  unfold isToken
  rw [h]

/-- Between the braces of a token stands something, on one line. -/
theorem isToken_bracket (inside : List Char) :
    isToken (bracket inside) = true ↔ inside ≠ [] ∧ '\n' ∉ inside := by
  have hdrop : (bracket inside).drop (inside.length + 4 - 2) = ['}', '}'] := by
    rw [bracket, show inside.length + 4 - 2 = inside.length + 2 by omega, List.drop_succ_cons,
      List.drop_succ_cons, List.drop_left]
  have htake : (bracket inside).take 2 = ['{', '{'] := rfl
  unfold isToken
  rw [trim_bracket]
  dsimp only
  rw [length_bracket, hdrop, htake, interior_bracket]
  cases inside with
  | nil => simp
  | cons c inside => simp

/-- What looks like a token has braces around, but for blanks. -/
theorem exists_inside_of_isToken {text : List Char} (h : isToken text = true) :
    ∃ inside, Text.trim text = bracket inside := by
  unfold isToken at h
  dsimp only at h
  rw [Bool.and_eq_true, Bool.and_eq_true, Bool.and_eq_true, beq_iff_eq, beq_iff_eq, decide_eq_true_eq] at h
  obtain ⟨⟨⟨hlength, hopen⟩, hclose⟩, -⟩ := h
  have hbehind : (Text.trim text).drop 2 =
      ((Text.trim text).drop 2).take ((Text.trim text).length - 4) ++ ['}', '}'] := by
    have hdrop : ((Text.trim text).drop 2).drop ((Text.trim text).length - 4) = ['}', '}'] := by
      rw [List.drop_drop, show 2 + ((Text.trim text).length - 4) = (Text.trim text).length - 2 by omega, hclose]
    rw [← hdrop, List.take_append_drop]
  refine ⟨((Text.trim text).drop 2).take ((Text.trim text).length - 4), ?_⟩
  rw [bracket, ← hbehind]
  have hsplit := List.take_append_drop 2 (Text.trim text)
  rw [hopen] at hsplit
  exact hsplit.symm

/-- **A token without nested tokens holds no token but itself.** Braces are counted: an occurrence uses up
    all that there are, so nothing can stand in front of it or behind it. -/
theorem eq_of_infix_bracket {inner outer : List Char} (ho : Braceless outer)
    (h : bracket inner <:+: bracket outer) : inner = outer := by
  obtain ⟨before, after, h⟩ := h
  have hopen := congrArg (List.count '{') h
  have hclose := congrArg (List.count '}') h
  rw [List.count_append, List.count_append, count_open_bracket, count_open_bracket, ho.count_open]
    at hopen
  rw [List.count_append, List.count_append, count_close_bracket, count_close_bracket, ho.count_close]
    at hclose
  have hbefore : before = [] := by
    cases before with
    | nil => rfl
    | cons c before =>
      have hc : c = '{' := by simpa [bracket] using congrArg List.head? h
      rw [hc, List.count_cons_self] at hopen
      omega
  have hafter : after = [] := by
    rcases List.eq_nil_or_concat after with hnil | ⟨after', c, rfl⟩
    · exact hnil
    · have hc : c = '}' := by
        have hlast := congrArg List.getLast? h
        simpa [bracket, List.getLast?_append, List.getLast?_cons] using hlast
      rw [hc, List.concat_eq_append, List.count_append, List.count_singleton_self] at hclose
      omega
  rw [hbefore, hafter, List.nil_append, List.append_nil] at h
  exact bracket_inj.mp h

/-! ## The scanner on one pair of braces, and on a stretch without braces -/

theorem outermostFrom_open (opened : Nat) (taken rest : List Char) :
    outermostFrom opened taken ('{' :: '{' :: rest) =
      outermostFrom (opened + 1) ('{' :: '{' :: taken) rest := by
  rw [outermostFrom]

theorem outermostFrom_close_last (taken rest : List Char) :
    outermostFrom 1 taken ('}' :: '}' :: rest) =
      ('}' :: '}' :: taken).reverse :: outermostFrom 0 [] rest := by
  rw [outermostFrom]

theorem outermostFrom_close (opened : Nat) (taken rest : List Char) :
    outermostFrom (opened + 2) taken ('}' :: '}' :: rest) =
      outermostFrom (opened + 1) ('}' :: '}' :: taken) rest := by
  rw [outermostFrom]

theorem outermostFrom_plain (opened : Nat) (taken rest : List Char) {c : Char} (ho : c ≠ '{')
    (hc : c ≠ '}') :
    outermostFrom opened taken (c :: rest) =
      outermostFrom opened (if opened = 0 then [] else c :: taken) rest := by
  rw [outermostFrom]
  · intro _ h _
    exact ho h
  · intro _ h _
    exact hc h

theorem outermost_text {chars : List Char} (h : Braceless chars) (rest : List Char) :
    outermostFrom 0 [] (chars ++ rest) = outermostFrom 0 [] rest := by
  induction chars with
  | nil => rfl
  | cons c chars ih =>
    have hc := h c List.mem_cons_self
    rw [List.cons_append, outermostFrom_plain 0 _ _ hc.1 hc.2]
    exact ih fun d hd => h d (List.mem_cons_of_mem c hd)

theorem outermostFrom_text {chars : List Char} (h : Braceless chars) (opened : Nat)
    (taken rest : List Char) :
    outermostFrom (opened + 1) taken (chars ++ rest) =
      outermostFrom (opened + 1) (chars.reverse ++ taken) rest := by
  induction chars generalizing taken with
  | nil => rfl
  | cons c chars ih =>
    have hc := h c List.mem_cons_self
    rw [List.cons_append, outermostFrom_plain _ _ _ hc.1 hc.2, if_neg (Nat.succ_ne_zero opened),
      ih (fun d hd => h d (List.mem_cons_of_mem c hd)), List.reverse_cons, List.append_assoc,
      List.singleton_append]

namespace Content

/-! ## The scanner on content -/

/-- Inside of a token, content is taken as a whole, and the scanner is at the same depth behind it. -/
theorem outermostFrom_render {content : Content} (h : content.WellFormed) (opened : Nat)
    (taken rest : List Char) :
    outermostFrom (opened + 1) taken (content.render ++ rest) =
      outermostFrom (opened + 1) (content.render.reverse ++ taken) rest := by
  induction content generalizing opened taken rest with
  | empty => rfl
  | text chars next ih =>
    rw [render, List.append_assoc, outermostFrom_text h.1, ih h.2, List.reverse_append,
      List.append_assoc]
  | token inside next ihInside ihNext =>
    rw [render, List.append_assoc, bracket_append, outermostFrom_open, ihInside h.1, outermostFrom_close,
      ihNext h.2]
    simp [bracket]

theorem outermost_token {inside : Content} (h : inside.WellFormed) (rest : List Char) :
    outermost (bracket inside.render ++ rest) = bracket inside.render :: outermost rest := by
  unfold outermost
  rw [bracket_append, outermostFrom_open, outermostFrom_render h, outermostFrom_close_last]
  simp [bracket]

/-- **The scanner finds the tokens of the content.** -/
theorem occurrences_render {content : Content} (h : content.WellFormed) :
    occurrences content.render = content.tokens := by
  induction content with
  | empty => rw [render, occurrences_eq]; rfl
  | text chars rest ih =>
    rw [render, occurrences_eq, outermost, outermost_text h.1, ← outermost, ← occurrences_eq, ih h.2,
      tokens]
  | token inside rest ihInside ihRest =>
    rw [render, occurrences_eq, outermost_token h.1, List.flatMap_cons, ← occurrences_eq,
      interior_bracket, ihInside h.1, ihRest h.2, tokens, List.cons_append]

/-- A text without braces has no tokens. -/
theorem tokens_of_braceless {chars : List Char} (h : Braceless chars) : Token.tokens chars = [] := by
  have hocc : occurrences (text chars empty).render = _ := occurrences_render ⟨h, trivial⟩
  rw [render, render, List.append_nil] at hocc
  rw [Token.tokens, hocc]
  rfl

theorem mem_tokens_render {content : Content} (h : content.WellFormed) {token : List Char} :
    token ∈ Token.tokens content.render ↔ token ∈ content.tokens := by
  rw [Token.tokens, List.mem_eraseDups, occurrences_render h]

/-! ## Depth -/

theorem depthFrom_open (opened deepest : Nat) (rest : List Char) :
    depthFrom opened deepest ('{' :: '{' :: rest) =
      depthFrom (opened + 1) (max deepest (opened + 1)) rest := by
  rw [depthFrom]

theorem depthFrom_close (opened deepest : Nat) (rest : List Char) :
    depthFrom (opened + 1) deepest ('}' :: '}' :: rest) = depthFrom opened deepest rest := by
  rw [depthFrom]

theorem depthFrom_text {chars : List Char} (h : Braceless chars) (opened deepest : Nat)
    (rest : List Char) :
    depthFrom opened deepest (chars ++ rest) = depthFrom opened deepest rest := by
  induction chars with
  | nil => rfl
  | cons c chars ih =>
    have hc := h c List.mem_cons_self
    rw [List.cons_append, depthFrom]
    · exact ih fun d hd => h d (List.mem_cons_of_mem c hd)
    · intro _ he _
      exact hc.1 he
    · intro _ he _
      exact hc.2 he

theorem depthFrom_render {content : Content} (h : content.WellFormed) {opened deepest : Nat}
    (hd : opened ≤ deepest) (rest : List Char) :
    depthFrom opened deepest (content.render ++ rest) =
      depthFrom opened (max deepest (opened + content.depth)) rest := by
  induction content generalizing opened deepest rest with
  | empty => rw [render, List.nil_append, depth, Nat.add_zero, Nat.max_eq_left hd]
  | text chars next ih => rw [render, List.append_assoc, depthFrom_text h.1, ih h.2 hd, depth]
  | token inside next ihInside ihNext =>
    rw [render, List.append_assoc, bracket_append, depthFrom_open, ihInside h.1 (Nat.le_max_right _ _),
      depthFrom_close, ihNext h.2 (by omega), depth]
    -- what is left is the depth that the two sides have seen
    congr 1
    omega

/-- The depth of a written text is that of its content. -/
theorem depth_render {content : Content} (h : content.WellFormed) :
    Token.depth content.render = content.depth := by
  have hr := depthFrom_render h (Nat.le_refl 0) []
  rw [List.append_nil] at hr
  rw [Token.depth, hr, depthFrom, Nat.zero_add, Nat.max_eq_right (Nat.zero_le _)]

/-- The depth of a token is one more than that of its content. -/
theorem depth_bracket {inside : Content} (h : inside.WellFormed) :
    Token.depth (bracket inside.render) = inside.depth + 1 := by
  have hw : (token inside empty).WellFormed := ⟨h, trivial⟩
  have hr := depth_render hw
  rw [render, render, List.append_nil] at hr
  rw [hr]
  exact Nat.max_zero _

/-- Content is nested as deeply as its deepest token. -/
theorem depth_le_iff {content : Content} (h : content.WellFormed) {limit : Nat} :
    content.depth ≤ limit ↔ ∀ token ∈ content.tokens, Token.depth token ≤ limit := by
  induction content with
  | empty => simp [depth, tokens]
  | text chars rest ih => exact ih h.2
  | token inside rest ihInside ihRest =>
    have hinside := ihInside h.1
    have hrest := ihRest h.2
    simp only [tokens, List.forall_mem_cons, List.forall_mem_append, ← hinside, ← hrest, depth_bracket h.1,
      depth]
    omega

/-! ## Tokens without nested tokens -/

theorem braceless_render_of_isFlat {content : Content} (h : content.WellFormed)
    (hf : content.isFlat = true) : Braceless content.render := by
  induction content with
  | empty => exact fun c hc => absurd hc List.not_mem_nil
  | text chars rest ih => exact braceless_append.mpr ⟨h.1, ih h.2 hf⟩
  | token inside rest => exact absurd hf Bool.false_ne_true

theorem isFlat_of_render_eq_nil {content : Content} (h : content.render = []) : content.isFlat = true := by
  induction content with
  | empty => rfl
  | text chars rest ih => exact ih (List.append_eq_nil_iff.mp h).2
  | token inside rest => cases h

theorem isFlat_iff_tokens {content : Content} : content.isFlat = true ↔ content.tokens = [] := by
  induction content with
  | empty => simp [isFlat, tokens]
  | text chars rest ih => exact ih
  | token inside rest => simp [isFlat, tokens]

theorem isFlat_iff_flats {content : Content} : content.isFlat = true ↔ content.flats = [] := by
  induction content with
  | empty => simp [isFlat, flats]
  | text chars rest ih => exact ih
  | token inside rest ihInside ihRest =>
    rw [flats]
    cases hf : inside.isFlat with
    | true => simp [isFlat]
    | false =>
      have hne : inside.flats ≠ [] := fun hnil => by
        rw [ihInside.mpr hnil] at hf
        cases hf
      simp [isFlat, hne]

/-- The tokens without a nested token are the token at hand, if it is one, and those inside and behind. -/
theorem mem_flats_token {inside rest : Content} {target : List Char} :
    target ∈ (token inside rest).flats ↔
      (inside.isFlat = true ∧ target = bracket inside.render) ∨ target ∈ inside.flats ∨
        target ∈ rest.flats := by
  rw [flats]
  cases hf : inside.isFlat with
  | true => simp [isFlat_iff_flats.mp hf]
  | false => simp

/-- Content with a token is written with braces behind a stretch without any. -/
theorem exists_open_of_not_isFlat {content : Content} (h : content.WellFormed)
    (hf : content.isFlat = false) :
    ∃ chars rest, Braceless chars ∧ content.render = chars ++ '{' :: '{' :: rest := by
  induction content with
  | empty => exact absurd hf.symm Bool.false_ne_true
  | text chars rest ih =>
    obtain ⟨chars', rest', hb, he⟩ := ih h.2 hf
    exact ⟨chars ++ chars', rest', braceless_append.mpr ⟨h.1, hb⟩, by rw [render, he, List.append_assoc]⟩
  | token inside rest =>
    exact ⟨[], _, fun c hc => absurd hc List.not_mem_nil, rfl⟩

theorem infix_render_of_mem_tokens {content : Content} {token : List Char}
    (h : token ∈ content.tokens) : token <:+: content.render := by
  induction content with
  | empty => exact absurd h List.not_mem_nil
  | text chars rest ih => exact (ih h).trans (List.suffix_append _ _).isInfix
  | token inside rest ihInside ihRest =>
    rcases List.mem_cons.mp h with rfl | h
    · exact (List.prefix_append _ _).isInfix
    · rcases List.mem_append.mp h with h | h
      · refine (ihInside h).trans ⟨['{', '{'], '}' :: '}' :: rest.render, ?_⟩
        simp [render, bracket]
      · exact (ihRest h).trans (List.suffix_append _ _).isInfix

/-- A token of the content is the token without nested tokens that it looks like, or holds another one. -/
theorem mem_flats_or_nested {content : Content} {token : List Char} (h : token ∈ content.tokens) :
    token ∈ content.flats ∨
      ∃ other ∈ content.tokens, other ≠ token ∧ other <:+: token := by
  induction content with
  | empty => exact absurd h List.not_mem_nil
  | text chars rest ih => exact ih h
  | token inside rest ihInside ihRest =>
    rcases List.mem_cons.mp h with rfl | h
    · cases hf : inside.isFlat with
      | true => exact .inl (mem_flats_token.mpr (.inl ⟨hf, rfl⟩))
      | false =>
        -- any token inside will do: it is shorter, so it is another one
        obtain ⟨other, hother⟩ : ∃ other, other ∈ inside.tokens := by
          apply List.exists_mem_of_ne_nil
          intro hnil
          rw [isFlat_iff_tokens.mpr hnil] at hf
          cases hf
        have hinfix := infix_render_of_mem_tokens hother
        refine .inr ⟨other, List.mem_cons_of_mem _ (List.mem_append_left _ hother), ?_, ?_⟩
        · rintro rfl
          have := hinfix.length_le
          rw [length_bracket] at this
          omega
        · exact hinfix.trans ⟨['{', '{'], ['}', '}'], by simp [bracket]⟩
    · rcases List.mem_append.mp h with h | h
      · rcases ihInside h with hflat | ⟨other, hother, hne, hin⟩
        · exact .inl (mem_flats_token.mpr (.inr (.inl hflat)))
        · exact .inr ⟨other, List.mem_cons_of_mem _ (List.mem_append_left _ hother), hne, hin⟩
      · rcases ihRest h with hflat | ⟨other, hother, hne, hin⟩
        · exact .inl (mem_flats_token.mpr (.inr (.inr hflat)))
        · exact .inr ⟨other, List.mem_cons_of_mem _ (List.mem_append_right _ hother), hne, hin⟩

/-- A token without nested tokens is one of the tokens, and has no braces between its own. -/
theorem mem_flats {content : Content} (h : content.WellFormed) {token : List Char}
    (ht : token ∈ content.flats) :
    token ∈ content.tokens ∧ ∃ inside, Braceless inside ∧ token = bracket inside := by
  induction content with
  | empty => exact absurd ht List.not_mem_nil
  | text chars rest ih => exact ih h.2 ht
  | token inside rest ihInside ihRest =>
    rcases mem_flats_token.mp ht with ⟨hf, rfl⟩ | ht | ht
    · exact ⟨List.mem_cons_self, _, braceless_render_of_isFlat h.1 hf, rfl⟩
    · obtain ⟨hmem, hform⟩ := ihInside h.1 ht
      exact ⟨List.mem_cons_of_mem _ (List.mem_append_left _ hmem), hform⟩
    · obtain ⟨hmem, hform⟩ := ihRest h.2 ht
      exact ⟨List.mem_cons_of_mem _ (List.mem_append_right _ hmem), hform⟩

theorem exists_inside_of_mem_tokens {content : Content} {token : List Char}
    (h : token ∈ content.tokens) : ∃ inside, token = bracket inside := by
  induction content with
  | empty => exact absurd h List.not_mem_nil
  | text chars rest ih => exact ih h
  | token inside rest ihInside ihRest =>
    rcases List.mem_cons.mp h with rfl | h
    · exact ⟨_, rfl⟩
    · rcases List.mem_append.mp h with h | h
      · exact ihInside h
      · exact ihRest h

/-- **The tokens that hold no other are those without a nested token.** -/
theorem mem_innermost_render {content : Content} (h : content.WellFormed) {token : List Char} :
    token ∈ innermost (Token.tokens content.render) ↔ token ∈ content.flats := by
  unfold innermost
  rw [List.mem_filter, mem_tokens_render h]
  constructor
  · -- a token that holds another one is not innermost
    rintro ⟨hmem, hinner⟩
    rcases mem_flats_or_nested hmem with hflat | ⟨other, hother, hne, hin⟩
    · exact hflat
    · rw [Bool.not_eq_true', List.any_eq_false] at hinner
      refine absurd ?_ (hinner other ((mem_tokens_render h).mpr hother))
      rw [Bool.and_eq_true, bne_iff_ne, Text.occursIn_iff]
      exact ⟨hne, hin⟩
  · -- and a token without braces between its own holds none but itself
    intro hflat
    obtain ⟨hmem, inside, hb, rfl⟩ := mem_flats h hflat
    refine ⟨hmem, ?_⟩
    rw [Bool.not_eq_true', List.any_eq_false]
    intro other hother hc
    rw [Bool.and_eq_true, bne_iff_ne, Text.occursIn_iff] at hc
    obtain ⟨inner, rfl⟩ := exists_inside_of_mem_tokens ((mem_tokens_render h).mp hother)
    exact hc.1 (bracket_inj.mpr (eq_of_infix_bracket hb hc.2))

/-! ## Replacing a token without nested tokens -/

/-- A token without nested tokens is at the front of a written token only if that is the same one. -/
theorem bracket_prefix_iff {inside : Content} (h : inside.WellFormed) {target : List Char}
    (ht : Braceless target) (rest : List Char) :
    bracket target <+: bracket inside.render ++ rest ↔
      inside.isFlat = true ∧ inside.render = target := by
  constructor
  · rintro ⟨tail, htail⟩
    have hin : target ++ ('}' :: '}' :: tail) = inside.render ++ ('}' :: '}' :: rest) := by
      simpa [bracket] using htail
    cases hf : inside.isFlat with
    | true =>
      -- both texts run up to the first closing brace
      refine ⟨rfl, ?_⟩
      have hsplit := congrArg (List.takeWhile (· != '}')) hin
      have hstop : ∀ {chars tail : List Char}, Braceless chars →
          (chars ++ '}' :: '}' :: tail).takeWhile (· != '}') = chars := by
        intro chars tail hb
        rw [List.takeWhile_append_of_pos (fun c hc => bne_iff_ne.mpr (hb c hc).2),
          List.takeWhile_cons_of_neg (by decide), List.append_nil]
      rw [hstop ht, hstop (braceless_render_of_isFlat h hf)] at hsplit
      exact hsplit.symm
    | false =>
      -- the first brace of the written token opens, but that of the target closes
      obtain ⟨chars, more, hb, hr⟩ := exists_open_of_not_isFlat h hf
      have hsplit := congrArg (List.find? fun c => c == '{' || c == '}') hin
      have hskip : ∀ {chars tail : List Char} {c : Char}, Braceless chars →
          (chars ++ c :: tail).find? (fun c => c == '{' || c == '}') =
            (c :: tail).find? (fun c => c == '{' || c == '}') := by
        intro chars tail c hb
        rw [List.find?_append, List.find?_eq_none.mpr, Option.none_or]
        intro d hd
        simp [(hb d hd).1, (hb d hd).2]
      rw [hr, List.append_assoc, List.cons_append, hskip ht, hskip hb] at hsplit
      simp at hsplit
  · rintro ⟨-, rfl⟩
    exact List.prefix_append _ _

/-- The second opening brace of a token does not start a token without nested tokens. -/
theorem not_bracket_prefix_second {inside : Content} (h : inside.WellFormed) {target : List Char}
    (ht : Braceless target) (rest : List Char) :
    ¬ bracket target <+: '{' :: (inside.render ++ '}' :: '}' :: rest) := by
  rintro ⟨tail, htail⟩
  have hin : '{' :: (target ++ '}' :: '}' :: tail) = inside.render ++ '}' :: '}' :: rest := by
    simpa [bracket] using htail
  cases hf : inside.isFlat with
  | true =>
    have hb := braceless_render_of_isFlat h hf
    cases hr : inside.render with
    | nil =>
      rw [hr] at hin
      simp at hin
    | cons c chars =>
      -- the brace would be a character between the braces of the token
      rw [hr, List.cons_append] at hin
      exact (hb c (hr ▸ List.mem_cons_self)).1 (List.cons.inj hin).1.symm
  | false =>
    obtain ⟨chars, more, hb, hr⟩ := exists_open_of_not_isFlat h hf
    cases chars with
    | nil =>
      -- a brace stands in front of the content of the target, which has none
      rw [hr, List.nil_append, List.cons_append, List.cons_append] at hin
      have hin := (List.cons.inj hin).2
      cases target with
      | nil => simp at hin
      | cons d target => exact (ht d List.mem_cons_self).1 (List.cons.inj hin).1
    | cons c chars =>
      rw [hr, List.cons_append, List.cons_append] at hin
      exact (hb c List.mem_cons_self).1 (List.cons.inj hin).1.symm

theorem replaceFrom_braceless {target chars : List Char} (new rest : List Char)
    (h : ∀ c ∈ chars, c ≠ '{') :
    Text.replaceFrom (bracket target) new 0 (chars ++ rest) =
      chars ++ Text.replaceFrom (bracket target) new 0 rest := by
  induction chars with
  | nil => rfl
  | cons c chars ih =>
    rw [List.cons_append, Text.replaceFrom_cons_of_not_prefix,
      ih fun d hd => h d (List.mem_cons_of_mem c hd), List.cons_append]
    rintro ⟨tail, htail⟩
    exact h c List.mem_cons_self (List.cons.inj htail).1.symm

/-- Replacement in a written text, with any text behind it. -/
theorem replaceFrom_render {content : Content} (h : content.WellFormed) {target : List Char}
    (ht : Braceless target) (new rest : List Char) :
    Text.replaceFrom (bracket target) new 0 (content.render ++ rest) =
      (content.replace (bracket target) new).render ++
        Text.replaceFrom (bracket target) new 0 rest := by
  induction content generalizing rest with
  | empty => rfl
  | text chars next ih =>
    rw [render, List.append_assoc, replaceFrom_braceless _ _ (fun c hc => (h.1 c hc).1), ih h.2,
      replace, render, List.append_assoc]
  | token inside next ihInside ihNext =>
    rw [render, replace, List.append_assoc]
    by_cases hhit : inside.isFlat = true ∧ inside.render = target
    · -- a hit: the whole token is taken, and the search goes on behind it
      obtain ⟨hf, rfl⟩ := hhit
      rw [hf, Bool.true_and, beq_self_eq_true, if_pos rfl, Text.replaceFrom_append (by simp [bracket]),
        ihNext h.2, render, List.append_assoc]
    · -- a miss: the target starts at neither brace, so it is looked for between and behind them
      have hmiss : ¬ (inside.isFlat && bracket inside.render == bracket target) = true := by
        rwa [Bool.and_eq_true, beq_iff_eq, bracket_inj]
      have hprefix := mt (bracket_prefix_iff h.1 ht (next.render ++ rest)).mp hhit
      rw [bracket_append] at hprefix
      rw [if_neg hmiss, bracket_append, Text.replaceFrom_cons_of_not_prefix hprefix,
        Text.replaceFrom_cons_of_not_prefix (not_bracket_prefix_second h.1 ht _), ihInside h.1,
        show '}' :: '}' :: (next.render ++ rest) = ['}', '}'] ++ (next.render ++ rest) from rfl,
        replaceFrom_braceless _ _ (by simp), ihNext h.2]
      simp [render, bracket]

/-- **Replacing a token in a written text is replacing it in the content.** -/
theorem replaceAll_render {content : Content} (h : content.WellFormed) {target : List Char}
    (ht : Braceless target) (new : List Char) :
    Text.replaceAll (bracket target) new content.render =
      (content.replace (bracket target) new).render := by
  have hr := replaceFrom_render h ht new []
  rw [List.append_nil] at hr
  rw [Text.replaceAll, hr]
  exact List.append_nil _

theorem wellFormed_replace {content : Content} (h : content.WellFormed) (target : List Char)
    {new : List Char} (hn : Braceless new) : (content.replace target new).WellFormed := by
  induction content with
  | empty => trivial
  | text chars rest ih => exact ⟨h.1, ih h.2⟩
  | token inside rest ihInside ihRest =>
    rw [replace]
    split
    · exact ⟨hn, ihRest h.2⟩
    · exact ⟨ihInside h.1, ihRest h.2⟩

theorem replace_of_isFlat {content : Content} (h : content.isFlat = true) (target new : List Char) :
    content.replace target new = content := by
  induction content with
  | empty => rfl
  | text chars rest ih => rw [replace, ih h]
  | token inside rest => exact absurd h Bool.false_ne_true

/-- A token that is replaced by itself leaves the text as it is. -/
theorem render_replace_self (target : List Char) (content : Content) :
    (content.replace target target).render = content.render := by
  induction content with
  | empty => rfl
  | text chars rest ih => rw [replace, render, ih, render]
  | token inside rest ihInside ihRest =>
    rw [replace]
    split
    · rename_i hhit
      rw [Bool.and_eq_true, beq_iff_eq] at hhit
      rw [render, ihRest, render, hhit.2]
    · rw [render, ihInside, ihRest, render]

/-- Replacing a token nests nothing more deeply. -/
theorem depth_replace_le (target new : List Char) (content : Content) :
    (content.replace target new).depth ≤ content.depth := by
  induction content with
  | empty => exact Nat.le_refl _
  | text chars rest ih => exact ih
  | token inside rest ihInside ihRest =>
    rw [replace]
    split
    · exact Nat.le_trans ihRest (Nat.le_max_right _ _)
    · rw [depth, depth]
      omega

/-- Replacing one token leaves the others that have no nested token. -/
theorem mem_flats_replace {content : Content} {target new other : List Char}
    (h : other ∈ content.flats) (hne : other ≠ target) :
    other ∈ (content.replace target new).flats := by
  induction content with
  | empty => exact absurd h List.not_mem_nil
  | text chars rest ih => exact ih h
  | token inside rest ihInside ihRest =>
    have h := mem_flats_token.mp h
    rw [replace]
    split
    · -- the token itself is the one that is replaced, so `other` stands behind it
      rename_i hhit
      rw [Bool.and_eq_true, beq_iff_eq] at hhit
      rcases h with ⟨-, rfl⟩ | h | h
      · exact absurd hhit.2 hne
      · rw [isFlat_iff_flats.mp hhit.1] at h
        exact absurd h List.not_mem_nil
      · exact ihRest h
    · refine mem_flats_token.mpr ?_
      rcases h with ⟨hf, rfl⟩ | h | h
      · rw [replace_of_isFlat hf]
        exact .inl ⟨hf, rfl⟩
      · exact .inr (.inl (ihInside h))
      · exact .inr (.inr (ihRest h))

end Content

end Template.Token
