import Template.Proofs.Balance
import Template.Token.Placeholder

/-!
# `Template.Proofs.Pieces` — a token cut at its separators

A text is cut at every separator outside of tokens. What it is cut into, its **pieces**, are stretches of the text
itself: written with the separator between them they give the text back (`joinWith_pieces`). The segments of the text
are its pieces without their escapes and the blanks around them, and a last piece without any character is none
(`segments_eq_segmentsOf`).

Cutting goes well with appending. If no pair of braces and no escaped colon stands across a seam, the text in front of
it and the text behind it can be cut on their own; the last piece of the one and the first piece of the other are then
one piece (`piecesFrom_append`).

## Contents
- `leftOpenFrom`, `leftOpen` — the tokens that are open behind a text.
- `Seam` — where two texts meet and nothing stands across.
- `glue`, `piecesFrom`, `pieces` — pieces, and two rows of them made one.
- `piecesFrom_append`, `pieces_append_separator`, `pieces_bracket` — the pieces of a text from those of its parts.
- `unescape`, `segmentsOf`, `segments_eq_segmentsOf` — segments from pieces.
-/

namespace Template.Token

/-! ## What is open behind a text -/

/-- How many tokens are open behind a text in front of which `opened` are. -/
def leftOpenFrom (opened : Nat) : List Char → Nat
  | '{' :: '{' :: rest => leftOpenFrom (opened + 1) rest
  | '}' :: '}' :: rest =>
    match opened with
    | 0 => leftOpenFrom 0 ('}' :: rest)
    | d + 1 => leftOpenFrom d rest
  | _ :: rest => leftOpenFrom opened rest
  | [] => opened

/-- How many tokens are opened in a text and not closed in it. -/
def leftOpen (text : List Char) : Nat :=
  leftOpenFrom 0 text

theorem leftOpenFrom_open (opened : Nat) (rest : List Char) :
    leftOpenFrom opened ('{' :: '{' :: rest) = leftOpenFrom (opened + 1) rest := by
  rw [leftOpenFrom]

theorem leftOpenFrom_close (opened : Nat) (rest : List Char) :
    leftOpenFrom (opened + 1) ('}' :: '}' :: rest) = leftOpenFrom opened rest := by
  rw [leftOpenFrom]

theorem leftOpenFrom_alone (opened : Nat) {c : Char} {rest : List Char} (h : Alone c rest) :
    leftOpenFrom opened (c :: rest) = leftOpenFrom opened rest := by
  rw [leftOpenFrom]
  · intro tail hc hrest
    exact (h _ tail hrest).1 ⟨hc, rfl⟩
  · intro tail hc hrest
    exact (h _ tail hrest).2 ⟨hc, rfl⟩

/-- With nothing open, whatever does not open is passed over. -/
theorem leftOpen_cons {c : Char} {rest : List Char} (h : ¬ ∃ tail, c = '{' ∧ rest = '{' :: tail) :
    leftOpen (c :: rest) = leftOpen rest := by
  unfold leftOpen
  rcases alone_or_pair c rest with hc | hopen | ⟨tail, rfl, rfl⟩
  · exact leftOpenFrom_alone 0 hc
  · exact absurd hopen h
  · rw [leftOpenFrom]

/-- Balanced text leaves open what is open around it. -/
theorem leftOpenFrom_balanced {inside : List Char} (h : Balanced inside) (opened : Nat) (rest : List Char) :
    leftOpenFrom opened (inside ++ '}' :: rest) = leftOpenFrom opened ('}' :: rest) := by
  induction h generalizing opened rest with
  | nil => rfl
  | plain hc _ ih => rw [List.cons_append, leftOpenFrom_alone opened (hc.append rest), ih]
  | token _ _ ihInside ihRest =>
    rw [List.append_assoc, bracket_append, leftOpenFrom_open, ihInside, leftOpenFrom_close, ihRest]

theorem leftOpenFrom_bracket {inside : List Char} (h : Balanced inside) (opened : Nat) (rest : List Char) :
    leftOpenFrom opened (bracket inside ++ rest) = leftOpenFrom opened rest := by
  rw [bracket_append, leftOpenFrom_open, leftOpenFrom_balanced h, leftOpenFrom_close]

theorem leftOpen_bracket {inside : List Char} (h : Balanced inside) (rest : List Char) :
    leftOpen (bracket inside ++ rest) = leftOpen rest :=
  leftOpenFrom_bracket h 0 rest

/-- Balanced text leaves nothing open of its own. -/
theorem leftOpen_balanced {inside : List Char} (h : Balanced inside) : leftOpen inside = 0 := by
  induction h with
  | nil => rfl
  | plain hc _ ih => rw [leftOpen_cons hc.of_append.not_opening, ih]
  | token hinside _ _ ih => rw [leftOpen_bracket hinside, ih]

/-- Unclosed text closes nothing that was open in front of it. -/
theorem le_leftOpenFrom_unclosed {text : List Char} (h : Unclosed text) (opened : Nat) :
    opened ≤ leftOpenFrom opened text := by
  induction h generalizing opened with
  | nil => exact Nat.le_refl opened
  | plain hc _ ih =>
    rw [leftOpenFrom_alone opened hc]
    exact ih opened
  | token hinside _ ih =>
    rw [leftOpenFrom_bracket hinside]
    exact ih opened
  | opening _ ih =>
    rw [leftOpenFrom_open]
    exact Nat.le_of_succ_le (ih (opened + 1))

theorem leftOpen_unclosed_ne {rest : List Char} (h : Unclosed rest) : leftOpen ('{' :: '{' :: rest) ≠ 0 := by
  have hle := le_leftOpenFrom_unclosed h 1
  have hopen : leftOpen ('{' :: '{' :: rest) = leftOpenFrom 1 rest := leftOpenFrom_open 0 rest
  omega

/-! ## Seams -/

/-- No pair of braces stands across the place where the two texts meet, and with `escapes` no escaped colon. -/
def Seam (escapes : Bool) (before after : List Char) : Prop :=
  ∀ c ∈ before.getLast?, ∀ d ∈ after.head?,
    ¬ (c = '{' ∧ d = '{') ∧ ¬ (c = '}' ∧ d = '}') ∧ ¬ (escapes = true ∧ c = '\\' ∧ d = ':')

variable {escapes : Bool} {separator : Char}

theorem Seam.nil_left (after : List Char) : Seam escapes [] after := by
  intro c hc
  cases hc

theorem Seam.nil_right (before : List Char) : Seam escapes before [] := by
  intro c _ d hd
  cases hd

/-- The seam of a text is that of its end. -/
theorem Seam.of_cons {c : Char} {before after : List Char} (h : Seam escapes (c :: before) after) :
    Seam escapes before after := by
  cases before with
  | nil => exact .nil_left after
  | cons d before =>
    intro e he
    exact h e (by rwa [List.getLast?_cons_cons])

/-- A character that is part of no pair makes a seam in front of it. -/
theorem Seam.of_head {d : Char} (hopen : d ≠ '{') (hclose : d ≠ '}') {before : List Char}
    (he : escapes = true → d = ':' → before.getLast? ≠ some '\\') (after : List Char) :
    Seam escapes before (d :: after) := by
  intro c hc e hd
  obtain rfl : d = e := Option.some.inj hd
  refine ⟨fun h => hopen h.2, fun h => hclose h.2, ?_⟩
  rintro ⟨hescapes, rfl, hcolon⟩
  exact he hescapes hcolon hc

/-- A character that is part of no pair makes a seam behind it. -/
theorem Seam.of_last {c : Char} (hopen : c ≠ '{') (hclose : c ≠ '}') (hescape : c ≠ '\\') (before after : List Char) :
    Seam escapes (before ++ [c]) after := by
  intro d hd e _
  rw [List.getLast?_concat] at hd
  obtain rfl : c = d := Option.some.inj hd
  exact ⟨fun h => hopen h.1, fun h => hclose h.1, fun h => hescape h.2.1⟩

/-- A character that stands alone in its text does so in front of a seam as well. -/
theorem Alone.append_seam {c : Char} {rest after : List Char} (h : Alone c rest)
    (hs : Seam escapes (c :: rest) after) : Alone c (rest ++ after) := by
  intro d tail he
  cases rest with
  | nil =>
    have hseam := hs c rfl d (by rw [List.nil_append] at he; rw [he]; rfl)
    exact ⟨hseam.1, hseam.2.1⟩
  | cons e rest =>
    cases he
    exact h d rest rfl

/-- A character that makes up no escape in its text does not do so in front of a seam. -/
theorem Seam.append_escape {c : Char} {rest after : List Char} (hs : Seam escapes (c :: rest) after)
    (h : ∀ tail, c = '\\' → rest = ':' :: tail → False) :
    ¬ (escapes = true ∧ c = '\\' ∧ ∃ tail, rest ++ after = ':' :: tail) := by
  rintro ⟨hescapes, hc, tail, htail⟩
  cases rest with
  | nil =>
    have hseam := hs c rfl ':' (by rw [List.nil_append] at htail; rw [htail]; rfl)
    exact hseam.2.2 ⟨hescapes, hc, rfl⟩
  | cons d rest =>
    cases htail
    exact h rest hc rfl

theorem leftOpenFrom_append {before after : List Char} (h : Seam escapes before after) (opened : Nat) :
    leftOpenFrom opened (before ++ after) = leftOpenFrom (leftOpenFrom opened before) after := by
  fun_induction leftOpenFrom opened before with
  | case1 opened rest ih =>
    rw [List.cons_append, List.cons_append, leftOpenFrom_open]
    exact ih h.of_cons.of_cons
  | case2 rest ih =>
    rw [List.cons_append, List.cons_append, leftOpenFrom]
    exact ih h.of_cons
  | case3 rest opened ih =>
    rw [List.cons_append, List.cons_append, leftOpenFrom_close]
    exact ih h.of_cons.of_cons
  | case4 opened c rest hopen hclose ih =>
    have hc : Alone c rest := .of_not_pair hopen hclose
    rw [List.cons_append, leftOpenFrom_alone opened (hc.append_seam h)]
    exact ih h.of_cons
  | case5 opened => rfl

/-! ## Pieces -/

/-- Two rows of pieces as one, in which the last piece of the first row goes on with the first piece of the second. -/
def glue (first second : List (List Char)) : List (List Char) :=
  first.dropLast ++ (first.getLastD [] ++ second.headD []) :: second.tail

/-- The pieces of a text between separators outside of tokens, as they stand in it. With `escapes`, a colon behind a
backslash is no separator. `opened` tokens are open. -/
def piecesFrom (separator : Char) (escapes : Bool) (opened : Nat) : List Char → List (List Char)
  | '{' :: '{' :: rest => glue [['{', '{']] (piecesFrom separator escapes (opened + 1) rest)
  | '}' :: '}' :: rest =>
    match opened with
    | 0 => glue [['}']] (piecesFrom separator escapes 0 ('}' :: rest))
    | d + 1 => glue [['}', '}']] (piecesFrom separator escapes d rest)
  | '\\' :: ':' :: rest =>
    if escapes then glue [['\\', ':']] (piecesFrom separator escapes opened rest)
    else glue [['\\']] (piecesFrom separator escapes opened (':' :: rest))
  | c :: rest =>
    if c = separator ∧ opened = 0 then [] :: piecesFrom separator escapes 0 rest
    else glue [[c]] (piecesFrom separator escapes opened rest)
  | [] => [[]]

/-- The pieces of a text. -/
def pieces (separator : Char) (escapes : Bool) (text : List Char) : List (List Char) :=
  piecesFrom separator escapes 0 text

theorem glue_single (piece next : List Char) (second : List (List Char)) :
    glue [piece] (next :: second) = (piece ++ next) :: second := rfl

theorem glue_concat (first : List (List Char)) (piece next : List Char) (second : List (List Char)) :
    glue (first ++ [piece]) (next :: second) = first ++ (piece ++ next) :: second := by
  simp [glue]

theorem glue_cons (piece : List Char) {first : List (List Char)} (h : first ≠ []) (second : List (List Char)) :
    glue (piece :: first) second = piece :: glue first second := by
  cases first with
  | nil => exact absurd rfl h
  | cons next first => simp [glue, List.getLastD]

theorem glue_ne_nil (first second : List (List Char)) : glue first second ≠ [] := by
  simp [glue]

/-- A separator between two rows keeps their pieces apart. -/
theorem glue_nil_cons {first : List (List Char)} (h : first ≠ []) (second : List (List Char)) :
    glue first ([] :: second) = first ++ second := by
  obtain ⟨front, piece, rfl⟩ := List.eq_nil_or_concat first |>.resolve_left h
  rw [List.concat_eq_append, glue_concat, List.append_nil, List.append_assoc, List.singleton_append]

theorem glue_nil_nil {second : List (List Char)} (h : second ≠ []) : glue [[]] second = second := by
  cases second with
  | nil => exact absurd rfl h
  | cons next second => rfl

/-- What stands in front of two rows stands in front of the first. -/
theorem glue_glue (piece : List Char) {first : List (List Char)} (h : first ≠ []) (second : List (List Char)) :
    glue (glue [piece] first) second = glue [piece] (glue first second) := by
  cases first with
  | nil => exact absurd rfl h
  | cons next first =>
    cases first with
    | nil => simp [glue]
    | cons third first => simp [glue, List.getLastD]

theorem piecesFrom_ne_nil (separator : Char) (escapes : Bool) (opened : Nat) (text : List Char) :
    piecesFrom separator escapes opened text ≠ [] := by
  fun_cases piecesFrom separator escapes opened text <;> simp [glue_ne_nil]

theorem exists_first_piece (separator : Char) (escapes : Bool) (opened : Nat) (text : List Char) :
    ∃ first behind, piecesFrom separator escapes opened text = first :: behind :=
  List.exists_cons_of_ne_nil (piecesFrom_ne_nil separator escapes opened text)

theorem exists_last_piece (separator : Char) (escapes : Bool) (text : List Char) :
    ∃ front last, pieces separator escapes text = front ++ [last] := by
  obtain ⟨front, last, hlast⟩ :=
    (List.eq_nil_or_concat (pieces separator escapes text)).resolve_left (piecesFrom_ne_nil _ _ _ _)
  exact ⟨front, last, by rw [hlast, List.concat_eq_append]⟩

theorem glue_join (first second : List Char) (row : List (List Char)) :
    glue [first] (glue [second] row) = glue [first ++ second] row :=
  (glue_glue first (List.cons_ne_nil _ _) row).symm

theorem piecesFrom_open (opened : Nat) (rest : List Char) :
    piecesFrom separator escapes opened ('{' :: '{' :: rest) =
      glue [['{', '{']] (piecesFrom separator escapes (opened + 1) rest) := by
  rw [piecesFrom]

theorem piecesFrom_close (opened : Nat) (rest : List Char) :
    piecesFrom separator escapes (opened + 1) ('}' :: '}' :: rest) =
      glue [['}', '}']] (piecesFrom separator escapes opened rest) := by
  rw [piecesFrom]

/-- A character that opens nothing, is no separator and makes up no escape with what follows belongs to the piece. -/
theorem piecesFrom_plain {opened : Nat} {c : Char} {rest : List Char} (h : Alone c rest)
    (he : ¬ (escapes = true ∧ c = '\\' ∧ ∃ tail, rest = ':' :: tail)) (hs : ¬ (c = separator ∧ opened = 0)) :
    piecesFrom separator escapes opened (c :: rest) = glue [[c]] (piecesFrom separator escapes opened rest) := by
  by_cases hcolon : c = '\\' ∧ ∃ tail, rest = ':' :: tail
  · obtain ⟨rfl, tail, rfl⟩ := hcolon
    rw [piecesFrom, if_neg fun hescapes => he ⟨hescapes, rfl, tail, rfl⟩]
  · rw [piecesFrom, if_neg hs]
    · intro tail hc hrest
      exact (h _ tail hrest).1 ⟨hc, rfl⟩
    · intro tail hc hrest
      exact (h _ tail hrest).2 ⟨hc, rfl⟩
    · intro tail hc hrest
      exact hcolon ⟨hc, tail, hrest⟩

/-- Inside of a token nothing is cut. -/
theorem piecesFrom_within (opened : Nat) {c : Char} {rest : List Char} (h : Alone c rest) :
    piecesFrom separator escapes (opened + 1) (c :: rest) =
      glue [[c]] (piecesFrom separator escapes (opened + 1) rest) := by
  by_cases hescape : escapes = true ∧ c = '\\' ∧ ∃ tail, rest = ':' :: tail
  · obtain ⟨hescapes, rfl, tail, rfl⟩ := hescape
    have hcolon : piecesFrom separator escapes (opened + 1) (':' :: tail) =
        glue [[':']] (piecesFrom separator escapes (opened + 1) tail) := by
      apply piecesFrom_plain
      · intro d more _
        exact ⟨by simp, by simp⟩
      · simp
      · simp
    rw [piecesFrom, if_pos hescapes, hcolon, glue_join]
    rfl
  · exact piecesFrom_plain h hescape fun hs => absurd hs.2 (Nat.succ_ne_zero opened)

/-- A separator outside of tokens ends a piece. -/
theorem piecesFrom_cut {c : Char} {rest : List Char} (h : Alone c rest) (hc : c ≠ '\\') :
    piecesFrom c escapes 0 (c :: rest) = [] :: piecesFrom c escapes 0 rest := by
  rw [piecesFrom, if_pos ⟨rfl, rfl⟩]
  · intro tail hopen hrest
    exact (h _ tail hrest).1 ⟨hopen, rfl⟩
  · intro tail hclose hrest
    exact (h _ tail hrest).2 ⟨hclose, rfl⟩
  · intro tail hescape _
    exact hc hescape

/-! ### Pieces give the text back -/

theorem joinWith_glue (sep piece : List Char) {second : List (List Char)} (h : second ≠ []) :
    Text.joinWith sep (glue [piece] second) = piece ++ Text.joinWith sep second := by
  cases second with
  | nil => exact absurd rfl h
  | cons next second =>
    cases second with
    | nil => rfl
    | cons third second => simp [glue_single, Text.joinWith]

theorem joinWith_nil_cons (sep : List Char) {second : List (List Char)} (h : second ≠ []) :
    Text.joinWith sep ([] :: second) = sep ++ Text.joinWith sep second := by
  cases second with
  | nil => exact absurd rfl h
  | cons next second => rfl

/-- **The pieces, with the separator between them, are the text.** -/
theorem joinWith_piecesFrom (separator : Char) (escapes : Bool) (opened : Nat) (text : List Char) :
    Text.joinWith [separator] (piecesFrom separator escapes opened text) = text := by
  fun_induction piecesFrom separator escapes opened text with
  | case1 opened rest ih => rw [joinWith_glue _ _ (piecesFrom_ne_nil _ _ _ _), ih]; rfl
  | case2 rest ih => rw [joinWith_glue _ _ (piecesFrom_ne_nil _ _ _ _), ih]; rfl
  | case3 rest opened ih => rw [joinWith_glue _ _ (piecesFrom_ne_nil _ _ _ _), ih]; rfl
  | case4 opened rest _ ih => rw [joinWith_glue _ _ (piecesFrom_ne_nil _ _ _ _), ih]; rfl
  | case5 opened rest _ ih => rw [joinWith_glue _ _ (piecesFrom_ne_nil _ _ _ _), ih]; rfl
  | case6 opened c rest _ _ _ hs ih => rw [joinWith_nil_cons _ (piecesFrom_ne_nil _ _ _ _), ih, hs.1]; rfl
  | case7 opened c rest _ _ _ hs ih => rw [joinWith_glue _ _ (piecesFrom_ne_nil _ _ _ _), ih]; rfl
  | case8 opened => rfl

/-- The first piece stands in front of the text. -/
theorem prefix_of_pieces {text first : List Char} {behind : List (List Char)}
    (h : pieces separator escapes text = first :: behind) : first <+: text := by
  have hjoin := joinWith_piecesFrom separator escapes 0 text
  rw [← pieces, h] at hjoin
  cases behind with
  | nil => exact hjoin ▸ List.prefix_refl _
  | cons second behind =>
    refine ⟨[separator] ++ Text.joinWith [separator] (second :: behind), ?_⟩
    rw [← List.append_assoc]
    exact hjoin

/-- A text that is one piece is that piece. -/
theorem eq_of_pieces_eq_singleton {text piece : List Char}
    (h : pieces separator escapes text = [piece]) : text = piece := by
  have hjoin := joinWith_piecesFrom separator escapes 0 text
  rw [← pieces, h] at hjoin
  exact hjoin.symm

/-! ### Pieces of appended texts -/

/-- **Cutting goes well with appending.** What stands behind a seam is cut on its own, and its first piece goes on with
the last one in front of the seam. -/
theorem piecesFrom_append (hseparator : separator ≠ '\\') {before after : List Char} (h : Seam escapes before after)
    (opened : Nat) :
    piecesFrom separator escapes opened (before ++ after) =
      glue (piecesFrom separator escapes opened before)
        (piecesFrom separator escapes (leftOpenFrom opened before) after) := by
  fun_induction piecesFrom separator escapes opened before with
  | case1 opened rest ih =>
    rw [leftOpenFrom_open, List.cons_append, List.cons_append, piecesFrom_open, ih h.of_cons.of_cons,
      glue_glue _ (piecesFrom_ne_nil _ _ _ _)]
  | case2 rest ih =>
    rw [leftOpenFrom, List.cons_append, List.cons_append, piecesFrom, ← List.cons_append, ih h.of_cons,
      glue_glue _ (piecesFrom_ne_nil _ _ _ _)]
  | case3 rest opened ih =>
    rw [leftOpenFrom_close, List.cons_append, List.cons_append, piecesFrom_close, ih h.of_cons.of_cons,
      glue_glue _ (piecesFrom_ne_nil _ _ _ _)]
  | case4 opened rest hescapes ih =>
    have hopened : leftOpenFrom opened ('\\' :: ':' :: rest) = leftOpenFrom opened rest := by simp [leftOpenFrom]
    rw [hopened, List.cons_append, List.cons_append, piecesFrom, if_pos hescapes, ih h.of_cons.of_cons,
      glue_glue _ (piecesFrom_ne_nil _ _ _ _)]
  | case5 opened rest hescapes ih =>
    have hopened : leftOpenFrom opened ('\\' :: ':' :: rest) = leftOpenFrom opened (':' :: rest) := by
      simp [leftOpenFrom]
    rw [hopened, List.cons_append, List.cons_append, piecesFrom, if_neg hescapes, ← List.cons_append, ih h.of_cons,
      glue_glue _ (piecesFrom_ne_nil _ _ _ _)]
  | case6 opened c rest hopen hclose hescape hs ih =>
    obtain ⟨rfl, rfl⟩ := hs
    have hc : Alone c rest := .of_not_pair hopen hclose
    rw [leftOpenFrom_alone 0 hc, glue_cons _ (piecesFrom_ne_nil _ _ _ _), ← ih h.of_cons, List.cons_append]
    exact piecesFrom_cut (hc.append_seam h) hseparator
  | case7 opened c rest hopen hclose hescape hs ih =>
    have hc : Alone c rest := .of_not_pair hopen hclose
    rw [leftOpenFrom_alone opened hc, glue_glue _ (piecesFrom_ne_nil _ _ _ _), ← ih h.of_cons, List.cons_append]
    exact piecesFrom_plain (hc.append_seam h) (h.append_escape hescape) hs
  | case8 opened =>
    rw [List.nil_append, leftOpenFrom, glue_nil_nil (piecesFrom_ne_nil _ _ _ _)]

/-- A character that may be a separator: it is no brace, no backslash and no blank. -/
structure MaySeparate (c : Char) : Prop where
  notOpen : c ≠ '{'
  notClose : c ≠ '}'
  notEscape : c ≠ '\\'
  notBlank : Text.isBlank c = false

theorem maySeparate_colon : MaySeparate ':' where
  notOpen := by decide
  notClose := by decide
  notEscape := by decide
  notBlank := by decide

theorem maySeparate_bar : MaySeparate '|' where
  notOpen := by decide
  notClose := by decide
  notEscape := by decide
  notBlank := by decide

theorem MaySeparate.alone (h : MaySeparate separator) (rest : List Char) : Alone separator rest :=
  alone_of_notBrace ⟨h.notOpen, h.notClose⟩ rest

/-- **A separator with nothing open in front of it** keeps apart what stands on its two sides. -/
theorem pieces_append_separator (h : MaySeparate separator) {before : List Char} (hopen : leftOpen before = 0)
    (he : escapes = true → separator = ':' → before.getLast? ≠ some '\\') (after : List Char) :
    pieces separator escapes (before ++ separator :: after) =
      pieces separator escapes before ++ pieces separator escapes after := by
  have hseam : Seam escapes before (separator :: after) := .of_head h.notOpen h.notClose he after
  rw [pieces, piecesFrom_append h.notEscape hseam, ← leftOpen, hopen, piecesFrom_cut (h.alone after) h.notEscape,
    glue_nil_cons (piecesFrom_ne_nil _ _ _ _)]
  rfl

/-! ### Tokens and plain stretches -/

/-- Inside of a token, balanced text belongs to the piece. -/
theorem piecesFrom_balanced {inside : List Char} (h : Balanced inside) (opened : Nat) (rest : List Char) :
    piecesFrom separator escapes (opened + 1) (inside ++ '}' :: rest) =
      glue [inside] (piecesFrom separator escapes (opened + 1) ('}' :: rest)) := by
  induction h generalizing opened rest with
  | nil => rw [List.nil_append, glue_nil_nil (piecesFrom_ne_nil _ _ _ _)]
  | plain hc _ ih =>
    rw [List.cons_append, piecesFrom_within opened (hc.append rest), ih, glue_join,
      List.singleton_append]
  | token _ _ ihInside ihRest =>
    rw [List.append_assoc, bracket_append, piecesFrom_open, ihInside, piecesFrom_close, ihRest, glue_join, glue_join,
      glue_join]
    simp [bracket]

/-- **A token belongs to one piece as a whole.** -/
theorem pieces_bracket {inside : List Char} (h : Balanced inside) (rest : List Char) :
    pieces separator escapes (bracket inside ++ rest) = glue [bracket inside] (pieces separator escapes rest) := by
  rw [pieces, bracket_append, piecesFrom_open, piecesFrom_balanced h, piecesFrom_close, glue_join, glue_join,
    ← pieces]
  simp [bracket]

/-! ## Segments -/

/-- A text in which every escaped colon is a plain one. -/
def unescape : List Char → List Char
  | '\\' :: ':' :: rest => ':' :: unescape rest
  | c :: rest => c :: unescape rest
  | [] => []

/-- What a piece reads. -/
def meaning (escapes : Bool) (piece : List Char) : List Char :=
  if escapes then unescape piece else piece

/-- The segment that a piece stands for. -/
def segmentOf (escapes : Bool) (piece : List Char) : List Char :=
  Text.trim (meaning escapes piece)

/-- The segments that pieces stand for; a last piece without any character stands for none. -/
def segmentsOf (escapes : Bool) : List (List Char) → List (List Char)
  | [] => []
  | [piece] => if piece.isEmpty then [] else [segmentOf escapes piece]
  | piece :: next :: pieces => segmentOf escapes piece :: segmentsOf escapes (next :: pieces)

theorem unescape_cons {c : Char} {rest : List Char} (h : ¬ (c = '\\' ∧ rest.head? = some ':')) :
    unescape (c :: rest) = c :: unescape rest := by
  rw [unescape]
  intro tail hc hrest
  exact h ⟨hc, by rw [hrest]; rfl⟩

/-- What stands on the two sides of a place that no escaped colon spans is read on its own. -/
theorem unescape_append {front back : List Char} (h : front.getLast? = some '\\' → back.head? ≠ some ':') :
    unescape (front ++ back) = unescape front ++ unescape back := by
  fun_induction unescape front with
  | case1 rest ih =>
    rw [List.cons_append, List.cons_append, unescape, List.cons_append, ih]
    intro hlast
    cases rest with
    | nil => cases hlast
    | cons d rest => exact h (by rwa [List.getLast?_cons_cons, List.getLast?_cons_cons])
  | case2 c rest hescape ih =>
    have hc : ¬ (c = '\\' ∧ (rest ++ back).head? = some ':') := by
      rintro ⟨rfl, hhead⟩
      cases rest with
      | nil => exact h rfl hhead
      | cons d rest =>
        obtain rfl : d = ':' := Option.some.inj hhead
        exact hescape rest rfl rfl
    rw [List.cons_append, unescape_cons hc, List.cons_append, ih]
    intro hlast
    cases rest with
    | nil => cases hlast
    | cons d rest => exact h (by rwa [List.getLast?_cons_cons])
  | case3 => rfl

theorem meaning_append {front back : List Char}
    (h : escapes = true → front.getLast? = some '\\' → back.head? ≠ some ':') :
    meaning escapes (front ++ back) = meaning escapes front ++ meaning escapes back := by
  cases escapes with
  | false => rfl
  | true => exact unescape_append (h rfl)

theorem meaning_singleton (escapes : Bool) (c : Char) : meaning escapes [c] = [c] := by
  cases escapes with
  | false => rfl
  | true => exact unescape_cons (by simp)

theorem segmentsOf_cons (piece : List Char) {pieces : List (List Char)} (h : pieces ≠ []) :
    segmentsOf escapes (piece :: pieces) = segmentOf escapes piece :: segmentsOf escapes pieces := by
  cases pieces with
  | nil => exact absurd rfl h
  | cons next pieces => rfl

/-- Of a segment, the stretch `raw` was read in front of the text, and `current` holds what it reads, the last
character first. -/
structure HasRead (escapes : Bool) (raw current text : List Char) : Prop where
  reads : current.reverse = meaning escapes raw
  empty : current = [] ↔ raw = []
  whole : escapes = true → raw.getLast? = some '\\' → text.head? ≠ some ':'

theorem HasRead.nil (escapes : Bool) (text : List Char) : HasRead escapes [] [] text where
  reads := by cases escapes <;> rfl
  empty := Iff.rfl
  whole _ h := nomatch h

/-- A further stretch is read. -/
theorem HasRead.step {raw current rest : List Char} (stretch read : List Char)
    (h : HasRead escapes raw current (stretch ++ rest)) (hs : stretch ≠ []) (hm : meaning escapes stretch = read)
    (hr : read ≠ []) (hw : escapes = true → stretch.getLast? = some '\\' → rest.head? ≠ some ':') :
    HasRead escapes (raw ++ stretch) (read.reverse ++ current) rest where
  reads := by
    have hwhole : escapes = true → raw.getLast? = some '\\' → stretch.head? ≠ some ':' := by
      intro hescapes hlast hhead
      exact h.whole hescapes hlast (by rw [List.head?_append, hhead]; rfl)
    rw [List.reverse_append, List.reverse_reverse, h.reads, ← hm, meaning_append hwhole]
  empty := by simp [hs, hr]
  whole := by
    obtain ⟨front, c, rfl⟩ := List.eq_nil_or_concat stretch |>.resolve_left hs
    intro hescapes hlast
    rw [List.concat_eq_append, ← List.append_assoc, List.getLast?_concat] at hlast
    exact hw hescapes (by rw [List.concat_eq_append, List.getLast?_concat, hlast])

/-- The loop that reads segments, in the middle of one. -/
theorem segmentsFrom_eq (opened : Nat) {raw current text : List Char} (h : HasRead escapes raw current text) :
    segmentsFrom separator escapes opened current text =
      segmentsOf escapes (glue [raw] (piecesFrom separator escapes opened text)) := by
  fun_induction segmentsFrom separator escapes opened current text generalizing raw with
  | case1 opened current rest ih =>
    rw [piecesFrom_open, glue_join]
    exact ih (h.step ['{', '{'] ['{', '{'] (by simp) (by cases escapes <;> rfl) (by simp) (by simp))
  | case2 current rest ih =>
    rw [piecesFrom, glue_join]
    exact ih (h.step ['}'] ['}'] (by simp) (meaning_singleton _ _) (by simp) (by simp))
  | case3 current rest opened ih =>
    rw [piecesFrom_close, glue_join]
    exact ih (h.step ['}', '}'] ['}', '}'] (by simp) (by cases escapes <;> rfl) (by simp) (by simp))
  | case4 opened current rest hescapes ih =>
    rw [piecesFrom, if_pos hescapes, glue_join]
    exact ih (h.step ['\\', ':'] [':'] (by simp) (by rw [hescapes]; rfl) (by simp) (by simp))
  | case5 opened current rest hescapes ih =>
    rw [piecesFrom, if_neg hescapes, glue_join]
    exact ih (h.step ['\\'] ['\\'] (by simp) (meaning_singleton _ _) (by simp) fun he => absurd he hescapes)
  | case6 opened current c rest hopen hclose hescape hs ih =>
    rw [piecesFrom, if_pos hs, glue_single, List.append_nil, segmentsOf_cons _ (piecesFrom_ne_nil _ _ _ _),
      ih (.nil escapes rest), glue_nil_nil (piecesFrom_ne_nil _ _ _ _), segmentOf, h.reads]
    · exact hopen
    · exact hclose
    · exact hescape
  | case7 opened current c rest hopen hclose hescape hs ih =>
    rw [piecesFrom, if_neg hs, glue_join]
    · refine ih (h.step [c] [c] (by simp) (meaning_singleton _ _) (by simp) ?_)
      intro _ hc hcolon
      obtain ⟨tail, rfl⟩ := List.head?_eq_some_iff.mp hcolon
      exact hescape tail (Option.some.inj hc) rfl
    · exact hopen
    · exact hclose
    · exact hescape
  | case8 opened current hnone =>
    rw [List.isEmpty_iff, h.empty] at hnone
    rw [hnone]
    rfl
  | case9 opened current hsome =>
    rw [List.isEmpty_iff, h.empty] at hsome
    have hraw : raw.isEmpty = false := by simpa using hsome
    rw [piecesFrom, glue_single, List.append_nil, segmentsOf, hraw, segmentOf, h.reads]
    rfl

/-- **The segments of a text are what its pieces stand for.** -/
theorem segments_eq_segmentsOf (separator : Char) (escapes : Bool) (text : List Char) :
    segments separator escapes text = segmentsOf escapes (pieces separator escapes text) := by
  rw [segments, segmentsFrom_eq 0 (.nil escapes text), glue_nil_nil (piecesFrom_ne_nil _ _ _ _), pieces]

end Template.Token
