import Template.Proofs.Parts
import Template.Proofs.Spans

/-!
# `Template.Proofs.Verbatim` — the tokens inside of a token

A token may hold further tokens, and what reads its parts must leave these alone. It does not cut them: each of them,
at each of its places, lies within one piece, between two bars and, in front of the first bar, between two colons
(`exists_covers`). It does not always leave them as they are, though. A backslash in front of a colon is taken off
wherever the colon stands, inside of a token as well. A segment thus holds the tokens of its piece without their
escapes (`occurrences_unescape`), and a token comes through verbatim exactly if no colon in it is escaped
(`nested_token_survives_iff`). In one that does not, the colon separates when it is read in its turn
(`nested_escape_lost`).

## Contents
- `EscapesColon`, `unescape_eq_self_iff` — texts with escaped colons.
- `occurrences_unescape` — the scanner in a text without its escapes.
- `Covers`, `exists_covers` — tokens lie within pieces.
- `nested_token_survives_iff`.
-/

namespace Template

namespace Token

variable {separator : Char} {escapes : Bool}

/-! ## Escaped colons -/

/-- A colon of the text has a backslash in front of it. -/
def EscapesColon (text : List Char) : Prop :=
  ['\\', ':'] <:+: text

instance (text : List Char) : Decidable (EscapesColon text) :=
  inferInstanceAs (Decidable (_ <:+: _))

/-- Only the backslash of an escaped colon is taken off. -/
theorem unescape_cons_cases (c : Char) (rest : List Char) :
    unescape (c :: rest) = c :: unescape rest ∨
      unescape (c :: rest) = unescape rest ∧ c = '\\' ∧ ∃ tail, rest = ':' :: tail := by
  by_cases h : c = '\\' ∧ rest.head? = some ':'
  · obtain ⟨rfl, hhead⟩ := h
    obtain ⟨tail, rfl⟩ := List.head?_eq_some_iff.mp hhead
    right
    refine ⟨?_, rfl, tail, rfl⟩
    rw [unescape, unescape_cons (by simp)]
  · exact .inl (unescape_cons h)

theorem length_unescape_le (text : List Char) : (unescape text).length ≤ text.length := by
  induction text with
  | nil => exact Nat.le_refl 0
  | cons c rest ih =>
    rcases unescape_cons_cases c rest with h | ⟨h, -⟩
    · rw [h, List.length_cons, List.length_cons]
      omega
    · rw [h, List.length_cons]
      omega

/-- A text reads itself exactly if it has no escaped colon. -/
theorem unescape_eq_self_iff {text : List Char} : unescape text = text ↔ ¬ EscapesColon text := by
  fun_induction unescape text with
  | case1 rest ih =>
    have hle := length_unescape_le rest
    constructor
    · intro heq
      have hlength := congrArg List.length heq
      simp only [List.length_cons] at hlength
      omega
    · intro hnone
      exact absurd (List.prefix_append ['\\', ':'] rest).isInfix hnone
  | case2 c rest hescape ih =>
    have hfront : ¬ ['\\', ':'] <+: c :: rest := by
      rintro ⟨tail, htail⟩
      cases htail
      exact hescape tail rfl rfl
    rw [List.cons_inj_right, ih, EscapesColon, EscapesColon, List.infix_cons_iff, not_or]
    exact ⟨fun h => ⟨hfront, h⟩, fun h => h.2⟩
  | case3 => simp [EscapesColon]

/-! ## The scanner in a text without its escapes -/

/-- No brace stands in front that did not stand there before. -/
theorem head?_of_head?_unescape {text : List Char} {d : Char} (hd : d ≠ ':') (h : (unescape text).head? = some d) :
    text.head? = some d := by
  cases text with
  | nil => exact h
  | cons c rest =>
    rcases unescape_cons_cases c rest with heq | ⟨heq, rfl, tail, rfl⟩
    · rwa [heq] at h
    · rw [heq, unescape_cons (by simp)] at h
      exact absurd (Option.some.inj h).symm hd

theorem Alone.unescape {c : Char} {rest : List Char} (h : Alone c rest) : Alone c (unescape rest) := by
  intro d tail htail
  by_cases hd : d = ':'
  · subst hd
    exact ⟨by simp, by simp⟩
  · have hhead := head?_of_head?_unescape hd (by rw [htail]; rfl)
    obtain ⟨tail', htail'⟩ := List.head?_eq_some_iff.mp hhead
    exact h d tail' htail'

theorem unescape_append_brace (text rest : List Char) :
    unescape (text ++ '}' :: rest) = unescape text ++ '}' :: unescape rest := by
  rw [unescape_append (by simp), unescape_cons (by simp)]

theorem unescape_bracket (inside rest : List Char) :
    unescape (bracket inside ++ rest) = bracket (unescape inside) ++ unescape rest := by
  rw [bracket_append, unescape_cons (by simp), unescape_cons (by simp), unescape_append_brace, unescape_cons (by simp),
    ← bracket_append]

theorem unescape_bracket_self (inside : List Char) : unescape (bracket inside) = bracket (unescape inside) := by
  have h := unescape_bracket inside []
  rwa [List.append_nil, unescape, List.append_nil] at h

theorem Balanced.unescape {inside : List Char} (h : Balanced inside) : Balanced (unescape inside) := by
  induction h with
  | nil => exact .nil
  | @plain c rest hc _ ih =>
    rcases unescape_cons_cases c rest with heq | ⟨heq, -⟩
    · have halone := hc.unescape
      rw [unescape_append_brace] at halone
      rw [heq]
      exact .plain halone ih
    · rw [heq]
      exact ih
  | token _ _ ihInside ihRest =>
    rw [unescape_bracket]
    exact .token ihInside ihRest

theorem Unclosed.unescape {text : List Char} (h : Unclosed text) : Unclosed (unescape text) := by
  induction h with
  | nil => exact .nil
  | @plain c rest hc _ ih =>
    rcases unescape_cons_cases c rest with heq | ⟨heq, -⟩
    · rw [heq]
      exact .plain hc.unescape ih
    · rw [heq]
      exact ih
  | token hinside _ ih =>
    rw [unescape_bracket]
    exact .token hinside.unescape ih
  | opening _ ih =>
    rw [unescape_cons (by simp), unescape_cons (by simp)]
    exact .opening ih

/-- **The tokens of a text without its escapes are those of the text without theirs.** -/
theorem occurrences_unescape (text : List Char) : occurrences (unescape text) = (occurrences text).map unescape := by
  induction text using scan_induction with
  | nil => rw [unescape, occurrences_nil, List.map_nil]
  | plain c rest hplain ih =>
    rw [occurrences_cons hplain]
    -- a backslash that is taken off opened nothing, and neither does what then stands in its place
    rcases unescape_cons_cases c rest with heq | ⟨heq, -⟩
    · rw [heq, occurrences_cons, ih]
      rintro ⟨tail, rfl, htail⟩
      have hhead := head?_of_head?_unescape (d := '{') (by decide) (by rw [htail]; rfl)
      obtain ⟨tail', htail'⟩ := List.head?_eq_some_iff.mp hhead
      exact hplain ⟨tail', rfl, htail'⟩
    · rw [heq, ih]
  | token inside rest hinside ihInside ihRest =>
    rw [unescape_bracket, occurrences_bracket hinside.unescape, ihInside, ihRest, occurrences_bracket hinside,
      List.map_cons, List.map_append, unescape_bracket_self]
  | unclosed rest hunclosed =>
    rw [unescape_cons (by simp), unescape_cons (by simp), occurrences_unclosed hunclosed.unescape,
      occurrences_unclosed hunclosed, List.map_nil]

/-- Blanks around a text do not matter to the scanner. -/
theorem tokens_trim (text : List Char) : tokens (Text.trim text) = tokens text := by
  obtain ⟨front, back, hfront, hback, htext⟩ := Text.exists_blanks_trim text
  have htokens := tokens_framed (braceless_of_blank hfront) (braceless_of_blank hback) (Text.trim text)
  rw [← htokens, ← htext]

/-- A segment holds the tokens of its piece, without their escapes. -/
theorem mem_tokens_segmentOf {piece token : List Char} (h : token ∈ occurrences piece) :
    unescape token ∈ tokens (segmentOf true piece) := by
  show unescape token ∈ tokens (Text.trim (unescape piece))
  rw [tokens_trim, tokens, List.mem_eraseDups, occurrences_unescape]
  exact List.mem_map_of_mem h

/-! ## Tokens within pieces -/

/-- The token that stands at `place` in a text stands in its piece number `index`, at `offset`. The pieces in front
of that one, and one separator behind each of them, make up the rest of the place. -/
structure Covers (pieces : List (List Char)) (place : Nat) (token : List Char) (index offset : Nat)
    (piece : List Char) : Prop where
  isPiece : pieces[index]? = some piece
  counts : place = (pieces.take index).flatten.length + index + offset
  stands : StandsAt piece offset token

section

variable {pieces : List (List Char)} {place index offset : Nat} {token piece : List Char}

/-- Behind a separator, the pieces are counted from the next one. -/
theorem Covers.behind (h : Covers pieces place token index offset piece) (first : List Char) :
    Covers (first :: pieces) (place + (first.length + 1)) token (index + 1) offset piece where
  isPiece := by rw [List.getElem?_cons_succ, h.isPiece]
  counts := by
    rw [h.counts, List.take_succ_cons, List.flatten_cons, List.length_append]
    omega
  stands := h.stands

/-- The first piece may go on in front, if the token stands in what it becomes. -/
theorem Covers.glue (h : Covers pieces place token index offset piece) {front : List Char}
    (hfirst : ∀ first behind, pieces = first :: behind →
      StandsAt first offset token → StandsAt (front ++ first) (offset + front.length) token) :
    ∃ index offset piece, Covers (glue [front] pieces) (place + front.length) token index offset piece := by
  obtain ⟨hpiece, hplace, hstands⟩ := h
  cases pieces with
  | nil => cases hpiece
  | cons first behind =>
    rw [glue_single]
    cases index with
    | zero =>
      obtain rfl : first = piece := Option.some.inj hpiece
      refine ⟨0, offset + front.length, front ++ first, rfl, ?_, hfirst first behind rfl hstands⟩
      rw [hplace, List.take_zero, List.take_zero]
      omega
    | succ index =>
      refine ⟨index + 1, offset, piece, hpiece, ?_, hstands⟩
      rw [hplace, List.take_succ_cons, List.take_succ_cons, List.flatten_cons, List.flatten_cons, List.length_append,
        List.length_append, List.length_append]
      omega

end

/-- Every token of the text lies in a piece. -/
def Covered (separator : Char) (escapes : Bool) (text : List Char) : Prop :=
  ∀ place token, StandsAt text place token →
    ∃ index offset piece, Covers (pieces separator escapes text) place token index offset piece

theorem not_opening_first {c : Char} {rest first : List Char} {behind : List (List Char)}
    (hplain : ¬ ∃ tail, c = '{' ∧ rest = '{' :: tail) (h : pieces separator escapes rest = first :: behind) :
    ¬ ∃ tail, c = '{' ∧ first = '{' :: tail := by
  rintro ⟨tail, hc, rfl⟩
  obtain ⟨more, hmore⟩ := prefix_of_pieces h
  exact hplain ⟨tail ++ more, hc, hmore.symm⟩

theorem covered_cons {c : Char} {rest : List Char} (hplain : ¬ ∃ tail, c = '{' ∧ rest = '{' :: tail)
    (he : ¬ (escapes = true ∧ c = '\\' ∧ ∃ tail, rest = ':' :: tail)) (hc : c ≠ separator)
    (h : Covered separator escapes rest) : Covered separator escapes (c :: rest) := by
  have hpieces : pieces separator escapes (c :: rest) = glue [[c]] (pieces separator escapes rest) := by
    rcases alone_or_pair c rest with halone | hopen | ⟨tail, rfl, rfl⟩
    · exact piecesFrom_plain halone he fun hs => hc hs.1
    · exact absurd hopen hplain
    · rw [pieces, piecesFrom, pieces]
  intro place token hstands
  obtain ⟨own, rfl, hown⟩ := (standsAt_cons hplain).mp hstands
  obtain ⟨index, offset, piece, hcovers⟩ := h own token hown
  rw [hpieces]
  refine hcovers.glue ?_
  intro first behind hfirst hstands
  exact (standsAt_cons (not_opening_first hplain hfirst)).mpr ⟨offset, rfl, hstands⟩

/-- What stands behind an escaped colon is covered; the backslash and the colon belong to the piece. -/
theorem covered_escape {rest : List Char} (h : Covered separator true rest) :
    Covered separator true ('\\' :: ':' :: rest) := by
  intro place token hstands
  obtain ⟨behind, rfl, hbehind⟩ := (standsAt_cons (by simp)).mp hstands
  obtain ⟨own, rfl, hown⟩ := (standsAt_cons (by simp)).mp hbehind
  obtain ⟨index, offset, piece, hcovers⟩ := h own token hown
  rw [pieces, piecesFrom, if_pos rfl]
  refine hcovers.glue ?_
  intro first behind _ hstands
  have hcolon : StandsAt (':' :: first) (offset + 1) token := (standsAt_cons (by simp)).mpr ⟨offset, rfl, hstands⟩
  exact (standsAt_cons (by simp)).mpr ⟨offset + 1, rfl, hcolon⟩

theorem covered_separator {rest : List Char} (hs : MaySeparate separator) (h : Covered separator escapes rest) :
    Covered separator escapes (separator :: rest) := by
  intro place token hstands
  obtain ⟨own, rfl, hown⟩ := (standsAt_cons (hs.alone rest).not_opening).mp hstands
  obtain ⟨index, offset, piece, hcovers⟩ := h own token hown
  rw [pieces, piecesFrom_cut (hs.alone rest) hs.notEscape]
  exact ⟨index + 1, offset, piece, hcovers.behind []⟩

theorem covered_bracket {inside rest : List Char} (hinside : Balanced inside) (h : Covered separator escapes rest) :
    Covered separator escapes (bracket inside ++ rest) := by
  intro place token hstands
  obtain ⟨first, behind, hpieces⟩ := exists_first_piece separator escapes 0 rest
  rw [← pieces] at hpieces
  rw [pieces_bracket hinside]
  -- the token in front and those inside of it stand in the first piece, the others where they stood before
  have hfirst : StandsAt (bracket inside ++ first) place token → ∃ index offset piece,
      Covers (glue [bracket inside] (pieces separator escapes rest)) place token index offset piece := by
    intro hin
    rw [hpieces, glue_single]
    refine ⟨0, place, bracket inside ++ first, rfl, ?_, hin⟩
    simp
  rcases (standsAt_bracket hinside).mp hstands with hself | hin | ⟨own, rfl, hown⟩
  · exact hfirst ((standsAt_bracket hinside).mpr (.inl hself))
  · exact hfirst ((standsAt_bracket hinside).mpr (.inr (.inl hin)))
  · obtain ⟨index, offset, piece, hcovers⟩ := h own token hown
    rw [← length_bracket]
    refine hcovers.glue ?_
    intro first behind _ hstands
    rw [length_bracket]
    exact (standsAt_bracket hinside).mpr (.inr (.inr ⟨offset, rfl, hstands⟩))

/-- **No token is cut.** Wherever a token stands in a text, it stands in one of the pieces. -/
theorem covered (hs : MaySeparate separator) (text : List Char) : Covered separator escapes text := by
  -- behind a backslash a colon is passed over, and what stands behind the colon is needed
  suffices h : Covered separator escapes text ∧ ∀ rest, text = ':' :: rest → Covered separator escapes rest from h.1
  induction text using scan_induction with
  | nil =>
    refine ⟨?_, fun rest h => nomatch h⟩
    intro place token hstands
    exact absurd (lt_of_standsAt hstands) (Nat.not_lt_zero place)
  | plain c rest hplain ih =>
    refine ⟨?_, ?_⟩
    · by_cases hescape : escapes = true ∧ c = '\\' ∧ ∃ tail, rest = ':' :: tail
      · obtain ⟨rfl, rfl, tail, rfl⟩ := hescape
        exact covered_escape (ih.2 tail rfl)
      · by_cases hc : c = separator
        · subst hc
          exact covered_separator hs ih.1
        · exact covered_cons hplain hescape hc ih.1
    · intro tail htail
      cases htail
      exact ih.1
  | token inside rest hinside _ ih => exact ⟨covered_bracket hinside ih.1, fun rest h => nomatch h⟩
  | unclosed rest hunclosed =>
    refine ⟨?_, fun rest h => nomatch h⟩
    intro place token hstands
    exact absurd hstands (not_standsAt_unclosed hunclosed place token)

/-! ## The segment of a piece -/

/-- A token that stands in a text, with what is in front of it and behind it. -/
theorem eq_append_of_standsAt {text token : List Char} {place : Nat} (h : StandsAt text place token) :
    text = text.take place ++ token ++ text.drop (place + token.length) := by
  obtain ⟨span, -, -, rfl, rfl⟩ := h
  obtain ⟨behind, hbehind⟩ := List.take_prefix (span.stop - span.start) (text.drop span.start)
  have hdrop : text.drop (span.start + (span.cut text).length) = behind := by
    rw [← List.drop_drop, ← hbehind]
    exact List.drop_left
  rw [hdrop, List.append_assoc, Span.cut, hbehind, List.take_append_drop]

theorem exists_inside_of_standsAt {text token : List Char} {place : Nat} (h : StandsAt text place token) :
    ∃ inside, token = bracket inside := by
  obtain ⟨inside, -, htoken, -⟩ := exists_balanced_of_mem (mem_occurrences_iff.mpr ⟨place, h⟩)
  exact ⟨inside, htoken⟩

theorem dropWhile_append_cons {p : Char → Bool} {c : Char} (h : p c = false) (front back : List Char) :
    (front ++ c :: back).dropWhile p = front.dropWhile p ++ c :: back := by
  induction front with
  | nil => simp [h]
  | cons d front ih =>
    by_cases hd : p d = true
    · simp [hd, ih]
    · simp [hd]

theorem dropEnd_append_cons {p : Char → Bool} {c : Char} (h : p c = false) (front back : List Char) :
    Text.dropEnd p (front ++ c :: back) = front ++ c :: Text.dropEnd p back := by
  simp [Text.dropEnd, dropWhile_append_cons h]

/-- Around a token, blanks are trimmed away from its surroundings only. -/
theorem trim_around (front inside back : List Char) :
    Text.trim (front ++ bracket inside ++ back) =
      front.dropWhile Text.isBlank ++ bracket inside ++ Text.dropEnd Text.isBlank back := by
  have hends : front ++ bracket inside ++ back = front ++ '{' :: ('{' :: inside ++ ['}'] ++ '}' :: back) := by
    simp [bracket]
  rw [hends, Text.trim, Text.stripBy, dropWhile_append_cons (by decide), ← List.cons_append, ← List.append_assoc,
    dropEnd_append_cons (by decide)]
  simp [bracket]

/-- What is read of a piece in which a token stands. -/
theorem segmentOf_of_standsAt {piece token : List Char} {offset : Nat} (h : StandsAt piece offset token) :
    segmentOf true piece =
      (unescape (piece.take offset)).dropWhile Text.isBlank ++ unescape token ++
        Text.dropEnd Text.isBlank (unescape (piece.drop (offset + token.length))) := by
  obtain ⟨inside, rfl⟩ := exists_inside_of_standsAt h
  have hpiece := eq_append_of_standsAt h
  show Text.trim (unescape piece) = _
  rw [unescape_bracket_self, ← trim_around, ← unescape_bracket_self]
  congr 1
  rw [unescape_bracket_self, List.append_assoc, ← unescape_bracket, ← unescape_append, ← List.append_assoc, ← hpiece]
  simp [bracket]

theorem getElem?_withoutLastEmpty {segments : List (List Char)} {index : Nat} {segment : List Char}
    (h : segments[index]? = some segment) (hne : segment ≠ []) :
    (withoutLastEmpty segments)[index]? = some segment := by
  fun_induction withoutLastEmpty segments generalizing index with
  | case1 => exact h
  | case2 last hempty =>
    cases index with
    | zero =>
      obtain rfl : last = segment := Option.some.inj h
      exact absurd (List.isEmpty_iff.mp hempty) hne
    | succ index => cases h
  | case3 last _ => exact h
  | case4 first next segments ih =>
    cases index with
    | zero => exact h
    | succ index => exact ih h

end Token

open Token

namespace Placeholder

variable {p : Placeholder}

/-- A piece in which a token stands is read as a segment. -/
theorem Says.segment {main : List Char} {behind : List (List Char)} (h : p.Says main behind) {place index offset : Nat}
    {token piece : List Char} (hc : Covers (pieces ':' true main) place token index offset piece) :
    p.segments[index]? = some (segmentOf true piece) := by
  rw [← h.segments]
  apply getElem?_withoutLastEmpty
  · rw [List.getElem?_map, hc.isPiece, Option.map_some]
  · intro hnil
    have hmem := mem_tokens_segmentOf (mem_occurrences_iff.mpr ⟨offset, hc.stands⟩)
    rw [hnil, tokens, occurrences_nil] at hmem
    cases hmem

/-- A token reads the same without its escapes only if it has none. -/
theorem parse_unescape_iff {text token : List Char} {place : Nat} (h : StandsAt text place token) {q : Placeholder}
    (hq : Placeholder.parse token = .ok q) : Placeholder.parse (unescape token) = .ok q ↔ ¬ EscapesColon token := by
  obtain ⟨inside, rfl⟩ := exists_inside_of_standsAt h
  rw [← unescape_eq_self_iff]
  constructor
  · intro hread
    have htoken := (parse_eq_ok_iff.mp hq).2.1
    have htoken' := (parse_eq_ok_iff.mp hread).2.1
    rw [unescape_bracket_self, trim_bracket] at htoken'
    rw [htoken', trim_bracket] at htoken
    rw [unescape_bracket_self]
    exact String.ofList_injective htoken
  · intro hself
    rw [hself, hq]

/-- **The tokens inside of a token are not cut, and come through verbatim but for their escapes.** A token that stands
in the interior lies within one of the pieces between the bars, which say the parts. One that stands in the first of
these pieces lies within one piece between the colons, and the segment of that piece holds it, at its place, without
its escapes. So it comes through verbatim, and says there what it says here, exactly if no colon in it is escaped. -/
theorem nested_token_survives_iff {text : List Char} (h : Placeholder.parse text = .ok p) :
    ∃ main behind, pieces '|' false (interior (Text.trim text)) = main :: behind ∧ p.Says main behind ∧
      (∀ place token, StandsAt (interior (Text.trim text)) place token →
        ∃ index offset piece, Covers (main :: behind) place token index offset piece ∧
          (index = 0 → StandsAt main place token)) ∧
      ∀ place token, StandsAt main place token →
        ∃ index offset piece segment,
          Covers (pieces ':' true main) place token index offset piece ∧
          p.segments[index]? = some segment ∧
          segment = (unescape (piece.take offset)).dropWhile Text.isBlank ++ unescape token ++
            Text.dropEnd Text.isBlank (unescape (piece.drop (offset + token.length))) ∧
          unescape token ∈ tokens segment ∧
          (unescape token = token ↔ ¬ EscapesColon token) ∧
          ∀ q, Placeholder.parse token = .ok q →
            (Placeholder.parse (unescape token) = .ok q ↔ ¬ EscapesColon token) := by
  obtain ⟨-, -, main, behind, hpieces, hsays⟩ := parse_eq_ok_iff.mp h
  refine ⟨main, behind, hpieces, hsays, ?_, ?_⟩
  · have hcovered : Covered '|' false (interior (Text.trim text)) := covered maySeparate_bar _
    intro place token hstands
    obtain ⟨index, offset, piece, hcovers⟩ := hcovered place token hstands
    rw [hpieces] at hcovers
    refine ⟨index, offset, piece, hcovers, ?_⟩
    rintro rfl
    have hplace := hcovers.counts
    rw [List.take_zero, List.flatten_nil, List.length_nil, Nat.zero_add] at hplace
    obtain rfl : main = piece := Option.some.inj hcovers.isPiece
    rw [hplace]
    exact hcovers.stands
  · intro place token hstands
    -- the same once more, for the first piece and the colons
    obtain ⟨index, offset, piece, hcovers⟩ := covered maySeparate_colon main place token hstands
    exact ⟨index, offset, piece, _, hcovers, hsays.segment hcovers, segmentOf_of_standsAt hcovers.stands,
      mem_tokens_segmentOf (mem_occurrences_iff.mpr ⟨offset, hcovers.stands⟩), unescape_eq_self_iff,
      fun q hq => parse_unescape_iff hstands hq⟩

/-- A token without an escape of its own in one that has an escape. -/
theorem nested_token_survives_beside_escape :
    let text := "\x7b\x7ba:b\\:c:\x7b\x7bd:e|f:g\x7d\x7d|h\x7d\x7d".toList
    let token := "\x7b\x7bd:e|f:g\x7d\x7d".toList
    let p : Placeholder := {
      token := String.ofList text
      module := "a"
      action := "b:c"
      args := [String.ofList token]
      transforms := [⟨"h", []⟩] }
    Placeholder.parse text = .ok p ∧ StandsAt (interior text) 7 token ∧
      ∃ segment ∈ p.segments, token ∈ tokens segment := by
  intro text token p
  have hparse : Placeholder.parse text = .ok p := by rfl
  have hpieces : pieces '|' false (interior (Text.trim text)) = [(interior text).dropLast.dropLast, ['h']] := by
    decide +kernel
  obtain ⟨main, behind, heq, -, -, hmain⟩ := nested_token_survives_iff hparse
  obtain ⟨rfl, -⟩ := List.cons.inj (heq.symm.trans hpieces)
  obtain ⟨index, -, -, segment, -, hsegment, -, hmem, hself, -⟩ := hmain 7 token (by decide +kernel)
  rw [hself.mpr (by decide +kernel)] at hmem
  exact ⟨hparse, by decide +kernel, segment, List.mem_of_getElem? hsegment, hmem⟩

/-- A token with an escaped colon, as the argument of another one, is not what it was: taken from there, it has one
argument more. -/
theorem nested_escape_lost :
    let text := "\x7b\x7ba:b:\x7b\x7bc:d:x\\:y\x7d\x7d\x7d\x7d".toList
    let token := "\x7b\x7bc:d:x\\:y\x7d\x7d".toList
    let arg := "\x7b\x7bc:d:x:y\x7d\x7d".toList
    StandsAt (interior text) 4 token ∧ ¬ token <:+: arg ∧
      Placeholder.parse text = .ok ⟨String.ofList text, "a", "b", [String.ofList arg], []⟩ ∧
      Placeholder.parse token = .ok ⟨String.ofList token, "c", "d", ["x:y"], []⟩ ∧
      Placeholder.parse arg = .ok ⟨String.ofList arg, "c", "d", ["x", "y"], []⟩ := by
  intro text token arg
  have hstands : StandsAt (interior text) 4 token := by decide +kernel
  have hlost : ¬ token <:+: arg := by decide +kernel
  have hparse : Placeholder.parse text = .ok ⟨String.ofList text, "a", "b", [String.ofList arg], []⟩ := by rfl
  have hhere : Placeholder.parse token = .ok ⟨String.ofList token, "c", "d", ["x:y"], []⟩ := by rfl
  have hthere : Placeholder.parse arg = .ok ⟨String.ofList arg, "c", "d", ["x", "y"], []⟩ := by rfl
  exact ⟨hstands, hlost, hparse, hhere, hthere⟩

end Placeholder

end Template
