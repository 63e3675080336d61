import Template.Proofs.Pieces

/-!
# `Template.Proofs.Parts` — the parts of a token, from its pieces

Blanks around a stretch do not matter to its pieces, which are trimmed in the end. So a token is read as follows,
whatever blanks and braces there are in it: its interior is cut at the bars; the first piece is cut at the colons
that are not escaped, and says module, action and arguments; each piece behind it is cut at all of its colons, and
says a transform (`parse_eq_ok_iff`).

## Contents
- `Text.exists_blanks_trim`, `Text.trim_eq_nil_iff` — what `trim` takes off.
- `Token.Cuts` — what cutting at colons has in common inside of and behind the first piece.
- `Token.segments_trim` — the segments of a trimmed stretch.
- `Placeholder.Says`, `Placeholder.parse_eq_ok_iff` — the parts of a token.
-/

namespace Template

namespace Text

/-! ## Blanks -/

theorem ne_of_isBlank {c d : Char} (hc : isBlank c = true) (hd : isBlank d = false) : c ≠ d := by
  rintro rfl
  rw [hc] at hd
  cases hd

theorem dropEnd_append_takeWhile (p : Char → Bool) (text : List Char) :
    dropEnd p text ++ (text.reverse.takeWhile p).reverse = text := by
  rw [dropEnd, ← List.reverse_append, List.takeWhile_append_dropWhile, List.reverse_reverse]

/-- A text is what `trim` leaves of it, with blanks around. -/
theorem exists_blanks_trim (text : List Char) :
    ∃ front back, front.all isBlank = true ∧ back.all isBlank = true ∧ text = front ++ trim text ++ back := by
  refine ⟨text.takeWhile isBlank, ((text.dropWhile isBlank).reverse.takeWhile isBlank).reverse,
    List.all_takeWhile, ?_, ?_⟩
  · rw [List.all_reverse]
    exact List.all_takeWhile
  · rw [List.append_assoc, trim, stripBy, dropEnd_append_takeWhile, List.takeWhile_append_dropWhile]

theorem trim_trim (text : List Char) : trim (trim text) = trim text := by
  obtain ⟨front, back, hfront, hback, htext⟩ := exists_blanks_trim text
  have htrim : trim (front ++ trim text ++ back) = trim (trim text) := trim_surrounded hfront hback
  rw [← htext] at htrim
  exact htrim.symm

theorem trim_of_all_blank {text : List Char} (h : text.all isBlank = true) : trim text = [] := by
  have htrim := trim_append_blank h []
  rwa [List.nil_append] at htrim

/-- What is left has no blank at its end. -/
theorem isBlank_of_getLast?_trim {text : List Char} {c : Char} (h : (trim text).getLast? = some c) :
    isBlank c = false := by
  rw [trim, stripBy, dropEnd, List.getLast?_reverse] at h
  have hhead := List.head?_dropWhile_not isBlank (text.dropWhile isBlank).reverse
  rw [h] at hhead
  simpa using hhead

theorem trim_eq_nil_iff {text : List Char} : trim text = [] ↔ text.all isBlank = true := by
  refine ⟨?_, trim_of_all_blank⟩
  intro h
  obtain ⟨front, back, hfront, hback, htext⟩ := exists_blanks_trim text
  rw [htext, h, List.append_nil, List.all_append, hfront, hback]
  rfl

/-- A text without blanks is not trimmed. -/
theorem trim_of_blankless {text : List Char} (h : text.any isBlank = false) : trim text = text := by
  obtain ⟨front, back, hfront, hback, htext⟩ := exists_blanks_trim text
  have hnil : ∀ {blanks : List Char}, blanks.all isBlank = true → (∀ c ∈ blanks, c ∈ text) → blanks = [] := by
    intro blanks hall hmem
    rw [List.eq_nil_iff_forall_not_mem]
    intro c hc
    exact List.any_eq_false.mp h c (hmem c hc) (List.all_eq_true.mp hall c hc)
  have hf : front = [] := hnil hfront fun c hc => htext ▸ List.mem_append_left _ (List.mem_append_left _ hc)
  have hb : back = [] := hnil hback fun c hc => htext ▸ List.mem_append_right _ hc
  rw [hf, hb, List.nil_append, List.append_nil] at htext
  exact htext.symm

/-! ## Cutting at colons -/

theorem splitOn_cons {sep c : Char} (h : c ≠ sep) (rest : List Char) :
    splitOn sep (c :: rest) = Token.glue [[c]] (splitOn sep rest) := by
  rw [splitOn, if_neg h]
  cases hrest : splitOn sep rest with
  | nil => exact absurd hrest (splitOn_ne_nil sep rest)
  | cons part parts => rfl

/-- A text is cut within its parts, and nowhere else. -/
theorem splitOn_append (sep : Char) (first second : List Char) :
    splitOn sep (first ++ second) = Token.glue (splitOn sep first) (splitOn sep second) := by
  induction first with
  | nil => rw [List.nil_append, splitOn, Token.glue_nil_nil (splitOn_ne_nil sep second)]
  | cons c first ih =>
    rw [List.cons_append]
    by_cases hc : c = sep
    · rw [splitOn, if_pos hc, splitOn, if_pos hc, ih, Token.glue_cons _ (splitOn_ne_nil sep first)]
    · rw [splitOn_cons hc, splitOn_cons hc, ih, Token.glue_glue _ (splitOn_ne_nil sep first)]

theorem splitOn_append_separator (sep : Char) (before after : List Char) :
    splitOn sep (before ++ sep :: after) = splitOn sep before ++ splitOn sep after := by
  rw [splitOn_append, splitOn, if_pos rfl, Token.glue_nil_cons (splitOn_ne_nil sep before)]

theorem splitOn_of_not_mem {sep : Char} {text : List Char} (h : sep ∉ text) : splitOn sep text = [text] := by
  induction text with
  | nil => rfl
  | cons c rest ih =>
    rw [List.mem_cons, not_or] at h
    rw [splitOn_cons (Ne.symm h.1), ih h.2]
    rfl

end Text

namespace Token

variable {separator : Char} {escapes : Bool}

theorem leftOpenFrom_braceless {chars : List Char} (h : Braceless chars) (opened : Nat) :
    leftOpenFrom opened chars = opened := by
  induction chars with
  | nil => rfl
  | cons c chars ih =>
    obtain ⟨hc, hchars⟩ := braceless_cons.mp h
    rw [leftOpenFrom_alone opened (alone_of_notBrace hc chars), ih hchars]

/-- A stretch without braces, separators and escapes is one piece. -/
theorem piecesFrom_stretch {chars : List Char} (hb : Braceless chars) (hs : separator ∉ chars)
    (he : escapes = true → '\\' ∉ chars) (opened : Nat) : piecesFrom separator escapes opened chars = [chars] := by
  induction chars with
  | nil => rfl
  | cons c chars ih =>
    obtain ⟨hc, hchars⟩ := braceless_cons.mp hb
    rw [List.mem_cons, not_or] at hs
    rw [piecesFrom_plain (alone_of_notBrace hc chars), ih hchars hs.2]
    · rfl
    · exact fun hescapes hmem => he hescapes (List.mem_cons_of_mem c hmem)
    · rintro ⟨hescapes, rfl, -⟩
      exact he hescapes List.mem_cons_self
    · rintro ⟨rfl, -⟩
      exact hs.1 rfl

theorem not_mem_of_blank {blanks : List Char} (h : blanks.all Text.isBlank = true) {c : Char}
    (hc : Text.isBlank c = false) : c ∉ blanks := by
  intro hmem
  exact Text.ne_of_isBlank (List.all_eq_true.mp h c hmem) hc rfl

theorem piecesFrom_blank (hseparator : MaySeparate separator) {blanks : List Char}
    (h : blanks.all Text.isBlank = true) (opened : Nat) : piecesFrom separator escapes opened blanks = [blanks] :=
  piecesFrom_stretch (braceless_of_blank h) (not_mem_of_blank h hseparator.notBlank)
    (fun _ => not_mem_of_blank h (by decide)) opened

/-- Blanks may stand in a seam. -/
theorem Seam.blank_append {blanks before after : List Char} (hs : Seam escapes before after)
    (h : blanks.all Text.isBlank = true) : Seam escapes before (blanks ++ after) := by
  cases blanks with
  | nil => exact hs
  | cons b blanks =>
    rw [List.all_cons, Bool.and_eq_true] at h
    apply Seam.of_head (Text.ne_of_isBlank h.1 (by decide)) (Text.ne_of_isBlank h.1 (by decide))
    intro _ hcolon
    exact absurd hcolon (Text.ne_of_isBlank h.1 (by decide))

theorem Seam.append_blank {blanks before after : List Char} (hs : Seam escapes before after)
    (h : blanks.all Text.isBlank = true) : Seam escapes (before ++ blanks) after := by
  rcases List.eq_nil_or_concat blanks with rfl | ⟨front, b, rfl⟩
  · rwa [List.append_nil]
  · rw [List.concat_eq_append, List.all_append, Bool.and_eq_true] at h
    have hb : Text.isBlank b = true := List.all_eq_true.mp h.2 b List.mem_cons_self
    rw [List.concat_eq_append, ← List.append_assoc]
    exact Seam.of_last (Text.ne_of_isBlank hb (by decide)) (Text.ne_of_isBlank hb (by decide))
      (Text.ne_of_isBlank hb (by decide)) _ _

/-! ## Blanks around pieces -/

theorem meaning_of_blank {blanks : List Char} (h : blanks.all Text.isBlank = true) :
    meaning escapes blanks = blanks := by
  induction blanks with
  | nil => cases escapes <;> rfl
  | cons b blanks ih =>
    rw [List.all_cons, Bool.and_eq_true] at h
    have hb : b ≠ '\\' := Text.ne_of_isBlank h.1 (by decide)
    rw [← List.singleton_append, meaning_append, meaning_singleton, ih h.2]
    intro _ hlast
    exact absurd (Option.some.inj hlast) hb

theorem segmentOf_blank_append {blanks : List Char} (h : blanks.all Text.isBlank = true) (piece : List Char) :
    segmentOf escapes (blanks ++ piece) = segmentOf escapes piece := by
  rw [segmentOf, meaning_append, meaning_of_blank h, Text.trim_blank_append h, segmentOf]
  intro _ hlast
  exact absurd (List.mem_of_getLast? hlast) (not_mem_of_blank h (by decide))

theorem segmentOf_append_blank {blanks : List Char} (h : blanks.all Text.isBlank = true) (piece : List Char) :
    segmentOf escapes (piece ++ blanks) = segmentOf escapes piece := by
  rw [segmentOf, meaning_append, meaning_of_blank h, Text.trim_append_blank h, segmentOf]
  intro _ _ hhead
  exact absurd (List.mem_of_head? hhead) (not_mem_of_blank h (by decide))

/-- A way of cutting texts, and of reading what they are cut into, to which blanks around a text do not matter. -/
structure Cuts (cut : List Char → List (List Char)) (read : List Char → List Char) : Prop where
  ne_nil : ∀ text, cut text ≠ []
  blank_append : ∀ {blanks : List Char}, blanks.all Text.isBlank = true → ∀ text,
    cut (blanks ++ text) = glue [blanks] (cut text)
  append_blank : ∀ {blanks : List Char}, blanks.all Text.isBlank = true → ∀ text,
    cut (text ++ blanks) = glue (cut text) [blanks]
  read_blank_append : ∀ {blanks : List Char}, blanks.all Text.isBlank = true → ∀ piece,
    read (blanks ++ piece) = read piece
  read_append_blank : ∀ {blanks : List Char}, blanks.all Text.isBlank = true → ∀ piece,
    read (piece ++ blanks) = read piece

theorem cuts_pieces (h : MaySeparate separator) : Cuts (pieces separator escapes) (segmentOf escapes) where
  ne_nil := piecesFrom_ne_nil separator escapes 0
  blank_append {blanks} hb text := by
    have hseam : Seam escapes ([] ++ blanks) text := (Seam.nil_left text).append_blank hb
    rw [List.nil_append] at hseam
    rw [pieces, piecesFrom_append h.notEscape hseam, piecesFrom_blank h hb,
      leftOpenFrom_braceless (braceless_of_blank hb)]
    rfl
  append_blank {blanks} hb text := by
    have hseam : Seam escapes text (blanks ++ []) := (Seam.nil_right text).blank_append hb
    rw [List.append_nil] at hseam
    rw [pieces, piecesFrom_append h.notEscape hseam, piecesFrom_blank h hb]
    rfl
  read_blank_append := segmentOf_blank_append
  read_append_blank := segmentOf_append_blank

theorem cuts_splitOn (h : Text.isBlank separator = false) : Cuts (Text.splitOn separator) Text.trim where
  ne_nil := Text.splitOn_ne_nil separator
  blank_append hb text := by rw [Text.splitOn_append, Text.splitOn_of_not_mem (not_mem_of_blank hb h)]
  append_blank hb text := by rw [Text.splitOn_append, Text.splitOn_of_not_mem (not_mem_of_blank hb h)]
  read_blank_append := Text.trim_blank_append
  read_append_blank := Text.trim_append_blank

section

variable {cut : List Char → List (List Char)} {read : List Char → List Char} (h : Cuts cut read) {blanks : List Char}
  (hb : blanks.all Text.isBlank = true)

include h hb

theorem Cuts.map_blank_append (text : List Char) : (cut (blanks ++ text)).map read = (cut text).map read := by
  obtain ⟨piece, behind, hcut⟩ := List.exists_cons_of_ne_nil (h.ne_nil text)
  rw [h.blank_append hb, hcut, glue_single, List.map_cons, List.map_cons, h.read_blank_append hb]

theorem Cuts.map_append_blank (text : List Char) : (cut (text ++ blanks)).map read = (cut text).map read := by
  obtain ⟨front, piece, hcut⟩ := List.eq_nil_or_concat (cut text) |>.resolve_left (h.ne_nil text)
  rw [h.append_blank hb, hcut, List.concat_eq_append, glue_concat, List.map_append, List.map_append, List.map_cons,
    List.map_cons, h.read_append_blank hb]

end

/-- Trimming a text first does not matter. -/
theorem Cuts.map_trim {cut : List Char → List (List Char)} {read : List Char → List Char} (h : Cuts cut read)
    (text : List Char) : (cut (Text.trim text)).map read = (cut text).map read := by
  obtain ⟨front, back, hfront, hback, htext⟩ := Text.exists_blanks_trim text
  have hcut : (cut text).map read = (cut (front ++ Text.trim text ++ back)).map read := by rw [← htext]
  rw [hcut, h.map_append_blank hback, h.map_blank_append hfront]

/-! ## Segments of a trimmed stretch -/

/-- A row of segments without the last one, if that is empty. -/
def withoutLastEmpty : List (List Char) → List (List Char)
  | [] => []
  | [segment] => if segment.isEmpty then [] else [segment]
  | segment :: next :: segments => segment :: withoutLastEmpty (next :: segments)

theorem getLast?_unescape (text : List Char) : (unescape text).getLast? = text.getLast? := by
  fun_induction unescape text with
  | case1 rest ih => simp [List.getLast?_cons, ih]
  | case2 c rest _ ih => simp [List.getLast?_cons, ih]
  | case3 => rfl

theorem getLast?_meaning (escapes : Bool) (piece : List Char) : (meaning escapes piece).getLast? = piece.getLast? := by
  cases escapes with
  | false => rfl
  | true => exact getLast?_unescape piece

theorem joinWith_concat (sep : List Char) {front : List (List Char)} (hne : front ≠ []) (piece : List Char) :
    Text.joinWith sep (front ++ [piece]) = Text.joinWith sep front ++ sep ++ piece := by
  fun_induction Text.joinWith sep front with
  | case1 => exact absurd rfl hne
  | case2 first => rfl
  | case3 first front hfront ih =>
    have hmore : front ++ [piece] ≠ [] := by simp
    rw [List.cons_append, Text.joinWith, ih fun hnil => hfront hnil]
    · simp only [List.append_assoc]
    · exact hmore

/-- The last piece stands at the end of the text. -/
theorem exists_joinWith_concat (sep : List Char) (front : List (List Char)) (piece : List Char) :
    ∃ before, Text.joinWith sep (front ++ [piece]) = before ++ piece := by
  by_cases hne : front = []
  · exact ⟨[], by rw [hne]; rfl⟩
  · exact ⟨Text.joinWith sep front ++ sep, joinWith_concat sep hne piece⟩

theorem segmentsOf_eq {pieces : List (List Char)}
    (h : ∀ piece, pieces.getLast? = some piece → segmentOf escapes piece = [] → piece = []) :
    segmentsOf escapes pieces = withoutLastEmpty (pieces.map (segmentOf escapes)) := by
  fun_induction segmentsOf escapes pieces with
  | case1 => rfl
  | case2 piece hnone =>
    have hempty : piece = [] := List.isEmpty_iff.mp hnone
    have hsegment : segmentOf escapes [] = [] := by cases escapes <;> rfl
    rw [hempty, List.map_singleton, hsegment]
    rfl
  | case3 piece hsome =>
    have hsegment : (segmentOf escapes piece).isEmpty = false := by
      rw [List.isEmpty_eq_false_iff]
      intro hsegment
      exact hsome (List.isEmpty_iff.mpr (h piece rfl hsegment))
    rw [List.map_singleton, withoutLastEmpty, hsegment]
    rfl
  | case4 piece next pieces ih =>
    rw [List.map_cons, List.map_cons, withoutLastEmpty, ← List.map_cons, ← ih]
    intro last hlast
    exact h last (by rwa [List.getLast?_cons_cons])

/-- **The segments of a trimmed stretch** are what the pieces of the stretch stand for, without a last empty one. -/
theorem segments_trim (h : MaySeparate separator) (text : List Char) :
    segments separator escapes (Text.trim text) =
      withoutLastEmpty ((pieces separator escapes text).map (segmentOf escapes)) := by
  rw [segments_eq_segmentsOf, segmentsOf_eq, (cuts_pieces h).map_trim]
  intro piece hlast hempty
  -- a piece that is not empty ends as the trimmed text does, and so not with a blank
  obtain ⟨front, hfront⟩ := List.getLast?_eq_some_iff.mp hlast
  obtain ⟨before, hbefore⟩ := exists_joinWith_concat [separator] front piece
  rw [← hfront, pieces, joinWith_piecesFrom] at hbefore
  rcases List.eq_nil_or_concat piece with hnil | ⟨more, c, hpiece⟩
  · exact hnil
  · have hend : (Text.trim text).getLast? = some c := by
      rw [hbefore, hpiece, List.concat_eq_append, ← List.append_assoc, List.getLast?_concat]
    have hc : c ∈ meaning escapes piece := by
      apply List.mem_of_getLast?
      rw [getLast?_meaning, hpiece, List.concat_eq_append, List.getLast?_concat]
    have hblank := List.all_eq_true.mp (Text.trim_eq_nil_iff.mp hempty) c hc
    rw [Text.isBlank_of_getLast?_trim hend] at hblank
    cases hblank

theorem headD_segmentsOf (main : List Char) (behind : List (List Char)) :
    (segmentsOf false (main :: behind)).headD [] = Text.trim main := by
  cases behind with
  | nil =>
    cases main with
    | nil => rfl
    | cons c main => rfl
  | cons next behind => rfl

theorem tail_segmentsOf (main : List Char) (behind : List (List Char)) :
    (segmentsOf false (main :: behind)).tail = segmentsOf false behind := by
  cases behind with
  | nil =>
    cases main with
    | nil => rfl
    | cons c main => rfl
  | cons next behind => rfl

end Token

/-! ## The parts of a token -/

/-- Blanks around a transform do not matter. -/
theorem TransformCall.parse?_trim (text : List Char) :
    TransformCall.parse? (Text.trim text) = TransformCall.parse? text := by
  unfold TransformCall.parse?
  rw [(Token.cuts_splitOn (by decide)).map_trim]

namespace Placeholder

/-- Module, action and arguments in one row. -/
def segments (p : Placeholder) : List (List Char) :=
  p.module.toList :: p.action.toList :: p.args.map String.toList

/-- The pieces of an interior between its bars, the first one and those behind it, say these parts. -/
structure Says (p : Placeholder) (main : List Char) (behind : List (List Char)) : Prop where
  segments : Token.withoutLastEmpty ((Token.pieces ':' true main).map (Token.segmentOf true)) = p.segments
  module_ne : p.module ≠ ""
  action_ne : p.action ≠ ""
  transforms : (Token.segmentsOf false behind).map TransformCall.parse? = p.transforms.map some

/-- The token itself is none of its parts. -/
theorem Says.of_token {p : Placeholder} {main : List Char} {behind : List (List Char)} (h : p.Says main behind)
    (token : String) : { p with token := token }.Says main behind where
  segments := h.segments
  module_ne := h.module_ne
  action_ne := h.action_ne
  transforms := h.transforms

/-- The transforms that the parts behind the bars name. -/
def readTransforms (fault : Malformed) (parts : List (List Char)) : Except Malformed (List TransformCall) :=
  parts.mapM fun part =>
    match TransformCall.parse? part with
    | some transform => .ok transform
    | none => .error fault

/-- What is made of the segments in front of the first bar, which are those of `main`, and of the parts behind it. -/
def assemble (token : String) (main : List Char) (behind : List (List Char)) :
    List (List Char) → Except Malformed Placeholder
  | module :: action :: args =>
    if module.isEmpty || action.isEmpty then
      .error (.emptySegment token)
    else do
      let transforms ← readTransforms (.emptyTransform token) behind
      return {
        token
        module := String.ofList module
        action := String.ofList action
        args := args.map String.ofList
        transforms }
  | _ => .error (.tooFewSegments (String.ofList main))

theorem parse_eq {text : List Char} {parts : List (List Char)}
    (h : Token.segments '|' false (Token.interior (Text.trim text)) = parts) :
    Placeholder.parse text =
      if Token.isToken (Text.trim text) then
        assemble (String.ofList (Text.trim text)) (parts.headD []) parts.tail
          (Token.segments ':' true (parts.headD []))
      else .error (.notToken (String.ofList text)) := by
  unfold Placeholder.parse
  dsimp only
  rw [h]
  cases Token.isToken (Text.trim text) with
  | false => rfl
  | true =>
    rcases Token.segments ':' true (parts.headD []) with - | ⟨module, - | ⟨action, args⟩⟩
    · rfl
    · rfl
    · rw [if_neg (by decide), assemble]
      dsimp only
      split <;> rfl

/-- Whether a row can be gone through is told by its members, one by one. -/
theorem mapM_eq_ok_iff {α β ε : Type} {f : α → Except ε β} {inputs : List α} {outputs : List β} :
    inputs.mapM f = .ok outputs ↔ inputs.map f = outputs.map .ok := by
  induction inputs generalizing outputs with
  | nil => cases outputs <;> simp [pure, Except.pure]
  | cons input inputs ih =>
    rw [List.mapM_cons]
    cases hfirst : f input with
    | error e => cases outputs <;> simp [bind, Except.bind, hfirst]
    | ok first =>
      cases hrest : inputs.mapM f with
      | error e => cases outputs <;> simp [bind, Except.bind, hfirst, hrest, ← ih]
      | ok rest => cases outputs <;> simp [bind, Except.bind, pure, Except.pure, hfirst, hrest, ← ih]

theorem readTransforms_eq_ok_iff {parts : List (List Char)} {fault : Malformed} {transforms : List TransformCall} :
    readTransforms fault parts = .ok transforms ↔ parts.map TransformCall.parse? = transforms.map some := by
  unfold readTransforms
  rw [mapM_eq_ok_iff]
  induction parts generalizing transforms with
  | nil => cases transforms <;> simp
  | cons part parts ih =>
    cases transforms with
    | nil => simp
    | cons transform transforms =>
      rw [List.map_cons, List.map_cons, List.map_cons, List.map_cons, List.cons.injEq, List.cons.injEq, ih]
      cases TransformCall.parse? part <;> simp

theorem assemble_eq_ok_iff {token : String} {main : List Char} {behind segments : List (List Char)} {p : Placeholder} :
    assemble token main behind segments = .ok p ↔
      p.token = token ∧ segments = p.segments ∧ p.module ≠ "" ∧ p.action ≠ "" ∧
        behind.map TransformCall.parse? = p.transforms.map some := by
  have htransforms : behind.map TransformCall.parse? = p.transforms.map some ↔
      readTransforms (.emptyTransform token) behind = .ok p.transforms := readTransforms_eq_ok_iff.symm
  rw [htransforms]
  constructor
  · intro h
    unfold assemble at h
    split at h
    · rename_i module action args
      split at h
      · cases h
      · rename_i hsome
        cases htransforms : readTransforms (.emptyTransform token) behind with
        | error fault =>
          rw [htransforms] at h
          cases h
        | ok transforms =>
          rw [htransforms] at h
          cases h
          rw [Bool.or_eq_true, List.isEmpty_iff, List.isEmpty_iff, not_or] at hsome
          refine ⟨rfl, ?_, ?_, ?_, rfl⟩
          · simp [segments, Function.comp_def]
          · simpa using hsome.1
          · simpa using hsome.2
    · cases h
  · rintro ⟨rfl, rfl, hmodule, haction, htransforms⟩
    rw [segments, assemble, if_neg (by simp [hmodule, haction]), htransforms]
    cases p
    simp [bind, Except.bind, pure, Except.pure, Function.comp_def]

/-- **The parts of a token are what the pieces of its interior say.** -/
theorem parse_eq_ok_iff {text : List Char} {p : Placeholder} :
    Placeholder.parse text = .ok p ↔
      Token.isToken (Text.trim text) = true ∧ p.token = String.ofList (Text.trim text) ∧
        ∃ main behind, Token.pieces '|' false (Token.interior (Text.trim text)) = main :: behind ∧
          p.Says main behind := by
  obtain ⟨main, behind, hpieces⟩ := Token.exists_first_piece '|' false 0 (Token.interior (Text.trim text))
  rw [← Token.pieces] at hpieces
  have hparts : Token.segments '|' false (Token.interior (Text.trim text)) =
      Token.segmentsOf false (main :: behind) := by
    rw [Token.segments_eq_segmentsOf, hpieces]
  rw [parse_eq hparts, Token.headD_segmentsOf, Token.tail_segmentsOf, Token.segments_trim Token.maySeparate_colon,
    hpieces]
  cases Token.isToken (Text.trim text) with
  | false =>
    constructor
    · intro h
      cases h
    · rintro ⟨h, -⟩
      cases h
  | true =>
    show assemble _ _ _ _ = .ok p ↔ _
    rw [assemble_eq_ok_iff]
    constructor
    · rintro ⟨htoken, hsegments, hmodule, haction, htransforms⟩
      exact ⟨rfl, htoken, main, behind, rfl, hsegments, hmodule, haction, htransforms⟩
    · rintro ⟨-, htoken, main', behind', heq, hsays⟩
      cases heq
      exact ⟨htoken, hsays.segments, hsays.module_ne, hsays.action_ne, hsays.transforms⟩

end Placeholder

end Template
