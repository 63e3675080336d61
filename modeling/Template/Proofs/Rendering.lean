import Template.Proofs.Parts

/-!
# `Template.Proofs.Rendering` — the parts of a token, written as a token

The parts of a token are written with colons and bars between them; a colon in the module, the action or an argument
is escaped. What is written so is read back as it was (`parse_render`), provided that the parts can be written at all
(`Placeholder.Writable`). There are three reasons why they could not. A part may hold a character that would be taken
for a brace, a bar or the end of a line, or blanks at its ends, which are trimmed. A backslash at the end of a segment
would escape the colon behind it. And an empty last argument would not be told from none.

## Contents
- `Token.escape`, `unescape_escape` — colons in segments.
- `pieces_joinWith` — what is joined by a separator is cut again.
- `Placeholder.render`, `Placeholder.Writable` — tokens from their parts.
- `Placeholder.parse_render`.
-/

namespace Template

namespace Token

/-! ## Escapes -/

/-- A text with a backslash in front of every colon. -/
def escape : List Char → List Char
  | [] => []
  | c :: rest => if c = ':' then '\\' :: ':' :: escape rest else c :: escape rest

theorem escape_colon (rest : List Char) : escape (':' :: rest) = '\\' :: ':' :: escape rest := by
  rw [escape, if_pos rfl]

theorem escape_cons {c : Char} (h : c ≠ ':') (rest : List Char) : escape (c :: rest) = c :: escape rest := by
  rw [escape, if_neg h]

/-- No colon stands in front, since a backslash does. -/
theorem head?_escape_ne (text : List Char) : (escape text).head? ≠ some ':' := by
  cases text with
  | nil => simp [escape]
  | cons c rest =>
    by_cases hc : c = ':'
    · subst hc
      simp [escape_colon]
    · simp [escape_cons hc, hc]

theorem getLast?_escape (text : List Char) : (escape text).getLast? = text.getLast? := by
  induction text with
  | nil => rfl
  | cons c rest ih =>
    by_cases hc : c = ':'
    · subst hc
      simp [escape_colon, List.getLast?_cons, ih]
    · simp [escape_cons hc, List.getLast?_cons, ih]

theorem forall_mem_escape {P : Char → Prop} (hbackslash : P '\\') {text : List Char} (h : ∀ c ∈ text, P c) :
    ∀ c ∈ escape text, P c := by
  induction text with
  | nil => simp [escape]
  | cons d rest ih =>
    rw [List.forall_mem_cons] at h
    by_cases hd : d = ':'
    · subst hd
      rw [escape_colon, List.forall_mem_cons, List.forall_mem_cons]
      exact ⟨hbackslash, h.1, ih h.2⟩
    · rw [escape_cons hd, List.forall_mem_cons]
      exact ⟨h.1, ih h.2⟩

theorem unescape_escape (text : List Char) : unescape (escape text) = text := by
  induction text with
  | nil => rfl
  | cons c rest ih =>
    by_cases hc : c = ':'
    · subst hc
      rw [escape_colon, unescape, ih]
    · rw [escape_cons hc, unescape_cons, ih]
      rintro ⟨-, hhead⟩
      exact head?_escape_ne rest hhead

theorem braceless_escape {text : List Char} (h : Braceless text) : Braceless (escape text) :=
  forall_mem_escape ⟨by decide, by decide⟩ h

/-- An escaped text is one piece. -/
theorem pieces_escape {text : List Char} (h : Braceless text) : pieces ':' true (escape text) = [escape text] := by
  induction text with
  | nil => rfl
  | cons c rest ih =>
    obtain ⟨hc, hrest⟩ := braceless_cons.mp h
    have hpieces := ih hrest
    rw [pieces] at hpieces
    by_cases hcolon : c = ':'
    · subst hcolon
      -- the colon is read together with its backslash
      rw [escape_colon, pieces, piecesFrom, if_pos rfl, hpieces]
      rfl
    · rw [escape_cons hcolon, pieces, piecesFrom_plain (alone_of_notBrace hc _), hpieces]
      · rfl
      · rintro ⟨-, -, tail, htail⟩
        exact head?_escape_ne rest (by rw [htail]; rfl)
      · exact fun hs => hcolon hs.1

/-! ## Joined pieces -/

theorem forall_mem_joinWith {P : Char → Prop} {sep : List Char} {parts : List (List Char)} (hsep : ∀ c ∈ sep, P c)
    (hparts : ∀ part ∈ parts, ∀ c ∈ part, P c) : ∀ c ∈ Text.joinWith sep parts, P c := by
  fun_induction Text.joinWith sep parts with
  | case1 => simp
  | case2 part => exact hparts part List.mem_cons_self
  | case3 part parts _ ih =>
    have hrest := ih fun other hother => hparts other (List.mem_cons_of_mem _ hother)
    intro c hc
    rw [List.append_assoc, List.mem_append, List.mem_append] at hc
    rcases hc with hc | hc | hc
    · exact hparts part List.mem_cons_self c hc
    · exact hsep c hc
    · exact hrest c hc

/-- **What is joined by a separator is cut again**, if each part is a piece with nothing open behind it, and none but
the last ends with a backslash that would escape the separator. -/
theorem pieces_joinWith {separator : Char} {escapes : Bool} (hs : MaySeparate separator) {parts : List (List Char)}
    (hne : parts ≠ []) (hone : ∀ part ∈ parts, pieces separator escapes part = [part])
    (hopen : ∀ part ∈ parts, leftOpen part = 0)
    (he : ∀ part ∈ parts.dropLast, escapes = true → separator = ':' → part.getLast? ≠ some '\\') :
    pieces separator escapes (Text.joinWith [separator] parts) = parts := by
  fun_induction Text.joinWith [separator] parts with
  | case1 => exact absurd rfl hne
  | case2 part => exact hone part List.mem_cons_self
  | case3 part parts hparts ih =>
    have hne' : parts ≠ [] := fun hnil => hparts hnil
    have hrest := ih hne' (fun other hother => hone other (List.mem_cons_of_mem _ hother))
      (fun other hother => hopen other (List.mem_cons_of_mem _ hother))
      (fun other hother => he other (by rw [List.dropLast_cons_of_ne_nil hne']; exact List.mem_cons_of_mem _ hother))
    have hfirst : part ∈ (part :: parts).dropLast := by
      rw [List.dropLast_cons_of_ne_nil hne']
      exact List.mem_cons_self
    -- nothing is open at the separator, so the first part is cut off
    rw [List.append_assoc, List.singleton_append,
      pieces_append_separator hs (hopen part List.mem_cons_self) (he part hfirst), hrest, hone part List.mem_cons_self]
    rfl

theorem splitOn_joinWith {sep : Char} {parts : List (List Char)} (hne : parts ≠ []) (h : ∀ part ∈ parts, sep ∉ part) :
    Text.splitOn sep (Text.joinWith [sep] parts) = parts := by
  fun_induction Text.joinWith [sep] parts with
  | case1 => exact absurd rfl hne
  | case2 part => exact Text.splitOn_of_not_mem (h part List.mem_cons_self)
  | case3 part parts hparts ih =>
    have hrest := ih (fun hnil => hparts hnil) fun other hother => h other (List.mem_cons_of_mem _ hother)
    rw [List.append_assoc, List.singleton_append, Text.splitOn_append_separator, hrest,
      Text.splitOn_of_not_mem (h part List.mem_cons_self)]
    rfl

/-- Pieces that are not empty are all segments. -/
theorem segmentsOf_eq_map {escapes : Bool} {pieces : List (List Char)} (h : ∀ piece ∈ pieces, piece ≠ []) :
    segmentsOf escapes pieces = pieces.map (segmentOf escapes) := by
  fun_induction segmentsOf escapes pieces with
  | case1 => rfl
  | case2 piece hnone => exact absurd (List.isEmpty_iff.mp hnone) (h piece List.mem_cons_self)
  | case3 piece _ => rfl
  | case4 piece next pieces ih =>
    rw [ih (List.forall_mem_cons.mp h).2]
    rfl

theorem withoutLastEmpty_of_getLast? {segments : List (List Char)} (h : segments.getLast? ≠ some []) :
    withoutLastEmpty segments = segments := by
  fun_induction withoutLastEmpty segments with
  | case1 => rfl
  | case2 segment hempty => exact absurd (by rw [List.isEmpty_iff.mp hempty]; rfl) h
  | case3 segment _ => rfl
  | case4 segment next segments ih => rw [ih (by rwa [List.getLast?_cons_cons] at h)]

end Token

/-! ## Tokens from their parts -/

/-- A character that may stand between the bars of a token, outside of tokens. -/
def Plain (c : Char) : Prop :=
  c ≠ '{' ∧ c ≠ '}' ∧ c ≠ '|' ∧ c ≠ '\n'

instance (c : Char) : Decidable (Plain c) :=
  inferInstanceAs (Decidable (_ ∧ _))

/-- A text that may stand between two separators of a token. -/
structure Writable (text : List Char) : Prop where
  trimmed : Text.trim text = text
  plain : ∀ c ∈ text, Plain c

-- by going through the text, and not through all characters that there are
instance (text : List Char) : Decidable (Writable text) :=
  decidable_of_iff (Text.trim text = text ∧ text.all (fun c => decide (Plain c)) = true)
    ⟨fun h => ⟨h.1, by simpa using h.2⟩, fun h => ⟨h.1, by simpa using h.2⟩⟩

/-- The name of a transform and its parameters in one row. -/
def TransformCall.texts (transform : TransformCall) : List (List Char) :=
  transform.name.toList :: transform.params.map String.toList

/-- A transform as it is written behind a bar. -/
def TransformCall.render (transform : TransformCall) : List Char :=
  Text.joinWith [':'] transform.texts

/-- A transform that can be written. -/
structure TransformCall.Writable (transform : TransformCall) : Prop where
  name_ne : transform.name ≠ ""
  texts : ∀ text ∈ transform.texts, Template.Writable text
  noColon : ∀ text ∈ transform.texts, ':' ∉ text

instance (transform : TransformCall) : Decidable transform.Writable :=
  decidable_of_iff
    (transform.name ≠ "" ∧ (∀ text ∈ transform.texts, Template.Writable text) ∧ ∀ text ∈ transform.texts, ':' ∉ text)
    ⟨fun h => ⟨h.1, h.2.1, h.2.2⟩, fun h => ⟨h.1, h.2, h.3⟩⟩

namespace Placeholder

/-- Module, action and arguments as they are written in front of the first bar. -/
def renderMain (p : Placeholder) : List Char :=
  Text.joinWith [':'] (p.segments.map Token.escape)

/-- What stands between the bars of a token with these parts. -/
def rendered (p : Placeholder) : List (List Char) :=
  p.renderMain :: p.transforms.map TransformCall.render

/-- The token with these parts. -/
def render (p : Placeholder) : List Char :=
  Token.bracket (Text.joinWith ['|'] p.rendered)

/-- Parts that can be written. -/
structure Writable (p : Placeholder) : Prop where
  module_ne : p.module ≠ ""
  action_ne : p.action ≠ ""
  lastArg_ne : p.args.getLast? ≠ some ""
  segments : ∀ segment ∈ p.segments, Template.Writable segment
  /-- Behind a backslash at its end, the colon that ends the segment would be an escaped one. -/
  notEscaping : ∀ segment ∈ p.segments.dropLast, segment.getLast? ≠ some '\\'
  transforms : ∀ transform ∈ p.transforms, transform.Writable

instance (p : Placeholder) : Decidable p.Writable :=
  decidable_of_iff
    (p.module ≠ "" ∧ p.action ≠ "" ∧ p.args.getLast? ≠ some "" ∧
      (∀ segment ∈ p.segments, Template.Writable segment) ∧
      (∀ segment ∈ p.segments.dropLast, segment.getLast? ≠ some '\\') ∧
      ∀ transform ∈ p.transforms, transform.Writable)
    ⟨fun ⟨h₁, h₂, h₃, h₄, h₅, h₆⟩ => ⟨h₁, h₂, h₃, h₄, h₅, h₆⟩,
      fun ⟨h₁, h₂, h₃, h₄, h₅, h₆⟩ => ⟨h₁, h₂, h₃, h₄, h₅, h₆⟩⟩

end Placeholder

open Token

theorem braceless_of_plain {text : List Char} (h : ∀ c ∈ text, Plain c) : Braceless text :=
  fun c hc => ⟨(h c hc).1, (h c hc).2.1⟩

/-! ### Behind the first bar -/

namespace TransformCall

variable {transform : TransformCall}

theorem texts_ne_nil (transform : TransformCall) : transform.texts ≠ [] :=
  List.cons_ne_nil _ _

/-- Behind a bar, a transform is read as it was written. -/
theorem parse?_render (h : transform.Writable) : TransformCall.parse? transform.render = some transform := by
  have htexts : transform.texts.map Text.trim = transform.texts := by
    rw [List.map_congr_left fun text htext => (h.texts text htext).trimmed, List.map_id']
  have hname : transform.name.toList.isEmpty = false := by
    simpa using h.name_ne
  rw [parse?, render, splitOn_joinWith transform.texts_ne_nil h.noColon, htexts, texts]
  dsimp only
  rw [if_neg (by rw [hname]; exact Bool.false_ne_true)]
  simp [Function.comp_def]

theorem render_ne_nil (h : transform.Writable) : transform.render ≠ [] := by
  intro hnil
  have hparse := parse?_render h
  rw [hnil] at hparse
  cases hparse

theorem plain_render (h : transform.Writable) : ∀ c ∈ transform.render, Plain c :=
  forall_mem_joinWith (by simp [Plain]) fun text htext => (h.texts text htext).plain

end TransformCall

/-! ### The whole token -/

namespace Placeholder

variable {p : Placeholder}

/-- In front of the first bar, the segments are cut again as they were written. -/
theorem pieces_renderMain (h : p.Writable) : pieces ':' true p.renderMain = p.segments.map escape := by
  have hbraceless : ∀ segment ∈ p.segments, Braceless segment :=
    fun segment hsegment => braceless_of_plain (h.segments segment hsegment).plain
  apply pieces_joinWith maySeparate_colon (by simp [segments])
  · intro part hpart
    obtain ⟨segment, hsegment, rfl⟩ := List.mem_map.mp hpart
    exact pieces_escape (hbraceless segment hsegment)
  · intro part hpart
    obtain ⟨segment, hsegment, rfl⟩ := List.mem_map.mp hpart
    exact leftOpenFrom_braceless (braceless_escape (hbraceless segment hsegment)) 0
  · intro part hpart _ _
    rw [← List.map_dropLast] at hpart
    obtain ⟨segment, hsegment, rfl⟩ := List.mem_map.mp hpart
    rw [getLast?_escape]
    exact h.notEscaping segment hsegment

theorem plain_rendered (h : p.Writable) : ∀ part ∈ p.rendered, ∀ c ∈ part, Plain c := by
  intro part hpart
  rcases List.mem_cons.mp hpart with rfl | hpart
  · refine forall_mem_joinWith (by simp [Plain]) ?_
    intro part hpart
    obtain ⟨segment, hsegment, rfl⟩ := List.mem_map.mp hpart
    exact forall_mem_escape (by simp [Plain]) (h.segments segment hsegment).plain
  · obtain ⟨transform, htransform, rfl⟩ := List.mem_map.mp hpart
    exact TransformCall.plain_render (h.transforms transform htransform)

theorem pieces_rendered (h : p.Writable) : pieces '|' false (Text.joinWith ['|'] p.rendered) = p.rendered := by
  apply pieces_joinWith maySeparate_bar (List.cons_ne_nil _ _)
  · intro part hpart
    have hplain := plain_rendered h part hpart
    exact piecesFrom_stretch (braceless_of_plain hplain) (fun hbar => (hplain '|' hbar).2.2.1 rfl) (by simp) 0
  · intro part hpart
    exact leftOpenFrom_braceless (braceless_of_plain (plain_rendered h part hpart)) 0
  · intro _ _ hescapes
    cases hescapes

theorem getLast?_segments_ne (h : p.Writable) : p.segments.getLast? ≠ some [] := by
  have hargs := h.lastArg_ne
  rw [segments, List.getLast?_cons_cons]
  cases hlast : p.args.getLast? with
  | none =>
    rw [List.getLast?_eq_none_iff] at hlast
    simp [hlast, h.action_ne]
  | some arg =>
    have harg : arg ≠ "" := fun hempty => hargs (by rw [hlast, hempty])
    simpa [List.getLast?_cons, hlast] using harg

/-- What stands between the bars says the parts. -/
theorem says_rendered (h : p.Writable) : p.Says p.renderMain (p.transforms.map TransformCall.render) where
  segments := by
    have hread : ∀ segment ∈ p.segments, (segmentOf true ∘ escape) segment = segment := by
      intro segment hsegment
      show Text.trim (unescape (escape segment)) = segment
      rw [unescape_escape, (h.segments segment hsegment).trimmed]
    rw [pieces_renderMain h, List.map_map, List.map_congr_left hread, List.map_id',
      withoutLastEmpty_of_getLast? (getLast?_segments_ne h)]
  module_ne := h.module_ne
  action_ne := h.action_ne
  transforms := by
    have hne : ∀ part ∈ p.transforms.map TransformCall.render, part ≠ [] := by
      intro part hpart
      obtain ⟨transform, htransform, rfl⟩ := List.mem_map.mp hpart
      exact TransformCall.render_ne_nil (h.transforms transform htransform)
    rw [segmentsOf_eq_map hne, List.map_map, List.map_map]
    apply List.map_congr_left
    intro transform htransform
    show TransformCall.parse? (Text.trim transform.render) = some transform
    rw [TransformCall.parse?_trim, TransformCall.parse?_render (h.transforms transform htransform)]

theorem isToken_render (h : p.Writable) : isToken p.render = true := by
  rw [render, isToken_bracket]
  constructor
  · intro hnil
    -- nothing would be cut into one empty piece, but there are two segments
    have hpieces := pieces_rendered h
    rw [hnil] at hpieces
    have hmain := pieces_renderMain h
    rw [← (List.cons.inj hpieces).1] at hmain
    have hlength := congrArg List.length hmain
    simp [segments, pieces, piecesFrom] at hlength
  · intro hline
    have hplain : ∀ c ∈ Text.joinWith ['|'] p.rendered, c ≠ '\n' :=
      forall_mem_joinWith (by simp) fun part hpart c hc => (plain_rendered h part hpart c hc).2.2.2
    exact hplain '\n' hline rfl

/-- **Writing is undone by reading.** A token written from parts is read as these parts, whatever blanks are around
it. -/
theorem parse_render (h : p.Writable) {before after : List Char} (hb : before.all Text.isBlank)
    (ha : after.all Text.isBlank) :
    Placeholder.parse (before ++ p.render ++ after) = .ok { p with token := String.ofList p.render } := by
  have htrim : Text.trim (before ++ p.render ++ after) = p.render := by
    rw [Text.trim_surrounded hb ha, render, trim_bracket]
  rw [parse_eq_ok_iff, htrim]
  -- the token that is read back is the trimmed text, whatever token the parts came from
  refine ⟨isToken_render h, rfl, p.renderMain, p.transforms.map TransformCall.render, ?_, (says_rendered h).of_token _⟩
  rw [render, interior_bracket, pieces_rendered h, rendered]

/-- A token with an escaped colon, an argument and a parameter that are empty, a backslash at its end and blanks around
it. -/
theorem parse_render_escaped :
    let p : Placeholder := {
      token := ""
      module := "news"
      action := "at:10"
      args := ["", "c\\"]
      transforms := [⟨"join", ["", "-"]⟩] }
    p.Writable ∧ Placeholder.parse ("\n\x7b\x7bnews:at\\:10::c\\|join::-\x7d\x7d ".toList) =
      .ok { p with token := "\x7b\x7bnews:at\\:10::c\\|join::-\x7d\x7d" } := by
  intro p
  have hp : p.Writable := by decide
  have htext : ['\n'] ++ p.render ++ [' '] = "\n\x7b\x7bnews:at\\:10::c\\|join::-\x7d\x7d ".toList := by
    decide +kernel
  have htoken : String.ofList p.render = "\x7b\x7bnews:at\\:10::c\\|join::-\x7d\x7d" := by decide +kernel
  refine ⟨hp, ?_⟩
  rw [← htext, ← htoken]
  exact parse_render hp (by decide) (by decide)

end Placeholder

end Template
