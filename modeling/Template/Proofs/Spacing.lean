import Mathlib.Logic.Relation
import Template.Proofs.Parts

/-!
# `Template.Proofs.Spacing` — blanks around separators

Blanks around the separators of a token do not matter, and neither do blanks right inside of its braces: the parts are
the same with them and without (`parse_respaced`). There are places, though, which only look like it, and where a blank
is not like none. Between a backslash and a colon, a blank is what keeps the colon a separator. Behind a bar at the
end, nothing is no transform, but a blank is one without a name. And a line feed is a blank that no token may hold.

## Contents
- `Separates`, `Gap`, `Respaced` — where blanks may be put or taken away.
- `Loose` — two stretches between which blanks do not matter.
- `LooseIn`, `Gap.looseIn` — in the pieces of a token, a gap is loose.
- `parse_respaced`, `spacing_matters`.
-/

namespace Template

namespace Token

/-! ## Gaps -/

/-- A bar outside of tokens stands in the text. -/
def HasBar (text : List Char) : Prop :=
  ∃ front back, text = front ++ '|' :: back ∧ leftOpen front = 0

/-- Behind `before`, the character is a separator: a bar or a colon outside of tokens. In front of the first bar, a
colon behind a backslash is none. -/
def Separates (before : List Char) (c : Char) : Prop :=
  leftOpen before = 0 ∧ (c = '|' ∨ c = ':' ∧ (before.getLast? = some '\\' → HasBar before))

/-- The places of an interior, with what is in front of them and behind them, at which blanks do not matter: its two
ends, and the two sides of each separator. Only the end right behind a bar is left out. -/
inductive Gap : List Char → List Char → Prop where
  | first (after : List Char) : Gap [] after
  | last {before : List Char} (h : ∀ front, before = front ++ ['|'] → leftOpen front ≠ 0) : Gap before []
  | inFront {before : List Char} {c : Char} (h : Separates before c) (after : List Char) : Gap before (c :: after)
  | behind {before : List Char} {c : Char} (h : Separates before c) {after : List Char} (hend : c = '|' → after ≠ []) :
      Gap (before ++ [c]) after

/-- Blanks that may stand in a token. -/
structure Blanks (blanks : List Char) : Prop where
  blank : blanks.all Text.isBlank = true
  oneLine : '\n' ∉ blanks

/-- Between the two interiors, blanks at one gap come or go. -/
inductive Respaced : List Char → List Char → Prop where
  | insert {before blanks after : List Char} (h : Gap before after) (hb : Blanks blanks) :
      Respaced (before ++ after) (before ++ blanks ++ after)
  | delete {before blanks after : List Char} (h : Gap before after) (hb : Blanks blanks) :
      Respaced (before ++ blanks ++ after) (before ++ after)

/-! ## Loose places -/

/-- Blanks between the two stretches do not matter to what they are cut into. -/
def Loose (cut : List Char → List (List Char)) (read : List Char → List Char) (left right : List Char) : Prop :=
  ∀ blanks, blanks.all Text.isBlank = true → (cut (left ++ blanks ++ right)).map read = (cut (left ++ right)).map read

section

variable {cut : List Char → List (List Char)} {read : List Char → List Char} (h : Cuts cut read)

include h

theorem Cuts.loose_first (right : List Char) : Loose cut read [] right := by
  intro blanks hb
  exact h.map_blank_append hb right

theorem Cuts.loose_last (left : List Char) : Loose cut read left [] := by
  intro blanks hb
  rw [List.append_nil, List.append_nil]
  exact h.map_append_blank hb left

/-- In front of a separator, blanks belong to the piece that it ends. -/
theorem Cuts.loose_inFront {separator : Char} {left right : List Char}
    (hcut : ∀ blanks, blanks.all Text.isBlank = true →
      cut (left ++ blanks ++ separator :: right) = cut (left ++ blanks) ++ cut right) :
    Loose cut read left (separator :: right) := by
  intro blanks hb
  have hnone := hcut [] rfl
  rw [List.append_nil] at hnone
  rw [hcut blanks hb, hnone, List.map_append, List.map_append, h.map_append_blank hb]

/-- Behind a separator, they belong to the next one. -/
theorem Cuts.loose_behind {separator : Char} {left : List Char}
    (hcut : ∀ right, cut (left ++ separator :: right) = cut left ++ cut right) (right : List Char) :
    Loose cut read (left ++ [separator]) right := by
  intro blanks hb
  rw [List.append_assoc, List.append_assoc, List.singleton_append, List.append_assoc, List.singleton_append, hcut, hcut,
    List.map_append, List.map_append, h.map_blank_append hb]

end

theorem leftOpen_append_blank {blanks : List Char} (hb : blanks.all Text.isBlank = true) (text : List Char) :
    leftOpen (text ++ blanks) = leftOpen text := by
  have hseam : Seam false text (blanks ++ []) := (Seam.nil_right text).blank_append hb
  rw [List.append_nil] at hseam
  rw [leftOpen, leftOpenFrom_append hseam, leftOpenFrom_braceless (braceless_of_blank hb), ← leftOpen]

/-- In front of the first bar, the two sides of a colon are loose. -/
theorem loose_pieces_inFront {left : List Char} (hopen : leftOpen left = 0) (he : left.getLast? ≠ some '\\')
    (right : List Char) : Loose (pieces ':' true) (segmentOf true) left (':' :: right) := by
  refine (cuts_pieces maySeparate_colon).loose_inFront ?_
  intro blanks hb
  apply pieces_append_separator maySeparate_colon
  · rw [leftOpen_append_blank hb, hopen]
  · intro _ _ hlast
    rw [List.getLast?_append] at hlast
    cases hblank : blanks.getLast? with
    | none =>
      rw [hblank] at hlast
      exact he hlast
    | some b =>
      rw [hblank] at hlast
      obtain rfl : b = '\\' := Option.some.inj hlast
      exact not_mem_of_blank hb (by decide) (List.mem_of_getLast? hblank)

theorem loose_pieces_behind {left : List Char} (hopen : leftOpen left = 0) (he : left.getLast? ≠ some '\\')
    (right : List Char) : Loose (pieces ':' true) (segmentOf true) (left ++ [':']) right :=
  (cuts_pieces maySeparate_colon).loose_behind
    (fun _ => pieces_append_separator maySeparate_colon hopen (fun _ _ => he) _) right

/-- Behind a bar, every colon separates. -/
theorem loose_splitOn_inFront (left right : List Char) : Loose (Text.splitOn ':') Text.trim left (':' :: right) :=
  (cuts_splitOn (by decide)).loose_inFront fun _ _ => Text.splitOn_append_separator ':' _ _

theorem loose_splitOn_behind (left right : List Char) : Loose (Text.splitOn ':') Text.trim (left ++ [':']) right :=
  (cuts_splitOn (by decide)).loose_behind (Text.splitOn_append_separator ':' left) right

/-! ## Gaps between the bars -/

/-- The gap lies in one piece between the bars, behind `front` and in front of `back`, and is loose there, whether that
is the first piece or names a transform. A last piece without any character names none, so the gap is not in such. -/
structure LooseIn (front : List (List Char)) (left right : List Char) (back : List (List Char)) : Prop where
  main : front = [] → Loose (pieces ':' true) (segmentOf true) left right
  transform : front ≠ [] → Loose (Text.splitOn ':') Text.trim left right
  named : front ≠ [] → back = [] → left ++ right ≠ []

/-- Blanks at a seam go into the piece across it. -/
theorem exists_pieces_seam {before after : List Char} (hs : Seam false before after) :
    ∃ front left right back, pieces '|' false before = front ++ [left] ∧
      piecesFrom '|' false (leftOpen before) after = right :: back ∧
      ∀ blanks, blanks.all Text.isBlank = true →
        pieces '|' false (before ++ blanks ++ after) = front ++ (left ++ blanks ++ right) :: back := by
  obtain ⟨front, left, hleft⟩ := exists_last_piece '|' false before
  obtain ⟨right, back, hright⟩ := exists_first_piece '|' false (leftOpen before) after
  refine ⟨front, left, right, back, hleft, hright, ?_⟩
  intro blanks hb
  have hpieces : pieces '|' false (before ++ blanks) = front ++ [left ++ blanks] := by
    rw [(cuts_pieces maySeparate_bar).append_blank hb, hleft, glue_concat]
  rw [pieces, piecesFrom_append (by decide) (hs.append_blank hb), ← pieces, ← leftOpen, leftOpen_append_blank hb,
    hpieces, hright, glue_concat]

theorem not_hasBar_of_pieces_eq_singleton {text piece : List Char} (h : pieces '|' false text = [piece]) :
    ¬ HasBar text := by
  rintro ⟨front, back, rfl, hopen⟩
  rw [pieces_append_separator maySeparate_bar hopen (by simp)] at h
  have hlength := congrArg List.length h
  have hfront := List.length_pos_iff.mpr (piecesFrom_ne_nil '|' false 0 front)
  have hback := List.length_pos_iff.mpr (piecesFrom_ne_nil '|' false 0 back)
  rw [List.length_append, List.length_singleton, pieces, pieces] at hlength
  omega

/-- Behind the last separator of a text there is nothing only if it stands at the end. -/
theorem exists_bar_of_pieces {text : List Char} {front : List (List Char)} (h : pieces '|' false text = front ++ [[]])
    (hne : front ≠ []) : ∃ before, text = before ++ ['|'] ∧ leftOpen before = 0 := by
  have hjoin := joinWith_piecesFrom '|' false 0 text
  rw [← pieces, h, joinWith_concat _ hne, List.append_nil] at hjoin
  refine ⟨_, hjoin.symm, ?_⟩
  -- with a token open, the bar would belong to the last piece
  cases hopen : leftOpen (Text.joinWith ['|'] front) with
  | zero => rfl
  | succ d =>
    have hseam : Seam false (Text.joinWith ['|'] front) ['|'] := .of_head (by decide) (by decide) (by simp) []
    have hpieces : pieces '|' false text = glue (pieces '|' false (Text.joinWith ['|'] front)) [['|']] := by
      rw [← hjoin, pieces, piecesFrom_append (by decide) hseam, ← leftOpen, hopen,
        piecesFrom_within d (maySeparate_bar.alone [])]
      rfl
    have hlast := congrArg List.getLast? (h.symm.trans hpieces)
    simp [glue] at hlast

theorem Separates.maySeparate {before : List Char} {c : Char} (h : Separates before c) : MaySeparate c := by
  rcases h.2 with rfl | ⟨rfl, -⟩
  · exact maySeparate_bar
  · exact maySeparate_colon

/-- A colon that separates in front of the first bar has no backslash in front of it. -/
theorem Separates.getLast?_ne {before piece : List Char} (h : Separates before ':')
    (hpieces : pieces '|' false before = [piece]) : before.getLast? ≠ some '\\' := by
  intro hlast
  rcases h.2 with hbar | ⟨-, himp⟩
  · exact absurd hbar (by decide)
  · exact not_hasBar_of_pieces_eq_singleton hpieces (himp hlast)

theorem Gap.seam {before after : List Char} (h : Gap before after) : Seam false before after := by
  cases h with
  | first => exact .nil_left after
  | last => exact .nil_right before
  | inFront hsep =>
    have hc := hsep.maySeparate
    exact .of_head hc.notOpen hc.notClose (by simp) _
  | behind hsep =>
    have hc := hsep.maySeparate
    exact .of_last hc.notOpen hc.notClose hc.notEscape _ _

section

variable {before after left right : List Char} {front back : List (List Char)}

/-- In front of a bar, the piece ends. -/
theorem looseIn_bar (hopen : leftOpen before = 0)
    (hright : piecesFrom '|' false (leftOpen before) ('|' :: after) = right :: back) :
    LooseIn front left right back := by
  rw [hopen, piecesFrom_cut (maySeparate_bar.alone after) maySeparate_bar.notEscape] at hright
  obtain ⟨rfl, rfl⟩ := List.cons.inj hright
  exact {
    main := fun _ => (cuts_pieces maySeparate_colon).loose_last left
    transform := fun _ => (cuts_splitOn (by decide)).loose_last left
    named := fun _ hback => absurd hback (piecesFrom_ne_nil _ _ _ _) }

/-- In front of a colon, the piece goes on with it. -/
theorem looseIn_colon (h : Separates before ':') (hleft : pieces '|' false before = front ++ [left])
    (hright : piecesFrom '|' false (leftOpen before) (':' :: after) = right :: back) :
    LooseIn front left right back := by
  obtain ⟨next, behind, hnext⟩ := exists_first_piece '|' false (leftOpen before) after
  rw [piecesFrom_plain (maySeparate_colon.alone after) (by simp) (by simp), hnext, glue_single] at hright
  obtain ⟨rfl, rfl⟩ := List.cons.inj hright
  exact {
    main := by
      rintro rfl
      obtain rfl := eq_of_pieces_eq_singleton hleft
      exact loose_pieces_inFront h.1 (h.getLast?_ne hleft) next
    transform := fun _ => loose_splitOn_inFront left next
    named := by simp }

/-- Behind a bar, the next piece starts. -/
theorem looseIn_behind_bar (hopen : leftOpen before = 0) (hleft : pieces '|' false (before ++ ['|']) = front ++ [left])
    (hright : piecesFrom '|' false (leftOpen (before ++ ['|'])) after = right :: back) (hend : after ≠ []) :
    LooseIn front left right back := by
  have hbar : pieces '|' false (before ++ ['|']) = pieces '|' false before ++ [[]] :=
    pieces_append_separator maySeparate_bar hopen (by simp) []
  rw [hbar] at hleft
  obtain ⟨rfl, hnil⟩ := List.append_inj' hleft rfl
  obtain ⟨rfl, -⟩ := List.cons.inj hnil
  exact {
    main := fun hfront => absurd hfront (piecesFrom_ne_nil _ _ _ _)
    transform := fun _ => (cuts_splitOn (by decide)).loose_first right
    named := by
      rintro - rfl hright'
      have hjoin := joinWith_piecesFrom '|' false (leftOpen (before ++ ['|'])) after
      rw [hright] at hjoin
      exact hend (hjoin.symm.trans hright') }

/-- Behind a colon, the piece goes on. -/
theorem looseIn_behind_colon (h : Separates before ':')
    (hleft : pieces '|' false (before ++ [':']) = front ++ [left]) : LooseIn front left right back := by
  obtain ⟨front', left', hleft'⟩ := exists_last_piece '|' false before
  have hseam : Seam false before [':'] := .of_head (by decide) (by decide) (by simp) []
  rw [pieces, piecesFrom_append (by decide) hseam, ← pieces, hleft',
    piecesFrom_plain (maySeparate_colon.alone []) (by simp) (by simp), piecesFrom, glue_single, glue_concat] at hleft
  obtain ⟨rfl, hcons⟩ := List.append_inj' hleft rfl
  obtain ⟨rfl, -⟩ := List.cons.inj hcons
  exact {
    main := by
      rintro rfl
      obtain rfl := eq_of_pieces_eq_singleton hleft'
      exact loose_pieces_behind h.1 (h.getLast?_ne hleft') right
    transform := fun _ => loose_splitOn_behind left' right
    named := by simp }

/-- Every gap is loose in its piece. -/
theorem Gap.looseIn (h : Gap before after) (hleft : pieces '|' false before = front ++ [left])
    (hright : piecesFrom '|' false (leftOpen before) after = right :: back) : LooseIn front left right back := by
  cases h with
  | first =>
    have hnil : ([] : List (List Char)) ++ [[]] = front ++ [left] := hleft
    obtain ⟨rfl, hcons⟩ := List.append_inj' hnil rfl
    obtain ⟨rfl, -⟩ := List.cons.inj hcons
    exact {
      main := fun _ => (cuts_pieces maySeparate_colon).loose_first right
      transform := fun hfront => absurd rfl hfront
      named := fun hfront => absurd rfl hfront }
  | last hend =>
    rw [piecesFrom] at hright
    obtain ⟨rfl, rfl⟩ := List.cons.inj hright
    exact {
      main := fun _ => (cuts_pieces maySeparate_colon).loose_last left
      transform := fun _ => (cuts_splitOn (by decide)).loose_last left
      named := by
        -- with nothing in the last piece, a bar would stand in front
        intro hfront _ hnone
        rw [List.append_nil] at hnone
        rw [hnone] at hleft
        obtain ⟨bar, hbar, hopen⟩ := exists_bar_of_pieces hleft hfront
        exact hend bar hbar hopen }
  | inFront hsep after =>
    rcases hsep.2 with rfl | ⟨rfl, -⟩
    · exact looseIn_bar hsep.1 hright
    · exact looseIn_colon hsep hleft hright
  | behind hsep hend =>
    rcases hsep.2 with rfl | ⟨rfl, -⟩
    · exact looseIn_behind_bar hsep.1 hleft hright (hend rfl)
    · exact looseIn_behind_colon hsep hleft

end

/-- If two pieces say the same, and are both empty where that matters, then so do the rows that they stand in. -/
theorem map_segmentsOf_congr {α : Type} {escapes : Bool} {f : List Char → α} {one other : List Char}
    (hf : f (segmentOf escapes one) = f (segmentOf escapes other)) (front : List (List Char))
    {back : List (List Char)} (he : back = [] → (one = [] ↔ other = [])) :
    (segmentsOf escapes (front ++ one :: back)).map f = (segmentsOf escapes (front ++ other :: back)).map f := by
  induction front with
  | nil =>
    cases back with
    | nil =>
      have hempty : one.isEmpty = other.isEmpty := by
        rw [Bool.eq_iff_iff, List.isEmpty_iff, List.isEmpty_iff, he rfl]
      rw [List.nil_append, List.nil_append, segmentsOf, segmentsOf, hempty]
      split
      · rfl
      · rw [List.map_singleton, List.map_singleton, hf]
    | cons next back =>
      rw [List.nil_append, List.nil_append, segmentsOf_cons _ (List.cons_ne_nil _ _),
        segmentsOf_cons _ (List.cons_ne_nil _ _), List.map_cons, List.map_cons, hf]
  | cons first front ih =>
    rw [List.cons_append, List.cons_append, segmentsOf_cons _ (by simp), segmentsOf_cons _ (by simp), List.map_cons,
      List.map_cons, ih]

end Token

open Token

namespace Placeholder

variable {p : Placeholder}

theorem says_congr {main main' : List Char} {behind behind' : List (List Char)}
    (hmain : (pieces ':' true main).map (segmentOf true) = (pieces ':' true main').map (segmentOf true))
    (hbehind : (segmentsOf false behind).map TransformCall.parse? =
      (segmentsOf false behind').map TransformCall.parse?) :
    p.Says main behind ↔ p.Says main' behind' := by
  constructor
  · rintro ⟨hsegments, hmodule, haction, htransforms⟩
    rw [hmain] at hsegments
    rw [hbehind] at htransforms
    exact ⟨hsegments, hmodule, haction, htransforms⟩
  · rintro ⟨hsegments, hmodule, haction, htransforms⟩
    rw [← hmain] at hsegments
    rw [← hbehind] at htransforms
    exact ⟨hsegments, hmodule, haction, htransforms⟩

/-- The pieces between the bars say these parts. -/
def SaidBy (p : Placeholder) : List (List Char) → Prop
  | [] => False
  | main :: behind => p.Says main behind

theorem saidBy_iff {row : List (List Char)} :
    p.SaidBy row ↔ ∃ main behind, row = main :: behind ∧ p.Says main behind := by
  cases row with
  | nil => simp [SaidBy]
  | cons main behind =>
    constructor
    · intro h
      exact ⟨main, behind, rfl, h⟩
    · rintro ⟨_, _, heq, h⟩
      cases heq
      exact h

/-- In a transform, blanks at a loose place do not matter. -/
theorem parse?_loose {left right blanks : List Char} (h : Loose (Text.splitOn ':') Text.trim left right)
    (hb : blanks.all Text.isBlank = true) :
    TransformCall.parse? (left ++ blanks ++ right) = TransformCall.parse? (left ++ right) := by
  unfold TransformCall.parse?
  rw [h blanks hb]

theorem saidBy_loose {front back : List (List Char)} {left right blanks : List Char}
    (h : LooseIn front left right back) (hb : blanks.all Text.isBlank = true) :
    p.SaidBy (front ++ (left ++ blanks ++ right) :: back) ↔ p.SaidBy (front ++ (left ++ right) :: back) := by
  -- the place is in front of the first bar, or in a transform
  cases front with
  | nil => exact says_congr (h.main rfl blanks hb) rfl
  | cons first front =>
    have hfront : first :: front ≠ [] := List.cons_ne_nil _ _
    apply says_congr rfl
    apply map_segmentsOf_congr
    · show TransformCall.parse? (Text.trim (left ++ blanks ++ right)) = TransformCall.parse? (Text.trim (left ++ right))
      rw [TransformCall.parse?_trim, TransformCall.parse?_trim, parse?_loose (h.transform hfront) hb]
    · intro hback
      have hne := h.named hfront hback
      refine iff_of_false ?_ hne
      intro hnil
      rw [List.append_eq_nil_iff, List.append_eq_nil_iff] at hnil
      exact hne (List.append_eq_nil_iff.mpr ⟨hnil.1.1, hnil.2⟩)

/-! ## Tokens -/

/-- The interior is one of a token with these parts. -/
structure Tells (p : Placeholder) (inner : List Char) : Prop where
  oneLine : '\n' ∉ inner
  saidBy : p.SaidBy (pieces '|' false inner)

/-- Nothing says no parts. -/
theorem Tells.ne_nil {inner : List Char} (h : p.Tells inner) : inner ≠ [] := by
  rintro rfl
  have hsays : p.Says [] [] := h.saidBy
  have hsegments : [] = p.segments := hsays.segments
  cases hsegments

theorem Tells.of_token {inner : List Char} (h : p.Tells inner) (token : String) :
    { p with token := token }.Tells inner where
  oneLine := h.oneLine
  saidBy := by
    obtain ⟨main, behind, hpieces, hsays⟩ := saidBy_iff.mp h.saidBy
    exact saidBy_iff.mpr ⟨main, behind, hpieces, hsays.of_token token⟩

theorem parse_bracket_iff {text inner : List Char} (htrim : Text.trim text = bracket inner) :
    Placeholder.parse text = .ok p ↔ p.token = String.ofList (bracket inner) ∧ p.Tells inner := by
  rw [parse_eq_ok_iff, htrim, isToken_bracket, interior_bracket, ← saidBy_iff]
  constructor
  · rintro ⟨⟨-, hline⟩, htoken, hsays⟩
    exact ⟨htoken, hline, hsays⟩
  · rintro ⟨htoken, htells⟩
    exact ⟨⟨htells.ne_nil, htells.oneLine⟩, htoken, htells.saidBy⟩

/-- Blanks at a gap do not matter to what an interior tells. -/
theorem tells_gap {before blanks after : List Char} (h : Gap before after) (hb : Blanks blanks) :
    p.Tells (before ++ blanks ++ after) ↔ p.Tells (before ++ after) := by
  obtain ⟨front, left, right, back, hleft, hright, hpieces⟩ := exists_pieces_seam h.seam
  have hnone := hpieces [] rfl
  rw [List.append_nil, List.append_nil] at hnone
  have hline : '\n' ∉ before ++ blanks ++ after ↔ '\n' ∉ before ++ after := by
    simp [hb.oneLine]
  have hsays : p.SaidBy (pieces '|' false (before ++ blanks ++ after)) ↔
      p.SaidBy (pieces '|' false (before ++ after)) := by
    rw [hpieces blanks hb.blank, hnone, saidBy_loose (h.looseIn hleft hright) hb.blank]
  constructor
  · rintro ⟨hl, hs⟩
    exact ⟨hline.mp hl, hsays.mp hs⟩
  · rintro ⟨hl, hs⟩
    exact ⟨hline.mpr hl, hsays.mpr hs⟩

theorem Tells.respaced {inner inner' : List Char} (h : p.Tells inner) (hr : Respaced inner inner') :
    p.Tells inner' := by
  cases hr with
  | insert hgap hb => exact (tells_gap hgap hb).mpr h
  | delete hgap hb => exact (tells_gap hgap hb).mp h

/-- **Blanks around separators and inside of the braces do not matter.** Whatever blanks come or go at the gaps of a
token, at one gap after the other, its parts stay the same. -/
theorem parse_respaced {text : List Char} (h : Placeholder.parse text = .ok p) :
    ∃ inner, Text.trim text = bracket inner ∧
      ∀ inner' text', Relation.ReflTransGen Respaced inner inner' → Text.trim text' = bracket inner' →
        Placeholder.parse text' = .ok { p with token := String.ofList (bracket inner') } := by
  obtain ⟨inner, hinner⟩ := exists_inside_of_isToken (parse_eq_ok_iff.mp h).1
  rw [Text.trim_trim] at hinner
  have htells := ((parse_bracket_iff hinner).mp h).2
  refine ⟨inner, hinner, ?_⟩
  intro inner' text' hreach htrim
  have htells' : p.Tells inner' := by
    clear htrim
    induction hreach with
    | refl => exact htells
    | tail _ hstep ih => exact ih.respaced hstep
  exact (parse_bracket_iff htrim).mpr ⟨rfl, htells'.of_token _⟩

/-- A blank comes behind a colon, and one in front of a colon in a transform goes. -/
theorem parse_respaced_twice :
    let text := "\x7b\x7ba:b|t :x\x7d\x7d".toList
    let text' := "\x7b\x7ba: b|t:x\x7d\x7d".toList
    Placeholder.parse text = .ok ⟨String.ofList text, "a", "b", [], [⟨"t", ["x"]⟩]⟩ ∧
      Placeholder.parse text' = .ok ⟨String.ofList text', "a", "b", [], [⟨"t", ["x"]⟩]⟩ := by
  intro text text'
  have hparse : Placeholder.parse text = .ok ⟨String.ofList text, "a", "b", [], [⟨"t", ["x"]⟩]⟩ := by rfl
  obtain ⟨inner, hinner, hall⟩ := parse_respaced hparse
  have htrim : Text.trim text = bracket "a:b|t :x".toList := by decide
  obtain rfl : inner = "a:b|t :x".toList := bracket_inj.mp (hinner.symm.trans htrim)
  have hcolon : Gap (['a'] ++ [':']) "b|t :x".toList :=
    .behind ⟨by decide, .inr ⟨rfl, fun hlast => absurd hlast (by decide)⟩⟩ (by decide)
  have hcolon' : Gap "a: b|t".toList [':', 'x'] :=
    .inFront ⟨by decide, .inr ⟨rfl, fun hlast => absurd hlast (by decide)⟩⟩ ['x']
  have hblank : Blanks [' '] := ⟨by decide, by decide⟩
  have hinsert : Respaced "a:b|t :x".toList "a: b|t :x".toList := .insert hcolon hblank
  have hdelete : Respaced "a: b|t :x".toList "a: b|t:x".toList := .delete hcolon' hblank
  have htext' : Text.trim text' = bracket "a: b|t:x".toList := by decide
  exact ⟨hparse, hall _ text' (.tail (.single hinsert) hdelete) htext'⟩

/-- Where blanks do matter. Without the one behind the backslash, the colon is an escaped one. With a line feed behind
it, there is no token. With a blank behind a bar at the end, there is a transform without a name. -/
theorem spacing_matters :
    let spaced := "\x7b\x7ba:b\\ :c\x7d\x7d".toList
    let escaped := "\x7b\x7ba:b\\:c\x7d\x7d".toList
    let broken := "\x7b\x7ba:b\\ \n:c\x7d\x7d".toList
    let ended := "\x7b\x7ba:b|\x7d\x7d".toList
    let unnamed := "\x7b\x7ba:b| \x7d\x7d".toList
    Placeholder.parse spaced = .ok ⟨String.ofList spaced, "a", "b\\", ["c"], []⟩ ∧
      Placeholder.parse escaped = .ok ⟨String.ofList escaped, "a", "b:c", [], []⟩ ∧
      Placeholder.parse broken = .error (.notToken (String.ofList broken)) ∧
      Placeholder.parse ended = .ok ⟨String.ofList ended, "a", "b", [], []⟩ ∧
      Placeholder.parse unnamed = .error (.emptyTransform (String.ofList unnamed)) := by
  intro spaced escaped broken ended unnamed
  refine ⟨?_, ?_, ?_, ?_, ?_⟩
  all_goals rfl

end Placeholder

end Template
