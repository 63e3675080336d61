import Mathlib.Algebra.Group.Nat.Even
import Mathlib.Data.List.TakeWhile
import Template.Calendar.Pattern
import Template.Proofs.Search

/-!
# `Template.Proofs.Patterns` — patterns in parts

A pattern is cut into pieces from the front, and where a piece ends depends on what follows: a run goes on as long as its
letter does, and a quoted text up to the next quote. Behind a closed quote, or between two different characters outside of
quotes, a pattern may be divided, and its parts are formatted on their own.

## Contents
- `cut`, `pieces_cons`, `cut_induction` — one piece after the other.
- `Closed`, `Apart`, `pieces_append` — where a pattern may be divided.
- `part?_of_not_letter` — only letters stand for something.
- `turns` — formatting with a bound on the number of pieces.
- `format_composes` — all of this for formatted moments.
-/

namespace Template.Calendar.Pattern

/-! ## One piece after the other -/

/-- The piece at the front of a pattern that starts with `c`, and what is left behind it. -/
def cut (c : Char) (rest : List Char) : Piece × List Char :=
  if c = '\x27' then
    (.quoted (rest.takeWhile (· != '\x27')), (rest.dropWhile (· != '\x27')).drop 1)
  else
    (.run c ((rest.takeWhile (· == c)).length + 1), rest.dropWhile (· == c))

theorem cut_quote (rest : List Char) :
    cut '\x27' rest = (.quoted (rest.takeWhile (· != '\x27')), (rest.dropWhile (· != '\x27')).drop 1) :=
  if_pos rfl

theorem cut_run {c : Char} (h : c ≠ '\x27') (rest : List Char) :
    cut c rest = (.run c ((rest.takeWhile (· == c)).length + 1), rest.dropWhile (· == c)) :=
  if_neg h

theorem pieces_cons (c : Char) (rest : List Char) : pieces (c :: rest) = (cut c rest).1 :: pieces (cut c rest).2 := by
  rw [pieces]
  by_cases h : c = '\x27'
  · subst h
    rw [if_pos rfl, cut_quote]
  · rw [if_neg h, cut_run h]

theorem length_cut_le (c : Char) (rest : List Char) : (cut c rest).2.length ≤ rest.length := by
  by_cases h : c = '\x27'
  · subst h
    rw [cut_quote, List.length_drop]
    exact Nat.le_trans (Nat.sub_le _ _) (length_dropWhile_le _ rest)
  · rw [cut_run h]
    exact length_dropWhile_le _ rest

/-- What holds of the empty pattern, and of every pattern if it holds behind its first piece, holds of all of them. -/
theorem cut_induction {motive : List Char → Prop} (nil : motive [])
    (cons : ∀ c rest, motive (cut c rest).2 → motive (c :: rest)) (pattern : List Char) : motive pattern := by
  match pattern with
  | [] => exact nil
  | c :: rest => exact cons c rest (cut_induction nil cons (cut c rest).2)
termination_by pattern.length
decreasing_by exact Nat.lt_succ_of_le (length_cut_le c rest)

theorem format_nil (m : Moment) : format m [] = [] := by
  rw [format, pieces, List.flatMap_nil]

theorem format_cons (m : Moment) (c : Char) (rest : List Char) :
    format m (c :: rest) = (cut c rest).1.text m ++ format m (cut c rest).2 := by
  rw [format, pieces_cons, List.flatMap_cons]
  rfl

/-! ## Where a pattern may be divided -/

/-- Every quote is closed. -/
def Closed (pattern : List Char) : Prop := Even (pattern.count '\x27')

/-- The character in front of the division is not the one behind it, or it is a quote. -/
def Apart (front back : List Char) : Prop :=
  ∀ c, front.getLast? = some c → back.head? = some c → c = '\x27'

theorem Apart.of_append (first : List Char) {front back : List Char} (h : Apart (first ++ front) back) :
    Apart front back := by
  intro c hlast hhead
  exact h c (by rw [List.getLast?_append, hlast]; rfl) hhead

/-- A quoted text that is closed. -/
theorem cut_closed {text : List Char} (h : '\x27' ∉ text) (back : List Char) :
    cut '\x27' (text ++ '\x27' :: back) = (.quoted text, back) := by
  have htext : ∀ c ∈ text, (c != '\x27') = true := fun c hc => bne_iff_ne.mpr fun heq => h (heq ▸ hc)
  have hquote : ∀ c, ('\x27' :: back).head? = some c → (c != '\x27') = false := by
    rintro c ⟨⟩
    rfl
  obtain ⟨htake, hdrop⟩ := Text.takeWhile_dropWhile_append (· != '\x27') htext hquote
  rw [cut_quote, htake, hdrop]
  rfl

/-- A quoted text that is not closed is the rest of the pattern. -/
theorem cut_unclosed {text : List Char} (h : '\x27' ∉ text) : cut '\x27' text = (.quoted text, []) := by
  have htext : ∀ c ∈ text, (c != '\x27') = true := fun c hc => bne_iff_ne.mpr fun heq => h (heq ▸ hc)
  rw [cut_quote, List.takeWhile_eq_self_iff.mpr htext, List.dropWhile_eq_nil_iff.mpr htext]
  rfl

/-- A run, which ends where another character follows. -/
theorem cut_replicate {c : Char} (hc : c ≠ '\x27') (count : ℕ) {back : List Char} (hback : back.head? ≠ some c) :
    cut c (List.replicate count c ++ back) = (.run c (count + 1), back) := by
  have hrun : ∀ d ∈ List.replicate count c, (d == c) = true := fun d hd => beq_iff_eq.mpr (List.eq_of_mem_replicate hd)
  have hend : ∀ d, back.head? = some d → (d == c) = false := fun d hd =>
    beq_eq_false_iff_ne.mpr fun heq => hback (heq ▸ hd)
  obtain ⟨htake, hdrop⟩ := Text.takeWhile_dropWhile_append (· == c) hrun hend
  rw [cut_run hc, htake, hdrop, List.length_replicate]

/-- Every text is a stretch of one character and a rest that does not start with it. -/
theorem exists_replicate (c : Char) (text : List Char) :
    ∃ count back, text = List.replicate count c ++ back ∧ back.head? ≠ some c := by
  induction text with
  | nil => exact ⟨0, [], rfl, by simp⟩
  | cons d rest ih =>
    by_cases h : d = c
    · obtain ⟨count, back, rfl, hback⟩ := ih
      exact ⟨count + 1, back, by rw [h]; rfl, hback⟩
    · exact ⟨0, d :: rest, rfl, by simp [h]⟩

/-- **The first piece ends in front of the division**, and the rest of the front part may be divided from the back part
as well. -/
theorem cut_append {c : Char} {rest back : List Char} (hclosed : Closed (c :: rest)) (hapart : Apart (c :: rest) back) :
    cut c (rest ++ back) = ((cut c rest).1, (cut c rest).2 ++ back) ∧
      Closed (cut c rest).2 ∧ Apart (cut c rest).2 back := by
  unfold Closed at hclosed
  by_cases hc : c = '\x27'
  · subst hc
    -- an even number of quotes, so that there is another one behind the first
    rw [List.count_cons_self, Nat.even_add_one] at hclosed
    have hmem : '\x27' ∈ rest := by
      by_contra hnone
      rw [List.count_eq_zero_of_not_mem hnone] at hclosed
      exact hclosed Even.zero
    obtain ⟨text, left, rfl, htext⟩ := List.eq_append_cons_of_mem hmem
    rw [List.append_assoc, List.cons_append, cut_closed htext, cut_closed htext]
    refine ⟨rfl, ?_, Apart.of_append ('\x27' :: (text ++ ['\x27'])) (by simpa using hapart)⟩
    rw [List.count_append, List.count_eq_zero_of_not_mem htext, List.count_cons_self, Nat.zero_add,
      Nat.even_add_one, not_not] at hclosed
    exact hclosed
  · obtain ⟨count, left, rfl, hleft⟩ := exists_replicate c rest
    have hend : (left ++ back).head? ≠ some c := by
      cases left with
      | cons d left => exact hleft
      | nil =>
        -- the run reaches up to the division, and there it ends
        intro hhead
        refine hc (hapart c ?_ hhead)
        rw [List.append_nil, ← List.replicate_succ, List.getLast?_replicate]
        rfl
    rw [List.append_assoc, cut_replicate hc count hend, cut_replicate hc count hleft]
    refine ⟨rfl, ?_, Apart.of_append (c :: List.replicate count c) hapart⟩
    have hnone : '\x27' ∉ c :: List.replicate count c := by
      simpa [List.mem_replicate] using ⟨Ne.symm hc, fun _ => Ne.symm hc⟩
    rwa [← List.cons_append, List.count_append, List.count_eq_zero_of_not_mem hnone, Nat.zero_add] at hclosed

/-- **A pattern that is divided has the pieces of its parts.** -/
theorem pieces_append {front back : List Char} (hclosed : Closed front) (hapart : Apart front back) :
    pieces (front ++ back) = pieces front ++ pieces back := by
  induction front using cut_induction with
  | nil => rw [List.nil_append, pieces, List.nil_append]
  | cons c rest ih =>
    obtain ⟨hcut, hclosed', hapart'⟩ := cut_append hclosed hapart
    rw [List.cons_append, pieces_cons, pieces_cons, hcut, List.cons_append, ih hclosed' hapart']

theorem format_append (m : Moment) {front back : List Char} (hclosed : Closed front) (hapart : Apart front back) :
    format m (front ++ back) = format m front ++ format m back := by
  rw [format, pieces_append hclosed hapart, List.flatMap_append]
  rfl

/-! ## What is copied -/

/-- Only letters stand for something. -/
theorem part?_of_not_letter {c : Char} (h : c.isAlpha = false) (count : ℕ) (m : Moment) : part? c count m = none := by
  unfold part?
  split
  all_goals first
    | rfl
    | cases h

/-- A pattern without quotes and letters is copied. -/
theorem format_plain (m : Moment) {pattern : List Char} (h : ∀ c ∈ pattern, c ≠ '\x27' ∧ c.isAlpha = false) :
    format m pattern = pattern := by
  induction pattern using cut_induction with
  | nil => exact format_nil m
  | cons c rest ih =>
    obtain ⟨hc, hletter⟩ := h c List.mem_cons_self
    obtain ⟨count, back, rfl, hback⟩ := exists_replicate c rest
    rw [cut_replicate hc count hback] at ih
    rw [format_cons, cut_replicate hc count hback, ih fun d hd => h d (by simp [hd]), Piece.text,
      part?_of_not_letter hletter]
    rfl

/-! ## The number of pieces -/

/-- A moment in the form of a pattern, if the pattern does not have more than `limit` pieces. -/
def turns (m : Moment) : (limit : ℕ) → List Char → Option (List Char)
  | _, [] => some []
  | 0, _ :: _ => none
  | limit + 1, c :: rest => (turns m limit (cut c rest).2).map ((cut c rest).1.text m ++ ·)

/-- There are at most as many pieces as characters. -/
theorem turns_eq_format (m : Moment) {pattern : List Char} {limit : ℕ} (h : pattern.length ≤ limit) :
    turns m limit pattern = some (format m pattern) := by
  induction pattern using cut_induction generalizing limit with
  | nil => rw [turns, format_nil]
  | cons c rest ih =>
    obtain ⟨fewer, rfl⟩ : ∃ fewer, limit = fewer + 1 := Nat.exists_eq_succ_of_ne_zero (Nat.ne_zero_of_lt h)
    have hfewer := Nat.le_trans (length_cut_le c rest) (Nat.le_of_succ_le_succ h)
    rw [turns, ih hfewer, format_cons]
    rfl

/-! ## Formatted moments -/

/-- **Patterns in parts.** Where every quote is closed, and the next character is another one or a quote, a pattern may be
divided, and the moment in the form of the pattern is that in the form of its parts. Quoted text is copied, and so is all
that stands behind a quote that is not closed. A pattern without quotes and letters is copied as it is. There are at most as
many pieces to be taken off a pattern as it has characters. -/
theorem format_composes (m : Moment) :
    (∀ front back, Even (front.count '\x27') →
      (∀ c, front.getLast? = some c → back.head? = some c → c = '\x27') →
      format m (front ++ back) = format m front ++ format m back) ∧
    (∀ text, '\x27' ∉ text → format m ('\x27' :: text ++ ['\x27']) = text) ∧
    (∀ front text, Even (front.count '\x27') → '\x27' ∉ text →
      format m (front ++ '\x27' :: text) = format m front ++ text) ∧
    (∀ pattern, (∀ c ∈ pattern, c ≠ '\x27' ∧ c.isAlpha = false) → format m pattern = pattern) ∧
    (∀ pattern limit, pattern.length ≤ limit → turns m limit pattern = some (format m pattern)) := by
  refine ⟨?_, ?_, ?_, ?_, ?_⟩
  · intro front back hclosed hapart
    exact format_append m hclosed hapart
  · intro text htext
    rw [List.cons_append, format_cons, cut_closed htext, format_nil, List.append_nil]
    rfl
  · intro front text hclosed htext
    have hapart : Apart front ('\x27' :: text) := by
      intro c _ hhead
      cases hhead
      rfl
    rw [format_append m hclosed hapart, format_cons, cut_unclosed htext, format_nil, List.append_nil]
    rfl
  · intro pattern hplain
    exact format_plain m hplain
  · intro pattern limit hlimit
    exact turns_eq_format m hlimit

theorem format_composes_quoted :
    format default ("\x27day\x27 ".toList ++ "d".toList) =
        format default "\x27day\x27 ".toList ++ format default "d".toList ∧
      format default ('\x27' :: "week W".toList ++ ['\x27']) = "week W".toList ∧
      format default ("\x27day\x27 ".toList ++ '\x27' :: "d".toList) = format default "\x27day\x27 ".toList ++ "d".toList ∧
      format default "--/10:".toList = "--/10:".toList ∧
      turns default 6 "--/10:".toList = some (format default "--/10:".toList) := by
  obtain ⟨hparts, hquoted, hunclosed, hplain, hturns⟩ := format_composes default
  exact ⟨hparts _ _ (by decide) (by simp), hquoted _ (by decide), hunclosed _ _ (by decide) (by decide),
    hplain _ (by simp), hturns _ _ (by decide)⟩

end Template.Calendar.Pattern
