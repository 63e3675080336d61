import Template.Text.Blank
import Template.Text.Search

/-!
# `Template.Proofs.Search` — occurrence, replacement and trimming

What the functions of `Template.Text.Search` and `Template.Text.Blank` do, said in terms of appended texts:
`occursIn` is the infix relation, replacement passes over a text in which the needle cannot begin and eats
the needle where it stands, and a text whose ends are not blank is already trimmed. A stretch of characters of one
kind at the front of a text ends where the first other one stands.
-/

namespace Template.Text

variable {needle new text rest : List Char}

/-! ## Occurrence -/

theorem occursIn_iff : occursIn needle text = true ↔ needle <:+: text := by
  induction text with
  | nil => simp [occursIn, List.isEmpty_iff]
  | cons c rest ih =>
    rw [occursIn, Bool.or_eq_true, ih, List.isPrefixOf_iff_prefix, List.infix_cons_iff]

/-! ## Replacement -/

/-- Characters that belong to the occurrence last replaced are passed over. -/
theorem replaceFrom_skip (skipped : List Char) :
    replaceFrom needle new skipped.length (skipped ++ rest) = replaceFrom needle new 0 rest := by
  induction skipped with
  | nil => rfl
  | cons c skipped ih =>
    rw [List.length_cons, List.cons_append, replaceFrom]
    exact ih

theorem replaceFrom_cons_of_not_prefix {c : Char} (h : ¬ needle <+: c :: rest) :
    replaceFrom needle new 0 (c :: rest) = c :: replaceFrom needle new 0 rest := by
  rw [replaceFrom, if_neg (by rwa [List.isPrefixOf_iff_prefix])]

/-- An occurrence at the front is replaced, and replacement goes on behind it. -/
theorem replaceFrom_append (h : needle ≠ []) :
    replaceFrom needle new 0 (needle ++ rest) = new ++ replaceFrom needle new 0 rest := by
  cases needle with
  | nil => exact absurd rfl h
  | cons c needle =>
    rw [List.cons_append, replaceFrom, if_pos]
    · rw [List.length_cons, Nat.add_sub_cancel, replaceFrom_skip]
    · rw [List.isPrefixOf_iff_prefix, ← List.cons_append]
      exact List.prefix_append _ _

/-- A text in which the needle does not occur is left as it is. -/
theorem replaceFrom_of_not_occursIn (h : occursIn needle text = false) :
    replaceFrom needle new 0 text = text := by
  induction text with
  | nil => rfl
  | cons c rest ih =>
    rw [occursIn, Bool.or_eq_false_iff] at h
    rw [replaceFrom, if_neg (by rw [h.1]; exact Bool.false_ne_true), ih h.2]

/-! ## Lists without repetition -/

theorem nodup_eraseDups {α : Type} [BEq α] [LawfulBEq α] (l : List α) : l.eraseDups.Nodup := by
  match l with
  | [] => exact List.nodup_nil
  | a :: rest =>
    rw [List.eraseDups_cons, List.nodup_cons]
    have := List.length_filter_le (fun b => !b == a) rest
    refine ⟨?_, nodup_eraseDups _⟩
    rw [List.mem_eraseDups, List.mem_filter]
    rintro ⟨-, h⟩
    simp at h
termination_by l.length

/-! ## Stretches -/

/-- A stretch of characters with a property ends where the property does. -/
theorem takeWhile_dropWhile_append (p : Char → Bool) {front back : List Char} (hfront : ∀ c ∈ front, p c = true)
    (hback : ∀ c, back.head? = some c → p c = false) :
    (front ++ back).takeWhile p = front ∧ (front ++ back).dropWhile p = back := by
  rw [List.takeWhile_append_of_pos hfront, List.dropWhile_append_of_pos hfront]
  cases back with
  | nil => exact ⟨List.append_nil front, rfl⟩
  | cons c rest =>
    have hc : ¬p c = true := by simp [hback c rfl]
    rw [List.takeWhile_cons_of_neg hc, List.dropWhile_cons_of_neg hc]
    exact ⟨List.append_nil front, rfl⟩

/-- So a text has only one stretch at its front. -/
theorem stretch_inj (p : Char → Bool) {front front' back back' : List Char} (hfront : ∀ c ∈ front, p c = true)
    (hfront' : ∀ c ∈ front', p c = true) (hback : ∀ c, back.head? = some c → p c = false)
    (hback' : ∀ c, back'.head? = some c → p c = false) (h : front ++ back = front' ++ back') :
    front = front' ∧ back = back' := by
  obtain ⟨htake, hdrop⟩ := takeWhile_dropWhile_append p hfront hback
  obtain ⟨htake', hdrop'⟩ := takeWhile_dropWhile_append p hfront' hback'
  rw [h] at htake hdrop
  exact ⟨htake.symm.trans htake', hdrop.symm.trans hdrop'⟩

/-! ## Trimming -/

theorem dropWhile_of_head {p : Char → Bool} {c : Char} (h : p c = false) :
    (c :: rest).dropWhile p = c :: rest := by
  rw [List.dropWhile_cons_of_neg (by rw [h]; exact Bool.false_ne_true)]

theorem dropEnd_of_last {p : Char → Bool} {c : Char} (h : p c = false) :
    dropEnd p (text ++ [c]) = text ++ [c] := by
  unfold dropEnd
  rw [List.reverse_append, List.reverse_singleton, List.singleton_append, dropWhile_of_head h,
    List.reverse_cons, List.reverse_reverse]

/-- A text that neither starts nor ends with a blank is already trimmed. -/
theorem trim_of_ends {first last : Char} (hf : isBlank first = false) (hl : isBlank last = false) :
    trim (first :: (text ++ [last])) = first :: (text ++ [last]) := by
  unfold trim stripBy
  rw [dropWhile_of_head hf, ← List.cons_append, dropEnd_of_last hl]

/-- Blanks around a text do not matter to `trim`. -/
theorem trim_surrounded {before after : List Char} (hb : before.all isBlank) (ha : after.all isBlank) :
    trim (before ++ text ++ after) = trim text := by
  rw [trim_append_blank ha, trim_blank_append hb]

end Template.Text
