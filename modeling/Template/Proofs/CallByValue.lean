import Template.Proofs.Content
import Template.Proofs.Passes

/-!
# `Template.Proofs.CallByValue` — substitution in passes is evaluation from the inside

The recursive evaluator takes the content of a token, evaluates the tokens nested in it first, writes the
texts of their values in their places, and asks for the value of the flat token that this gives
(`Content.eval?`). The engine knows no content: it replaces texts in texts, pass by pass, and a token may
become equal to a neighbour halfway through a pass.

Both agree on content whose values bring no braces. What carries the proof is that replacing one flat token
keeps the evaluation of the whole (`spliced?_replace`), whichever occurrences it hits, while the number of
passes that are still needed (`Content.pending`) never grows and is smaller by one at the end of a pass.
-/

namespace Template

namespace Token.Content

variable (answer : List Char → Option Json)

/-! ## The recursive evaluator -/

/-- The text in which every token is replaced by the text of its value, the tokens inside of it first;
    `answer` gives the values of flat tokens. -/
def spliced? : Content → Option (List Char)
  | empty => some []
  | text chars rest => do return chars ++ (← rest.spliced?)
  | token inside rest => do
    let value ← answer (bracket (← inside.spliced?))
    return value.asText ++ (← rest.spliced?)

/-- The value of the token with the given content. -/
def eval? (inside : Content) : Option Json := do
  answer (bracket (← inside.spliced? answer))

/-- The texts of the values of all tokens, inner and outer, hold no braces. -/
def PlainValues : Content → Prop
  | empty => True
  | text _ rest => rest.PlainValues
  | token inside rest =>
    inside.PlainValues ∧ (∀ value, inside.eval? answer = some value → Braceless value.asText) ∧
      rest.PlainValues

variable {answer}

theorem spliced?_text (chars : List Char) (rest : Content) :
    (text chars rest).spliced? answer = (rest.spliced? answer).map (chars ++ ·) := by
  rw [spliced?]
  cases rest.spliced? answer with
  | none => rfl
  | some _ => rfl

theorem spliced?_token (inside rest : Content) :
    (token inside rest).spliced? answer =
      (inside.eval? answer).bind fun value =>
        (rest.spliced? answer).map (value.asText ++ ·) := by
  rw [spliced?, eval?]
  cases inside.spliced? answer with
  | none => rfl
  | some s =>
    show (answer (bracket s) >>= fun value => _) = Option.bind (answer (bracket s)) fun value => _
    cases answer (bracket s) with
    | none => rfl
    | some value =>
      show (rest.spliced? answer >>= fun _ => _) = _
      cases rest.spliced? answer with
      | none => rfl
      | some _ => rfl

/-- A flat stretch of content is spliced as it is written. -/
theorem spliced?_of_isFlat {content : Content} (h : content.isFlat = true) :
    content.spliced? answer = some content.render := by
  induction content with
  | empty => rfl
  | text chars rest ih => rw [spliced?_text, ih h, Option.map_some, render]
  | token inside rest => exact absurd h Bool.false_ne_true

theorem eval?_of_isFlat {inside : Content} (h : inside.isFlat = true) :
    inside.eval? answer = answer (bracket inside.render) := by
  rw [eval?, spliced?_of_isFlat h]
  rfl

/-- A text that was spliced from plain values holds no braces. -/
theorem braceless_spliced? {content : Content} (hw : content.WellFormed)
    (hp : content.PlainValues answer) {spliced : List Char}
    (h : content.spliced? answer = some spliced) : Braceless spliced := by
  induction content generalizing spliced with
  | empty =>
    cases h
    exact fun c hc => absurd hc List.not_mem_nil
  | text chars rest ih =>
    rw [spliced?_text, Option.map_eq_some_iff] at h
    obtain ⟨tail, htail, rfl⟩ := h
    exact braceless_append.mpr ⟨hw.1, ih hw.2 hp htail⟩
  | token inside rest _ ih =>
    rw [spliced?_token, Option.bind_eq_some_iff] at h
    obtain ⟨value, hvalue, h⟩ := h
    rw [Option.map_eq_some_iff] at h
    obtain ⟨tail, htail, rfl⟩ := h
    exact braceless_append.mpr ⟨hp.2.1 value hvalue, ih hw.2 hp.2.2 htail⟩

/-- Every flat token of evaluated content has a value, whose text holds no braces. -/
theorem answer_of_mem_flats {content : Content} (hp : content.PlainValues answer) {spliced : List Char}
    (h : content.spliced? answer = some spliced) {target : List Char} (ht : target ∈ content.flats) :
    ∃ value, answer target = some value ∧ Braceless value.asText := by
  induction content generalizing spliced with
  | empty => exact absurd ht List.not_mem_nil
  | text chars rest ih =>
    rw [spliced?_text, Option.map_eq_some_iff] at h
    obtain ⟨tail, htail, -⟩ := h
    exact ih hp htail ht
  | token inside rest ihInside ihRest =>
    rw [spliced?_token, Option.bind_eq_some_iff] at h
    obtain ⟨value, hvalue, h⟩ := h
    rw [Option.map_eq_some_iff] at h
    obtain ⟨tail, htail, -⟩ := h
    rcases mem_flats_token.mp ht with ⟨hf, rfl⟩ | ht | ht
    · exact ⟨value, (eval?_of_isFlat hf).symm.trans hvalue, hp.2.1 value hvalue⟩
    · obtain ⟨inner, hinner, -⟩ := Option.bind_eq_some_iff.mp hvalue
      exact ihInside hp.1 hinner ht
    · exact ihRest hp.2.2 htail ht

/-- The value of a token without nested tokens brings no braces. -/
theorem braceless_of_mem_flats {content : Content} (hp : content.PlainValues answer) {target : List Char}
    (ht : target ∈ content.flats) {value : Json} (hv : answer target = some value) :
    Braceless value.asText := by
  induction content with
  | empty => exact absurd ht List.not_mem_nil
  | text chars rest ih => exact ih hp ht
  | token inside rest ihInside ihRest =>
    rcases mem_flats_token.mp ht with ⟨hf, rfl⟩ | ht | ht
    · exact hp.2.1 value ((eval?_of_isFlat hf).trans hv)
    · exact ihInside hp.1 ht
    · exact ihRest hp.2.2 ht

/-! ## Replacing one token keeps the evaluation -/

/-- **Replacing a flat token by the text of its value keeps the evaluation**, in all its occurrences. -/
theorem spliced?_replace {target : List Char} {value : Json} (h : answer target = some value)
    (content : Content) :
    (content.replace target value.asText).spliced? answer = content.spliced? answer := by
  induction content with
  | empty => rfl
  | text chars rest ih => rw [replace, spliced?_text, ih, spliced?_text]
  | token inside rest ihInside ihRest =>
    rw [replace]
    split
    · -- a hit: the text of the value stands where its token was to be evaluated
      rename_i hhit
      rw [Bool.and_eq_true, beq_iff_eq] at hhit
      rw [spliced?_text, ihRest, spliced?_token, eval?_of_isFlat hhit.1, hhit.2, h, Option.bind_some]
    · rw [spliced?_token, spliced?_token, eval?, ihInside, ihRest, eval?]

theorem eval?_replace {target : List Char} {value : Json} (h : answer target = some value)
    (inside : Content) : (inside.replace target value.asText).eval? answer = inside.eval? answer := by
  rw [eval?, spliced?_replace h, eval?]

theorem plainValues_replace {target : List Char} {value : Json} (h : answer target = some value)
    {content : Content} (hp : content.PlainValues answer) :
    (content.replace target value.asText).PlainValues answer := by
  induction content with
  | empty => trivial
  | text chars rest ih => exact ih hp
  | token inside rest ihInside ihRest =>
    rw [replace]
    split
    · exact ihRest hp.2.2
    · refine ⟨ihInside hp.1, ?_, ihRest hp.2.2⟩
      rw [eval?_replace h]
      exact hp.2.1

/-! ## What is left to do -/

/-- How many passes content needs after the current one, in which the tokens `due` are still to be
    replaced. -/
def pending (due : List (List Char)) : Content → Nat
  | empty => 0
  | text _ rest => rest.pending due
  | token inside rest =>
    max
      (if inside.isFlat then if due.contains (bracket inside.render) then 0 else 1
        else inside.pending due + 1)
      (rest.pending due)

theorem depth_of_isFlat {content : Content} (h : content.isFlat = true) : content.depth = 0 := by
  induction content with
  | empty => rfl
  | text chars rest ih => exact ih h
  | token inside rest => exact absurd h Bool.false_ne_true

theorem depth_pos_of_not_isFlat {content : Content} (h : content.isFlat = false) :
    0 < content.depth := by
  induction content with
  | empty => exact absurd h.symm Bool.false_ne_true
  | text chars rest ih => exact ih h
  | token inside rest => rw [depth]; omega

theorem isFlat_of_depth_eq_zero {content : Content} (h : content.depth = 0) : content.isFlat = true := by
  cases hf : content.isFlat with
  | true => rfl
  | false => exact absurd h (Nat.ne_of_gt (depth_pos_of_not_isFlat hf))

/-- At the end of a pass, as many passes are needed as tokens are nested. -/
theorem pending_nil (content : Content) : content.pending [] = content.depth := by
  induction content with
  | empty => rfl
  | text chars rest ih => exact ih
  | token inside rest ihInside ihRest =>
    rw [pending, depth, ihInside, ihRest]
    split
    · rename_i hf
      rw [depth_of_isFlat hf]
      rfl
    · rfl

/-- At the start of a pass in which all flat tokens are replaced, one pass less is needed. -/
theorem pending_le {content : Content} {due : List (List Char)}
    (h : ∀ target ∈ content.flats, target ∈ due) : content.pending due ≤ content.depth - 1 := by
  induction content with
  | empty => exact Nat.zero_le _
  | text chars rest ih => exact ih h
  | token inside rest ihInside ihRest =>
    have hrest := ihRest fun target ht => h target (mem_flats_token.mpr (.inr (.inr ht)))
    rw [pending, depth]
    cases hf : inside.isFlat with
    | true =>
      have hmem : due.contains (bracket inside.render) = true :=
        List.contains_iff_mem.mpr (h _ (mem_flats_token.mpr (.inl ⟨hf, rfl⟩)))
      rw [if_pos rfl, hmem, if_pos rfl]
      omega
    | false =>
      have hinside := ihInside fun target ht => h target (mem_flats_token.mpr (.inr (.inl ht)))
      have := depth_pos_of_not_isFlat hf
      rw [if_neg Bool.false_ne_true]
      omega

/-- **Replacing a token that is due never asks for more passes.** A token around it that becomes flat has
    to wait for the next pass, but had to wait for it anyway. -/
theorem pending_replace (target new : List Char) (due : List (List Char)) (content : Content) :
    (content.replace target new).pending due ≤ content.pending (target :: due) := by
  induction content with
  | empty => exact Nat.le_refl _
  | text chars rest ih => exact ih
  | token inside rest ihInside ihRest =>
    rw [replace]
    cases hf : inside.isFlat with
    | true =>
      rw [Bool.true_and]
      split
      · rw [pending, pending]
        omega
      · -- another flat token: whether it is due does not depend on `target`
        rename_i hmiss
        rw [beq_iff_eq] at hmiss
        have hsame : (target :: due).contains (bracket inside.render) =
            due.contains (bracket inside.render) := by
          rw [List.contains_cons, beq_eq_false_iff_ne.mpr hmiss, Bool.false_or]
        rw [replace_of_isFlat hf, pending, pending, hf, if_pos rfl, if_pos rfl, hsame]
        omega
    | false =>
      rw [Bool.false_and, if_neg Bool.false_ne_true, pending, pending, hf, if_neg Bool.false_ne_true]
      split
      · -- it has become flat: due or not, it counts for one pass at most, as it did before
        split <;> omega
      · omega

/-! ## One pass over content -/

variable (answer) in
/-- Well-formed content with plain values, and the text that it is evaluated to. -/
structure Yields (content : Content) (spliced : List Char) : Prop where
  wellFormed : content.WellFormed
  plain : content.PlainValues answer
  spliced : content.spliced? answer = some spliced

variable (answer) in
/-- The content with flat tokens replaced by the texts of their values, one token after another. -/
def replaceEach : List (List Char) → Content → Content
  | [], content => content
  | target :: rest, content =>
    match answer target with
    | some value => replaceEach rest (content.replace target value.asText)
    | none => replaceEach rest content

variable (answer) in
/-- The content after a pass over its text. -/
def afterPass (content : Content) : Content :=
  content.replaceEach answer (innermost (Token.tokens content.render))

/-- Replacing flat tokens by the texts of their values keeps the evaluation, if only some of them are
    replaced, too. -/
theorem spliced?_replaceEach {part : List Char → Option Json}
    (hpart : ∀ target value, part target = some value → answer target = some value)
    (targets : List (List Char)) (content : Content) :
    (content.replaceEach part targets).spliced? answer = content.spliced? answer := by
  induction targets generalizing content with
  | nil => rfl
  | cons target rest ih =>
    rw [replaceEach]
    split
    · rename_i value hvalue
      rw [ih, spliced?_replace (hpart target value hvalue)]
    · exact ih content

/-- It keeps the value of a token around them. -/
theorem eval?_replaceEach {part : List Char → Option Json}
    (hpart : ∀ target value, part target = some value → answer target = some value)
    (targets : List (List Char)) (inside : Content) :
    (inside.replaceEach part targets).eval? answer = inside.eval? answer := by
  rw [eval?, spliced?_replaceEach hpart, eval?]

/-- It keeps content well-formed and its values plain, provided that these bring no braces. -/
theorem plain_replaceEach {part : List Char → Option Json} {targets : List (List Char)}
    (ht : ∀ target ∈ targets, ∀ value, part target = some value →
      answer target = some value ∧ Braceless value.asText)
    {content : Content} (hw : content.WellFormed) (hp : content.PlainValues answer) :
    (content.replaceEach part targets).WellFormed ∧ (content.replaceEach part targets).PlainValues answer := by
  induction targets generalizing content with
  | nil => exact ⟨hw, hp⟩
  | cons target rest ih =>
    have hrest := fun t hmem => ht t (List.mem_cons_of_mem target hmem)
    rw [replaceEach]
    split
    · rename_i value hvalue
      obtain ⟨hanswer, hb⟩ := ht target List.mem_cons_self value hvalue
      exact ih hrest (wellFormed_replace hw target hb) (plainValues_replace hanswer hp)
    · exact ih hrest hw hp

theorem depth_replaceEach_le (part : List Char → Option Json) (targets : List (List Char)) (content : Content) :
    (content.replaceEach part targets).depth ≤ content.depth := by
  induction targets generalizing content with
  | nil => exact Nat.le_refl _
  | cons target rest ih =>
    rw [replaceEach]
    split
    · exact Nat.le_trans (ih _) (depth_replace_le target _ content)
    · exact ih content

/-- It brings the end nearer, provided that all of them have values. -/
theorem depth_replaceEach_le_pending {targets : List (List Char)}
    (ht : ∀ target ∈ targets, ∃ value, answer target = some value) (content : Content) :
    (content.replaceEach answer targets).depth ≤ content.pending targets := by
  induction targets generalizing content with
  | nil => exact Nat.le_of_eq (pending_nil content).symm
  | cons target rest ih =>
    obtain ⟨value, hvalue⟩ := ht target List.mem_cons_self
    rw [replaceEach, hvalue]
    exact Nat.le_trans (ih (fun t hmem => ht t (List.mem_cons_of_mem _ hmem)) _)
      (pending_replace target value.asText rest content)

theorem answer_of_mem_innermost {content : Content} {spliced : List Char}
    (h : content.Yields answer spliced) {target : List Char}
    (ht : target ∈ innermost (Token.tokens content.render)) :
    ∃ value, answer target = some value ∧ Braceless value.asText :=
  answer_of_mem_flats h.plain h.spliced ((mem_innermost_render h.wellFormed).mp ht)

theorem plain_afterPass {content : Content} (hw : content.WellFormed) (hp : content.PlainValues answer) :
    (content.afterPass answer).WellFormed ∧ (content.afterPass answer).PlainValues answer := by
  refine plain_replaceEach ?_ hw hp
  intro target ht value hv
  exact ⟨hv, braceless_of_mem_flats hp ((mem_innermost_render hw).mp ht) hv⟩

theorem afterPass_yields {content : Content} {spliced : List Char}
    (h : content.Yields answer spliced) : (content.afterPass answer).Yields answer spliced := by
  obtain ⟨hw, hp⟩ := plain_afterPass h.wellFormed h.plain
  exact ⟨hw, hp, (spliced?_replaceEach (fun _ _ hv => hv) _ content).trans h.spliced⟩

theorem Yields.render_of_isFlat {content : Content} {spliced : List Char}
    (h : content.Yields answer spliced) (hf : content.isFlat = true) : content.render = spliced :=
  Option.some.inj ((spliced?_of_isFlat hf).symm.trans h.spliced)

/-- **A pass makes nesting less deep.** -/
theorem depth_afterPass_le {content : Content} (hw : content.WellFormed)
    (ht : ∀ target ∈ content.flats, ∃ value, answer target = some value) :
    (content.afterPass answer).depth ≤ content.depth - 1 :=
  Nat.le_trans (depth_replaceEach_le_pending (fun target hmem => ht target ((mem_innermost_render hw).mp hmem)) content)
    (pending_le fun _ hmem => (mem_innermost_render hw).mpr hmem)

theorem Yields.depth_afterPass_le {content : Content} {spliced : List Char}
    (h : content.Yields answer spliced) : (content.afterPass answer).depth ≤ content.depth - 1 :=
  Content.depth_afterPass_le h.wellFormed fun _ ht =>
    (answer_of_mem_flats h.plain h.spliced ht).imp fun _ hvalue => hvalue.1

/-- A pass over content with a token changes its text. -/
theorem render_afterPass_ne {content : Content} {spliced : List Char}
    (h : content.Yields answer spliced) (hf : content.isFlat = false) :
    (content.afterPass answer).render ≠ content.render := by
  intro he
  -- equal texts would be nested equally deep
  have hdepth := congrArg Token.depth he
  rw [depth_render (afterPass_yields h).wellFormed, depth_render h.wellFormed] at hdepth
  have := h.depth_afterPass_le
  have := depth_pos_of_not_isFlat hf
  omega

/-- A token with a literal stretch on either side. -/
def surrounded (before : List Char) (inside : Content) (after : List Char) : Content :=
  text before (token inside (text after empty))

@[simp] theorem render_surrounded (before : List Char) (inside : Content) (after : List Char) :
    (surrounded before inside after).render = before ++ bracket inside.render ++ after := by
  simp only [surrounded, render, List.append_nil, List.append_assoc]

/-- No token is left where a text without braces took the place of the only one. -/
theorem tokens_of_surrounded {before after : List Char} {inside : Content}
    (hw : (surrounded before inside after).WellFormed) {chars : List Char} (hb : Braceless chars) :
    Token.tokens (before ++ chars ++ after) = [] :=
  tokens_of_braceless (braceless_append.mpr ⟨braceless_append.mpr ⟨hw.1, hb⟩, hw.2.2.1⟩)

/-- A token that is not flat stays a token while flat tokens inside of it are replaced, each once. -/
theorem replaceEach_surrounded {targets : List (List Char)} (hn : targets.Nodup) {inside : Content}
    (ht : ∀ target ∈ targets, target ∈ inside.flats) (before after : List Char) :
    (surrounded before inside after).replaceEach answer targets =
      surrounded before (inside.replaceEach answer targets) after := by
  induction targets generalizing inside with
  | nil => rfl
  | cons target rest ih =>
    -- the token around `inside` cannot be hit as long as there are targets left inside of it
    have hnot : ¬ inside.isFlat = true := fun hf => by
      have hmem := ht target List.mem_cons_self
      rw [isFlat_iff_flats.mp hf] at hmem
      exact absurd hmem List.not_mem_nil
    rw [List.nodup_cons] at hn
    rw [replaceEach, replaceEach]
    cases answer target with
    | none => exact ih hn.2 fun other h => ht other (List.mem_cons_of_mem _ h)
    | some value =>
      have hsame : (surrounded before inside after).replace target value.asText =
          surrounded before (inside.replace target value.asText) after := by
        rw [surrounded, replace, replace, if_neg (by rw [Bool.and_eq_true]; exact fun h => hnot h.1)]
        rfl
      show replaceEach answer rest _ = _
      rw [hsame]
      refine ih hn.2 fun other h => mem_flats_replace (ht other (List.mem_cons_of_mem _ h)) ?_
      rintro rfl
      exact hn.1 h

theorem flats_surrounded {inside : Content} (hf : inside.isFlat = false) (before after : List Char) :
    (surrounded before inside after).flats = inside.flats := by
  rw [surrounded, flats, flats, hf, if_neg Bool.false_ne_true, flats, flats, List.append_nil]

theorem nodup_innermost_tokens (text : List Char) : (innermost (Token.tokens text)).Nodup :=
  (Text.nodup_eraseDups _).filter _

/-- After a pass over a token that is not flat, there is still one token, with the same value, and what
    surrounds it. -/
theorem afterPass_surrounded {part : List Char → Option Json}
    (hpart : ∀ target value, part target = some value → answer target = some value)
    {before after : List Char} {inside : Content} (hw : (surrounded before inside after).WellFormed)
    (hf : inside.isFlat = false) :
    ∃ inside', (surrounded before inside after).afterPass part = surrounded before inside' after ∧
      inside'.eval? answer = inside.eval? answer := by
  have hinside : ∀ target ∈ innermost (Token.tokens (surrounded before inside after).render),
      target ∈ inside.flats := by
    intro target ht
    rw [← flats_surrounded hf before after]
    exact (mem_innermost_render hw).mp ht
  exact ⟨_, replaceEach_surrounded (nodup_innermost_tokens _) hinside before after,
    eval?_replaceEach hpart _ inside⟩

end Token.Content

namespace Setting

open Token Token.Content

variable {σ : Type} {setting : Setting σ} {world : World σ}

/-- One token of a pass, in a text that is written content. -/
theorem value?_replaceToken_render {content : Content} (hw : content.WellFormed) {inside : List Char}
    (hb : Braceless inside) {value : Json}
    (hv : setting.answer? world (bracket inside) = some value) (path : Option Path)
    (found : List (List Char)) (single : Option Json) :
    ∃ single', (setting.replaceToken path found { text := content.render, single } (bracket inside)).value?
      world = some { text := (content.replace (bracket inside) value.asText).render, single := single' } := by
  rw [value?_replaceToken]
  by_cases ho : Text.occursIn (bracket inside) content.render = true
  · rw [if_pos ho, hv, Option.map_some, replaceAll_render hw hb]
    exact ⟨_, rfl⟩
  · -- a token that an earlier replacement took away: replacing it would change nothing either
    rw [if_neg ho, ← replaceAll_render hw hb, Text.replaceAll,
      Text.replaceFrom_of_not_occursIn (Bool.eq_false_iff.mpr ho)]
    exact ⟨_, rfl⟩

/-- A token that stands for itself leaves written content as it is. -/
theorem value?_replaceToken_self {content : Content} (hw : content.WellFormed) {inside : List Char}
    (hb : Braceless inside)
    (hv : setting.answer? world (bracket inside) = some (.string (String.ofList (bracket inside))))
    (path : Option Path) (found : List (List Char)) (single : Option Json) :
    ∃ single', (setting.replaceToken path found { text := content.render, single } (bracket inside)).value?
      world = some { text := content.render, single := single' } := by
  obtain ⟨single', hrun⟩ := value?_replaceToken_render hw hb hv path found single
  rw [Json.asText, String.toList_ofList, render_replace_self] at hrun
  exact ⟨single', hrun⟩

/-- The tokens of a pass one after another, in a text that is written content. Some of them are replaced by
    the texts of their values, and the others stand for themselves. -/
theorem value?_replaceTokens_render (h : setting.registry.Steady) {part : List Char → Option Json}
    {targets : List (List Char)}
    (ht : ∀ target ∈ targets,
      (∃ inside, Braceless inside ∧ target = bracket inside) ∧
        ((∃ value, part target = some value ∧ setting.answer? world target = some value ∧
            Braceless value.asText) ∨
          (part target = none ∧ setting.answer? world target = some (.string (String.ofList target)))))
    {content : Content} (hw : content.WellFormed) (path : Option Path) (found : List (List Char))
    (single : Option Json) :
    ∃ single', (setting.replaceTokens path found targets { text := content.render, single }).value? world =
      some { text := (content.replaceEach part targets).render, single := single' } := by
  induction targets generalizing content single with
  | nil => exact ⟨single, rfl⟩
  | cons target rest ih =>
    have hrest := fun t hmem => ht t (List.mem_cons_of_mem target hmem)
    obtain ⟨⟨inside, hb, rfl⟩, ⟨value, hp, hv, hvb⟩ | ⟨hp, hv⟩⟩ := ht target List.mem_cons_self
    · obtain ⟨single', hfirst⟩ := value?_replaceToken_render hw hb hv path found single
      rw [value?_replaceTokens_cons h, hfirst, Option.bind_some, replaceEach, hp]
      exact ih hrest (wellFormed_replace hw _ hvb) single'
    · obtain ⟨single', hfirst⟩ := value?_replaceToken_self hw hb hv path found single
      rw [value?_replaceTokens_cons h, hfirst, Option.bind_some, replaceEach, hp]
      exact ih hrest hw single'

/-- The options admit tokens as deeply nested as those of the content. -/
def Admits (setting : Setting σ) (content : Content) : Prop :=
  ∀ limit, setting.options.maxDepth = some limit → content.depth ≤ limit

theorem admits_of_unlimited (hd : setting.options.maxDepth = none) (content : Content) :
    setting.Admits content := by
  intro limit hlimit
  rw [hd] at hlimit
  cases hlimit

theorem Admits.mono {content content' : Content} (ha : setting.Admits content)
    (hle : content'.depth ≤ content.depth) : setting.Admits content' :=
  fun limit hlimit => Nat.le_trans hle (ha limit hlimit)

theorem checkDepth_eq_ok_iff {token : List Char} :
    setting.checkDepth token = .ok () ↔
      ∀ limit, setting.options.maxDepth = some limit → Token.depth token ≤ limit := by
  unfold checkDepth
  cases setting.options.maxDepth with
  | none => simp
  | some limit => simp

theorem value?_checkTokens_eq_some_iff {path : Option Path} {tokens : List (List Char)} :
    (setting.checkTokens path tokens).value? world = some () ↔
      ∀ token ∈ tokens, setting.checkDepth token = .ok () := by
  induction tokens with
  | nil => exact iff_of_true rfl fun _ ht => absurd ht List.not_mem_nil
  | cons token rest ih =>
    rw [value?_checkTokens_cons, value?_checkToken, List.forall_mem_cons, ← ih]
    cases setting.checkDepth token with
    | error cause => simp [Except.toOption]
    | ok _ => simp [Except.toOption]

/-- **The tokens of written content pass the check exactly if the options admit the content.** -/
theorem value?_checkTokens_render {content : Content} (hw : content.WellFormed) {path : Option Path} :
    (setting.checkTokens path (Token.tokens content.render)).value? world = some () ↔
      setting.Admits content := by
  rw [value?_checkTokens_eq_some_iff]
  simp only [checkDepth_eq_ok_iff, mem_tokens_render hw, Admits, depth_le_iff hw]
  constructor
  · exact fun hall limit hlimit token ht => hall token ht limit hlimit
  · exact fun hall token ht limit hlimit => hall limit hlimit token ht

variable (h : setting.registry.Steady)

include h in
/-- **A pass over written content gives the content after the pass, written.** -/
theorem value?_pass_render {content : Content} {spliced : List Char} (ha : setting.Admits content)
    (hy : content.Yields (setting.answer? world) spliced) (path : Option Path) :
    ∃ single, (setting.pass path (Token.tokens content.render) content.render).value? world =
      some { text := (content.afterPass (setting.answer? world)).render, single } := by
  rw [value?_pass h, (value?_checkTokens_render hy.wellFormed).mpr ha, Option.bind_some]
  apply value?_replaceTokens_render h
  · intro target hmem
    obtain ⟨value, hvalue, hb⟩ := answer_of_mem_innermost hy hmem
    have hflat := (mem_innermost_render hy.wellFormed).mp hmem
    exact ⟨(mem_flats hy.wellFormed hflat).2, .inl ⟨value, hvalue, hvalue, hb⟩⟩
  · exact hy.wellFormed

theorem tokens_render_eq_nil_iff {content : Content} (hw : content.WellFormed) :
    Token.tokens content.render = [] ↔ content.isFlat = true := by
  rw [isFlat_iff_tokens, List.eq_nil_iff_forall_not_mem, List.eq_nil_iff_forall_not_mem]
  exact forall_congr' fun token => not_congr (mem_tokens_render hw)

theorem tokens_render_ne_nil {content : Content} (hw : content.WellFormed)
    (hf : content.isFlat = false) : Token.tokens content.render ≠ [] := by
  rw [ne_eq, tokens_render_eq_nil_iff hw, hf]
  exact Bool.false_ne_true

/-! ## All passes -/

include h in
/-- **The passes over written content end with its evaluation**, if there are as many as tokens are
    nested. -/
theorem value?_passes_render {content : Content} {spliced : List Char} (ha : setting.Admits content)
    (hy : content.Yields (setting.answer? world) spliced) {limit : Nat} (hl : content.depth ≤ limit)
    (path : Option Path) (single : Option Json) :
    ∃ single' settled, (setting.passes path limit { text := content.render, single }).value? world =
      some ({ text := spliced, single := single' }, settled) := by
  induction limit generalizing content single with
  | zero =>
    rw [← hy.render_of_isFlat (isFlat_of_depth_eq_zero (Nat.le_zero.mp hl))]
    exact ⟨single, false, rfl⟩
  | succ limit ih =>
    cases hf : content.isFlat with
    | true =>
      rw [← hy.render_of_isFlat hf]
      exact ⟨single, true,
        value?_passes_of_no_tokens path _ ((tokens_render_eq_nil_iff hy.wellFormed).mpr hf) world⟩
    | false =>
      obtain ⟨next, hnext⟩ := value?_pass_render h ha hy path
      have hdepth := hy.depth_afterPass_le
      obtain ⟨single', settled, hrun⟩ := ih (ha.mono (by omega)) (afterPass_yields hy) (by omega) next
      refine ⟨single', settled, ?_⟩
      rw [value?_passes_succ h path limit (tokens_render_ne_nil hy.wellFormed hf)]
      show Option.bind ((setting.pass path (Token.tokens content.render) content.render).value? world) _ = _
      rw [hnext, Option.bind_some, if_neg (render_afterPass_ne hy hf), hrun]

/-- The value of a whole text that is one token without nested tokens, with blanks around it. -/
theorem value?_replaceToken_whole {inside before after : List Char}
    (hbefore : before.all Text.isBlank) (hafter : after.all Text.isBlank) {value : Json}
    (hv : setting.answer? world (bracket inside) = some value) (path : Option Path)
    {found : List (List Char)} (hfound : found.length = 1) (single : Option Json) :
    (setting.replaceToken path found { text := before ++ bracket inside ++ after, single }
      (bracket inside)).value? world =
      some { text := before ++ value.asText ++ after, single := some value } := by
  have ho : Text.occursIn (bracket inside) (before ++ bracket inside ++ after) = true :=
    Text.occursIn_iff.mpr ⟨before, after, rfl⟩
  have halone : (found.length == 1 &&
      bracket inside == Text.trim (before ++ bracket inside ++ after)) = true := by
    rw [hfound, Text.trim_surrounded hbefore hafter, trim_bracket, beq_self_eq_true, beq_self_eq_true,
      Bool.and_self]
  have hopen : ∀ {chars : List Char}, chars.all Text.isBlank → ∀ c ∈ chars, c ≠ '{' :=
    fun hall c hc => (braceless_of_blank hall c hc).1
  have hafter' : Text.replaceFrom (bracket inside) value.asText 0 (after ++ []) = _ :=
    replaceFrom_braceless value.asText [] (hopen hafter)
  rw [List.append_nil] at hafter'
  rw [value?_replaceToken, if_pos ho, hv, Option.map_some, if_pos halone, List.append_assoc,
    Text.replaceAll, replaceFrom_braceless _ _ (hopen hbefore),
    Text.replaceFrom_append (by simp [bracket]), hafter', Text.replaceFrom, List.append_nil,
    List.append_assoc]

theorem tokens_surrounded {before after : List Char} {inside : Content}
    (hw : (surrounded before inside after).WellFormed) (hf : inside.isFlat = true) :
    Token.tokens (surrounded before inside after).render = [bracket inside.render] := by
  rw [Token.tokens, occurrences_render hw, surrounded, Content.tokens, Content.tokens,
    isFlat_iff_tokens.mp hf]
  rfl

include h in
/-- The pass over a single flat token keeps its value beside the text. -/
theorem value?_pass_whole {before after : List Char} {inside : Content}
    (ha : setting.Admits (surrounded before inside after))
    (hw : (surrounded before inside after).WellFormed) (hf : inside.isFlat = true)
    (hbefore : before.all Text.isBlank) (hafter : after.all Text.isBlank) {value : Json}
    (hv : setting.answer? world (bracket inside.render) = some value) (path : Option Path) :
    (setting.pass path (Token.tokens (surrounded before inside after).render)
        (surrounded before inside after).render).value? world =
      some { text := before ++ value.asText ++ after, single := some value } := by
  have hinner : innermost [bracket inside.render] = [bracket inside.render] := by
    simp [innermost]
  rw [value?_pass h, (value?_checkTokens_render hw).mpr ha, Option.bind_some, tokens_surrounded hw hf, hinner,
    render_surrounded, value?_replaceTokens_cons h,
    value?_replaceToken_whole hbefore hafter hv path (List.length_singleton) none, Option.bind_some]
  rfl

include h in
/-- **The passes over a single token keep its value beside the text.** -/
theorem value?_passes_surrounded {before after : List Char} {inside : Content} {value : Json}
    {spliced : List Char} (ha : setting.Admits (surrounded before inside after))
    (hy : (surrounded before inside after).Yields (setting.answer? world) spliced)
    (hv : inside.eval? (setting.answer? world) = some value)
    (hbefore : before.all Text.isBlank) (hafter : after.all Text.isBlank) {limit : Nat}
    (hl : (surrounded before inside after).depth ≤ limit) (path : Option Path) (single : Option Json) :
    ∃ settled, (setting.passes path limit { text := (surrounded before inside after).render, single }).value?
      world = some ({ text := before ++ value.asText ++ after, single := some value }, settled) := by
  induction limit generalizing inside single with
  | zero => exact absurd (isFlat_of_depth_eq_zero (Nat.le_zero.mp hl)) Bool.false_ne_true
  | succ limit ih =>
    rw [value?_passes_succ h path limit (tokens_render_ne_nil hy.wellFormed rfl)]
    cases hf : inside.isFlat with
    | true =>
      rw [eval?_of_isFlat hf] at hv
      -- the value has no braces, so that nothing is left to do
      have hb := hy.plain.2.1 value ((eval?_of_isFlat hf).trans hv)
      have htext := tokens_of_surrounded hy.wellFormed hb
      rw [value?_pass_whole h ha hy.wellFormed hf hbefore hafter hv, Option.bind_some]
      split
      · exact ⟨true, rfl⟩
      · exact ⟨_, value?_passes_of_no_tokens path limit htext world⟩
    | false =>
      obtain ⟨next, hnext⟩ := value?_pass_render h ha hy path
      obtain ⟨inside', hinside', heval⟩ :=
        afterPass_surrounded (fun _ _ hvalue => hvalue) hy.wellFormed hf
      have hy' := afterPass_yields hy
      have hne := render_afterPass_ne hy rfl
      have hdepth := hy.depth_afterPass_le
      rw [hinside'] at hnext hy' hne hdepth
      rw [hnext, Option.bind_some, if_neg hne]
      exact ih (ha.mono (by omega)) hy' (heval.trans hv) (by omega) next

end Setting

/-! ## Strings that are one token -/

/-- Blanks around a well-formed token do not matter. -/
theorem Placeholder.parse_congr {a b : List Char} (h : Text.trim a = Text.trim b) {parts : Placeholder}
    (ha : Placeholder.parse a = .ok parts) : Placeholder.parse b = .ok parts := by
  unfold Placeholder.parse at ha ⊢
  dsimp only at ha ⊢
  rw [← h]
  cases ht : Token.isToken (Text.trim a) with
  | false => rw [ht] at ha; cases ha
  | true => rw [ht] at ha; exact ha

theorem Placeholder.isToken_of_parse {text : List Char} {parts : Placeholder}
    (h : Placeholder.parse text = .ok parts) : Token.isToken (Text.trim text) = true := by
  unfold Placeholder.parse at h
  dsimp only at h
  cases ht : Token.isToken (Text.trim text) with
  | false => rw [ht] at h; cases h
  | true => rfl

namespace Setting

open Script Token Token.Content

variable {σ : Type} {setting : Setting σ} {world : World σ}

theorem parse_of_prepare {token : List Char} {parts : Placeholder} {plugin : Option (Plugin σ)}
    (h : setting.prepare token = .ok (parts, plugin)) : Placeholder.parse token = .ok parts := by
  rw [prepare_eq] at h
  split at h
  · cases h
  · cases h
  · rename_i parsed _ hp
    split at h
    · cases hf : setting.registry.findPlugin parsed.module with
      | error cause => rw [hf] at h; cases h
      | ok found => rw [hf] at h; cases h; exact hp
    · cases h
      exact hp

/-- A token that has a value is well-formed. -/
theorem parse_of_answer? {token : List Char} {value : Json}
    (hv : setting.answer? world token = some value) :
    ∃ parts, Placeholder.parse token = .ok parts := by
  unfold answer? evaluate at hv
  cases hp : setting.prepare token with
  | error cause => rw [hp] at hv; cases hv
  | ok prepared => exact ⟨prepared.1, parse_of_prepare hp⟩

/-- A token with blanks around it has the same value, unless that is the token itself as text. -/
theorem answer?_congr {token token' : List Char} (h : Text.trim token = Text.trim token')
    (hdepth : Token.depth token = Token.depth token') {value : Json}
    (hv : setting.answer? world token = some value) (hne : value ≠ .string (String.ofList token)) :
    setting.answer? world token' = some value := by
  obtain ⟨parts, hp⟩ := parse_of_answer? hv
  have hsame : setting.prepare token' = setting.prepare token := by
    rw [prepare_eq, prepare_eq, checkDepth, checkDepth, hdepth, hp, Placeholder.parse_congr h hp]
  unfold answer? evaluate at hv ⊢
  rw [hsame]
  split at hv
  · cases hv
  · cases hv
    exact absurd rfl hne
  · exact hv

theorem line_of_answer? {inside : List Char} {value : Json}
    (hv : setting.answer? world (bracket inside) = some value) : inside ≠ [] ∧ '\n' ∉ inside := by
  obtain ⟨parts, hp⟩ := parse_of_answer? hv
  have ht := Placeholder.isToken_of_parse hp
  rw [trim_bracket] at ht
  exact (isToken_bracket inside).mp ht

/-- What is evaluated to a text on one line is written on one line: a token with a line feed between its
    braces has no value. -/
theorem line_render {content : Content} {spliced : List Char}
    (h : content.spliced? (setting.answer? world) = some spliced) (hn : '\n' ∉ spliced) :
    '\n' ∉ content.render := by
  induction content generalizing spliced with
  | empty => exact List.not_mem_nil
  | text chars rest ih =>
    rw [spliced?_text, Option.map_eq_some_iff] at h
    obtain ⟨tail, htail, rfl⟩ := h
    rw [List.mem_append, not_or] at hn
    rw [render, List.mem_append, not_or]
    exact ⟨hn.1, ih htail hn.2⟩
  | token inside rest ihInside ihRest =>
    rw [spliced?_token, Option.bind_eq_some_iff] at h
    obtain ⟨value, hvalue, h⟩ := h
    rw [Option.map_eq_some_iff] at h
    obtain ⟨tail, htail, rfl⟩ := h
    rw [List.mem_append, not_or] at hn
    obtain ⟨inner, hinner, hvalue⟩ := Option.bind_eq_some_iff.mp hvalue
    -- the flat token that was asked for has no line feed, hence neither has what it was made from
    have hline := ihInside hinner (line_of_answer? hvalue).2
    rw [render, List.mem_append, not_or]
    exact ⟨by simp [bracket, hline], ihRest htail hn.2⟩

/-- A token that is evaluated looks like one. -/
theorem isToken_of_eval? {inside : Content} {value : Json}
    (hv : inside.eval? (setting.answer? world) = some value) :
    isToken (bracket inside.render) = true := by
  obtain ⟨inner, hinner, hvalue⟩ := Option.bind_eq_some_iff.mp hv
  obtain ⟨hne, hline⟩ := line_of_answer? hvalue
  refine (isToken_bracket _).mpr ⟨fun hnil => hne ?_, line_render hinner hline⟩
  rw [spliced?_of_isFlat (isFlat_of_render_eq_nil hnil)] at hinner
  exact (Option.some.inj hinner).symm.trans hnil

/-- Only a flat token is the only token of its text. -/
theorem length_tokens_surrounded {before after : List Char} {inside : Content}
    (hw : (surrounded before inside after).WellFormed) :
    (Token.tokens (surrounded before inside after).render).length = 1 ↔ inside.isFlat = true := by
  constructor
  · intro hlen
    cases hf : inside.isFlat with
    | true => rfl
    | false =>
      have houter : bracket inside.render ∈ (surrounded before inside after).tokens := List.mem_cons_self
      obtain ⟨only, honly⟩ := List.length_eq_one_iff.mp hlen
      rcases mem_flats_or_nested houter with hflat | ⟨other, hother, hne, -⟩
      · -- the outer token would be flat, but there is a brace inside
        obtain ⟨-, inner, hb, he⟩ := mem_flats hw hflat
        obtain ⟨chars, rest, -, hr⟩ := exists_open_of_not_isFlat hw.2.1 hf
        rw [bracket_inj] at he
        rw [← he, hr] at hb
        exact absurd rfl (hb '{' (by simp)).1
      · -- a second token, different from the outer one
        have h₁ := (mem_tokens_render hw).mpr houter
        have h₂ := (mem_tokens_render hw).mpr hother
        rw [honly, List.mem_singleton] at h₁ h₂
        exact absurd (h₂.trans h₁.symm) hne
  · intro hf
    rw [tokens_surrounded hw hf]
    rfl

variable (h : setting.registry.Steady)

include h in
/-- A string that is one token, up to blanks around it, becomes the value of the token. -/
theorem value?_fillString_of_eval? {before after : List Char} {inside : Content} {value : Json}
    (ha : setting.Admits (surrounded before inside after))
    (hw : inside.WellFormed) (hv : inside.eval? (setting.answer? world) = some value)
    (hp : inside.PlainValues (setting.answer? world)) (hplain : Braceless value.asText)
    (hbefore : before.all Text.isBlank) (hafter : after.all Text.isBlank)
    (hl : (inside.depth + 1 : Int) ≤ setting.maxPasses) (path : Path) :
    (setting.fillString path (String.ofList (before ++ bracket inside.render ++ after))).value? world =
      some value := by
  have hws : (surrounded before inside after).WellFormed :=
    ⟨braceless_of_blank hbefore, hw, braceless_of_blank hafter, trivial⟩
  have hrender : before ++ bracket inside.render ++ after = (surrounded before inside after).render :=
    (render_surrounded before inside after).symm
  have htrim : Text.trim (before ++ bracket inside.render ++ after) = Text.trim (bracket inside.render) :=
    Text.trim_surrounded hbefore hafter
  have htoken : isToken (before ++ bracket inside.render ++ after) = true :=
    (isToken_congr htrim).trans (isToken_of_eval? hv)
  have hsome : (Token.tokens (before ++ bracket inside.render ++ after)).isEmpty = false := by
    rw [hrender, List.isEmpty_eq_false_iff]
    exact tokens_render_ne_nil hws rfl
  rw [value?_fillString h, String.toList_ofList, hsome, if_neg Bool.false_ne_true, isSingle, htoken,
    Bool.true_and]
  cases hf : inside.isFlat with
  | true =>
    -- the only token of the string: it is asked for as a whole, blanks included
    rw [hrender, (length_tokens_surrounded hws).mpr hf, ← hrender, if_pos (by decide)]
    rw [eval?_of_isFlat hf] at hv
    have hdepth : Token.depth (bracket inside.render) =
        Token.depth (before ++ bracket inside.render ++ after) := by
      rw [hrender, depth_render hws, depth_bracket hw]
      exact (Nat.max_zero _).symm
    refine answer?_congr htrim.symm hdepth hv ?_
    -- the value brings no braces, and the token has some
    rintro rfl
    exact absurd rfl (hplain '{' (by simp [Json.asText, bracket])).1
  | false =>
    -- there are tokens inside: the string goes through the passes, which keep the last value
    have hmany : ((Token.tokens (before ++ bracket inside.render ++ after)).length == 1) = false := by
      rw [beq_eq_false_iff_ne, hrender, ne_eq, length_tokens_surrounded hws, hf]
      exact Bool.false_ne_true
    have hspliced : (surrounded before inside after).spliced? (setting.answer? world) =
        some (before ++ (value.asText ++ (after ++ []))) := by
      rw [surrounded, spliced?_text, spliced?_token, hv, Option.bind_some, spliced?_text]
      rfl
    have hy : (surrounded before inside after).Yields (setting.answer? world) _ :=
      ⟨hws, ⟨hp, fun other ho => Option.some.inj (hv.symm.trans ho) ▸ hplain, trivial⟩, hspliced⟩
    have hdepth : (surrounded before inside after).depth = inside.depth + 1 := Nat.max_zero _
    have hlimit : (surrounded before inside after).depth ≤ setting.maxPasses.toNat := by omega
    obtain ⟨settled, hrun⟩ :=
      value?_passes_surrounded h ha hy hv hbefore hafter hlimit (some path) none
    rw [hmany, if_neg Bool.false_ne_true, hrender,
      value?_substitute_of_passes hrun (tokens_of_surrounded hws hplain)]
    rfl

include h in
/-- A text with nested tokens becomes the text that it is evaluated to. -/
theorem value?_fillText_of_yields {content : Content} {spliced : List Char} (ha : setting.Admits content)
    (hy : content.Yields (setting.answer? world) spliced) (hl : (content.depth : Int) ≤ setting.maxPasses) :
    (setting.fillText content.render).value? world = some spliced := by
  cases hf : content.isFlat with
  | true =>
    have hnone := (tokens_render_eq_nil_iff hy.wellFormed).mpr hf
    unfold fillText
    rw [hnone, ← hy.render_of_isFlat hf]
    rfl
  | false =>
    have hlimit : content.depth ≤ setting.maxPasses.toNat := by omega
    obtain ⟨single, settled, hrun⟩ := value?_passes_render h ha hy hlimit none none
    have hb := braceless_spliced? hy.wellFormed hy.plain hy.spliced
    rw [value?_fillText (tokens_render_ne_nil hy.wellFormed hf),
      value?_substitute_of_passes hrun (tokens_of_braceless hb)]
    rfl

section

variable (hd : setting.options.maxDepth = none)

include h hd

/-- The same without a limit on nesting. -/
theorem value?_fillString_surrounded {before after : List Char} {inside : Content} {value : Json}
    (hw : inside.WellFormed) (hv : inside.eval? (setting.answer? world) = some value)
    (hp : inside.PlainValues (setting.answer? world)) (hplain : Braceless value.asText)
    (hbefore : before.all Text.isBlank) (hafter : after.all Text.isBlank)
    (hl : (inside.depth + 1 : Int) ≤ setting.maxPasses) (path : Path) :
    (setting.fillString path (String.ofList (before ++ bracket inside.render ++ after))).value? world =
      some value :=
  value?_fillString_of_eval? h (admits_of_unlimited hd _) hw hv hp hplain hbefore hafter hl path

/-- The same without a limit on nesting. -/
theorem value?_fillText_render {content : Content} {spliced : List Char} (hw : content.WellFormed)
    (hs : content.spliced? (setting.answer? world) = some spliced)
    (hp : content.PlainValues (setting.answer? world)) (hl : (content.depth : Int) ≤ setting.maxPasses) :
    (setting.fillText content.render).value? world = some spliced :=
  value?_fillText_of_yields h (admits_of_unlimited hd _) ⟨hw, hp, hs⟩ hl

end

/-! ## The engine against the evaluator -/

/-- **Substitution in passes is call-by-value evaluation.** Against steady plugins, without a limit on
    nesting and with as many passes as tokens are nested, content whose values bring no braces is treated
    as the recursive evaluator does it: a string that is a token between blanks becomes the value of the
    token, and a text becomes the text that it is evaluated to. -/
theorem fills_by_value (h : setting.registry.Steady) (hd : setting.options.maxDepth = none)
    (world world' : World σ) :
    (∀ (inside : Content) (value : Json) (before after : List Char) (path : Path),
      inside.WellFormed → (inside.depth + 1 : Int) ≤ setting.maxPasses →
      inside.eval? (setting.answer? world) = some value →
      inside.PlainValues (setting.answer? world) → Braceless value.asText →
      before.all Text.isBlank → after.all Text.isBlank →
      ((setting.fillString path (String.ofList (before ++ bracket inside.render ++ after))).run world').1 =
        .ok value) ∧
    (∀ (content : Content) (spliced : List Char),
      content.WellFormed → (content.depth : Int) ≤ setting.maxPasses →
      content.spliced? (setting.answer? world) = some spliced →
      content.PlainValues (setting.answer? world) →
      ((setting.fillText content.render).run world').1 = .ok spliced) := by
  constructor
  · intro inside value before after path hw hl hv hp hplain hbefore hafter
    have hvalue := value?_fillString_surrounded h hd hw hv hp hplain hbefore hafter hl path
    exact value?_eq_some_iff.mp (((fillString_steady h path _).value?_eq world' world).trans hvalue)
  · intro content spliced hw hl hs hp
    have hvalue := value?_fillText_render h hd hw hs hp hl
    exact value?_eq_some_iff.mp (((fillText_steady h _).value?_eq world' world).trans hvalue)

/-- The token `echo:say:` with some content behind that. -/
def saying (content : Content) : Content :=
  .token (.text "echo:say:".toList content) .empty

/-- A string with a token that says what two others say, one of them the other inside of a third: in the
    first pass the middle one becomes what its neighbour was. And the same in a text. -/
theorem fills_by_value_echo :
    ((echoing.fillString []
        " \x7b\x7becho:say:\x7b\x7becho:say:\x7b\x7becho:say:a\x7d\x7d\x7d\x7d\x7b\x7becho:say:a\x7d\x7d\x7d\x7d\n").run
      { state := () }).1 = .ok (.string "aa") ∧
    ((echoing.fillText
        "<\x7b\x7becho:say:\x7b\x7becho:say:\x7b\x7becho:say:a\x7d\x7d\x7d\x7d\x7b\x7becho:say:a\x7d\x7d\x7d\x7d>".toList).run
      { state := () }).1 = .ok "<aa>".toList := by
  have ha : Braceless "a".toList := by decide
  have hsay : Braceless "echo:say:".toList := by decide
  -- the values of the inner tokens are known by running the evaluator, and hold no braces
  have hplain : ∀ {inside : Content} {s : String}, Braceless s.toList →
      inside.eval? (echoing.answer? { state := () }) = some (.string s) →
      ∀ value, inside.eval? (echoing.answer? { state := () }) = some value → Braceless value.asText := by
    intro inside s hs he value hv
    rw [he] at hv
    cases hv
    exact hs
  let a : Content := .text "a".toList .empty
  let inside : Content :=
    .text "echo:say:".toList (.token (.text "echo:say:".toList (saying a)) (saying a))
  have hw : inside.WellFormed := ⟨hsay, ⟨hsay, ⟨hsay, ha, trivial⟩, trivial⟩, ⟨hsay, ha, trivial⟩, trivial⟩
  have hp : inside.PlainValues (echoing.answer? { state := () }) :=
    ⟨⟨trivial, hplain ha rfl, trivial⟩, hplain ha rfl, trivial, hplain ha rfl, trivial⟩
  obtain ⟨hstring, htext⟩ := fills_by_value steady_echoing rfl { state := () } { state := () }
  constructor
  · exact hstring inside (.string "aa") [' '] ['\n'] [] hw (by decide) rfl hp (by decide) rfl rfl
  · exact htext (.text ['<'] (.token inside (.text ['>'] .empty))) "<aa>".toList
      ⟨by decide, hw, by decide, trivial⟩ (by decide) rfl ⟨hp, hplain (s := "aa") (by decide) rfl, trivial⟩

end Setting

end Template
