import Template.Proofs.Filling
import Template.Proofs.Interpolation

/-!
# `Template.Proofs.Evaluated` — what is filled in has been evaluated

`Setting.fills_by_value` starts from content that the recursive evaluator has a value for. This is the way
back: if the passes over a written text do not fail, the evaluator has a value for the content, provided that
there are as many passes as tokens are nested and that values bring no braces. Both ways together say that
filling in *is* evaluation (`value?_fillText_iff`, `filled?_iff`), for any limit on nesting.

The way back is an induction on the passes. A pass that succeeds has asked for every token without nested
tokens, because replacing one of them leaves the others where they are (`replaced_of_replaceTokens`), so the
content after the pass is known, and it is nested less deeply.
-/

namespace Template

namespace Token.Content

/-! ## Texts that are one token -/

/-- The content of a text that is one token. -/
def alone (inside : Content) : Content :=
  surrounded [] inside []

variable {inside : Content}

@[simp] theorem render_alone : inside.alone.render = bracket inside.render := by
  rw [alone, render_surrounded, List.nil_append, List.append_nil]

@[simp] theorem depth_alone : inside.alone.depth = inside.depth + 1 :=
  Nat.max_zero _

theorem wellFormed_alone_iff : inside.alone.WellFormed ↔ inside.WellFormed := by
  simp [alone, surrounded, WellFormed, Braceless]

theorem plainValues_alone_iff {answer : List Char → Option Json} :
    inside.alone.PlainValues answer ↔
      inside.PlainValues answer ∧ ∀ value, inside.eval? answer = some value → Braceless value.asText := by
  simp [alone, surrounded, PlainValues]

theorem spliced?_alone {answer : List Char → Option Json} :
    inside.alone.spliced? answer = (inside.eval? answer).map (·.asText) := by
  rw [alone, surrounded, spliced?_text, spliced?_token]
  cases inside.eval? answer with
  | none => rfl
  | some value => simp [spliced?]

end Token.Content

namespace Setting

open Script Token Token.Content

variable {σ : Type} {setting : Setting σ} {world : World σ}

/-- A written token is single exactly if it looks like a token and has no nested ones. -/
theorem isSingle_bracket_render {inside : Content} (hw : inside.WellFormed) :
    isSingle (bracket inside.render) = (isToken (bracket inside.render) && inside.isFlat) := by
  have hempty : Braceless [] := fun c hc => absurd hc List.not_mem_nil
  have hws : (surrounded [] inside []).WellFormed := ⟨hempty, hw, hempty, trivial⟩
  have hlength := length_tokens_surrounded hws
  rw [render_surrounded, List.nil_append, List.append_nil] at hlength
  rw [isSingle]
  congr 1
  rw [Bool.eq_iff_iff, beq_iff_eq, hlength]

/-- A token that has a value is not nested too deeply. -/
theorem checkDepth_of_answer? {token : List Char} {value : Json}
    (hv : setting.answer? world token = some value) : setting.checkDepth token = .ok () := by
  unfold answer? evaluate at hv
  rw [prepare_eq] at hv
  cases hc : setting.checkDepth token with
  | error cause =>
    rw [hc] at hv
    cases hv
  | ok _ => rfl

/-- Content without tokens is always admitted. -/
theorem admits_of_isFlat {content : Content} (hf : content.isFlat = true) : setting.Admits content := by
  intro limit _
  rw [depth_of_isFlat hf]
  exact Nat.zero_le limit

section

variable (h : setting.registry.Steady)

include h

/-! ## Passes that succeed -/

/-- If tokens without nested tokens are replaced without a failure, all of them have values. -/
theorem replaced_of_replaceTokens {targets : List (List Char)} (hn : targets.Nodup) {content : Content}
    (hw : content.WellFormed) (hp : content.PlainValues (setting.answer? world))
    (ht : ∀ target ∈ targets, target ∈ content.flats) {path : Option Path} {found : List (List Char)}
    {single : Option Json} {next : Filled}
    (hrun : (setting.replaceTokens path found targets { text := content.render, single }).value? world =
      some next) :
    (∀ target ∈ targets, ∃ value, setting.answer? world target = some value) ∧
      next.text = (content.replaceEach (setting.answer? world) targets).render := by
  induction targets generalizing content single with
  | nil =>
    cases hrun
    exact ⟨fun target hmem => absurd hmem List.not_mem_nil, rfl⟩
  | cons target rest ih =>
    rw [List.nodup_cons] at hn
    rw [value?_replaceTokens_cons h, Option.bind_eq_some_iff] at hrun
    obtain ⟨middle, hmiddle, hrun⟩ := hrun
    have hflat := ht target List.mem_cons_self
    obtain ⟨hmem, inside, hb, rfl⟩ := mem_flats hw hflat
    -- the token stands in the text, so it was asked for
    have hoccurs : Text.occursIn (bracket inside) content.render = true :=
      Text.occursIn_iff.mpr (infix_render_of_mem_tokens hmem)
    obtain ⟨value, hv⟩ : ∃ value, setting.answer? world (bracket inside) = some value := by
      rw [value?_replaceToken, if_pos hoccurs, Option.map_eq_some_iff] at hmiddle
      obtain ⟨value, hv, -⟩ := hmiddle
      exact ⟨value, hv⟩
    have hvb : Braceless value.asText := braceless_of_mem_flats hp hflat hv
    obtain ⟨single', hfirst⟩ := value?_replaceToken_render hw hb hv path found single
    cases hfirst.symm.trans hmiddle
    -- and the others still stand in what it leaves
    have hothers : ∀ other ∈ rest, other ∈ (content.replace (bracket inside) value.asText).flats := by
      intro other ho
      refine mem_flats_replace (ht other (List.mem_cons_of_mem _ ho)) ?_
      rintro rfl
      exact hn.1 ho
    obtain ⟨hvalues, hnext⟩ :=
      ih hn.2 (wellFormed_replace hw _ hvb) (plainValues_replace hv hp) hothers hrun
    rw [replaceEach, hv]
    exact ⟨List.forall_mem_cons.mpr ⟨⟨value, hv⟩, hvalues⟩, hnext⟩

/-- What a pass that succeeds tells about the content. -/
theorem replaced_of_pass {content : Content} (hw : content.WellFormed)
    (hp : content.PlainValues (setting.answer? world)) {path : Option Path} {next : Filled}
    (hrun : (setting.pass path (Token.tokens content.render) content.render).value? world = some next) :
    setting.Admits content ∧ (∀ target ∈ content.flats, ∃ value, setting.answer? world target = some value) ∧
      next.text = (content.afterPass (setting.answer? world)).render := by
  rw [value?_pass h, Option.bind_eq_some_iff] at hrun
  obtain ⟨_, hcheck, hrun⟩ := hrun
  obtain ⟨hvalues, hnext⟩ := replaced_of_replaceTokens h (nodup_innermost_tokens _) hw hp
    (fun target ht => (mem_innermost_render hw).mp ht) hrun
  exact ⟨(value?_checkTokens_render hw).mp hcheck,
    fun target ht => hvalues target ((mem_innermost_render hw).mpr ht), hnext⟩

/-- **Passes that succeed have evaluated the content.** -/
theorem exists_spliced_of_passes {content : Content} (hw : content.WellFormed)
    (hp : content.PlainValues (setting.answer? world)) {limit : Nat} (hl : content.depth ≤ limit)
    {path : Option Path} {single : Option Json} {result : Filled × Bool}
    (hrun : (setting.passes path limit { text := content.render, single }).value? world = some result) :
    setting.Admits content ∧ ∃ spliced, content.spliced? (setting.answer? world) = some spliced := by
  induction limit generalizing content single with
  | zero =>
    have hf := isFlat_of_depth_eq_zero (Nat.le_zero.mp hl)
    exact ⟨admits_of_isFlat hf, _, spliced?_of_isFlat hf⟩
  | succ limit ih =>
    cases hf : content.isFlat with
    | true => exact ⟨admits_of_isFlat hf, _, spliced?_of_isFlat hf⟩
    | false =>
      rw [value?_passes_succ h path limit (tokens_render_ne_nil hw hf), Option.bind_eq_some_iff] at hrun
      obtain ⟨next, hnext, hrun⟩ := hrun
      obtain ⟨hadmits, hvalues, htext⟩ := replaced_of_pass h hw hp hnext
      have hdepth := depth_afterPass_le hw hvalues
      have hpos := depth_pos_of_not_isFlat hf
      obtain ⟨hw', hp'⟩ := plain_afterPass hw hp
      have hsame : (content.afterPass (setting.answer? world)).spliced? (setting.answer? world) =
          content.spliced? (setting.answer? world) :=
        spliced?_replaceEach (fun _ _ hv => hv) _ content
      refine ⟨hadmits, ?_⟩
      split at hrun
      · -- the pass cannot have left the text as it was: it is nested less deeply now
        rename_i hunchanged
        have hequal : Token.depth (content.afterPass (setting.answer? world)).render =
            Token.depth content.render := congrArg Token.depth (htext.symm.trans hunchanged)
        rw [depth_render hw', depth_render hw] at hequal
        omega
      · obtain ⟨text, single'⟩ := next
        cases htext
        rw [← hsame]
        exact (ih hw' hp' (by omega) hrun).2

/-! ## Filling in is evaluation -/

/-- **A text is filled in exactly if its content is admitted and has been evaluated**, and it becomes the text
    that its content is evaluated to. -/
theorem value?_fillText_iff {content : Content} (hw : content.WellFormed)
    (hp : content.PlainValues (setting.answer? world)) (hl : (content.depth : Int) ≤ setting.maxPasses)
    {text : List Char} :
    (setting.fillText content.render).value? world = some text ↔
      setting.Admits content ∧ content.spliced? (setting.answer? world) = some text := by
  constructor
  · intro hfill
    have hrun := hfill
    rw [value?_fillText_eq, Option.map_eq_some_iff] at hrun
    obtain ⟨filled, hsubstitute, -⟩ := hrun
    rw [value?_substitute, Option.bind_eq_some_iff] at hsubstitute
    obtain ⟨last, hpasses, -⟩ := hsubstitute
    have hlimit : content.depth ≤ setting.maxPasses.toNat := by omega
    obtain ⟨ha, spliced, hs⟩ := exists_spliced_of_passes h hw hp hlimit hpasses
    -- the text is the one that evaluation says
    cases (value?_fillText_of_yields h ha ⟨hw, hp, hs⟩ hl).symm.trans hfill
    exact ⟨ha, hs⟩
  · rintro ⟨ha, hs⟩
    exact value?_fillText_of_yields h ha ⟨hw, hp, hs⟩ hl

/-- If a string that is one token becomes something, the token is admitted and has a value. -/
theorem eval?_of_filled? {s : String} {inside : Content} (hs : s.toList = bracket inside.render)
    (hw : inside.WellFormed) (hp : inside.alone.PlainValues (setting.answer? world))
    (hl : (inside.depth + 1 : Int) ≤ setting.maxPasses) {value : Json}
    (hfilled : setting.filled? world s = some value) :
    setting.Admits inside.alone ∧ ∃ own, inside.eval? (setting.answer? world) = some own := by
  cases hsingle : isSingle s.toList with
  | true =>
    -- the token is flat, and asked for as a whole
    have hf : inside.isFlat = true := by
      rw [hs, isSingle_bracket_render hw, Bool.and_eq_true] at hsingle
      exact hsingle.2
    rw [filled?, value?_fillString_of_isSingle h [] s hsingle, hs] at hfilled
    refine ⟨?_, value, (eval?_of_isFlat hf).trans hfilled⟩
    intro limit hlimit
    have hdepth := checkDepth_eq_ok_iff.mp (checkDepth_of_answer? hfilled) limit hlimit
    rwa [depth_bracket hw, ← depth_alone] at hdepth
  | false =>
    rw [filled?, value?_fillString_of_not_isSingle h [] s hsingle, Option.bind_eq_some_iff] at hfilled
    obtain ⟨filled, hsubstitute, -⟩ := hfilled
    rw [value?_substitute, Option.bind_eq_some_iff] at hsubstitute
    obtain ⟨last, hpasses, -⟩ := hsubstitute
    have hlimit : inside.alone.depth ≤ setting.maxPasses.toNat := by
      rw [depth_alone]
      omega
    rw [hs, ← render_alone] at hpasses
    obtain ⟨ha, spliced, hspliced⟩ :=
      exists_spliced_of_passes h (wellFormed_alone_iff.mpr hw) hp hlimit hpasses
    rw [spliced?_alone, Option.map_eq_some_iff] at hspliced
    obtain ⟨own, hown, -⟩ := hspliced
    exact ⟨ha, own, hown⟩

/-- **A string that is one token is filled in exactly if the token is admitted and has been evaluated**, and it
    becomes the value of the token. -/
theorem filled?_iff {s : String} {inside : Content} (hs : s.toList = bracket inside.render)
    (hw : inside.WellFormed) (hp : inside.alone.PlainValues (setting.answer? world))
    (hl : (inside.depth + 1 : Int) ≤ setting.maxPasses) {value : Json} :
    setting.filled? world s = some value ↔
      setting.Admits inside.alone ∧ inside.eval? (setting.answer? world) = some value := by
  have hback : ∀ own, setting.Admits inside.alone → inside.eval? (setting.answer? world) = some own →
      setting.filled? world s = some own := by
    intro own ha hv
    have hstring : s = String.ofList ([] ++ bracket inside.render ++ []) := by
      rw [List.nil_append, List.append_nil, ← hs, String.ofList_toList]
    obtain ⟨hplain, hbraceless⟩ := plainValues_alone_iff.mp hp
    rw [hstring]
    exact value?_fillString_of_eval? h ha hw hv hplain (hbraceless own hv) rfl rfl hl []
  constructor
  · intro hfilled
    obtain ⟨ha, own, hown⟩ := eval?_of_filled? h hs hw hp hl hfilled
    cases (hback own ha hown).symm.trans hfilled
    exact ⟨ha, hown⟩
  · rintro ⟨ha, hv⟩
    exact hback value ha hv

end

end Setting

end Template
