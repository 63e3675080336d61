import Mathlib.Control.Monad.Basic
import Template.Proofs.Evaluated
import Template.Proofs.Idempotence

/-!
# `Template.Proofs.Staging` — phases are partial evaluation

A phase may ask some modules only, and leaves the tokens of the others as they are. What it makes of a template
is a template again, evaluated in part: a token is still there if its own module is not asked, or one of a
token inside of it is not. `generate_in_phases` says that phases change nothing about the end: whatever phases
a template has gone through, and in whatever order, a last run that may ask every module comes to the result
that one run alone has.

Nothing is said about *which* template a phase makes. It is enough that a phase does not fail, that the tokens
which it leaves have the values that they had before (`Stands.phase`, `exists_filled_text`), and that they are
not nested more deeply. From one phase to all of them is an induction that knows nothing about templates.

## Contents
- `braceless_printAt` — a value whose text has no braces is made of strings without braces.
- `PartOf` — a setting that has some of the values of another, and leaves all other tokens as they are.
- `Stands`, `Stands.phase` — strings of a document that have a value, and one phase over such a string.
- `Engine.Tame`, `generate_in_phases` — the templates that all this is about, and the result.
-/

namespace Template

variable {σ : Type}

namespace Json

open Token

/-! ## Values without braces -/

theorem braceless_of_printString {s : String} (h : Braceless (printString s)) : Braceless s.toList := by
  have hescaped : ∀ c ∈ s.toList, ∀ d ∈ escape c, d ≠ '{' ∧ d ≠ '}' := by
    intro c hc d hd
    apply h
    rw [printString, List.mem_cons, List.mem_append, List.mem_flatMap]
    exact .inr (.inl ⟨c, hc, hd⟩)
  intro c hc
  constructor
  · rintro rfl
    exact (hescaped '{' hc '{' (by decide)).1 rfl
  · rintro rfl
    exact (hescaped '}' hc '}' (by decide)).2 rfl

mutual

/-- No object is printed without braces, and no string with a brace in it. -/
theorem braceless_printAt {layout : Layout} {depth : Nat} (value : Json)
    (h : Braceless (value.printAt layout depth)) :
    value.Distinct ∧ value.AllStrings fun s => Braceless s.toList := by
  match value with
  | .string s => exact ⟨trivial, braceless_of_printString h⟩
  | .array [] => exact ⟨trivial, trivial⟩
  | .array (first :: rest) =>
    have hfirst : Braceless (first.printAt layout (depth + 1)) := fun c hc => h c (by simp [printAt, hc])
    have hrest : Braceless (printItems layout (depth + 1) rest) := fun c hc => h c (by simp [printAt, hc])
    obtain ⟨hdistinct, hstrings⟩ := braceless_printAt first hfirst
    obtain ⟨hdistincts, hothers⟩ := braceless_printItems rest hrest
    exact ⟨⟨hdistinct, hdistincts⟩, hstrings, hothers⟩
  | .object [] => exact absurd rfl (h '{' (by simp [printAt])).1
  | .object (first :: rest) => exact absurd rfl (h '{' (by simp [printAt])).1
  | .null => exact ⟨trivial, trivial⟩
  | .bool _ => exact ⟨trivial, trivial⟩
  | .number _ => exact ⟨trivial, trivial⟩

theorem braceless_printItems {layout : Layout} {depth : Nat} (items : List Json)
    (h : Braceless (printItems layout depth items)) :
    DistinctItems items ∧ AllStringsOfItems (fun s => Braceless s.toList) items := by
  match items with
  | [] => exact ⟨trivial, trivial⟩
  | item :: rest =>
    have hitem : Braceless (item.printAt layout depth) := fun c hc => h c (by simp [printItems, hc])
    have hrest : Braceless (printItems layout depth rest) := fun c hc => h c (by simp [printItems, hc])
    obtain ⟨hdistinct, hstrings⟩ := braceless_printAt item hitem
    obtain ⟨hdistincts, hothers⟩ := braceless_printItems rest hrest
    exact ⟨⟨hdistinct, hdistincts⟩, hstrings, hothers⟩

end

/-- The same for the text of a value inside running text. -/
theorem braceless_asText {value : Json} (h : Braceless value.asText) :
    value.Distinct ∧ value.AllStrings fun s => Braceless s.toList := by
  match value with
  | .string s => exact ⟨trivial, h⟩
  | .array items => exact braceless_printAt (.array items) h
  | .object members => exact braceless_printAt (.object members) h
  | .null => exact ⟨trivial, trivial⟩
  | .bool _ => exact ⟨trivial, trivial⟩
  | .number _ => exact ⟨trivial, trivial⟩

end Json

namespace Setting

open Script Token Token.Content

/-! ## Some of the values -/

/-- A setting that has some of the values of another one, and leaves all other tokens as they are. -/
structure PartOf (part whole : Setting σ) (world : World σ) : Prop where
  registry : part.registry = whole.registry
  maxDepth : part.options.maxDepth = whole.options.maxDepth
  answers : ∀ token value, whole.answer? world token = some value →
    part.answer? world token = some value ∨
      part.answer? world token = some (.string (String.ofList token))

/-- The value of a token in the whole, if the part asks for it. -/
def asked? (part whole : Setting σ) (world : World σ) (token : List Char) : Option Json :=
  if (part.answer? world token).any (fun value => value.asText != token) then whole.answer? world token
  else none

variable {part whole : Setting σ} {world : World σ}

theorem answer_of_asked? (token : List Char) (value : Json) (h : part.asked? whole world token = some value) :
    whole.answer? world token = some value := by
  unfold asked? at h
  split at h
  · exact h
  · cases h

/-- A token whose value has no braces is asked for, or stands for itself. -/
theorem PartOf.asked_or_self (hpart : part.PartOf whole world) {inside : List Char} {value : Json}
    (hv : whole.answer? world (bracket inside) = some value) (hb : Braceless value.asText) :
    (part.asked? whole world (bracket inside) = some value ∧
      part.answer? world (bracket inside) = some value) ∨
    (part.asked? whole world (bracket inside) = none ∧
      part.answer? world (bracket inside) = some (.string (String.ofList (bracket inside)))) := by
  rcases hpart.answers _ _ hv with hsame | hself
  · have hne : value.asText ≠ bracket inside := by
      intro he
      rw [he] at hb
      exact absurd rfl (hb '{' (by simp [bracket])).1
    refine .inl ⟨?_, hsame⟩
    rw [asked?, hsame, hv, Option.any_some, if_pos (bne_iff_ne.mpr hne)]
  · refine .inr ⟨?_, hself⟩
    rw [asked?, hself, Option.any_some, Json.asText, String.toList_ofList, bne_self_eq_false,
      if_neg Bool.false_ne_true]

theorem PartOf.admits (hpart : part.PartOf whole world) {content : Content} (ha : whole.Admits content) :
    part.Admits content := by
  unfold Admits
  rw [hpart.maxDepth]
  exact ha

/-! ## Passes of a part -/

section

variable (hpart : part.PartOf whole world) (h : whole.registry.Steady)

include hpart h

theorem PartOf.steady : part.registry.Steady := by
  rw [hpart.registry]
  exact h

/-- **A pass of a part replaces the tokens that it asks for.** -/
theorem value?_pass_part {content : Content} {spliced : List Char} (ha : whole.Admits content)
    (hy : content.Yields (whole.answer? world) spliced) (path : Option Path) :
    ∃ single, (part.pass path (Token.tokens content.render) content.render).value? world =
      some { text := (content.afterPass (part.asked? whole world)).render, single } := by
  have hs := hpart.steady h
  rw [value?_pass hs, (value?_checkTokens_render hy.wellFormed).mpr (hpart.admits ha), Option.bind_some]
  apply value?_replaceTokens_render hs
  · intro target hmem
    have hflat := (mem_innermost_render hy.wellFormed).mp hmem
    obtain ⟨-, inside, hb, rfl⟩ := mem_flats hy.wellFormed hflat
    obtain ⟨value, hv, hvb⟩ := answer_of_mem_innermost hy hmem
    refine ⟨⟨inside, hb, rfl⟩, ?_⟩
    rcases hpart.asked_or_self hv hvb with ⟨hasked, hanswer⟩ | ⟨hasked, hanswer⟩
    · exact .inl ⟨value, hasked, hanswer, hvb⟩
    · exact .inr ⟨hasked, hanswer⟩
  · exact hy.wellFormed

omit hpart h in
/-- It keeps what the content is evaluated to. -/
theorem afterPass_part_yields {content : Content} {spliced : List Char}
    (hy : content.Yields (whole.answer? world) spliced) :
    (content.afterPass (part.asked? whole world)).Yields (whole.answer? world) spliced := by
  have hplain : (content.afterPass (part.asked? whole world)).WellFormed ∧
      (content.afterPass (part.asked? whole world)).PlainValues (whole.answer? world) := by
    refine plain_replaceEach ?_ hy.wellFormed hy.plain
    intro target ht value hv
    have hanswer := answer_of_asked? target value hv
    exact ⟨hanswer, braceless_of_mem_flats hy.plain ((mem_innermost_render hy.wellFormed).mp ht) hanswer⟩
  exact ⟨hplain.1, hplain.2, (spliced?_replaceEach answer_of_asked? _ content).trans hy.spliced⟩

/-- **However many passes there are, what is left of a text in a part is evaluated to the same text.** -/
theorem value?_passes_part {content : Content} {spliced : List Char} (ha : whole.Admits content)
    (hy : content.Yields (whole.answer? world) spliced) (limit : Nat) (path : Option Path)
    (single : Option Json) :
    ∃ (content' : Content) (last : Filled) (settled : Bool),
      (part.passes path limit { text := content.render, single }).value? world = some (last, settled) ∧
      last.text = content'.render ∧ content'.Yields (whole.answer? world) spliced ∧
      content'.depth ≤ content.depth := by
  have hs := hpart.steady h
  induction limit generalizing content single with
  | zero => exact ⟨content, _, _, rfl, rfl, hy, Nat.le_refl _⟩
  | succ limit ih =>
    cases hf : content.isFlat with
    | true =>
      exact ⟨content, _, _, value?_passes_of_no_tokens path _
        ((tokens_render_eq_nil_iff hy.wellFormed).mpr hf) world, rfl, hy, Nat.le_refl _⟩
    | false =>
      obtain ⟨single', hpass⟩ := value?_pass_part hpart h ha hy path
      have hdepth := depth_replaceEach_le (part.asked? whole world)
        (innermost (Token.tokens content.render)) content
      have hy' : (content.afterPass (part.asked? whole world)).Yields (whole.answer? world) spliced :=
        afterPass_part_yields hy
      rw [value?_passes_succ hs path limit (tokens_render_ne_nil hy.wellFormed hf)]
      dsimp only
      rw [hpass, Option.bind_some]
      split
      · exact ⟨_, _, _, rfl, rfl, hy', hdepth⟩
      · obtain ⟨content', last, settled, hrun, htext, hkeeps, hle⟩ := ih (ha.mono hdepth) hy' single'
        exact ⟨content', last, settled, hrun, htext, hkeeps, Nat.le_trans hle hdepth⟩

/-! ## Texts in a part -/

/-- **A part makes of a text one that is evaluated to the same text.** -/
theorem exists_filled_text (hlenient : part.strict = false) {content : Content} {spliced : List Char}
    (ha : whole.Admits content) (hy : content.Yields (whole.answer? world) spliced) :
    ∃ content' : Content, (part.fillText content.render).value? world = some content'.render ∧
      content'.Yields (whole.answer? world) spliced ∧ content'.depth ≤ content.depth := by
  obtain ⟨content', last, settled, hrun, htext, hkeeps, hle⟩ :=
    value?_passes_part hpart h ha hy part.maxPasses.toNat none none
  refine ⟨content', ?_, hkeeps, hle⟩
  rw [value?_fillText_eq, value?_substitute_of_lenient hlenient, hrun, Option.map_some, Option.map_some, htext]

end

end Setting

/-! ## Strings of a document in a part -/

namespace Token.Content

/-- The content of a token that has a value, which brings no braces. -/
structure Values (answer : List Char → Option Json) (inside : Content) (own : Json) : Prop where
  wellFormed : inside.WellFormed
  plain : inside.PlainValues answer
  eval : inside.eval? answer = some own
  braceless : Braceless own.asText

theorem Values.plain_alone {answer : List Char → Option Json} {inside : Content} {own : Json}
    (hv : inside.Values answer own) : inside.alone.PlainValues answer := by
  refine plainValues_alone_iff.mpr ⟨hv.plain, ?_⟩
  intro value hvalue
  cases hv.eval.symm.trans hvalue
  exact hv.braceless

theorem Values.yields {answer : List Char → Option Json} {inside : Content} {own : Json}
    (hv : inside.Values answer own) : inside.alone.Yields answer own.asText :=
  ⟨wellFormed_alone_iff.mpr hv.wellFormed, hv.plain_alone, by rw [spliced?_alone, hv.eval, Option.map_some]⟩

end Token.Content

namespace Setting

open Script Token Token.Content

variable {part whole : Setting σ} {world : World σ}

/-- What a string that is a token of the value `own` may be on its way: it has that value, or it is the text
    of a token that still has it and is not nested more deeply. -/
inductive OnTheWay (whole : Setting σ) (world : World σ) (own : Json) (depth : Nat) (filled : Filled) : Prop where
  | arrived (hv : filled.single = some own)
  | token {inside : Content} (hv : inside.Values (whole.answer? world) own) (hd : inside.depth ≤ depth)
      (ht : filled.text = bracket inside.render)
      (hs : ∀ value, filled.single = some value → value = .string (String.ofList filled.text))

theorem OnTheWay.mono {own : Json} {depth depth' : Nat} {filled : Filled}
    (hway : OnTheWay whole world own depth filled) (hle : depth ≤ depth') :
    OnTheWay whole world own depth' filled := by
  cases hway with
  | arrived hv => exact .arrived hv
  | token hv hd ht hs => exact .token hv (Nat.le_trans hd hle) ht hs

section

variable (hpart : part.PartOf whole world) (h : whole.registry.Steady)

include hpart h

/-- A pass of a part over a token without nested tokens gives its value, or leaves it. -/
theorem value?_pass_part_flat {inside : Content} {own : Json} (hv : inside.Values (whole.answer? world) own)
    (ha : whole.Admits inside.alone) (hf : inside.isFlat = true) (path : Option Path) :
    ∃ value, (value = own ∨ value = .string (String.ofList (bracket inside.render))) ∧
      (part.pass path (Token.tokens (bracket inside.render)) (bracket inside.render)).value? world =
        some { text := value.asText, single := some value } := by
  have hanswer : whole.answer? world (bracket inside.render) = some own :=
    (eval?_of_isFlat hf).symm.trans hv.eval
  obtain ⟨value, hvalue, hcases⟩ : ∃ value, part.answer? world (bracket inside.render) = some value ∧
      (value = own ∨ value = .string (String.ofList (bracket inside.render))) := by
    rcases hpart.answers _ _ hanswer with hsame | hself
    · exact ⟨_, hsame, .inl rfl⟩
    · exact ⟨_, hself, .inr rfl⟩
  have hpass := value?_pass_whole (hpart.steady h) (hpart.admits ha) hv.yields.wellFormed hf rfl rfl hvalue path
  rw [← alone, render_alone, List.nil_append, List.append_nil] at hpass
  exact ⟨value, hcases, hpass⟩

/-- A pass of a part over a token with others inside leaves a token of the same value. -/
theorem value?_pass_part_nested {inside : Content} {own : Json} (hv : inside.Values (whole.answer? world) own)
    (ha : whole.Admits inside.alone) (hf : inside.isFlat = false) (path : Option Path) :
    ∃ inside' : Content, inside'.Values (whole.answer? world) own ∧ inside'.depth ≤ inside.depth ∧
      (part.pass path (Token.tokens (bracket inside.render)) (bracket inside.render)).value? world =
        some { text := bracket inside'.render, single := none } := by
  have hy := hv.yields
  obtain ⟨single, hpass⟩ := value?_pass_part hpart h ha hy path
  obtain ⟨inside', hinside', heval⟩ := afterPass_surrounded answer_of_asked? hy.wellFormed hf
  have hinside' : inside.alone.afterPass (part.asked? whole world) = inside'.alone := hinside'
  have hy' : (inside.alone.afterPass (part.asked? whole world)).Yields (whole.answer? world) own.asText :=
    afterPass_part_yields hy
  have hdepth : (inside.alone.afterPass (part.asked? whole world)).depth ≤ inside.alone.depth :=
    depth_replaceEach_le _ _ _
  -- several tokens were found, so no value is kept
  have hlength : (Token.tokens inside.alone.render).length ≠ 1 := by
    intro hone
    rw [(length_tokens_surrounded hy.wellFormed).mp hone] at hf
    cases hf
  have hsingle : single = none := single_of_pass (hpart.steady h) hlength hpass
  rw [hinside', render_alone, render_alone, hsingle] at hpass
  rw [hinside'] at hy' hdepth
  rw [depth_alone, depth_alone] at hdepth
  exact ⟨inside', ⟨hy'.wellFormed.2.1, hy'.plain.1, heval.trans hv.eval, hv.braceless⟩, by omega, hpass⟩

/-- **However many passes there are, a token on its way in a part has the same value.** -/
theorem value?_passes_token {inside : Content} {own : Json} (hv : inside.Values (whole.answer? world) own)
    (ha : whole.Admits inside.alone) (limit : Nat) (path : Option Path) :
    ∃ (last : Filled) (settled : Bool),
      (part.passes path limit { text := bracket inside.render }).value? world = some (last, settled) ∧
      OnTheWay whole world own inside.depth last := by
  have hs := hpart.steady h
  induction limit generalizing inside with
  | zero =>
    refine ⟨_, _, rfl, .token hv (Nat.le_refl _) rfl ?_⟩
    intro value hvalue
    cases hvalue
  | succ limit ih =>
    have hne : Token.tokens (bracket inside.render) ≠ [] := by
      rw [← render_alone]
      exact tokens_render_ne_nil hv.yields.wellFormed rfl
    have hstart : Token.tokens ({ text := bracket inside.render } : Filled).text ≠ [] := hne
    rw [value?_passes_succ hs path limit hstart]
    dsimp only
    cases hf : inside.isFlat with
    | true =>
      obtain ⟨value, rfl | rfl, hpass⟩ := value?_pass_part_flat hpart h hv ha hf path
      · rw [hpass, Option.bind_some]
        split
        · exact ⟨_, _, rfl, .arrived rfl⟩
        · exact ⟨_, _, value?_passes_of_no_tokens path limit (tokens_of_braceless hv.braceless) world,
            .arrived rfl⟩
      · have hself : (Json.string (String.ofList (bracket inside.render))).asText = bracket inside.render :=
          String.toList_ofList
        rw [hpass, Option.bind_some, hself, if_pos rfl]
        refine ⟨_, _, rfl, .token hv (Nat.le_refl _) rfl ?_⟩
        intro value hvalue
        cases hvalue
        rfl
    | false =>
      obtain ⟨inside', hv', hle, hpass⟩ := value?_pass_part_nested hpart h hv ha hf path
      rw [hpass, Option.bind_some]
      split
      · refine ⟨_, _, rfl, .token hv' hle rfl ?_⟩
        intro value hvalue
        cases hvalue
      · have hadmits : whole.Admits inside'.alone := ha.mono (by rw [depth_alone, depth_alone]; omega)
        obtain ⟨last, settled, hrun, hway⟩ := ih hv' hadmits
        exact ⟨last, settled, hrun, hway.mono hle⟩

/-- **A part makes of a token its value, or a token that has the same value.** -/
theorem filled?_part (hlenient : part.strict = false) {s : String} {inside : Content} {own : Json}
    (hs : s.toList = bracket inside.render) (hv : inside.Values (whole.answer? world) own)
    (ha : whole.Admits inside.alone) :
    part.filled? world s = some own ∨
      ∃ inside' : Content, inside'.Values (whole.answer? world) own ∧ inside'.depth ≤ inside.depth ∧
        part.filled? world s = some (.string (String.ofList (bracket inside'.render))) := by
  have hsteady := hpart.steady h
  -- a token without nested tokens that has the value is answered by it, or by itself
  have hflat : ∀ {inside' : Content}, inside'.Values (whole.answer? world) own →
      isSingle (bracket inside'.render) = true →
      part.answer? world (bracket inside'.render) = some own ∨
        part.answer? world (bracket inside'.render) =
          some (.string (String.ofList (bracket inside'.render))) := by
    intro inside' hv' hsingle
    rw [isSingle_bracket_render hv'.wellFormed, Bool.and_eq_true] at hsingle
    exact hpart.answers _ _ ((eval?_of_isFlat hsingle.2).symm.trans hv'.eval)
  cases hsingle : isSingle s.toList with
  | true =>
    rw [filled?, value?_fillString_of_isSingle hsteady [] s hsingle, hs]
    rw [hs] at hsingle
    rcases hflat hv hsingle with hsame | hself
    · exact .inl hsame
    · exact .inr ⟨inside, hv, Nat.le_refl _, hself⟩
  | false =>
    obtain ⟨last, settled, hrun, hway⟩ := value?_passes_token hpart h hv ha part.maxPasses.toNat none
    have htoken : isToken s.toList = true := by
      rw [hs]
      exact isToken_of_eval? hv.eval
    have hfilled : part.filled? world s = part.outcome? world last := by
      rw [filled?, value?_fillString_of_not_isSingle hsteady [] s hsingle, htoken, hs,
        value?_substitute_of_lenient hlenient, hrun]
      rfl
    rw [hfilled, outcome?]
    cases hway with
    | arrived hown =>
      rw [hown]
      exact .inl rfl
    | token hv' hd ht hself =>
      cases hn : last.single with
      | some value =>
        cases hself value hn
        rw [ht]
        exact .inr ⟨_, hv', hd, rfl⟩
      | none =>
        rw [ht]
        dsimp only
        split
        · rename_i hone
          rcases hflat hv' hone with hsame | hself
          · exact .inl hsame
          · exact .inr ⟨_, hv', hd, hself⟩
        · exact .inr ⟨_, hv', hd, rfl⟩

end

/-! ## Documents in a part -/

/-- A string of a document that has a value: there is no token in it, or it is a token that has one. -/
inductive Stands (setting : Setting σ) (world : World σ) (s : String) : Prop where
  | plain (ht : Token.tokens s.toList = [])
  | token {inside : Content} {own : Json} (hs : s.toList = bracket inside.render)
      (hv : inside.Values (setting.answer? world) own) (ha : setting.Admits inside.alone)
      (hl : (inside.depth + 1 : Int) ≤ setting.maxPasses)

/-- A string that is a token becomes the value of the token. -/
theorem filled?_of_values (h : whole.registry.Steady) {s : String} {inside : Content} {own : Json}
    (hs : s.toList = bracket inside.render) (hv : inside.Values (whole.answer? world) own)
    (ha : whole.Admits inside.alone) (hl : (inside.depth + 1 : Int) ≤ whole.maxPasses) :
    whole.filled? world s = some own :=
  (filled?_iff h hs hv.wellFormed hv.plain_alone hl).mpr ⟨ha, hv.eval⟩

section

variable (hpart : part.PartOf whole world) (h : whole.registry.Steady)

include hpart h

/-- **What a part makes of a string becomes in the whole what the string does.** -/
theorem Stands.phase (hlenient : part.strict = false) {s : String} (hs : whole.Stands world s) :
    ∃ middle, part.filled? world s = some middle ∧ middle.Distinct ∧
      middle.AllStrings (whole.Stands world) ∧
      middle.fillWith (whole.filled? world) = whole.filled? world s := by
  have hsteady := hpart.steady h
  cases hs with
  | plain ht => exact ⟨.string s, rests_of_no_tokens hsteady ht, trivial, .plain ht, rfl⟩
  | token hs hv ha hl =>
    rename_i inside own
    have hwhole := filled?_of_values h hs hv ha hl
    rcases filled?_part hpart h hlenient hs hv ha with hown | ⟨inside', hv', hle, hstring⟩
    · -- the value is in its place, and there are no tokens in it
      obtain ⟨hdistinct, hstrings⟩ := Json.braceless_asText hv.braceless
      refine ⟨own, hown, hdistinct, hstrings.mono fun t ht => .plain (tokens_of_braceless ht), ?_⟩
      rw [hwhole, Json.fillWith_eq_self_iff]
      exact hstrings.mono fun t ht => rests_of_no_tokens h (tokens_of_braceless ht)
    · have hs' : (String.ofList (bracket inside'.render)).toList = bracket inside'.render :=
        String.toList_ofList
      have hadmits : whole.Admits inside'.alone := ha.mono (by rw [depth_alone, depth_alone]; omega)
      have hlimit : (inside'.depth + 1 : Int) ≤ whole.maxPasses := by omega
      refine ⟨_, hstring, trivial, .token hs' hv' hadmits hlimit, ?_⟩
      rw [hwhole]
      exact filled?_of_values h hs' hv' hadmits hlimit

/-- **What a part makes of a document becomes in the whole what the document does.** -/
theorem exists_fillWith_part (hlenient : part.strict = false) {value : Json} (hd : value.Distinct)
    (hs : value.AllStrings (whole.Stands world)) :
    ∃ middle, value.fillWith (part.filled? world) = some middle ∧ middle.Distinct ∧
      middle.AllStrings (whole.Stands world) ∧
      middle.fillWith (whole.filled? world) = value.fillWith (whole.filled? world) := by
  have hafter : ∀ s, whole.Stands world s → ∀ own, part.filled? world s = some own → own.Distinct ∧
      own.AllStrings (whole.Stands world) ∧ own.fillWith (whole.filled? world) = whole.filled? world s := by
    intro s hstands own hown
    obtain ⟨own', hown', hkept⟩ := hstands.phase hpart h hlenient
    cases hown'.symm.trans hown
    exact hkept
  obtain ⟨middle, hmiddle⟩ : ∃ middle, value.fillWith (part.filled? world) = some middle := by
    refine (Json.exists_fillWith_iff value).mpr (hs.mono ?_)
    intro s hstands
    obtain ⟨own, hown, -⟩ := hstands.phase hpart h hlenient
    exact ⟨own, hown⟩
  refine ⟨middle, hmiddle, ?_, ?_, ?_⟩
  · exact Json.distinct_of_fillWith value hd
      (hs.mono fun s hstands own hown => (hafter s hstands own hown).1) hmiddle
  · exact (Json.allStrings_fillWith value hmiddle).mpr
      (hs.mono fun s hstands own hown => (hafter s hstands own hown).2.1)
  · exact Json.fillWith_fillWith value
      (hs.mono fun s hstands own hown => (hafter s hstands own hown).2.2) hmiddle

end

end Setting

/-! ## Templates in phases -/

namespace Token.Content

/-- Well-formed content that is nested at most as deeply as there are passes, and whose values bring no
    braces. -/
structure Tame (limit : Int) (answer : List Char → Option Json) (content : Content) : Prop where
  wellFormed : content.WellFormed
  plain : content.PlainValues answer
  shallow : (content.depth : Int) ≤ limit

end Token.Content

namespace Engine

open Setting Token Token.Content

/-- A text with tame content, or a document in which every string is a token with tame content or has no token
    at all. -/
inductive Tame (engine : Engine σ) (options : Options) (world : World σ) (template : List Char) : Prop where
  | text {content : Content} (hf : options.format = .text) (ht : template = content.render)
      (hc : content.Tame engine.settings.maxPasses ((engine.setting options).answer? world))
  | document {value : Json} (hf : options.format = .json) (hread : Json.read template = .ok value)
      (hs : value.AllStrings fun s => Token.tokens s.toList = [] ∨
        ∃ inside : Content, s.toList = bracket inside.render ∧
          inside.alone.Tame engine.settings.maxPasses ((engine.setting options).answer? world))

/-- A template that becomes `output` in one run, with all that is needed to say the same of what a phase makes
    of it. -/
inductive ComesTo (engine : Engine σ) (options : Options) (world : World σ) (output template : List Char) :
    Prop where
  | text {content : Content} (hf : options.format = .text) (ht : template = content.render)
      (hy : content.Yields ((engine.setting options).answer? world) output)
      (ha : (engine.setting options).Admits content) (hl : (content.depth : Int) ≤ engine.settings.maxPasses)
  | document {value final : Json} (hf : options.format = .json) (hread : Json.read template = .ok value)
      (hd : value.Distinct) (hs : value.AllStrings ((engine.setting options).Stands world))
      (hfill : value.fillWith ((engine.setting options).filled? world) = some final)
      (hprint : final.print (.indented engine.settings.indent.toNat) = output)

variable {engine : Engine σ} {options : Options} {world : World σ} {template output : List Char}

/-- A tame template that is filled in comes to the result. -/
theorem Tame.comesTo (ht : engine.Tame options world template) (hs : engine.registry.Steady)
    (h : (engine.generate options template world).1 = .ok output) :
    engine.ComesTo options world output template := by
  cases ht with
  | text hf hrender hc =>
    rename_i content
    rw [generate_text_ok_iff hf hs, hrender] at h
    obtain ⟨ha, hspliced⟩ := (value?_fillText_iff hs hc.wellFormed hc.plain hc.shallow).mp h
    exact .text hf hrender ⟨hc.wellFormed, hc.plain, hspliced⟩ ha hc.shallow
  | document hf hread hstrings =>
    rename_i value
    rw [generate_document_ok_iff hf hs] at h
    obtain ⟨other, final, hother, hfill, hprint⟩ := h
    cases hread.symm.trans hother
    refine .document hf hread (Json.distinct_of_read hread) ?_ hfill hprint
    -- every string becomes something, so every token has a value
    have hfilled := (Json.exists_fillWith_iff value).mp ⟨final, hfill⟩
    refine (hstrings.and hfilled).mono ?_
    rintro s ⟨hnone | ⟨inside, hs', hc⟩, own, hown⟩
    · exact .plain hnone
    · have hw := wellFormed_alone_iff.mp hc.wellFormed
      have hl : (inside.depth + 1 : Int) ≤ engine.settings.maxPasses := by
        have hshallow := hc.shallow
        rw [depth_alone] at hshallow
        omega
      obtain ⟨ha, heval⟩ := (filled?_iff hs hs' hw hc.plain hl).mp hown
      obtain ⟨hplain, hbraceless⟩ := plainValues_alone_iff.mp hc.plain
      exact .token hs' ⟨hw, hplain, heval, hbraceless own heval⟩ ha hl

/-- What comes to a result is filled in with this result. -/
theorem ComesTo.generate (hc : engine.ComesTo options world output template) (hs : engine.registry.Steady)
    (world' : World σ) : (engine.generate options template world').1 = .ok output := by
  cases hc with
  | text hf hrender hy ha hl =>
    rw [generate_text_ok_iff hf hs, hrender]
    exact value?_fillText_of_yields hs ha hy hl
  | document hf hread _ _ hfill hprint =>
    rw [generate_document_ok_iff hf hs]
    exact ⟨_, _, hread, hfill, hprint⟩

/-- A phase has some of the values that a run has which may ask every module. -/
theorem partOf_phase (hi : options.included = none) (phase : List String) (world : World σ) :
    (engine.setting { options with included := some phase }).PartOf (engine.setting options) world where
  registry := rfl
  maxDepth := rfl
  answers := by
    intro token value hv
    have hdepth : (engine.setting { options with included := some phase }).checkDepth token =
        (engine.setting options).checkDepth token := rfl
    have hallows : ∀ module, (engine.setting { options with included := some phase }).options.allows module →
        (engine.setting options).options.allows module := by
      intro module ha
      simp only [Engine.setting, Options.allows, hi, Bool.and_eq_true] at ha ⊢
      exact ⟨rfl, ha.2⟩
    unfold answer? evaluate at hv ⊢
    rw [prepare_eq] at hv ⊢
    rw [hdepth]
    cases hc : (engine.setting options).checkDepth token with
    | error cause =>
      rw [hc] at hv
      cases hv
    | ok _ =>
      rw [hc] at hv
      cases hparse : Placeholder.parse token with
      | error fault =>
        rw [hparse] at hv
        cases hv
      | ok placeholder =>
        rw [hparse] at hv
        dsimp only at hv ⊢
        by_cases ha : (engine.setting { options with included := some phase }).options.allows placeholder.module
        · -- the same plugin is asked in the same context
          rw [if_pos (hallows _ ha)] at hv
          rw [if_pos ha]
          exact .inl hv
        · rw [if_neg ha]
          exact .inr rfl

/-- **A phase makes of a template one that comes to the same result.** -/
theorem ComesTo.phase (hc : engine.ComesTo options world output template) (hs : engine.registry.Steady)
    (hlenient : engine.settings.strict = false) (hi : options.included = none) (phase : List String)
    (world' : World σ) :
    ∃ next, (engine.generate { options with included := some phase } template world').1 = .ok next ∧
      engine.ComesTo options world output next := by
  have hpart : (engine.setting { options with included := some phase }).PartOf (engine.setting options) world :=
    partOf_phase hi phase world
  cases hc with
  | text hf hrender hy ha hl =>
    obtain ⟨content', hfill, hy', hle⟩ := exists_filled_text hpart hs hlenient ha hy
    refine ⟨content'.render, ?_, .text hf rfl hy' (ha.mono hle) (by omega)⟩
    have hformat : ({ options with included := some phase } : Options).format = .text := hf
    rw [generate_text_ok_iff hformat hs, hrender]
    exact hfill
  | document hf hread hd hstands hfill hprint =>
    rename_i value final
    obtain ⟨middle, hmiddle, hdistinct, hstands', hsame⟩ := exists_fillWith_part hpart hs hlenient hd hstands
    refine ⟨middle.print (.indented engine.settings.indent.toNat), ?_,
      .document hf (Json.read_print _ hdistinct) hdistinct hstands' (hsame.trans hfill) hprint⟩
    have hformat : ({ options with included := some phase } : Options).format = .json := hf
    rw [generate_document_ok_iff hformat hs]
    exact ⟨value, middle, hread, hmiddle, rfl⟩

/-- What each phase keeps, all phases keep; if none of them fails, all of them are begun. -/
theorem generateByPhases_keeps {Kept : List Char → Prop}
    (hstep : ∀ phase template world', Kept template → ∃ next,
      (engine.generate { options with included := some phase } template world').1 = .ok next ∧ Kept next)
    (phases : List (List String)) (template : List Char) (hk : Kept template) (world' : World σ) :
    ∃ last, (engine.generateByPhases options phases template world').1 = (phases, .ok last) ∧ Kept last := by
  induction phases generalizing template world' with
  | nil => exact ⟨template, rfl, hk⟩
  | cons phase rest ih =>
    obtain ⟨next, hnext, hkn⟩ := hstep phase template world' hk
    rcases hrun : engine.generate { options with included := some phase } template world' with ⟨result, after⟩
    rw [hrun] at hnext
    cases hnext
    obtain ⟨last, hlast, hkl⟩ := ih next hkn after
    refine ⟨last, ?_, hkl⟩
    rcases hrest : engine.generateByPhases options rest next after with ⟨⟨begun, ending⟩, final⟩
    rw [hrest] at hlast
    cases hlast
    rw [generateByPhases, hrun]
    dsimp only
    rw [hrest]

/-- **Phases are partial evaluation.** A tame template that is filled in by one run that may ask every module
    can go through any phases before. None of them fails, and a last run that may ask every module comes to
    the same result. -/
theorem generate_in_phases (hs : engine.registry.Steady) (hlenient : engine.settings.strict = false)
    (hi : options.included = none) (ht : engine.Tame options world template)
    (h : (engine.generate options template world).1 = .ok output) (phases : List (List String))
    (world' : World σ) :
    ∃ last, (engine.generateByPhases options phases template world').1 = (phases, .ok last) ∧
      ∀ world'', (engine.generate options last world'').1 = .ok output := by
  obtain ⟨last, hlast, hcomes⟩ := generateByPhases_keeps
    (fun phase template world' hc => ComesTo.phase hc hs hlenient hi phase world') phases template
    (ht.comesTo hs h) world'
  exact ⟨last, hlast, fun world'' => hcomes.generate hs world''⟩

end Engine

/-! ## A text and a document in two phases -/

/-- The plugin that answers with the first argument, written twice. -/
def Plugin.twice : Plugin Unit :=
  .pure "twice" fun placeholder _ => .ok (.string (placeholder.args.headD "" ++ placeholder.args.headD ""))

/-- The plugin that answers with the length of the first argument, as a number. -/
def Plugin.size : Plugin Unit :=
  .pure "size" fun placeholder _ => .ok (.number (.integer (placeholder.args.headD "").length))

/-- An engine that echoes, writes twice, and counts. -/
def Engine.doubling : Engine Unit where
  registry := { plugins := [.echo, .twice, .size] }

namespace Engine

open Setting Token Token.Content

theorem steady_doubling : doubling.registry.Steady := by
  intro plugin h
  rcases List.mem_cons.mp h with rfl | h
  · exact Plugin.steady_pure _ _
  · rcases List.mem_cons.mp h with rfl | h
    · exact Plugin.steady_pure _ _
    · rw [List.mem_singleton.mp h]
      exact Plugin.steady_pure _ _

/-- A text with a token that asks for an echo of what another token writes twice. -/
def nestedEcho : Content :=
  .text ['<'] (.token (.text "echo:say:".toList (.token (.text "twice:say:a".toList .empty) .empty))
    (.text ['>'] .empty))

/-- What stands in a token that asks for the length of what another token writes twice. -/
def nestedSize : Content :=
  .text "size:of:".toList (.token (.text "twice:say:a".toList .empty) .empty)

/-- A document with such a token and a text without one. -/
def sizeDocument : Json :=
  .array [.string (String.ofList (bracket nestedSize.render)), .string "plain"]

/-- Content has a plain value as soon as the value that it has is plain. -/
theorem braceless_of_eval? {answer : List Char → Option Json} {inside : Content} (value : Json)
    (h : inside.eval? answer = some value) (hv : Braceless value.asText) (own : Json)
    (hown : inside.eval? answer = some own) : Braceless own.asText := by
  cases h.symm.trans hown
  exact hv

theorem tame_nestedEcho :
    nestedEcho.Tame 10 ((doubling.setting { format := .text }).answer? { state := () }) :=
  ⟨⟨by decide, ⟨by decide, ⟨by decide, trivial⟩, trivial⟩, by decide, trivial⟩,
    ⟨⟨trivial, braceless_of_eval? (.string "aa") rfl (by decide), trivial⟩,
      braceless_of_eval? (.string "aa") rfl (by decide), trivial⟩, by decide⟩

theorem tame_nestedSize : nestedSize.alone.Tame 10 ((doubling.setting {}).answer? { state := () }) :=
  ⟨⟨by decide, ⟨by decide, ⟨by decide, trivial⟩, trivial⟩, by decide, trivial⟩,
    ⟨⟨trivial, braceless_of_eval? (.string "aa") rfl (by decide), trivial⟩,
      braceless_of_eval? (.number (.integer 2)) rfl (by decide), trivial⟩, by decide⟩

/-- The phase for echoes and lengths has to leave the token, because there is another one inside of it; the phase for
    what is written twice takes that one away, and the last run echoes or counts. In a document, the length stands as a
    number in the place of the token. -/
theorem generate_in_phases_doubling :
    ((doubling.generate { format := .text } nestedEcho.render { state := () }).1 = .ok "<aa>".toList ∧
      ∃ last, (doubling.generateByPhases { format := .text } [["echo"], ["twice"]] nestedEcho.render
          { state := () }).1 = ([["echo"], ["twice"]], .ok last) ∧
        (doubling.generate { format := .text } last { state := () }).1 = .ok "<aa>".toList) ∧
    (doubling.generate {} (sizeDocument.print .compact) { state := () }).1 =
        .ok "[\n  2,\n  \"plain\"\n]".toList ∧
      ∃ last, (doubling.generateByPhases {} [["size", "echo"], ["twice"]] (sizeDocument.print .compact)
          { state := () }).1 = ([["size", "echo"], ["twice"]], .ok last) ∧
        (doubling.generate {} last { state := () }).1 = .ok "[\n  2,\n  \"plain\"\n]".toList := by
  constructor
  · have htame := tame_nestedEcho
    have hrun : (doubling.generate { format := .text } nestedEcho.render { state := () }).1 =
        .ok "<aa>".toList := by
      rw [generate_text_ok_iff rfl steady_doubling]
      exact value?_fillText_of_yields steady_doubling (admits_of_unlimited rfl _)
        ⟨htame.wellFormed, htame.plain, rfl⟩ htame.shallow
    obtain ⟨last, hphases, hlast⟩ :=
      generate_in_phases steady_doubling rfl rfl (.text rfl rfl htame) hrun [["echo"], ["twice"]] { state := () }
    exact ⟨hrun, last, hphases, hlast { state := () }⟩
  · have hread : Json.read (sizeDocument.print .compact) = .ok sizeDocument :=
      Json.read_print .compact ⟨trivial, trivial, trivial⟩
    have htame : doubling.Tame {} { state := () } (sizeDocument.print .compact) :=
      .document rfl hread ⟨.inr ⟨nestedSize, String.toList_ofList, tame_nestedSize⟩, .inl (Token.Content.tokens_of_braceless (by decide)), trivial⟩
    have hrun : (doubling.generate {} (sizeDocument.print .compact) { state := () }).1 =
        .ok "[\n  2,\n  \"plain\"\n]".toList := by
      decide +kernel
    obtain ⟨last, hphases, hlast⟩ :=
      generate_in_phases steady_doubling rfl rfl htame hrun [["size", "echo"], ["twice"]] { state := () }
    exact ⟨hrun, last, hphases, hlast { state := () }⟩

end Engine

end Template
