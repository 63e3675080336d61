import Template.Proofs.FixedPoint
import Template.Proofs.Lockstep
import Template.Proofs.Walk

/-!
# `Template.Proofs.MorePasses` — more passes than are needed

Where it is a failure that a text has not settled, a run that succeeds has not used its passes up in vain: every
text in it has settled in time. With more passes allowed, the run is the same: the same questions in the same
order, the same values, the same world. Plugins may be stateful, and parts of a document may be done at the
same time; nothing depends on what they answer.

A text is cut off where the passes end and tokens are left (`substitute_cut_passes`).

## Contents
- `Engine.withPasses` — the same engine with other limits of substitution.
- `substitute_cut_passes` — texts, and `fillText`, `fillString` from them.
- `Engine.generate_with_more_passes` — texts, documents and templates.
-/

namespace Template

variable {σ : Type}

/-- The failure is that a text has not settled. -/
def Failure.IsUnsettled (failure : Failure) : Prop :=
  ∃ shown limit, failure = .unsettled shown limit

namespace Setting

open Script

variable {setting : Setting σ} {limit : Int}

/-! ## The end of the passes -/

/-- Where the passes end, either nothing is left to do, or substitution fails. -/
theorem conclude_cut (hstrict : setting.strict = true) (strict : Bool) (path : Option Path) (more : Nat)
    (filled : Filled) :
    (setting.conclude (filled, false)).Cut Failure.IsUnsettled
      ((setting.withPasses limit strict).passes path more filled >>=
        (setting.withPasses limit strict).conclude) := by
  by_cases ht : Token.tokens filled.text = []
  · rw [conclude_of_no_tokens ht, passes_of_no_tokens path _ ht]
    exact .done filled
  · have hleft : ¬ (false || (Token.tokens filled.text).isEmpty) = true := by
      rw [Bool.false_or, List.isEmpty_iff]
      exact ht
    unfold conclude
    dsimp only
    rw [if_neg hleft, if_pos hstrict]
    exact .off _ ⟨_, _, rfl⟩ _

/-- **A text with fewer passes is that with more passes, cut off** where it has not settled. -/
theorem substitute_cut_passes (hstrict : setting.strict = true) (hl : setting.maxPasses ≤ limit) (strict : Bool)
    (path : Option Path) (text : List Char) :
    (setting.substitute path text).Cut Failure.IsUnsettled
      ((setting.withPasses limit strict).substitute path text) := by
  have hpass : ∀ found text, (setting.pass path found text).Cut Failure.IsUnsettled
      ((setting.withPasses limit strict).pass path found text) := by
    intro found text
    rw [(sameTokens_withPasses setting limit strict).pass]
    exact .refl _
  have hlimit : (setting.withPasses limit strict).maxPasses.toNat =
      setting.maxPasses.toNat + (limit.toNat - setting.maxPasses.toNat) := by
    show limit.toNat = _
    omega
  rw [substitute_eq_conclude, substitute_eq_conclude, hlimit]
  exact passes_cut hpass (conclude_cut hstrict strict path _) _ _

theorem fillText_cut_passes (hstrict : setting.strict = true) (hl : setting.maxPasses ≤ limit) (strict : Bool)
    (text : List Char) :
    (setting.fillText text).Cut Failure.IsUnsettled ((setting.withPasses limit strict).fillText text) :=
  fillText_cut (substitute_cut_passes hstrict hl strict none) text

theorem fillString_cut_passes (hstrict : setting.strict = true) (hl : setting.maxPasses ≤ limit) (strict : Bool)
    (path : Path) (s : String) :
    (setting.fillString path s).Cut Failure.IsUnsettled
      ((setting.withPasses limit strict).fillString path s) := by
  have hresolve : ∀ token, (setting.resolve (some path) token).Cut Failure.IsUnsettled
      ((setting.withPasses limit strict).resolve (some path) token) := fun _ => .refl _
  exact fillString_cut hresolve (substitute_cut_passes hstrict hl strict (some path)) s

end Setting

namespace Engine

open Setting

variable {engine : Engine σ} {limit : Int}

/-- The same engine with other limits of substitution. -/
def withPasses (engine : Engine σ) (limit : Int) (strict : Bool) : Engine σ :=
  { engine with settings := { engine.settings with maxPasses := limit, strict } }

/-! ## Templates -/

/-- **More passes change nothing about a run that succeeds**, if it is a failure in it that a text has not
    settled, whatever it is with more passes. A text that is substituted becomes the same text, with the same
    value if it was a single token in the end; a document becomes the same document, and a template the same
    output; each time after the same questions in the same order, in the same world. -/
theorem generate_with_more_passes (hstrict : engine.settings.strict = true)
    (hl : engine.settings.maxPasses ≤ limit) (strict : Bool) (options : Options) :
    let setting := engine.setting options
    let setting' := (engine.withPasses limit strict).setting options
    (∀ path text world filled, ((setting.substitute path text).run world).1 = .ok filled →
      (setting'.substitute path text).run world = (setting.substitute path text).run world ∧
      (setting'.substitute path text).asked world = (setting.substitute path text).asked world) ∧
    (∀ path value world filled, (setting.fill path value world).1 = .ok filled →
      setting'.fill path value world = setting.fill path value world ∧
      setting'.questions path value world = setting.questions path value world) ∧
    ∀ content world output, (engine.generate options content world).1 = .ok output →
      (engine.withPasses limit strict).generate options content world = engine.generate options content world ∧
      (engine.withPasses limit strict).questions options content world =
        engine.questions options content world := by
  intro setting setting'
  have hsetting : setting.strict = true := hstrict
  have hlimit : setting.maxPasses ≤ limit := hl
  have hindent : (engine.withPasses limit strict).settings.indent = engine.settings.indent := rfl
  have htext : ∀ text, (setting.fillText text).Cut Failure.IsUnsettled (setting'.fillText text) :=
    fillText_cut_passes hsetting hlimit strict
  have hstring : ∀ path s, (setting.fillString path s).Cut Failure.IsUnsettled (setting'.fillString path s) :=
    fillString_cut_passes hsetting hlimit strict
  refine ⟨?_, ?_, ?_⟩
  · intro path text world filled hfilled
    exact (substitute_cut_passes hsetting hlimit strict path text).run_eq hfilled
  · intro path value world filled hfilled
    have hconcurrent : setting'.options.concurrent = setting.options.concurrent := rfl
    exact fill_cut hconcurrent (fun leaf (_ : leaf ∈ value.leaves path) => hstring leaf.1 leaf.2) hfilled
  · intro content world output houtput
    exact generate_cut rfl hindent rfl htext hstring houtput

/-! ## As many passes as are needed -/

/-- An engine that counts, in two passes at most. -/
def counting : Engine Nat where
  settings := { maxPasses := 2, strict := true }
  registry := { plugins := [.count] }

/-- A token that asks for a count, of something that is counted first. -/
def countTwice : Token.Content :=
  .token (.text "count:".toList (.token (.text "count:a".toList .empty) .empty)) .empty

/-- What a pass makes of it. -/
def countOnce : Token.Content :=
  .token (.text "count:0".toList .empty) .empty

theorem tokens_countTwice : Token.tokens countTwice.render =
    ["\x7b\x7bcount:\x7b\x7bcount:a\x7d\x7d\x7d\x7d".toList, "\x7b\x7bcount:a\x7d\x7d".toList] := by
  have hw : countTwice.WellFormed := ⟨⟨by decide, ⟨by decide, trivial⟩, trivial⟩, trivial⟩
  rw [Token.tokens, Token.Content.occurrences_render hw]
  decide

theorem tokens_countOnce : Token.tokens countOnce.render = ["\x7b\x7bcount:0\x7d\x7d".toList] := by
  have hw : countOnce.WellFormed := ⟨⟨by decide, trivial⟩, trivial⟩
  rw [Token.tokens, Token.Content.occurrences_render hw]
  decide

/-- Two passes are enough: the second one finds nothing but a token, keeps its value, and leaves no token. -/
theorem substitute_countTwice (path : Option Path) :
    ((counting.setting { format := .text }).substitute path countTwice.render).run { state := 0 } =
      (.ok { text := "1".toList, single := some (.number (.integer 1)) }, { state := 2 }) := by
  have hfirst : ((counting.setting { format := .text }).pass path (Token.tokens countTwice.render)
      countTwice.render).run { state := 0 } = (.ok { text := countOnce.render }, { state := 1 }) := by
    rw [tokens_countTwice]
    rfl
  have hsecond : ((counting.setting { format := .text }).pass path (Token.tokens countOnce.render)
      countOnce.render).run { state := 1 } =
        (.ok { text := "1".toList, single := some (.number (.integer 1)) }, { state := 2 }) := by
    rw [tokens_countOnce]
    rfl
  have htwice : Token.tokens countTwice.render ≠ [] := by
    rw [tokens_countTwice]
    exact List.cons_ne_nil _ _
  have honce : Token.tokens countOnce.render ≠ [] := by
    rw [tokens_countOnce]
    exact List.cons_ne_nil _ _
  have hnone : Token.tokens "1".toList = [] := Token.Content.tokens_of_braceless (by decide)
  have hlimit : (counting.setting { format := .text }).maxPasses.toNat = 1 + 1 := rfl
  rw [substitute_eq_conclude, hlimit, passes_succ path 1 htwice, Script.run_bind, hfirst]
  dsimp only
  rw [if_neg (by decide), passes_succ path 0 honce, Script.run_bind, hsecond]
  dsimp only
  rw [if_neg (by decide), passes_of_no_tokens path 0 hnone]
  rfl

theorem fillText_countTwice :
    ((counting.setting { format := .text }).fillText countTwice.render).run { state := 0 } =
      (.ok "1".toList, { state := 2 }) := by
  unfold fillText
  rw [tokens_countTwice]
  dsimp only
  rw [Script.run_bind, substitute_countTwice]
  rfl

/-- With five passes allowed, no further question is asked, and the counter is where it was. -/
theorem generate_with_five_passes :
    counting.settings.strict = true ∧ counting.settings.maxPasses ≤ 5 ∧
    (counting.withPasses 5 false).generate { format := .text }
        "\x7b\x7bcount:\x7b\x7bcount:a\x7d\x7d\x7d\x7d".toList { state := 0 } =
      (.ok "1".toList, { state := 2 }) := by
  have hrun : counting.generate { format := .text } "\x7b\x7bcount:\x7b\x7bcount:a\x7d\x7d\x7d\x7d".toList
      { state := 0 } = (.ok "1".toList, { state := 2 }) := fillText_countTwice
  obtain ⟨-, -, hgenerate⟩ := generate_with_more_passes (rfl : counting.settings.strict = true)
    (by decide : counting.settings.maxPasses ≤ 5) false { format := .text }
  have hok := congrArg Prod.fst hrun
  refine ⟨rfl, by decide, ?_⟩
  rw [(hgenerate _ _ _ hok).1, hrun]

end Engine

end Template
