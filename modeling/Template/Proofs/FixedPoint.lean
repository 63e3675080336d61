import Template.Proofs.Idempotence

/-!
# `Template.Proofs.FixedPoint` — text that has settled stays as it is

Substitution ends when a pass finds no token, when a pass changes nothing, or when the passes are used up. If it
is a failure to have tokens left then, every end is a fixed point: another substitution, with as few passes as
one and with or without that failure, gives the same text (`substitute_stays`). A pass may well have rewritten
tokens and come back to the text it started from; what matters is that it would do so again.

## Contents
- `withPasses` — the same setting with other limits of substitution.
- `value?_substitute_of_settled` — settled text under other limits.
- `substitute_stays` — the fixed point, and plain texts filled in twice.
-/

namespace Template.Setting

open Script Token

variable {σ : Type} {setting : Setting σ} {world : World σ}

/-- The same setting with other limits of substitution: the number of passes, and whether it is a failure that a
    text has not settled by then. -/
def withPasses (setting : Setting σ) (limit : Int) (strict : Bool) : Setting σ :=
  { setting with maxPasses := limit, strict }

/-- A token does not look at the limits. -/
theorem sameTokens_withPasses (setting : Setting σ) (limit : Int) (strict : Bool) :
    SameTokens setting (setting.withPasses limit strict) where
  checkDepth := rfl
  evaluate := rfl

/-- Text that has settled has done so for any number of passes but none. -/
theorem Settled.withPasses {filled : Filled} (hs : setting.Settled world filled) {limit : Int} (hl : 1 ≤ limit)
    (strict : Bool) : (setting.withPasses limit strict).Settled world filled := by
  rcases hs with hnone | ⟨-, hpass⟩
  · exact .inl hnone
  · have hpos : 0 < (setting.withPasses limit strict).maxPasses.toNat := by
      show 0 < limit.toNat
      omega
    refine .inr ⟨hpos, ?_⟩
    rw [(sameTokens_withPasses setting limit strict).pass]
    exact hpass

/-- **Settled text is what substitution makes of it**, at any place and under any limits. -/
theorem value?_substitute_of_settled (h : setting.registry.Steady) {filled : Filled}
    (hs : setting.Settled world filled) {limit : Int} (hl : 1 ≤ limit) (strict : Bool) (path : Option Path) :
    ∃ again, ((setting.withPasses limit strict).substitute path filled.text).value? world = some again ∧
      again.text = filled.text := by
  have hsteady : (setting.withPasses limit strict).registry.Steady := h
  by_cases ht : Token.tokens filled.text = []
  · exact ⟨_, value?_substitute_of_no_tokens path ht, rfl⟩
  · refine ⟨filled, ?_, rfl⟩
    rw [value?_substitute_place hsteady path none]
    exact (hs.withPasses hl strict).substitute hsteady ht

/-- What substitution gives in one world, where it is a failure not to have settled, has settled in every
    other. -/
theorem settled_of_run (h : setting.registry.Steady) (hstrict : setting.strict = true) {path : Option Path}
    {text : List Char} {filled : Filled} (hs : ((setting.substitute path text).run world).1 = .ok filled)
    (world' : World σ) : setting.Settled world' filled := by
  have hvalue : (setting.substitute none text).value? world' = some filled := by
    rw [value?_substitute_place h none path, (substitute_steady h path text).value?_eq world' world]
    exact value?_eq_some_iff.mpr hs
  exact settled_of_substitute h hstrict hvalue

/-- **What substitution settles on is a fixed point.** If it is a failure that a text has not settled, then a
    text that substitution gives is given again when it is substituted in turn, whatever the place, the number
    of passes, unless there is none, and whether or not it is a failure then. So a plain text that was filled in
    stays as it is. -/
theorem substitute_stays (h : setting.registry.Steady) (hstrict : setting.strict = true) :
    (∀ path text world filled, ((setting.substitute path text).run world).1 = .ok filled →
      ∀ limit strict path' world', 1 ≤ limit →
        ∃ again, (((setting.withPasses limit strict).substitute path' filled.text).run world').1 = .ok again ∧
          again.text = filled.text) ∧
    ∀ text world output, ((setting.fillText text).run world).1 = .ok output →
      ∀ world', ((setting.fillText output).run world').1 = .ok output := by
  constructor
  · intro path text world filled hs limit strict path' world' hl
    obtain ⟨again, hagain, htext⟩ :=
      value?_substitute_of_settled h (settled_of_run h hstrict hs world') hl strict path'
    exact ⟨again, value?_eq_some_iff.mp hagain, htext⟩
  · intro text world output hout world'
    have hvalue : (setting.fillText text).value? world = some output := value?_eq_some_iff.mpr hout
    rw [value?_fillText_eq, Option.map_eq_some_iff] at hvalue
    obtain ⟨filled, hfilled, rfl⟩ := hvalue
    have hs : setting.Settled world' filled := settled_of_run h hstrict (value?_eq_some_iff.mp hfilled) world'
    apply value?_eq_some_iff.mp
    rw [value?_fillText_eq]
    by_cases ht : Token.tokens filled.text = []
    · rw [value?_substitute_of_no_tokens none ht]
      rfl
    · rw [hs.substitute h ht]
      rfl

/-! ## A text with a token that is kept -/

/-- The setting in which only `Plugin.echo` is registered, tokens of the module `keep` stay as they are, and it
    is a failure that a text has not settled. -/
def choosy : Setting Unit where
  registry := { plugins := [.echo] }
  options := { format := .text, excluded := some ["keep"] }
  strict := true

/-- A token that is kept, with something behind it. -/
def keeping (behind : Content) : Content :=
  .token (.text "keep:a".toList .empty) (.text " ".toList behind)

theorem tokens_keeping_echo : Token.tokens (keeping (saying (.text "b".toList .empty))).render =
    ["\x7b\x7bkeep:a\x7d\x7d".toList, "\x7b\x7becho:say:b\x7d\x7d".toList] := by
  have hw : (keeping (saying (.text "b".toList .empty))).WellFormed :=
    ⟨⟨by decide, trivial⟩, by decide, ⟨by decide, by decide, trivial⟩, trivial⟩
  rw [Token.tokens, Content.occurrences_render hw]
  decide

theorem tokens_keeping_text : Token.tokens (keeping (.text "b".toList .empty)).render =
    ["\x7b\x7bkeep:a\x7d\x7d".toList] := by
  have hw : (keeping (.text "b".toList .empty)).WellFormed :=
    ⟨⟨by decide, trivial⟩, by decide, by decide, trivial⟩
  rw [Token.tokens, Content.occurrences_render hw]
  decide

/-- A pass replaces the other token, and another pass changes nothing. -/
theorem substitute_keeping :
    ((choosy.substitute none (keeping (saying (.text "b".toList .empty))).render).run { state := () }).1 =
      .ok { text := (keeping (.text "b".toList .empty)).render } := by
  have hsteady : choosy.registry.Steady := steady_echoing
  have hfirst : Token.tokens (keeping (saying (.text "b".toList .empty))).render ≠ [] := by
    rw [tokens_keeping_echo]
    exact List.cons_ne_nil _ _
  have hsecond : Token.tokens (keeping (.text "b".toList .empty)).render ≠ [] := by
    rw [tokens_keeping_text]
    exact List.cons_ne_nil _ _
  have hpass : (choosy.pass none (Token.tokens (keeping (saying (.text "b".toList .empty))).render)
      (keeping (saying (.text "b".toList .empty))).render).value? { state := () } =
        some { text := (keeping (.text "b".toList .empty)).render } := by
    rw [tokens_keeping_echo]
    rfl
  have hagain : (choosy.pass none (Token.tokens (keeping (.text "b".toList .empty)).render)
      (keeping (.text "b".toList .empty)).render).value? { state := () } =
        some { text := (keeping (.text "b".toList .empty)).render } := by
    rw [tokens_keeping_text]
    rfl
  apply value?_eq_some_iff.mp
  rw [value?_substitute, show choosy.maxPasses.toNat = 8 + 1 + 1 from rfl,
    value?_passes_succ hsteady none 9 hfirst, hpass, Option.bind_some, if_neg (by decide),
    value?_passes_succ hsteady none 8 hsecond, hagain, Option.bind_some, if_pos rfl]
  rfl

/-- With a token left in it, the text stays as it is in a single pass, and where it is no failure to have one
    left. -/
theorem substitute_stays_keeping :
    choosy.strict = true ∧
    ((choosy.substitute none "\x7b\x7bkeep:a\x7d\x7d \x7b\x7becho:say:b\x7d\x7d".toList).run
      { state := () }).1 = .ok { text := "\x7b\x7bkeep:a\x7d\x7d b".toList } ∧
    ∃ again, (((choosy.withPasses 1 false).substitute none "\x7b\x7bkeep:a\x7d\x7d b".toList).run
      { state := () }).1 = .ok again ∧ again.text = "\x7b\x7bkeep:a\x7d\x7d b".toList :=
  ⟨rfl, substitute_keeping,
    (@substitute_stays _ choosy steady_echoing rfl).1 none _ { state := () } _ substitute_keeping 1 false
      none { state := () } (by decide)⟩

end Template.Setting
