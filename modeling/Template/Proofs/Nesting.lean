import Template.Proofs.Depth
import Template.Proofs.Limit
import Template.Proofs.Lockstep
import Template.Proofs.MorePasses
import Template.Proofs.Walk

/-!
# `Template.Proofs.Nesting` — tokens that are nested too deeply

The limit of depth is looked at in two places: by every pass, for all tokens that it has found, and whenever a
token is evaluated. In both places it only refuses; where it does not, everything goes on as with any larger
limit, or without one. So a run with the limit is the run without it, cut off where a token is too deep
(`fillString_cut_depth`).

If a text holds too deep a token from the start, it is refused before any plugin is asked for it, by the first
pass or as a whole (`fillString_refuses`). A substitution that makes no pass looks at no token, and refuses none.

## Contents
- `Failure.TooDeep` — the failure of a token that is too deep.
- `Setting.withMaxDepth` — the same setting with another limit of depth.
- `resolve_cut_depth`, `fillString_cut_depth` — tokens and strings with a limit, and with a larger one or none.
- `checkTokens_refuses`, `fillString_refuses` — too deep a token from the start.
- `Engine.generate_within_depth` — templates; `generate_without_passes`, a document that is not refused.
-/

namespace Template

variable {σ : Type}

/-- The failure is that a token at a place, or in a text if there is none, is nested more deeply than the limit
    admits. -/
def Failure.TooDeep (limit : Nat) (place : Option Path) (failure : Failure) : Prop :=
  ∃ token, limit < Token.depth token ∧
    failure = .unresolved (String.ofList token) (place.map fun path => String.ofList path.format)
      (.tooDeep (Token.depth token) limit)

/-- The failure is that a token somewhere is nested more deeply than the limit admits. -/
def Failure.IsTooDeep (limit : Nat) (failure : Failure) : Prop :=
  ∃ place, failure.TooDeep limit place

namespace Setting

open Script

variable {setting : Setting σ} {limit : Nat} {larger : Option Nat}

/-- The same setting with another limit of depth, or with none. -/
def withMaxDepth (setting : Setting σ) (limit : Option Nat) : Setting σ :=
  { setting with options := { setting.options with maxDepth := limit } }

/-! ## A limit, and a larger one or none -/

section

variable (hl : ∀ other, larger = some other → limit ≤ other)

include hl

/-- The limit refuses a token, or both admit it. -/
theorem checkDepth_cases (setting : Setting σ) (token : List Char) :
    (limit < Token.depth token ∧
      (setting.withMaxDepth (some limit)).checkDepth token = .error (.tooDeep (Token.depth token) limit)) ∨
    ((setting.withMaxDepth (some limit)).checkDepth token = .ok () ∧
      (setting.withMaxDepth larger).checkDepth token = .ok ()) := by
  by_cases hd : Token.depth token ≤ limit
  · right
    refine ⟨if_pos hd, ?_⟩
    cases larger with
    | none => rfl
    | some other => exact if_pos (Nat.le_trans hd (hl other rfl))
  · exact .inl ⟨Nat.lt_of_not_le hd, if_neg hd⟩

/-- **The value of a token, cut off by the limit**: a token that is too deep has none. -/
theorem resolve_cut_depth (path : Option Path) (token : List Char) :
    ((setting.withMaxDepth (some limit)).resolve path token).Cut (Failure.IsTooDeep limit)
      ((setting.withMaxDepth larger).resolve path token) := by
  rcases checkDepth_cases hl setting token with ⟨hdeep, hrefused⟩ | ⟨hlimit, hlarger⟩
  · have hfails : (setting.withMaxDepth (some limit)).resolve path token =
        failAt token path (.tooDeep (Token.depth token) limit) := by
      unfold resolve evaluate prepare
      rw [hrefused]
      rfl
    rw [hfails]
    exact .off _ ⟨path, token, hdeep, rfl⟩ _
  · have hsame : (setting.withMaxDepth larger).resolve path token =
        (setting.withMaxDepth (some limit)).resolve path token := by
      unfold resolve evaluate prepare
      rw [hlimit, hlarger]
      rfl
    rw [hsame]
    exact .refl _

theorem checkTokens_cut_depth (path : Option Path) (tokens : List (List Char)) :
    ((setting.withMaxDepth (some limit)).checkTokens path tokens).Cut (Failure.IsTooDeep limit)
      ((setting.withMaxDepth larger).checkTokens path tokens) := by
  induction tokens with
  | nil => exact .done ()
  | cons token rest ih =>
    refine Cut.bind ?_ fun _ => ih
    unfold checkToken
    rcases checkDepth_cases hl setting token with ⟨hdeep, hrefused⟩ | ⟨hlimit, hlarger⟩
    · rw [hrefused]
      exact .off _ ⟨path, token, hdeep, rfl⟩ _
    · rw [hlimit, hlarger]
      exact .done ()

theorem replaceTokens_cut_depth (path : Option Path) (found tokens : List (List Char)) (current : Filled) :
    ((setting.withMaxDepth (some limit)).replaceTokens path found tokens current).Cut (Failure.IsTooDeep limit)
      ((setting.withMaxDepth larger).replaceTokens path found tokens current) := by
  induction tokens generalizing current with
  | nil => exact .done current
  | cons token rest ih =>
    refine Cut.bind ?_ ih
    unfold replaceToken
    split
    · exact (resolve_cut_depth hl path token).bind fun _ => .done _
    · exact .done current

theorem pass_cut_depth (path : Option Path) (found : List (List Char)) (text : List Char) :
    ((setting.withMaxDepth (some limit)).pass path found text).Cut (Failure.IsTooDeep limit)
      ((setting.withMaxDepth larger).pass path found text) :=
  (checkTokens_cut_depth hl path found).bind fun _ => replaceTokens_cut_depth hl path found _ _

theorem substitute_cut_depth (path : Option Path) (text : List Char) :
    ((setting.withMaxDepth (some limit)).substitute path text).Cut (Failure.IsTooDeep limit)
      ((setting.withMaxDepth larger).substitute path text) := by
  have hend : ∀ filled, ((setting.withMaxDepth (some limit)).conclude (filled, false)).Cut
      (Failure.IsTooDeep limit) ((setting.withMaxDepth larger).passes path 0 filled >>=
        (setting.withMaxDepth larger).conclude) := fun filled => .refl _
  rw [substitute_eq_conclude, substitute_eq_conclude]
  exact passes_cut (pass_cut_depth hl path) hend _ _

theorem fillText_cut_depth (text : List Char) :
    ((setting.withMaxDepth (some limit)).fillText text).Cut (Failure.IsTooDeep limit)
      ((setting.withMaxDepth larger).fillText text) :=
  fillText_cut (substitute_cut_depth hl none) text

/-- **A string with the limit is that with a larger one or none, cut off** where a token is too deep. -/
theorem fillString_cut_depth (path : Path) (s : String) :
    ((setting.withMaxDepth (some limit)).fillString path s).Cut (Failure.IsTooDeep limit)
      ((setting.withMaxDepth larger).fillString path s) :=
  fillString_cut (resolve_cut_depth hl (some path)) (substitute_cut_depth hl (some path)) s

end

/-! ## Too deep a token from the start -/

/-- A script that refuses a token at a place for its depth, and does nothing else. -/
def Refuses {α : Type} (limit : Nat) (path : Option Path) (script : Script σ Failure α) : Prop :=
  ∃ token, limit < Token.depth token ∧ script = failAt token path (.tooDeep (Token.depth token) limit)

theorem Refuses.bind {α β : Type} {path : Option Path} {script : Script σ Failure α}
    (h : Refuses limit path script) (f : α → Script σ Failure β) : Refuses limit path (script >>= f) := by
  obtain ⟨token, hdeep, rfl⟩ := h
  exact ⟨token, hdeep, rfl⟩

/-- It fails in every world, and asks nothing. -/
theorem Refuses.run {α : Type} {path : Option Path} {script : Script σ Failure α}
    (h : Refuses limit path script) (world : World σ) :
    ∃ failure, failure.TooDeep limit path ∧ (script.run world).1 = .error failure ∧
      script.asked world = [] := by
  obtain ⟨token, hdeep, rfl⟩ := h
  exact ⟨_, ⟨token, hdeep, rfl⟩, rfl, rfl⟩

section

variable (hm : setting.options.maxDepth = some limit)

include hm

theorem checkDepth_refuses {token : List Char} (hd : limit < Token.depth token) :
    setting.checkDepth token = .error (.tooDeep (Token.depth token) limit) := by
  unfold checkDepth
  rw [hm]
  exact if_neg (Nat.not_le_of_lt hd)

/-- A pass refuses the first token that is too deep. -/
theorem checkTokens_refuses (path : Option Path) {tokens : List (List Char)} {token : List Char}
    (ht : token ∈ tokens) (hd : limit < Token.depth token) :
    Refuses limit path (setting.checkTokens path tokens) := by
  induction tokens with
  | nil => exact absurd ht List.not_mem_nil
  | cons first rest ih =>
    by_cases hfirst : limit < Token.depth first
    · apply Refuses.bind
      unfold checkToken
      rw [checkDepth_refuses hm hfirst]
      exact ⟨first, hfirst, rfl⟩
    · have hok : setting.checkToken path first = .done () := by
        have hadmits : setting.checkDepth first = .ok () := by
          unfold checkDepth
          rw [hm]
          exact if_pos (Nat.le_of_not_lt hfirst)
        rw [checkToken, hadmits]
      have hrest : token ∈ rest := by
        rcases List.mem_cons.mp ht with rfl | hrest
        · exact absurd hd hfirst
        · exact hrest
      rw [checkTokens, hok]
      exact ih hrest

theorem resolve_refuses (path : Option Path) {token : List Char} (hd : limit < Token.depth token) :
    Refuses limit path (setting.resolve path token) := by
  refine ⟨token, hd, ?_⟩
  unfold resolve evaluate prepare
  rw [checkDepth_refuses hm hd]
  rfl

/-- If there is a pass at all, the first one refuses the text. -/
theorem substitute_refuses (hpasses : 1 ≤ setting.maxPasses) (path : Option Path) {text token : List Char}
    (ht : token ∈ Token.tokens text) (hd : limit < Token.depth token) :
    Refuses limit path (setting.substitute path text) := by
  have htokens : Token.tokens text ≠ [] := List.ne_nil_of_mem ht
  obtain ⟨passes, hpasses⟩ : ∃ passes, setting.maxPasses.toNat = passes + 1 :=
    ⟨setting.maxPasses.toNat - 1, by omega⟩
  rw [substitute_eq_conclude, hpasses, passes_succ path passes htokens]
  exact ((checkTokens_refuses hm path ht hd).bind _).bind _

theorem fillText_refuses (hpasses : 1 ≤ setting.maxPasses) {text token : List Char}
    (ht : token ∈ Token.tokens text) (hd : limit < Token.depth token) :
    Refuses limit none (setting.fillText text) := by
  unfold fillText
  split
  · rename_i hnone
    rw [hnone] at ht
    exact absurd ht List.not_mem_nil
  · exact (substitute_refuses hm hpasses none ht hd).bind _

/-- **A string with too deep a token is refused before anything is asked for it**, by the first pass, or as a
    whole, since it is as deep as the token in it. -/
theorem fillString_refuses (hpasses : 1 ≤ setting.maxPasses) (place : Path) {s : String} {token : List Char}
    (ht : token ∈ Token.tokens s.toList) (hd : limit < Token.depth token) :
    Refuses limit (some place) (setting.fillString place s) := by
  have htokens : ¬ (Token.tokens s.toList).isEmpty = true := by
    rw [List.isEmpty_iff]
    exact List.ne_nil_of_mem ht
  unfold fillString
  dsimp only
  rw [if_neg htokens]
  split
  · exact resolve_refuses hm (some place) (Nat.lt_of_lt_of_le hd (Token.depth_le_of_mem_tokens ht))
  · exact (substitute_refuses hm hpasses (some place) ht hd).bind _

/-- A document of which such a string is reached fails at it, and nothing is asked from there on. -/
theorem fill_refuses (hc : setting.options.concurrent = false) (hpasses : 1 ≤ setting.maxPasses) {path place : Path}
    {value : Json} {before behind : List (Path × String)} {s : String} {world : World σ} {values : List Json}
    {token : List Char} (hleaves : value.leaves path = before ++ (place, s) :: behind)
    (hreached : (setting.walk before world).result = .ok values) (ht : token ∈ Token.tokens s.toList)
    (hd : limit < Token.depth token) :
    ∃ failure, failure.TooDeep limit (some place) ∧ (setting.fill path value world).1 = .error failure ∧
      setting.questions path value world = (setting.walk before world).asked := by
  obtain ⟨failure, hfailure, hrun, hasked⟩ :=
    (fillString_refuses hm hpasses place ht hd).run (setting.walk before world).world
  have hwalk : setting.walk (before ++ (place, s) :: behind) world = _ := walk_append_ok hreached
  rw [walk_cons_error (Prod.ext hrun rfl), hasked, List.append_nil, ← hleaves] at hwalk
  have hfollows : Follows (setting.plan path value).inOrder world _ value.Replaced :=
    inOrder_plan path value world
  rw [hwalk] at hfollows
  refine ⟨failure, hfailure, ?_, ?_⟩
  · rw [fill_inOrder hc, hfollows.error place failure rfl]
  · unfold questions
    rw [hc]
    exact hfollows.asked

end

end Setting

namespace Engine

open Setting

variable {engine : Engine σ} {options : Options}

/-! ## Templates -/

/-- **The limit of depth only ever adds a failure.** One part after the other, a run with the limit gives what the
    run with a larger limit gives, or the run without one, after the same questions; or it fails because a token is
    too deep, after part of them. If it has a result, it is the same run, in both orders of work. If there is a
    pass at all, and a text, or a string of a document that is reached, holds too deep a token from the start, then
    it fails for that reason, at the place of the string, and nothing is asked for it. -/
theorem generate_within_depth {limit : Nat} {larger : Option Nat}
    (hl : ∀ other, larger = some other → limit ≤ other) :
    let limited : Options := { options with maxDepth := some limit }
    let wider : Options := { options with maxDepth := larger }
    ((options.format = .json → options.concurrent = false) → ∀ content world,
      (engine.generate limited content world = engine.generate wider content world ∧
        engine.questions limited content world = engine.questions wider content world) ∨
      ∃ failure, failure.IsTooDeep limit ∧ (engine.generate limited content world).1 = .error failure ∧
        engine.questions limited content world <+: engine.questions wider content world) ∧
    (∀ content world output, (engine.generate limited content world).1 = .ok output →
      engine.generate wider content world = engine.generate limited content world ∧
      engine.questions wider content world = engine.questions limited content world) ∧
    (1 ≤ engine.settings.maxPasses → options.format = .text → ∀ content token world,
      token ∈ Token.tokens content → limit < Token.depth token →
      ∃ failure, failure.TooDeep limit none ∧ (engine.generate limited content world).1 = .error failure ∧
        engine.questions limited content world = []) ∧
    (1 ≤ engine.settings.maxPasses → options.format = .json → options.concurrent = false →
      ∀ content value before place s behind world values token,
      Json.read content = .ok value → value.leaves [] = before ++ (place, s) :: behind →
      ((engine.setting limited).walk before world).result = .ok values →
      token ∈ Token.tokens s.toList → limit < Token.depth token →
      ∃ failure, failure.TooDeep limit (some place) ∧
        (engine.generate limited content world).1 = .error failure ∧
        engine.questions limited content world = ((engine.setting limited).walk before world).asked) := by
  intro limited wider
  have hlimited : engine.setting limited = (engine.setting options).withMaxDepth (some limit) := rfl
  have hwider : engine.setting wider = (engine.setting options).withMaxDepth larger := rfl
  have htext : ∀ text, ((engine.setting limited).fillText text).Cut (Failure.IsTooDeep limit)
      ((engine.setting wider).fillText text) := by
    rw [hlimited, hwider]
    exact fillText_cut_depth hl
  have hstring : ∀ path s, ((engine.setting limited).fillString path s).Cut (Failure.IsTooDeep limit)
      ((engine.setting wider).fillString path s) := by
    rw [hlimited, hwider]
    exact fillString_cut_depth hl
  have hformat : wider.format = limited.format := rfl
  have hconcurrent : wider.concurrent = limited.concurrent := rfl
  have hindent : engine.settings.indent = engine.settings.indent := rfl
  have hmax : (engine.setting limited).options.maxDepth = some limit := rfl
  refine ⟨?_, ?_, ?_, ?_⟩
  · intro hc content world
    exact generate_cut_cases hformat hindent (fun hf => ⟨hc hf, hc hf⟩) htext hstring content world
  · intro content world output houtput
    exact generate_cut hformat hindent hconcurrent htext hstring houtput
  · intro hpasses hf content token world ht hd
    unfold generate questions
    rw [hf]
    exact (fillText_refuses hmax hpasses ht hd).run world
  · intro hpasses hf hc content value before place s behind world values token hread hleaves hreached ht hd
    obtain ⟨failure, hfailure, hfill, hasked⟩ := fill_refuses hmax hc hpasses hleaves hreached ht hd
    refine ⟨failure, hfailure, ?_, ?_⟩
    · unfold generate generateDocument
      rw [hf]
      dsimp only
      rw [hread]
      dsimp only
      rw [hfill]
      rfl
    · unfold questions
      rw [hf]
      dsimp only
      rw [hread]
      exact hasked

/-! ## Strings that are refused, and one that is not looked at -/

/-- An array of a string that is counted and one that is counted twice. -/
def counted : Json :=
  .array [.string "\x7b\x7bcount:b\x7d\x7d", .string "\x7b\x7bcount:\x7b\x7bcount:a\x7d\x7d\x7d\x7d"]

/-- If tokens must not be nested, the first string is counted, and the second one is refused. -/
theorem generate_within_depth_counting :
    (∀ other, none = some other → 1 ≤ other) ∧
    (∃ failure, failure.TooDeep 1 (some [.index 1]) ∧
      (counting.generate { maxDepth := some 1 } (counted.print .compact) { state := 0 }).1 = .error failure) ∧
    (counting.questions { maxDepth := some 1 } (counted.print .compact) { state := 0 }).map (·.placeholder.action) =
      ["b"] := by
  have hlarger : ∀ other, none = some other → 1 ≤ other := by
    intro other hother
    cases hother
  have hread : Json.read (counted.print .compact) = .ok counted :=
    Json.read_print .compact ⟨trivial, trivial, trivial⟩
  have hleaves : counted.leaves [] = [([.index 0], "\x7b\x7bcount:b\x7d\x7d")] ++
      ([.index 1], "\x7b\x7bcount:\x7b\x7bcount:a\x7d\x7d\x7d\x7d") :: [] := rfl
  have hstring : (counting.setting { maxDepth := some 1 }).fillString [.index 0] "\x7b\x7bcount:b\x7d\x7d" = _ :=
    fillString_of_bracket _ _ "count:b".toList rfl (by decide) (by decide) (by decide)
  have hrun : ((counting.setting { maxDepth := some 1 }).fillString [.index 0] "\x7b\x7bcount:b\x7d\x7d").run
      { state := 0 } = (.ok (.number (.integer 0)), { state := 1 }) := by
    rw [hstring]
    rfl
  have hwalk : (counting.setting { maxDepth := some 1 }).walk [([.index 0], "\x7b\x7bcount:b\x7d\x7d")]
      { state := 0 } = _ := walk_cons_ok hrun
  have hreached : ((counting.setting { maxDepth := some 1 }).walk [([.index 0], "\x7b\x7bcount:b\x7d\x7d")]
      { state := 0 }).result = .ok [.number (.integer 0)] := by
    rw [hwalk]
    rfl
  have htoken : countTwice.render ∈ Token.tokens countTwice.render := by
    rw [tokens_countTwice]
    exact List.mem_cons_self
  obtain ⟨-, -, -, hrefuses⟩ := @generate_within_depth _ counting {} 1 none hlarger
  obtain ⟨failure, hfailure, herror, hasked⟩ :=
    hrefuses (by decide) rfl rfl _ _ _ _ _ _ _ _ _ hread hleaves hreached htoken (by decide)
  refine ⟨hlarger, ⟨failure, hfailure, herror⟩, ?_⟩
  rw [hasked, hwalk]
  unfold Walked.behind
  rw [hstring]
  rfl

/-- **Where no pass is made, a token is not looked at**, however deep it is, unless it is the whole string: such a
    document is not refused, but reproduced. -/
theorem generate_without_passes :
    echoTwice.toList ∈ Token.tokens echoTwice.toList ∧ 1 < Token.depth echoTwice.toList ∧
    Json.read "\"\x7b\x7becho:say:\x7b\x7becho:say:a\x7d\x7d\x7d\x7d\"".toList = .ok (.string echoTwice) ∧
    ((impatient.withPasses 0 false).generate { maxDepth := some 1 }
      "\"\x7b\x7becho:say:\x7b\x7becho:say:a\x7d\x7d\x7d\x7d\"".toList { state := () }).1 =
      .ok "\"\x7b\x7becho:say:\x7b\x7becho:say:a\x7d\x7d\x7d\x7d\"".toList := by
  have htoken : echoTwice.toList ∈ Token.tokens echoTwice.toList := by
    rw [tokens_echoTwice]
    exact List.mem_cons_self
  have hdistinct : (Json.string echoTwice).Distinct := trivial
  have hsteady : (impatient.withPasses 0 false).registry.Steady := steady_impatient
  have hsubstitute : (((impatient.withPasses 0 false).setting { maxDepth := some 1 }).substitute none
      echoTwice.toList).value? { state := () } = some { text := echoTwice.toList } := by
    rw [value?_substitute_of_lenient rfl]
    rfl
  have hfilled : ((impatient.withPasses 0 false).setting { maxDepth := some 1 }).filled? { state := () } echoTwice =
      some (.string echoTwice) := by
    rw [filled?, value?_fillString_of_not_isSingle hsteady [] _ isSingle_echoTwice, hsubstitute,
      Option.bind_some, if_pos (by decide), outcome?, isSingle_echoTwice, if_neg Bool.false_ne_true]
    rfl
  exact ⟨htoken, by decide, Json.read_print (.indented 2) hdistinct, generate_string rfl hsteady hfilled⟩

end Engine

end Template
