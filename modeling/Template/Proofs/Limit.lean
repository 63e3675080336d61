import Template.Proofs.Idempotence
import Template.Proofs.Questions

/-!
# `Template.Proofs.Limit` — texts that have not settled when the passes are used up

Substitution gives up after a number of passes. Whether that is a failure is a matter of the setting; without
it, the text that is left is the result. The failure is reported for exactly those texts that every pass has
changed, and in which a token is left (`fillText_unsettled_iff`, `fillString_unsettled_iff`).

That is not to say that the result is never final where it is no failure. The text that is left may be one that
another pass would leave as it is, or come back after as many passes again; and a string of a document that
passes for one token need not become the text at all, because the token that is left is asked for once more.
`generate_unsettled` says that there is nothing else, and `generate_unsettled_final` shows a document of the
last kind.

## Contents
- `Changing`, `Unfinished` — passes that all change a text, and a text that they leave with a token in it.
- `fillText_unsettled_iff`, `fillString_unsettled_iff` — when the failure is reported.
- `fillText_again_iff`, `eq_or_inserts_of_unfinished` — what comes of the text that is left.
- `generate_unsettled` — the same for templates.
-/

namespace Template

variable {σ : Type}

/-- A number of steps leads from one text to another, and each of them changes the text. -/
inductive Changing (step : List Char → Option (List Char)) : Nat → List Char → List Char → Prop where
  | none (text : List Char) : Changing step 0 text text
  | one {count : Nat} {text next last : List Char} (hs : step text = some next) (hne : next ≠ text)
      (h : Changing step count next last) : Changing step (count + 1) text last

namespace Setting

open Script Token

variable {setting : Setting σ} {world : World σ}

/-! ## Passes that change a text -/

/-- A text with tokens after a pass over it. -/
def passed? (setting : Setting σ) (world : World σ) (text : List Char) : Option (List Char) :=
  if Token.tokens text = [] then none
  else ((setting.pass none (Token.tokens text) text).value? world).map (·.text)

theorem passed?_eq_some_iff {text next : List Char} :
    setting.passed? world text = some next ↔
      Token.tokens text ≠ [] ∧ ∃ filled, (setting.pass none (Token.tokens text) text).value? world = some filled ∧
        filled.text = next := by
  unfold passed?
  split
  · rename_i hnone
    simp [hnone]
  · rename_i hsome
    simp [hsome]

/-- **The passes over a text end before it has settled exactly if each of them changes it.** -/
theorem passes_unsettled_iff (h : setting.registry.Steady) {path : Option Path} {limit : Nat}
    {current : Filled} {text : List Char} :
    (∃ single, (setting.passes path limit current).value? world = some ({ text, single }, false)) ↔
      Changing (setting.passed? world) limit current.text text := by
  induction limit generalizing current with
  | zero =>
    constructor
    · rintro ⟨single, hrun⟩
      cases hrun
      exact .none text
    · intro hc
      obtain ⟨start, single⟩ := current
      cases hc
      exact ⟨single, rfl⟩
  | succ limit ih =>
    by_cases ht : Token.tokens current.text = []
    · rw [value?_passes_of_no_tokens path _ ht]
      constructor
      · rintro ⟨single, hrun⟩
        cases hrun
      · intro hc
        cases hc with
        | one hs => exact absurd ht (passed?_eq_some_iff.mp hs).1
    · rw [value?_passes_succ h path limit ht, value?_pass_place h path none]
      constructor
      · rintro ⟨single, hrun⟩
        obtain ⟨next, hnext, hrun⟩ := Option.bind_eq_some_iff.mp hrun
        split at hrun
        · cases hrun
        · rename_i hne
          exact .one (passed?_eq_some_iff.mpr ⟨ht, next, hnext, rfl⟩) hne (ih.mp ⟨single, hrun⟩)
      · intro hc
        cases hc with
        | one hs hne hrest =>
          obtain ⟨-, next, hnext, rfl⟩ := passed?_eq_some_iff.mp hs
          obtain ⟨single, hrun⟩ := ih.mpr hrest
          refine ⟨single, ?_⟩
          rw [hnext, Option.bind_some, if_neg hne]
          exact hrun

/-- All passes have changed the text, and there is a token in what they leave. -/
structure Unfinished (setting : Setting σ) (world : World σ) (text last : List Char) : Prop where
  changing : Changing (setting.passed? world) setting.maxPasses.toNat text last
  left : Token.tokens last ≠ []

/-- What the passes come to, if they have not left the text unfinished. -/
theorem unfinished_iff_of_passes (h : setting.registry.Steady) {path : Option Path} {text : List Char}
    {result : Filled × Bool}
    (hp : (setting.passes path setting.maxPasses.toNat { text }).value? world = some result)
    {last : List Char} :
    setting.Unfinished world text last ↔
      result.2 = false ∧ result.1.text = last ∧ Token.tokens result.1.text ≠ [] := by
  have hiff : (∃ single, (setting.passes path setting.maxPasses.toNat { text }).value? world =
      some ({ text := last, single }, false)) ↔
        Changing (setting.passed? world) setting.maxPasses.toNat text last := passes_unsettled_iff h
  obtain ⟨⟨reached, single⟩, settled⟩ := result
  constructor
  · rintro ⟨hchanging, hleft⟩
    obtain ⟨single', hp'⟩ := hiff.mpr hchanging
    cases hp.symm.trans hp'
    exact ⟨rfl, rfl, hleft⟩
  · rintro ⟨rfl, rfl, hleft⟩
    exact ⟨hiff.mp ⟨single, hp⟩, hleft⟩

/-! ## When the failure is reported -/

/-- The failure is another one than that a text has not settled. -/
def Other (failure : Failure) : Prop :=
  ∀ shown most, failure ≠ .unsettled shown most

/-- Only the end of substitution fails because a text has not settled. -/
theorem other_unresolved {path : Option Path} (token : String) (cause : Cause) :
    Other (.unresolved token (path.map fun path => String.ofList path.format) cause) := by
  intro shown most he
  cases he

theorem resolve_ne_unsettled (path : Option Path) (token : List Char) (shown : String) (most : Int) :
    ((setting.resolve path token).run world).1 ≠ .error (.unsettled shown most) := by
  intro he
  have hother : (setting.resolve path token).FailsOnly Other := resolve_failsOnly (.plain other_unresolved) token
  rcases hrun : (setting.resolve path token).run world with ⟨result, after⟩
  rw [hrun] at he
  cases he
  exact hother.of_run hrun shown most rfl

theorem substitute_unsettled_iff (h : setting.registry.Steady) {path : Option Path} {text : List Char}
    {shown : String} {most : Int} :
    ((setting.substitute path text).run world).1 = .error (.unsettled shown most) ↔
      setting.strict = true ∧ most = setting.maxPasses ∧ setting.Unfinished world text shown.toList := by
  unfold substitute
  rw [run_bind]
  rcases hrun : (setting.passes path setting.maxPasses.toNat { text }).run world with
    ⟨failure | ⟨last, settled⟩, after⟩
  · -- the passes fail, and in another way
    have hother : Other failure := (passes_failsOnly (.plain other_unresolved) _ _).of_run hrun
    constructor
    · intro he
      exact absurd (Except.error.inj he) (hother shown most)
    · rintro ⟨-, -, hchanging, -⟩
      have hiff : (∃ single, (setting.passes path setting.maxPasses.toNat { text }).value? world =
          some ({ text := shown.toList, single }, false)) ↔ _ := passes_unsettled_iff h
      obtain ⟨single, hp⟩ := hiff.mpr hchanging
      rw [value?, hrun] at hp
      cases hp
  · have hp : (setting.passes path setting.maxPasses.toNat { text }).value? world = some (last, settled) := by
      rw [value?, hrun]
      rfl
    rw [unfinished_iff_of_passes h hp]
    dsimp only
    by_cases hdone : (settled || (Token.tokens last.text).isEmpty) = true
    · rw [if_pos hdone]
      constructor
      · intro he
        cases he
      · rintro ⟨-, -, rfl, -, hleft⟩
        rw [Bool.false_or, List.isEmpty_iff] at hdone
        exact absurd hdone hleft
    · rw [if_neg hdone]
      rw [Bool.or_eq_true, not_or, List.isEmpty_iff, Bool.not_eq_true] at hdone
      rw [run_note]
      cases hstrict : setting.strict with
      | false =>
        rw [if_neg Bool.false_ne_true]
        constructor
        · intro he
          cases he
        · rintro ⟨he, -⟩
          cases he
      | true =>
        rw [if_pos rfl]
        constructor
        · intro he
          cases he
          exact ⟨rfl, rfl, hdone.1, String.toList_ofList.symm, hdone.2⟩
        · rintro ⟨-, rfl, -, ht, -⟩
          rw [ht, String.ofList_toList]
          rfl

/-- **A text is reported exactly if it is left unfinished and that is a failure.** -/
theorem fillText_unsettled_iff (h : setting.registry.Steady) {text : List Char} {shown : String} {most : Int} :
    ((setting.fillText text).run world).1 = .error (.unsettled shown most) ↔
      setting.strict = true ∧ most = setting.maxPasses ∧ setting.Unfinished world text shown.toList := by
  rw [← substitute_unsettled_iff h]
  unfold fillText
  split
  · rename_i hnone
    -- without tokens there is nothing to report, neither way
    have hvalue : (setting.substitute none text).value? world = some { text } :=
      value?_substitute_of_no_tokens none hnone
    rw [value?_eq_some_iff.mp hvalue]
    constructor
    · intro he
      cases he
    · intro he
      cases he
  · rw [run_bind]
    rcases (setting.substitute none text).run world with ⟨failure | filled, after⟩
    · constructor
      · intro he
        cases he
        rfl
      · intro he
        cases he
        rfl
    · constructor
      · intro he
        cases he
      · intro he
        cases he

/-- **A string of a document is reported exactly if it is no single token, it is left unfinished, and that is a
    failure.** -/
theorem fillString_unsettled_iff (h : setting.registry.Steady) {path : Path} {s shown : String} {most : Int} :
    ((setting.fillString path s).run world).1 = .error (.unsettled shown most) ↔
      isSingle s.toList = false ∧ setting.strict = true ∧ most = setting.maxPasses ∧
        setting.Unfinished world s.toList shown.toList := by
  have hiff : ((setting.substitute (some path) s.toList).run world).1 = .error (.unsettled shown most) ↔ _ :=
    substitute_unsettled_iff h
  rw [← hiff]
  unfold fillString
  dsimp only
  by_cases hnone : Token.tokens s.toList = []
  · have hvalue : (setting.substitute (some path) s.toList).value? world = some { text := s.toList } :=
      value?_substitute_of_no_tokens (some path) hnone
    rw [hnone, List.isEmpty_nil, if_pos rfl, value?_eq_some_iff.mp hvalue]
    simp
  · have hsome : (Token.tokens s.toList).isEmpty = false := by
      rwa [List.isEmpty_eq_false_iff]
    rw [hsome, if_neg Bool.false_ne_true]
    cases hsingle : isSingle s.toList with
    | true =>
      -- a single token is resolved, which fails in another way
      rw [if_pos rfl]
      constructor
      · intro he
        exact absurd he (resolve_ne_unsettled _ _ _ _)
      · rintro ⟨hne, -⟩
        cases hne
    | false =>
      rw [if_neg Bool.false_ne_true, run_bind]
      rcases (setting.substitute (some path) s.toList).run world with ⟨failure | filled, after⟩
      · simp
      · -- and what comes after substitution does not fail in this way
        constructor
        · intro he
          dsimp only at he
          split at he
          · cases he
          · split at he
            · cases he
            · split at he
              · exact absurd he (resolve_ne_unsettled _ _ _ _)
              · cases he
        · rintro ⟨-, he⟩
          cases he

/-! ## What is left -/

section

variable (h : setting.registry.Steady) (hlenient : setting.strict = false)

include h hlenient

/-- Where it is no failure, substitution gives what is left. -/
theorem exists_substitute_of_unfinished {text last : List Char} (hu : setting.Unfinished world text last)
    (path : Option Path) :
    ∃ single, (setting.substitute path text).value? world = some { text := last, single } := by
  have hiff : (∃ single, (setting.passes path setting.maxPasses.toNat { text }).value? world =
      some ({ text := last, single }, false)) ↔ _ := passes_unsettled_iff h
  obtain ⟨single, hp⟩ := hiff.mpr hu.changing
  refine ⟨single, ?_⟩
  rw [value?_substitute_of_lenient hlenient, hp]
  rfl

theorem value?_fillText_of_unfinished {text last : List Char} (hu : setting.Unfinished world text last) :
    (setting.fillText text).value? world = some last := by
  obtain ⟨single, hs⟩ := exists_substitute_of_unfinished h hlenient hu none
  rw [value?_fillText_eq, hs]
  rfl

/-- **A text with tokens stays as it is exactly if a pass leaves it, or as many passes as there are lead back to
    it**, each of them changing it. -/
theorem fillText_again_iff (hpasses : 1 ≤ setting.maxPasses) {text : List Char} (ht : Token.tokens text ≠ []) :
    (setting.fillText text).value? world = some text ↔
      setting.passed? world text = some text ∨
        Changing (setting.passed? world) setting.maxPasses.toNat text text := by
  rw [value?_fillText_eq, value?_substitute_of_lenient hlenient, Option.map_map, Option.map_eq_some_iff]
  constructor
  · rintro ⟨⟨last, settled⟩, hp, hmade⟩
    have hlast : last.text = text := hmade
    cases settled with
    | true =>
      rcases settled_of_passes h (Nat.le_refl _) hp with hnone | ⟨-, hpass⟩
      · rw [hlast] at hnone
        exact absurd hnone ht
      · rw [hlast] at hpass
        exact .inl (passed?_eq_some_iff.mpr ⟨ht, last, hpass, hlast⟩)
    | false =>
      have hleft : Token.tokens last.text ≠ [] := by rwa [hlast]
      exact .inr ((unfinished_iff_of_passes h hp).mpr ⟨rfl, hlast, hleft⟩).changing
  · rintro (hstill | hback)
    · obtain ⟨limit, hlimit⟩ : ∃ limit, setting.maxPasses.toNat = limit + 1 :=
        ⟨setting.maxPasses.toNat - 1, by omega⟩
      obtain ⟨-, next, hnext, hsame⟩ := passed?_eq_some_iff.mp hstill
      have hstart : Token.tokens ({ text } : Filled).text ≠ [] := ht
      refine ⟨(next, true), ?_, hsame⟩
      rw [hlimit, value?_passes_succ h none limit hstart, hnext, Option.bind_some, if_pos hsame]
    · have hiff : (∃ single, (setting.passes none setting.maxPasses.toNat { text }).value? world =
          some ({ text, single }, false)) ↔ _ := passes_unsettled_iff h
      obtain ⟨single, hp⟩ := hiff.mpr hback
      exact ⟨_, hp, rfl⟩

/-- **A string that is left unfinished becomes what is left, or a value takes its place.** -/
theorem eq_or_inserts_of_unfinished {s shown : String} (hsingle : isSingle s.toList = false)
    (hu : setting.Unfinished world s.toList shown.toList) {own : Json}
    (hown : setting.filled? world s = some own) : own = .string shown ∨ setting.Inserts world s own := by
  obtain ⟨single, hs⟩ := exists_substitute_of_unfinished h hlenient hu none
  rw [filled?, value?_fillString_of_not_isSingle h [] s hsingle, hs, Option.bind_some] at hown
  cases htoken : isToken s.toList with
  | false =>
    rw [htoken, if_neg Bool.false_ne_true, String.ofList_toList] at hown
    exact .inl (Option.some.inj hown).symm
  | true =>
    rw [htoken, if_pos rfl, outcome?] at hown
    cases single with
    | some value =>
      cases hown
      exact .inr (.last hsingle htoken hs rfl)
    | none =>
      dsimp only at hown
      split at hown
      · rename_i hlast
        exact .inr (.final hsingle htoken hs rfl hlast hown)
      · rw [String.ofList_toList] at hown
        exact .inl (Option.some.inj hown).symm

end

/-! ## With and without the failure -/

/-- The same setting, in which it is a failure or not that a text has not settled. -/
def withStrict (setting : Setting σ) (strict : Bool) : Setting σ :=
  { setting with strict }

/-- A token does not look at that. -/
theorem sameTokens_withStrict (setting : Setting σ) (strict : Bool) :
    SameTokens setting (setting.withStrict strict) where
  checkDepth := rfl
  evaluate := rfl

theorem unfinished_withStrict_iff {strict : Bool} {text last : List Char} :
    (setting.withStrict strict).Unfinished world text last ↔ setting.Unfinished world text last := by
  have hpassed : (setting.withStrict strict).passed? world = setting.passed? world := by
    funext text
    unfold passed?
    rw [(sameTokens_withStrict setting strict).pass]
  constructor
  · rintro ⟨hchanging, hleft⟩
    exact ⟨hpassed ▸ hchanging, hleft⟩
  · rintro ⟨hchanging, hleft⟩
    exact ⟨hpassed.symm ▸ hchanging, hleft⟩

end Setting

namespace Engine

open Setting

/-- The same engine, in which it is a failure or not that a text has not settled. -/
def withStrict (engine : Engine σ) (strict : Bool) : Engine σ :=
  { engine with settings := { engine.settings with strict } }

variable {engine : Engine σ} {options : Options} {world : World σ}

/-! ## Templates -/

/-- A document that is reported is read, and filling it in is reported. -/
theorem exists_fill_of_generate_unsettled (hf : options.format = .json) {content : List Char}
    {shown : String} {most : Int}
    (h : (engine.generate options content world).1 = .error (.unsettled shown most)) :
    ∃ value, Json.read content = .ok value ∧
      ((engine.setting options).fill [] value world).1 = .error (.unsettled shown most) := by
  rw [generate, hf] at h
  dsimp only at h
  unfold generateDocument at h
  split at h
  · cases h
  · rename_i value hread
    refine ⟨value, hread, ?_⟩
    cases hfill : ((engine.setting options).fill [] value world).1 with
    | ok filled =>
      dsimp only at h
      rw [hfill] at h
      cases h
    | error failure =>
      dsimp only at h
      rw [hfill] at h
      cases h
      rfl

/-- If a filled-in document is reproduced when it is filled in again, all its strings stay as they are. -/
theorem allStrings_rests_of_again (hf : options.format = .json) (hs : engine.registry.Steady)
    (hp : engine.registry.Proper) {content output : List Char} {world' world'' : World σ}
    (h : (engine.generate options content world').1 = .ok output)
    (hagain : (engine.generate options output world'').1 = .ok output) :
    ∃ value, Json.read content = .ok value ∧
      (∃ filled, value.fillWith ((engine.setting options).filled? world) = some filled) ∧
      value.AllStrings ((engine.setting options).RestsAfter world) := by
  obtain ⟨value, filled, hread, hwith, rfl⟩ := (generate_document_ok_iff hf hs world').mp h
  have hvalues : ∀ s own, (engine.setting options).filled? world s = some own → own.Distinct :=
    fun s own => distinct_filled? hp
  have hdistinct := Json.distinct_fillWith hvalues value (Json.distinct_of_read hread) hwith
  obtain ⟨again, final, hread', hwith', hprint⟩ := (generate_document_ok_iff hf hs world'').mp hagain
  -- the result is read as what was printed, and what is printed again is the same
  cases (Json.read_print _ hdistinct).symm.trans hread'
  cases Json.print_injective (Json.distinct_fillWith hvalues _ hdistinct hwith') hdistinct hprint
  exact ⟨value, hread, ⟨_, hwith⟩,
    (Json.allStrings_fillWith value hwith).mp ((Json.fillWith_eq_self_iff _).mp hwith')⟩

/-- A string of a document that is left unfinished where that is no failure: if what the document becomes stays
    as it is, so does what is left, or a value whose strings all do has taken the place of the string. -/
theorem rests_or_inserts_of_again (hf : options.format = .json) (hs : engine.registry.Steady)
    (hp : engine.registry.Proper) (hlenient : (engine.setting options).strict = false)
    {content output : List Char} {value : Json} {place : Path} {s shown : String}
    (hread : Json.read content = .ok value) (hleaf : (place, s) ∈ value.leaves [])
    (hsingle : Token.isSingle s.toList = false)
    (hu : (engine.setting options).Unfinished world s.toList shown.toList) {world' world'' : World σ}
    (h : (engine.generate options content world').1 = .ok output)
    (hagain : (engine.generate options output world'').1 = .ok output) :
    (engine.setting options).Rests world shown ∨
      ∃ own, (engine.setting options).Inserts world s own ∧
        own.AllStrings ((engine.setting options).Rests world) := by
  have hsetting : (engine.setting options).registry.Steady := hs
  obtain ⟨other, hother, hexists, hrests⟩ : ∃ other, Json.read content = .ok other ∧
      (∃ filled, other.fillWith ((engine.setting options).filled? world) = some filled) ∧
      other.AllStrings ((engine.setting options).RestsAfter world) :=
    allStrings_rests_of_again hf hs hp h hagain
  cases hread.symm.trans hother
  have hstrings := (Json.exists_fillWith_iff value).mp hexists
  obtain ⟨own, hown⟩ := (Json.allStrings_iff [] value).mp hstrings (place, s) hleaf
  have hafter : (engine.setting options).RestsAfter world s :=
    (Json.allStrings_iff [] value).mp hrests (place, s) hleaf
  have hstay : own.AllStrings ((engine.setting options).Rests world) := hafter own hown
  rcases eq_or_inserts_of_unfinished hsetting hlenient hsingle hu hown with rfl | hinserts
  · exact .inl hstay
  · exact .inr ⟨own, hinserts, hstay⟩

/-- **A template is reported for a text that every pass has changed and that is unfinished.** Where it is no
    failure, a text becomes what is left, and that stays as it is exactly if a pass leaves it, or as many passes
    again lead back to it. A document may fail for another string; otherwise what it becomes does not stay as it
    is, unless what is left does by itself, or a value whose strings all stay has taken the place of the string. -/
theorem generate_unsettled (hs : engine.registry.Steady) (hp : engine.registry.Proper)
    (hpasses : 1 ≤ engine.settings.maxPasses) {content : List Char} {shown : String} {most : Int}
    (h : ((engine.withStrict true).generate options content world).1 = .error (.unsettled shown most)) :
    let lenient := engine.withStrict false
    let setting := lenient.setting options
    most = engine.settings.maxPasses ∧
    ((options.format = .text ∧ setting.Unfinished world content shown.toList ∧
        (∀ world', (lenient.generate options content world').1 = .ok shown.toList) ∧
        ∀ world', (lenient.generate options shown.toList world').1 = .ok shown.toList ↔
          setting.passed? world shown.toList = some shown.toList ∨
            Changing (setting.passed? world) setting.maxPasses.toNat shown.toList shown.toList) ∨
      (options.format = .json ∧ ∃ value place s, Json.read content = .ok value ∧
        (place, s) ∈ value.leaves [] ∧ setting.Unfinished world s.toList shown.toList ∧
        ∀ world' world'' output, (lenient.generate options content world').1 = .ok output →
          (lenient.generate options output world'').1 = .ok output →
          setting.Rests world shown ∨
            ∃ own, setting.Inserts world s own ∧ own.AllStrings (setting.Rests world))) := by
  intro lenient setting
  have hsetting : setting.withStrict true = (engine.withStrict true).setting options := rfl
  have hlenient : setting.strict = false := rfl
  have hsteady : lenient.registry.Steady := hs
  have hproper : lenient.registry.Proper := hp
  have hstrict : (setting.withStrict true).registry.Steady := hs
  cases hf : options.format with
  | text =>
    rw [generate, hf] at h
    dsimp only at h
    rw [← hsetting] at h
    obtain ⟨-, rfl, hu⟩ := (fillText_unsettled_iff hstrict).mp h
    have hu : setting.Unfinished world content shown.toList := unfinished_withStrict_iff.mp hu
    have hgenerate : ∀ text world', (lenient.generate options text world').1 = .ok shown.toList ↔
        (setting.fillText text).value? world = some shown.toList :=
      fun text world' => generate_text_ok_iff hf hsteady world'
    refine ⟨rfl, .inl ⟨rfl, hu, ?_, ?_⟩⟩
    · intro world'
      exact (hgenerate content world').mpr (value?_fillText_of_unfinished hsteady hlenient hu)
    · intro world'
      rw [hgenerate]
      exact fillText_again_iff hsteady hlenient hpasses hu.left
  | json =>
    obtain ⟨value, hread, hfill⟩ := exists_fill_of_generate_unsettled hf h
    rw [← hsetting] at hfill
    obtain ⟨⟨place, s⟩, hleaf, hfails⟩ := exists_leaf_of_fill_error hstrict hfill
    obtain ⟨hsingle, -, rfl, hu⟩ := (fillString_unsettled_iff hstrict).mp (hfails world)
    have hu : setting.Unfinished world s.toList shown.toList := unfinished_withStrict_iff.mp hu
    refine ⟨rfl, .inr ⟨rfl, value, place, s, hread, hleaf, hu, ?_⟩⟩
    intro world' world'' output hrun hagain
    exact rests_or_inserts_of_again hf hsteady hproper hlenient hread hleaf hsingle hu hrun hagain
  | xml =>
    rw [generate, hf] at h
    cases h

/-! ## A document that is reported, and final -/

/-- An engine that echoes, and makes a single pass. -/
def impatient : Engine Unit where
  settings := { maxPasses := 1 }
  registry := { plugins := [.echo] }

theorem steady_impatient : impatient.registry.Steady :=
  steady_echoing

theorem proper_impatient : impatient.registry.Proper := by
  constructor
  · intro plugin h
    rw [List.mem_singleton.mp h]
    rintro placeholder context state value ⟨⟩
    trivial
  · intro transform h
    exact absurd h List.not_mem_nil

/-- A token that asks for an echo of an echo. -/
def echoTwice : String :=
  "\x7b\x7becho:say:\x7b\x7becho:say:a\x7d\x7d\x7d\x7d"

/-- A token that asks for an echo. -/
def echoOnce : String :=
  "\x7b\x7becho:say:a\x7d\x7d"

theorem tokens_echoTwice : Token.tokens echoTwice.toList = [echoTwice.toList, echoOnce.toList] := by
  have hw : (saying (saying (.text "a".toList .empty))).WellFormed := by
    exact ⟨⟨by decide, ⟨by decide, by decide, trivial⟩, trivial⟩, trivial⟩
  have hrender : (saying (saying (.text "a".toList .empty))).render = echoTwice.toList := by decide
  rw [← hrender, Token.tokens, Token.Content.occurrences_render hw]
  decide

theorem isSingle_echoOnce : Token.isSingle echoOnce.toList = true :=
  (isSingle_bracket (by decide) (by decide) (by decide) :
    Token.isSingle (Token.bracket "echo:say:a".toList) = true)

/-- There are two tokens in it, one in the other. -/
theorem isSingle_echoTwice : Token.isSingle echoTwice.toList = false := by
  rw [Token.isSingle, tokens_echoTwice]
  decide

theorem tokens_echoOnce : Token.tokens echoOnce.toList = [echoOnce.toList] := by
  have hw : (saying (.text "a".toList .empty)).WellFormed := ⟨⟨by decide, by decide, trivial⟩, trivial⟩
  have hrender : (saying (.text "a".toList .empty)).render = echoOnce.toList := by decide
  rw [← hrender, Token.tokens, Token.Content.occurrences_render hw]
  decide

section

variable (strict : Bool) (format : Format)

theorem passed?_echoTwice :
    ((impatient.withStrict strict).setting { format }).passed? { state := () } echoTwice.toList = some echoOnce.toList := by
  rw [passed?, tokens_echoTwice]
  rfl

theorem passed?_echoOnce :
    ((impatient.withStrict strict).setting { format }).passed? { state := () } echoOnce.toList = some "a".toList := by
  rw [passed?, tokens_echoOnce]
  rfl

theorem unfinished_echoTwice :
    ((impatient.withStrict strict).setting { format }).Unfinished { state := () } echoTwice.toList echoOnce.toList where
  changing := .one (passed?_echoTwice strict format) (by decide) (.none _)
  left := tokens_of_isSingle isSingle_echoOnce

end

/-- What is left is the echo, and it is asked for once more. -/
theorem filled?_echoTwice :
    ((impatient.withStrict false).setting {}).filled? { state := () } echoTwice = some (.string "a") := by
  have htokens : Token.tokens echoTwice.toList ≠ [] := by
    rw [tokens_echoTwice]
    exact List.cons_ne_nil _ _
  have hpass : (((impatient.withStrict false).setting {}).pass none (Token.tokens echoTwice.toList)
      echoTwice.toList).value? { state := () } = some { text := echoOnce.toList } := by
    rw [tokens_echoTwice]
    rfl
  have hpasses : (((impatient.withStrict false).setting {}).passes none 1 { text := echoTwice.toList }).value?
      { state := () } = some ({ text := echoOnce.toList }, false) := by
    rw [value?_passes_succ steady_impatient none 0 htokens, hpass]
    rfl
  have hsubstitute : (((impatient.withStrict false).setting {}).substitute none echoTwice.toList).value?
      { state := () } = some { text := echoOnce.toList } := by
    rw [value?_substitute_of_lenient rfl]
    exact congrArg (Option.map (·.1)) hpasses
  rw [filled?, value?_fillString_of_not_isSingle steady_impatient [] _ isSingle_echoTwice, hsubstitute,
    Option.bind_some, if_pos (by decide), outcome?, isSingle_echoOnce, if_pos rfl]
  rfl

/-- **A document that is reported although it would be final.** The pass that there is leaves a token by itself,
    which is reported where it is a failure, and asked for once more where it is none. -/
theorem generate_unsettled_final :
    impatient.registry.Steady ∧ impatient.registry.Proper ∧
    ((impatient.withStrict true).generate {}
      "\"\x7b\x7becho:say:\x7b\x7becho:say:a\x7d\x7d\x7d\x7d\"".toList { state := () }).1 =
      .error (.unsettled echoOnce 1) ∧
    ((impatient.withStrict false).generate {}
      "\"\x7b\x7becho:say:\x7b\x7becho:say:a\x7d\x7d\x7d\x7d\"".toList { state := () }).1 =
      .ok "\"a\"".toList ∧
    ((impatient.withStrict false).generate {} "\"a\"".toList { state := () }).1 = .ok "\"a\"".toList := by
  have hdistinct : (Json.string echoTwice).Distinct := trivial
  have hread : Json.read "\"\x7b\x7becho:say:\x7b\x7becho:say:a\x7d\x7d\x7d\x7d\"".toList =
      .ok (.string echoTwice) := Json.read_print (.indented 2) hdistinct
  have hrests : ((impatient.withStrict false).setting {}).filled? { state := () } "a" = some (.string "a") :=
    rests_of_no_tokens steady_impatient (Token.Content.tokens_of_braceless (by decide))
  refine ⟨steady_impatient, proper_impatient, ?_, generate_string rfl steady_impatient filled?_echoTwice,
    generate_string rfl steady_impatient hrests⟩
  have hreported : ((((impatient.withStrict true).setting {}).fillString [] echoTwice).run
      { state := () }).1 = .error (.unsettled echoOnce 1) :=
    (fillString_unsettled_iff steady_impatient).mpr
      ⟨isSingle_echoTwice, rfl, rfl, unfinished_echoTwice true .json⟩
  have hfill : (((impatient.withStrict true).setting {}).fill [] (.string echoTwice) { state := () }).1 =
      .error (.unsettled echoOnce 1) := hreported
  rw [generate]
  dsimp only
  rw [generateDocument, hread]
  dsimp only
  rw [hfill]
  rfl

/-- A text is reported, and what is left of it is not final: another pass leads on. -/
theorem generate_unsettled_echo :
    ((impatient.withStrict true).generate { format := .text } echoTwice.toList { state := () }).1 =
      .error (.unsettled echoOnce 1) ∧
    ((impatient.withStrict false).generate { format := .text } echoTwice.toList { state := () }).1 =
      .ok echoOnce.toList ∧
    ((impatient.withStrict false).generate { format := .text } echoOnce.toList { state := () }).1 ≠
      .ok echoOnce.toList := by
  have hreported : ((impatient.withStrict true).generate { format := .text } echoTwice.toList
      { state := () }).1 = .error (.unsettled echoOnce 1) :=
    (fillText_unsettled_iff steady_impatient).mpr ⟨rfl, rfl, unfinished_echoTwice true .text⟩
  obtain ⟨-, ⟨-, -, hleft, hagain⟩ | ⟨hformat, -⟩⟩ :=
    generate_unsettled steady_impatient proper_impatient (by decide) hreported
  · refine ⟨hreported, hleft _, fun hsame => ?_⟩
    have hnext : ((impatient.withStrict false).setting { format := .text }).passed? { state := () }
        echoOnce.toList = some "a".toList := passed?_echoOnce false .text
    rcases (hagain _).mp hsame with hstill | hback
    · exact absurd (hnext.symm.trans hstill) (by decide)
    · -- the only pass would have to lead back
      cases hback with
      | one hs hne hrest =>
        cases hrest
        exact hne rfl
  · cases hformat

end Engine

end Template
