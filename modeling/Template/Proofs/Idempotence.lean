import Template.Engine
import Template.Proofs.Filling
import Template.Proofs.Given
import Template.Proofs.Interpolation

/-!
# `Template.Proofs.Idempotence` — filled-in documents filled in again

When a document has been filled in and the result is filled in once more, text that came from replacing tokens
stays as it is: its replacement has settled. A value that took the place of a whole string, however, is put
there as it is, and nobody looks for tokens in its strings; and text that has settled may be a token by itself,
which is asked for as such the next time. `generate_again` says that nothing else can change the second time.

## Contents
- `settled_of_substitute` — text whose replacement has settled is a fixed point of a pass.
- `Rests` — strings that stay as they are, and `rests_of_settled`.
- `Inserts`, `Keeps` — values that take the place of a string, and strings whose results all stay.
- `distinct_filled?` — what a string becomes is the value of a document.
- `generate_again`, `generate_again_differs` — when a result is reproduced, and a document where it is not.
-/

namespace Template

variable {σ : Type}

namespace Setting

open Script Token

variable {setting : Setting σ} {world : World σ}

/-! ## Settled text -/

/-- A pass that finds several tokens keeps no value. -/
theorem single_of_pass (h : setting.registry.Steady) {path : Option Path} {found : List (List Char)}
    (hl : found.length ≠ 1) {text : List Char} {next : Filled}
    (hn : (setting.pass path found text).value? world = some next) : next.single = none := by
  rw [value?_pass h, Option.bind_eq_some_iff] at hn
  obtain ⟨-, -, hn⟩ := hn
  exact single_of_replaceTokens hl (Prod.ext (value?_eq_some_iff.mp hn) rfl)

/-- The text has no tokens, or a pass over it changes nothing. -/
def Settled (setting : Setting σ) (world : World σ) (filled : Filled) : Prop :=
  Token.tokens filled.text = [] ∨
    (0 < setting.maxPasses.toNat ∧
      (setting.pass none (Token.tokens filled.text) filled.text).value? world = some filled)

theorem settled_of_passes (h : setting.registry.Steady) {limit : Nat} (hl : limit ≤ setting.maxPasses.toNat)
    {current last : Filled}
    (hp : (setting.passes none limit current).value? world = some (last, true)) :
    setting.Settled world last := by
  induction limit generalizing current with
  | zero => cases hp
  | succ limit ih =>
    by_cases ht : Token.tokens current.text = []
    · rw [value?_passes_of_no_tokens none _ ht] at hp
      cases hp
      exact .inl ht
    · rw [value?_passes_succ h none limit ht, Option.bind_eq_some_iff] at hp
      obtain ⟨next, hnext, hp⟩ := hp
      split at hp
      · -- the pass that ended the loop left the text as it was, so it would do so again
        rename_i hsame
        cases hp
        refine .inr ⟨Nat.lt_of_lt_of_le (Nat.succ_pos limit) hl, ?_⟩
        rwa [hsame]
      · exact ih (Nat.le_of_succ_le hl) hp

/-- **Text whose tokens are replaced has settled**, if it is a failure that it has not. -/
theorem settled_of_substitute (h : setting.registry.Steady) (hstrict : setting.strict = true)
    {text : List Char} {filled : Filled}
    (hs : (setting.substitute none text).value? world = some filled) : setting.Settled world filled := by
  rw [value?_substitute, Option.bind_eq_some_iff] at hs
  obtain ⟨⟨last, settled⟩, hp, hs⟩ := hs
  rw [if_pos hstrict] at hs
  split at hs
  · rename_i hdone
    cases hs
    rcases Bool.or_eq_true _ _ ▸ hdone with rfl | hempty
    · exact settled_of_passes h (Nat.le_refl _) hp
    · exact .inl (List.isEmpty_iff.mp hempty)
  · cases hs

/-- Replacing tokens in settled text changes nothing. -/
theorem Settled.substitute {filled : Filled} (hs : setting.Settled world filled)
    (h : setting.registry.Steady) (ht : Token.tokens filled.text ≠ []) :
    (setting.substitute none filled.text).value? world = some filled := by
  rcases hs with hnil | ⟨hpos, hpass⟩
  · exact absurd hnil ht
  · obtain ⟨limit, hlimit⟩ := Nat.exists_eq_succ_of_ne_zero (Nat.ne_of_gt hpos)
    have hstart : Token.tokens ({ text := filled.text } : Filled).text ≠ [] := ht
    rw [value?_substitute, hlimit, value?_passes_succ h none limit hstart, hpass, Option.bind_some,
      if_pos rfl]
    rfl

/-! ## Strings that stay as they are -/

/-- The string stays as it is when the document is filled in. -/
def Rests (setting : Setting σ) (world : World σ) (s : String) : Prop :=
  setting.filled? world s = some (.string s)

theorem rests_of_no_tokens (h : setting.registry.Steady) {s : String} (ht : Token.tokens s.toList = []) :
    setting.Rests world s := by
  rw [Rests, filled?, value?_fillString h, ht, List.isEmpty_nil, if_pos rfl]

/-- A token by itself stays as it is if it is its own value. -/
theorem rests_iff_of_isSingle (h : setting.registry.Steady) {s : String} (hs : isSingle s.toList = true) :
    setting.Rests world s ↔ setting.answer? world s.toList = some (.string s) := by
  rw [Rests, filled?, value?_fillString_of_isSingle h [] s hs]

/-- **Settled text stays as it is**, unless it is a token by itself. -/
theorem rests_of_settled (h : setting.registry.Steady) {filled : Filled} (hf : setting.Settled world filled)
    (hs : isSingle filled.text = false) : setting.Rests world (String.ofList filled.text) := by
  have htext : (String.ofList filled.text).toList = filled.text := String.toList_ofList
  by_cases ht : Token.tokens filled.text = []
  · exact rests_of_no_tokens h (by rwa [htext])
  · rw [Rests, filled?, value?_fillString_of_not_isSingle h _ _ (by rwa [htext]), htext,
      hf.substitute h ht, Option.bind_some]
    split
    · -- it passes for a token without being one, so there are several in it, and no pass keeps a value
      rename_i htoken
      have hlength : (Token.tokens filled.text).length ≠ 1 := by
        intro hone
        rw [isSingle, htoken, hone] at hs
        cases hs
      have hsingle : filled.single = none := by
        rcases hf with hnil | ⟨-, hpass⟩
        · exact absurd hnil ht
        · exact single_of_pass h hlength hpass
      exact outcome?_of_not_isSingle hsingle hs
    · rfl

/-! ## Values that take the place of strings -/

/-- The value takes the place of the string as it is. -/
inductive Inserts (setting : Setting σ) (world : World σ) (s : String) : Json → Prop where
  /-- The string is a token. -/
  | token {value : Json} (hs : isSingle s.toList = true)
      (hv : setting.answer? world s.toList = some value) : Inserts setting world s value
  /-- The string passes for a token, and in the last pass it was one. -/
  | last {filled : Filled} {value : Json} (hs : isSingle s.toList = false) (ht : isToken s.toList = true)
      (hf : (setting.substitute none s.toList).value? world = some filled) (hv : filled.single = some value) :
      Inserts setting world s value
  /-- The string passes for a token, and what it has become is one. -/
  | final {filled : Filled} {value : Json} (hs : isSingle s.toList = false) (ht : isToken s.toList = true)
      (hf : (setting.substitute none s.toList).value? world = some filled) (hn : filled.single = none)
      (hfs : isSingle filled.text = true) (hv : setting.answer? world filled.text = some value) :
      Inserts setting world s value

/-- Whatever the string becomes stays as it is. -/
structure Keeps (setting : Setting σ) (world : World σ) (s : String) : Prop where
  /-- All strings stay of a value that takes the place of the string. -/
  inserted : ∀ value, setting.Inserts world s value → value.AllStrings (setting.Rests world)
  /-- Text stays that has become a token by itself. -/
  left : ∀ filled, isToken s.toList = false →
    (setting.substitute none s.toList).value? world = some filled → isSingle filled.text = true →
    setting.answer? world filled.text = some (.string (String.ofList filled.text))

/-- All that the string may become stays as it is. -/
def RestsAfter (setting : Setting σ) (world : World σ) (s : String) : Prop :=
  ∀ own, setting.filled? world s = some own → own.AllStrings (setting.Rests world)

theorem keeps_iff_of_isSingle (h : setting.registry.Steady) {s : String} (hs : isSingle s.toList = true) :
    setting.Keeps world s ↔ setting.RestsAfter world s := by
  have hfilled : setting.filled? world s = setting.answer? world s.toList :=
    value?_fillString_of_isSingle h [] s hs
  rw [RestsAfter, hfilled]
  constructor
  · exact fun hk own hown => hk.inserted own (.token hs hown)
  · intro hall
    refine ⟨?_, ?_⟩
    · intro value hi
      cases hi with
      | token _ hv => exact hall value hv
      | last hs' => cases hs.symm.trans hs'
      | final hs' => cases hs.symm.trans hs'
    · intro filled ht
      rw [isToken_of_isSingle hs] at ht
      cases ht

/-- A string that passes for a token without being one. -/
theorem keeps_iff_of_isToken (h : setting.registry.Steady) (hstrict : setting.strict = true) {s : String}
    (hs : isSingle s.toList = false) (ht : isToken s.toList = true) :
    setting.Keeps world s ↔ setting.RestsAfter world s := by
  have hfilled : ∀ own, setting.filled? world s = some own ↔
      ∃ filled, (setting.substitute none s.toList).value? world = some filled ∧
        setting.outcome? world filled = some own := by
    intro own
    rw [filled?, value?_fillString_of_not_isSingle h [] s hs, Option.bind_eq_some_iff, ht]
    rfl
  simp only [RestsAfter, hfilled]
  constructor
  · -- it becomes the value of the last pass, the value of the token that is left, or the text that is left
    rintro hk own ⟨filled, hf, hown⟩
    cases hn : filled.single with
    | some value =>
      rw [outcome?, hn] at hown
      exact hk.inserted own (.last hs ht hf (hn.trans hown))
    | none =>
      cases hfs : isSingle filled.text with
      | true =>
        rw [outcome?, hn, hfs] at hown
        exact hk.inserted own (.final hs ht hf hn hfs hown)
      | false =>
        rw [outcome?_of_not_isSingle hn hfs] at hown
        cases hown
        exact rests_of_settled h (settled_of_substitute h hstrict hf) hfs
  · intro hall
    refine ⟨?_, ?_⟩
    · intro value hi
      cases hi with
      | token hs' => cases hs.symm.trans hs'
      | last _ _ hf hv =>
        apply hall value
        refine ⟨_, hf, ?_⟩
        rw [outcome?, hv]
      | final _ _ hf hn hfs hv =>
        apply hall value
        refine ⟨_, hf, ?_⟩
        rw [outcome?, hn, hfs]
        exact hv
    · intro filled hn
      cases ht.symm.trans hn

/-- A string that stays a text. -/
theorem keeps_iff_of_not_isToken (h : setting.registry.Steady) (hstrict : setting.strict = true) {s : String}
    (ht : isToken s.toList = false) : setting.Keeps world s ↔ setting.RestsAfter world s := by
  have hs : isSingle s.toList = false := by
    rw [isSingle, ht]
    rfl
  have hfilled : ∀ own, setting.filled? world s = some own ↔
      ∃ filled, (setting.substitute none s.toList).value? world = some filled ∧
        some (.string (String.ofList filled.text)) = some own := by
    intro own
    rw [filled?, value?_fillString_of_not_isSingle h [] s hs, Option.bind_eq_some_iff, ht]
    rfl
  -- text that has become a token stays exactly if that is its own value
  have hrests : ∀ {filled : Filled}, isSingle filled.text = true →
      (setting.Rests world (String.ofList filled.text) ↔
        setting.answer? world filled.text = some (.string (String.ofList filled.text))) := by
    intro filled hfs
    rw [rests_iff_of_isSingle h (by rwa [String.toList_ofList]), String.toList_ofList]
  simp only [RestsAfter, hfilled]
  constructor
  · rintro hk own ⟨filled, hf, hown⟩
    cases hown
    cases hfs : isSingle filled.text with
    | true => exact (hrests hfs).mpr (hk.left filled ht hf hfs)
    | false => exact rests_of_settled h (settled_of_substitute h hstrict hf) hfs
  · intro hall
    refine ⟨?_, ?_⟩
    · intro value hi
      cases hi with
      | token hs' => cases hs.symm.trans hs'
      | last _ ht' => cases ht.symm.trans ht'
      | final _ ht' => cases ht.symm.trans ht'
    · intro filled _ hf hfs
      exact (hrests hfs).mp (hall _ ⟨filled, hf, rfl⟩)

/-- **What a string becomes stays as it is exactly if the string keeps it**: text that was replaced does so by
    itself. -/
theorem keeps_iff (h : setting.registry.Steady) (hstrict : setting.strict = true) (s : String) :
    setting.Keeps world s ↔ setting.RestsAfter world s := by
  cases ht : isToken s.toList with
  | false => exact keeps_iff_of_not_isToken h hstrict ht
  | true =>
    cases hs : isSingle s.toList with
    | true => exact keeps_iff_of_isSingle h hs
    | false => exact keeps_iff_of_isToken h hstrict hs ht

/-! ## Values of documents -/

/-- **What a string becomes is the value of a document.** -/
theorem distinct_filled? (hp : setting.registry.Proper) {s : String} {own : Json}
    (ho : setting.filled? world s = some own) : own.Distinct :=
  (fillString_gives hp [] s).of_run (value?_eq_some_iff.mp ho)

end Setting

namespace Engine

open Json Setting

variable {engine : Engine σ} {options : Options}

/-! ## Documents filled in again -/

theorem generate_ok_iff (hf : options.format = .json) {content output : List Char} {world : World σ} :
    (engine.generate options content world).1 = .ok output ↔
      ∃ value filled, Json.read content = .ok value ∧
        ((engine.setting options).fill [] value world).1 = .ok filled ∧
        filled.print (.indented engine.settings.indent.toNat) = output := by
  have hgenerate : engine.generate options content world =
      engine.generateDocument options content world := by
    rw [generate, hf]
  rw [hgenerate]
  unfold generateDocument
  constructor
  · intro h
    split at h
    · cases h
    · rename_i value hread
      obtain ⟨filled, hfill, hprint⟩ := exists_of_map_eq_ok h
      exact ⟨value, filled, hread, hfill, hprint⟩
  · rintro ⟨value, filled, hread, hfill, rfl⟩
    rw [hread]
    show ((engine.setting options).fill [] value world).1.map _ = _
    rw [hfill]
    rfl

/-- A text is filled in as a text. -/
theorem generate_text_ok_iff (hf : options.format = .text) (hs : engine.registry.Steady)
    {template output : List Char} {world : World σ} (world' : World σ) :
    (engine.generate options template world').1 = .ok output ↔
      ((engine.setting options).fillText template).value? world = some output := by
  rw [generate, hf, (fillText_steady hs template).value?_eq world world', Script.value?_eq_some_iff]

/-- A document is filled in string by string, in every world in the same way. -/
theorem generate_document_ok_iff (hf : options.format = .json) (hs : engine.registry.Steady)
    {template output : List Char} {world : World σ} (world' : World σ) :
    (engine.generate options template world').1 = .ok output ↔
      ∃ value final, Json.read template = .ok value ∧
        value.fillWith ((engine.setting options).filled? world) = some final ∧
        final.print (.indented engine.settings.indent.toNat) = output := by
  have hsame : (engine.setting options).filled? world' = (engine.setting options).filled? world :=
    funext fun s => (fillString_steady hs [] s).value?_eq world' world
  have hfill : ∀ value final, ((engine.setting options).fill [] value world').1 = .ok final ↔
      value.fillWith ((engine.setting options).filled? world) = some final := by
    intro value final
    rw [fill_eq_ok_iff hs, hsame]
  simp only [generate_ok_iff hf, hfill]

/-- **A filled-in document is reproduced when it is filled in again, exactly if all its strings keep what they
    have become**: text in which tokens were replaced stays as it is, unless it is a token by itself, and so do
    values that took the place of a string, unless there are strings in them that are filled in themselves. -/
theorem generate_again (hf : options.format = .json) (hs : engine.registry.Steady)
    (hp : engine.registry.Proper) (hstrict : engine.settings.strict = true) {content output : List Char}
    {world : World σ} (h : (engine.generate options content world).1 = .ok output) (world' : World σ) :
    ∃ value, Json.read content = .ok value ∧
      ((engine.generate options output world').1 = .ok output ↔
        value.AllStrings ((engine.setting options).Keeps world)) := by
  obtain ⟨value, filled, hread, hfill, rfl⟩ := (generate_ok_iff hf).mp h
  refine ⟨value, hread, ?_⟩
  have hvalues : ∀ s own, (engine.setting options).filled? world s = some own → own.Distinct :=
    fun s own => distinct_filled? hp
  have hsame : (engine.setting options).filled? world' = (engine.setting options).filled? world :=
    funext fun s => (fillString_steady hs [] s).value?_eq world' world
  have hwith := (fill_eq_ok_iff hs [] value world).mp hfill
  have hdistinct := distinct_fillWith hvalues value (distinct_of_read hread) hwith
  calc (engine.generate options (filled.print _) world').1 = .ok (filled.print _)
      ↔ filled.fillWith ((engine.setting options).filled? world) = some filled := by
        rw [generate_ok_iff hf]
        constructor
        · -- what is read again is the result of the first run, and the same text is the same document
          rintro ⟨again, other, hagain, hother, hprint⟩
          cases (read_print _ hdistinct).symm.trans hagain
          rw [fill_eq_ok_iff hs, hsame] at hother
          rwa [print_injective (distinct_fillWith hvalues _ hdistinct hother) hdistinct hprint] at hother
        · intro hself
          refine ⟨filled, filled, read_print _ hdistinct, ?_, rfl⟩
          rwa [fill_eq_ok_iff hs, hsame]
    _ ↔ filled.AllStrings ((engine.setting options).Rests world) := fillWith_eq_self_iff filled
    _ ↔ value.AllStrings ((engine.setting options).RestsAfter world) := allStrings_fillWith value hwith
    _ ↔ value.AllStrings ((engine.setting options).Keeps world) := by
        rw [show (engine.setting options).Keeps world = (engine.setting options).RestsAfter world from
          funext fun s => propext (keeps_iff hs hstrict s)]

/-! ## A document that is not reproduced -/

/-- A document that is a single string. -/
theorem generate_string (hf : options.format = .json) (hs : engine.registry.Steady) {s t : String}
    {world : World σ} (h : (engine.setting options).filled? world s = some (.string t)) :
    (engine.generate options ((Json.string s).print (.indented engine.settings.indent.toNat)) world).1 =
      .ok ((Json.string t).print (.indented engine.settings.indent.toNat)) := by
  rw [generate_ok_iff hf]
  exact ⟨.string s, .string t, read_print _ trivial, (fill_eq_ok_iff hs [] _ world).mpr h, rfl⟩

end Engine

/-- The plugin that answers with a token, which asks for an echo. -/
def Plugin.quote : Plugin Unit :=
  .pure "quote" fun _ _ => .ok (.string "\x7b\x7becho:say:a\x7d\x7d")

/-- An engine that quotes and echoes. -/
def Engine.quoting : Engine Unit where
  settings := { strict := true }
  registry := { plugins := [.quote, .echo] }

namespace Engine

open Setting

theorem steady_quoting : quoting.registry.Steady := by
  intro plugin h
  rcases List.mem_cons.mp h with rfl | h
  · exact Plugin.steady_pure _ _
  · rw [List.mem_singleton.mp h]
    exact Plugin.steady_pure _ _

/-- Both plugins answer with text. -/
theorem proper_quoting : quoting.registry.Proper := by
  constructor
  · intro plugin h
    rcases List.mem_cons.mp h with rfl | h
    · rintro placeholder context state value ⟨⟩
      trivial
    · rw [List.mem_singleton.mp h]
      rintro placeholder context state value ⟨⟩
      trivial
  · intro transform h
    exact absurd h List.not_mem_nil

/-- What a token without nested tokens becomes. -/
theorem filled?_quoting {chars : List Char} (hb : Token.Braceless chars) (hne : chars ≠ [])
    (hline : '\n' ∉ chars) :
    (quoting.setting {}).filled? { state := () } (String.ofList (Token.bracket chars)) =
      (quoting.setting {}).answer? { state := () } (Token.bracket chars) := by
  rw [filled?, value?_fillString_of_isSingle steady_quoting, String.toList_ofList]
  rw [String.toList_ofList]
  exact isSingle_bracket hb hne hline

theorem filled?_quote : (quoting.setting {}).filled? { state := () } "\x7b\x7bquote:x\x7d\x7d" =
    some (.string "\x7b\x7becho:say:a\x7d\x7d") :=
  (filled?_quoting (by decide) (by decide) (by decide) :
    _ = (quoting.setting {}).answer? _ (Token.bracket "quote:x".toList))

theorem filled?_echo : (quoting.setting {}).filled? { state := () } "\x7b\x7becho:say:a\x7d\x7d" =
    some (.string "a") :=
  (filled?_quoting (by decide) (by decide) (by decide) :
    _ = (quoting.setting {}).answer? _ (Token.bracket "echo:say:a".toList))

/-- A document with a token that asks for an echo is reproduced. -/
theorem generate_again_echo :
    (quoting.generate {} "\"\x7b\x7becho:say:a\x7d\x7d\"".toList { state := () }).1 = .ok "\"a\"".toList ∧
    (quoting.generate {} "\"a\"".toList { state := () }).1 = .ok "\"a\"".toList := by
  have hfirst : (quoting.generate {} "\"\x7b\x7becho:say:a\x7d\x7d\"".toList { state := () }).1 =
      .ok "\"a\"".toList := generate_string rfl steady_quoting filled?_echo
  refine ⟨hfirst, ?_⟩
  obtain ⟨value, hread, hiff⟩ := generate_again rfl steady_quoting proper_quoting rfl hfirst { state := () }
  have hdistinct : (Json.string "\x7b\x7becho:say:a\x7d\x7d").Distinct := trivial
  cases hread.symm.trans (Json.read_print (.indented 2) hdistinct)
  apply hiff.mpr
  apply (keeps_iff steady_quoting rfl _).mpr
  intro own hown
  cases filled?_echo.symm.trans hown
  exact rests_of_no_tokens steady_quoting (Token.Content.tokens_of_braceless (by decide))

/-- **A document is not reproduced when its only string is a token whose value is text with a token in it.** The
    second run succeeds with another result. -/
theorem generate_again_differs :
    quoting.registry.Steady ∧ quoting.registry.Proper ∧ quoting.settings.strict = true ∧
    (quoting.generate {} "\"\x7b\x7bquote:x\x7d\x7d\"".toList { state := () }).1 =
      .ok "\"\x7b\x7becho:say:a\x7d\x7d\"".toList ∧
    (quoting.generate {} "\"\x7b\x7becho:say:a\x7d\x7d\"".toList { state := () }).1 = .ok "\"a\"".toList ∧
    "\"a\"".toList ≠ "\"\x7b\x7becho:say:a\x7d\x7d\"".toList :=
  ⟨steady_quoting, proper_quoting, rfl, generate_string rfl steady_quoting filled?_quote,
    generate_string rfl steady_quoting filled?_echo, by decide⟩

end Engine

end Template
