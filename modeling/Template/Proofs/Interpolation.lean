import Template.Proofs.CallByValue

/-!
# `Template.Proofs.Interpolation` — strings of a document against plain texts

Tokens in a string of a document are replaced in the same way as in a plain text, but a string that *passes
for* one token (`Token.isToken`: it starts with two opening braces, ends with two closing ones and is on one
line) may become a value of any shape. A string can pass for a token without being one: several tokens in a
row do, and so does a token that is written twice.

`readsAsText_iff` says for every string when the document takes it for the text that it is.
`misread_twin` is a string where it does not.
-/

namespace Template.Setting

open Script Token Token.Content

variable {σ : Type}

/-- In a document the string becomes the text that it becomes as a plain text, or both fail. -/
def ReadsAsText (setting : Setting σ) (path : Path) (s : String) : Prop :=
  ∀ world world',
    ((setting.fillString path s).run world).1.toOption =
      ((setting.fillText s.toList).run world').1.toOption.map fun text => .string (String.ofList text)

/-- What is taken for the value of a string that passes for one token is the text with its tokens replaced:
    the value of the whole as a token, if all tokens in it are written alike, and otherwise the value found
    when its tokens were replaced. -/
def TakesText (setting : Setting σ) (world : World σ) (text : List Char) : Prop :=
  if isSingle text then
    setting.answer? world text =
      ((setting.substitute none text).value? world).map fun filled => .string (String.ofList filled.text)
  else
    ∀ filled, (setting.substitute none text).value? world = some filled →
      setting.outcome? world filled = some (.string (String.ofList filled.text))

variable {setting : Setting σ} {world : World σ}

/-! ## Both ways with values -/

theorem tokens_of_isSingle {text : List Char} (h : isSingle text = true) : Token.tokens text ≠ [] := by
  rw [isSingle, Bool.and_eq_true, beq_iff_eq] at h
  intro hnil
  rw [hnil] at h
  exact absurd h.2 (by decide)

theorem isToken_of_isSingle {text : List Char} (h : isSingle text = true) : isToken text = true := by
  rw [isSingle, Bool.and_eq_true] at h
  exact h.1

/-- Text without braces, put between braces, is a token by itself. -/
theorem isSingle_bracket {chars : List Char} (hb : Braceless chars) (hne : chars ≠ [])
    (hline : '\n' ∉ chars) : isSingle (bracket chars) = true := by
  have hw : (Content.token (.text chars .empty) .empty).WellFormed := ⟨⟨hb, trivial⟩, trivial⟩
  have hrender : (Content.token (.text chars .empty) .empty).render = bracket chars := by
    simp [Content.render]
  have htokens : Token.tokens (bracket chars) = [bracket chars] := by
    have hocc := occurrences_render hw
    rw [hrender] at hocc
    rw [Token.tokens, hocc]
    show [bracket (chars ++ [])].eraseDups = _
    rw [List.append_nil]
    rfl
  rw [isSingle, htokens, (isToken_bracket chars).mpr ⟨hne, hline⟩]
  rfl

theorem value?_substitute_of_no_tokens (path : Option Path) {text : List Char}
    (ht : Token.tokens text = []) : (setting.substitute path text).value? world = some { text } :=
  value?_substitute_of_passes (value?_passes_of_no_tokens path _ ht world) ht

/-- A plain text, whether there are tokens in it or not. -/
theorem value?_fillText_eq (text : List Char) :
    (setting.fillText text).value? world = ((setting.substitute none text).value? world).map (·.text) := by
  by_cases ht : Token.tokens text = []
  · rw [value?_substitute_of_no_tokens none ht]
    unfold fillText
    rw [ht]
    rfl
  · exact value?_fillText ht world

theorem outcome?_of_not_isSingle {filled : Filled} (hn : filled.single = none)
    (hs : isSingle filled.text = false) :
    setting.outcome? world filled = some (.string (String.ofList filled.text)) := by
  rw [outcome?, hn, hs]
  rfl

/-- A string that is not one token, whether there are tokens in it or not. -/
theorem value?_fillString_of_not_isSingle (h : setting.registry.Steady) (path : Path) (s : String)
    (hs : isSingle s.toList = false) :
    (setting.fillString path s).value? world =
      ((setting.substitute none s.toList).value? world).bind fun filled =>
        if isToken s.toList then setting.outcome? world filled
        else some (.string (String.ofList filled.text)) := by
  rw [value?_fillString h, hs, if_neg Bool.false_ne_true,
    value?_substitute_place h (some path) none]
  by_cases ht : Token.tokens s.toList = []
  · -- without tokens the string stays as it is, which is also what no passes make of it
    rw [ht, List.isEmpty_nil, if_pos rfl, value?_substitute_of_no_tokens none ht, Option.bind_some]
    split
    · rw [outcome?, hs, if_neg Bool.false_ne_true, String.ofList_toList]
    · rw [String.ofList_toList]
  · rw [if_neg (by rwa [List.isEmpty_iff])]

theorem value?_fillString_of_isSingle (h : setting.registry.Steady) (path : Path) (s : String)
    (hs : isSingle s.toList = true) :
    (setting.fillString path s).value? world = setting.answer? world s.toList := by
  rw [value?_fillString h, if_neg (by rw [List.isEmpty_iff]; exact tokens_of_isSingle hs), if_pos hs]

/-- In steady surroundings it is enough to compare the values in one world. -/
theorem readsAsText_iff_value? (h : setting.registry.Steady) (path : Path) (s : String)
    (world : World σ) :
    setting.ReadsAsText path s ↔
      (setting.fillString path s).value? world =
        ((setting.substitute none s.toList).value? world).map fun filled =>
          .string (String.ofList filled.text) := by
  have htext : ∀ world' : World σ, ((setting.fillText s.toList).value? world').map
      (fun text => Json.string (String.ofList text)) =
        ((setting.substitute none s.toList).value? world).map fun filled =>
          .string (String.ofList filled.text) := by
    intro world'
    rw [(fillText_steady h s.toList).value?_eq world' world, value?_fillText_eq, Option.map_map]
    rfl
  constructor
  · intro hreads
    exact (hreads world world).trans (htext world)
  · intro heq first second
    exact ((fillString_steady h path s).value?_eq first world).trans (heq.trans (htext second).symm)

/-! ## When a document takes a string for its text -/

/-- **A string reads as text exactly if it does not pass for one token, or what it is then taken for is
    the text.** -/
theorem readsAsText_iff (h : setting.registry.Steady) (path : Path) (s : String) (world : World σ) :
    setting.ReadsAsText path s ↔
      isToken s.toList = false ∨ setting.TakesText world s.toList := by
  rw [readsAsText_iff_value? h path s world]
  cases hs : isSingle s.toList with
  | true =>
    rw [value?_fillString_of_isSingle h path s hs, isToken_of_isSingle hs, TakesText, if_pos hs]
    simp
  | false =>
    rw [value?_fillString_of_not_isSingle h path s hs, TakesText, hs, if_neg Bool.false_ne_true]
    -- a string that does not pass for a token is filled in as text; one that does goes by its value
    cases ht : isToken s.toList with
    | false =>
      rw [Option.map_eq_bind]
      exact iff_of_true rfl (.inl rfl)
    | true =>
      cases (setting.substitute none s.toList).value? world with
      | none => exact iff_of_true rfl (.inr fun filled hf => nomatch hf)
      | some filled =>
        constructor
        · intro heq
          right
          intro other hother
          cases hother
          exact heq
        · rintro (hne | htakes)
          · cases hne
          · exact htakes filled rfl

/-- Text in front of a token that asks for an echo reads as text. -/
theorem readsAsText_behind_text :
    echoing.ReadsAsText [] "say \x7b\x7becho:say:a\x7d\x7d" :=
  (readsAsText_iff steady_echoing [] _ { state := () }).mpr (.inl (by decide))

/-- A token that asks for an echo, written twice. -/
def twin : Content :=
  .token (.text "echo:say:a".toList .empty) (saying (.text "a".toList .empty))

theorem wellFormed_twin : twin.WellFormed :=
  ⟨⟨by decide, trivial⟩, ⟨by decide, by decide, trivial⟩, trivial⟩

theorem tokens_twin : Token.tokens twin.render = ["\x7b\x7becho:say:a\x7d\x7d".toList] := by
  rw [Token.tokens, occurrences_render wellFormed_twin]
  decide

theorem plainValues_twin : twin.PlainValues (echoing.answer? { state := () }) := by
  have hplain : ∀ value, (Content.text "echo:say:a".toList .empty).eval?
      (echoing.answer? { state := () }) = some value → Braceless value.asText := by
    intro value hv
    cases hv.symm.trans (rfl : _ = some (Json.string "a"))
    decide
  exact ⟨trivial, hplain, trivial, hplain, trivial⟩

/-- **The same token written twice does not read as text.** The string passes for one token, and there are
    no two different tokens in it, so that it is asked for as a whole: the braces in the middle become part of
    an argument. -/
theorem misread_twin :
    twin.render = "\x7b\x7becho:say:a\x7d\x7d\x7b\x7becho:say:a\x7d\x7d".toList ∧
      Token.tokens twin.render ≠ [] ∧ (Token.tokens twin.render).head? ≠ some (Text.trim twin.render) ∧
      ((echoing.fillString [] (String.ofList twin.render)).run { state := () }).1 =
        .ok (.string "a\x7d\x7d\x7b\x7becho:say:a") ∧
      ((echoing.fillText twin.render).run { state := () }).1 = .ok "aa".toList ∧
      ¬ echoing.ReadsAsText [] (String.ofList twin.render) := by
  have hleaf : ((echoing.fillString [] (String.ofList twin.render)).run { state := () }).1 =
      .ok (.string "a\x7d\x7d\x7b\x7becho:say:a") := by
    have hsingle : isSingle twin.render = true := by
      rw [isSingle, tokens_twin]
      decide
    rw [← value?_eq_some_iff, value?_fillString_of_isSingle steady_echoing [] _
      (by rw [String.toList_ofList]; exact hsingle), String.toList_ofList]
    rfl
  have htext : ((echoing.fillText twin.render).run { state := () }).1 = .ok "aa".toList :=
    value?_eq_some_iff.mp
      (value?_fillText_render steady_echoing rfl wellFormed_twin rfl plainValues_twin (by decide))
  refine ⟨by decide, by rw [tokens_twin]; exact List.cons_ne_nil _ _, by rw [tokens_twin]; decide, hleaf,
    htext, ?_⟩
  intro hreads
  have heq := hreads { state := () } { state := () }
  rw [hleaf, String.toList_ofList, htext] at heq
  exact absurd (Json.string.inj (Option.some.inj heq)) (by decide)

end Template.Setting
