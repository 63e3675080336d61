import Template.Proofs.Calls
import Template.Proofs.MorePasses
import Template.Proofs.Nesting

/-!
# `Template.Proofs.Innermost` — which tokens a pass takes

A pass takes those of the tokens it finds that hold no other one of them. Whether one holds another is told by their
texts alone, while the scanner finds tokens by their braces; the two agree, because the tokens in a token are found
as well. So what a pass takes is **flat**: there is no token inside of it.

There is always something to take. Of the tokens that stand in a given one, a shortest holds no other, so every token
that is found holds one that is taken. A pass over a text with tokens thus resolves at least one, the first that it
takes, since nothing was replaced before it. The exception is a pass that resolves nothing at all, because a token in
the text is nested more deeply than the options admit; substitution fails with it.

## Contents
- `mem_innermost_iff`, `exists_innermost_infix` — selection from any list.
- `infix_of_mem_tokens`, `flat_of_mem_innermost`, `depth_of_mem_innermost` — tokens of a text.
- `Token.Selection`, `selection_tokens` — all that is said of the selection.
- `callsOfTokens_sublist`, `callsOfPass_nonempty_or_refuses` — one pass.
- `exists_pass_of_mem_calls`, `tooDeep_of_nil_mem_calls` — all passes.
- `Setting.substitute_takes_innermost`.
-/

namespace Template

variable {σ : Type}

namespace Token

/-! ## Selection -/

theorem mem_innermost_iff {all : List (List Char)} {token : List Char} :
    token ∈ innermost all ↔ token ∈ all ∧ ∀ other ∈ all, other <:+: token → other = token := by
  unfold innermost
  rw [List.mem_filter, Bool.not_eq_true', List.any_eq_false]
  refine and_congr_right fun _ => forall₂_congr fun other _ => ?_
  rw [Bool.and_eq_true, Text.occursIn_iff, bne_iff_ne]
  constructor
  · intro hnot hin
    by_cases hsame : other = token
    · exact hsame
    · exact absurd ⟨hsame, hin⟩ hnot
  · rintro hleast ⟨hne, hin⟩
    exact hne (hleast hin)

/-- **Every token of a list holds one that is selected.** The induction is on its length: if it is not selected
itself, it holds another one, which is shorter. -/
theorem exists_innermost_infix {all : List (List Char)} {token : List Char} (h : token ∈ all) :
    ∃ inner ∈ innermost all, inner <:+: token := by
  by_cases hinside : ∃ other ∈ all, other <:+: token ∧ other ≠ token
  · obtain ⟨other, hother, hwithin, hne⟩ := hinside
    have hshorter : other.length < token.length := by
      apply Nat.lt_of_le_of_ne hwithin.length_le
      intro hlength
      exact hne (hwithin.eq_of_length hlength)
    obtain ⟨inner, hinner, hin⟩ := exists_innermost_infix hother
    exact ⟨inner, hinner, hin.trans hwithin⟩
  · refine ⟨token, mem_innermost_iff.mpr ⟨h, ?_⟩, List.infix_refl token⟩
    intro other hother hwithin
    by_cases hsame : other = token
    · exact hsame
    · exact absurd ⟨other, hother, hwithin, hsame⟩ hinside
termination_by token.length

/-! ## Tokens of a text -/

/-- A token that is found in a text stands in it. -/
theorem infix_of_mem_tokens {text token : List Char} (h : token ∈ tokens text) : token <:+: text := by
  replace h : token ∈ occurrences text := List.mem_eraseDups.mp h
  induction text using scan_induction with
  | nil =>
    rw [occurrences_nil] at h
    exact absurd h List.not_mem_nil
  | plain c rest hplain ih =>
    rw [occurrences_cons hplain] at h
    exact (ih h).trans (List.suffix_cons c rest).isInfix
  | token inside rest hinside ihInside ihRest =>
    rw [occurrences_bracket hinside] at h
    rcases List.mem_cons.mp h with rfl | h
    · exact (List.prefix_append _ rest).isInfix
    · rcases List.mem_append.mp h with h | h
      · have hbetween : inside <:+: bracket inside ++ rest := ⟨['{', '{'], '}' :: '}' :: rest, by simp [bracket]⟩
        exact (ihInside h).trans hbetween
      · exact (ihRest h).trans (List.suffix_append (bracket inside) rest).isInfix
  | unclosed rest hunclosed =>
    rw [occurrences_unclosed hunclosed] at h
    exact absurd h List.not_mem_nil

/-- **A token that is selected has no token in it.** -/
theorem flat_of_mem_innermost {text token : List Char} (h : token ∈ innermost (tokens text)) :
    ∃ inside, Balanced inside ∧ token = bracket inside ∧ tokens inside = [] := by
  obtain ⟨hfound, hleast⟩ := mem_innermost_iff.mp h
  obtain ⟨inside, hinside, rfl, hall⟩ := exists_balanced_of_mem (List.mem_eraseDups.mp hfound)
  refine ⟨inside, hinside, rfl, List.eq_nil_iff_forall_not_mem.mpr ?_⟩
  intro inner hinner
  have hin : inner <:+: inside := infix_of_mem_tokens hinner
  have hbetween : inside <:+: bracket inside := ⟨['{', '{'], ['}', '}'], by simp [bracket]⟩
  -- it is found in the text as well, and so it would be the whole token
  have hinner' : inner ∈ occurrences (bracket inside) := by
    rw [occurrences_bracket_self hinside]
    exact List.mem_cons_of_mem _ (List.mem_eraseDups.mp hinner)
  have hsame : inner = bracket inside :=
    hleast inner (List.mem_eraseDups.mpr (hall inner hinner')) (hin.trans hbetween)
  have hlength := hin.length_le
  rw [hsame, length_bracket] at hlength
  omega

/-- Balanced text without a token opens nothing. -/
theorem depth_of_balanced {inside : List Char} (h : Balanced inside) (ht : occurrences inside = []) :
    depth inside = 0 := by
  induction h with
  | nil => rfl
  | @plain c rest hc _ ih =>
    rw [occurrences_cons hc.of_append.not_opening] at ht
    rw [depth_cons hc.of_append.not_opening]
    exact ih ht
  | token hinside _ _ _ =>
    rw [occurrences_bracket hinside] at ht
    cases ht

theorem depth_of_mem_innermost {text token : List Char} (h : token ∈ innermost (tokens text)) : depth token = 1 := by
  obtain ⟨inside, hinside, rfl, hnone⟩ := flat_of_mem_innermost h
  have hnone' : occurrences inside = [] := by
    rw [List.eq_nil_iff_forall_not_mem] at hnone ⊢
    intro inner hinner
    exact hnone inner (List.mem_eraseDups.mpr hinner)
  rw [depth_token_self hinside, depth_of_balanced hinside hnone']

/-- What is selected from the tokens of a text. -/
structure Selection (found selected : List (List Char)) : Prop where
  /-- There is something. -/
  nonempty : selected ≠ []
  /-- It is in the order in which it was found, and nothing twice. -/
  inOrder : selected.Sublist found
  nodup : selected.Nodup
  /-- None stands in another one. -/
  apart : ∀ token ∈ selected, ∀ other ∈ selected, other <:+: token → other = token
  /-- One stands in everything that was found. -/
  covers : ∀ token ∈ found, ∃ inner ∈ selected, inner <:+: token
  /-- None holds a token. -/
  flat : ∀ token ∈ selected, tokens (interior token) = [] ∧ depth token = 1

/-- **The innermost tokens of a text with tokens.** -/
theorem selection_tokens {text : List Char} (h : tokens text ≠ []) :
    Selection (tokens text) (innermost (tokens text)) where
  nonempty := by
    obtain ⟨token, htoken⟩ := List.exists_mem_of_ne_nil _ h
    obtain ⟨inner, hinner, -⟩ := exists_innermost_infix htoken
    exact List.ne_nil_of_mem hinner
  inOrder := List.filter_sublist
  nodup := Content.nodup_innermost_tokens text
  apart token htoken other hother hin :=
    (mem_innermost_iff.mp htoken).2 other (mem_innermost_iff.mp hother).1 hin
  covers _ htoken := exists_innermost_infix htoken
  flat token htoken := by
    obtain ⟨inside, -, rfl, hnone⟩ := flat_of_mem_innermost htoken
    rw [interior_bracket]
    exact ⟨hnone, depth_of_mem_innermost htoken⟩

end Token

namespace Setting

open Script Token

variable {setting : Setting σ} {path : Option Path} {found : List (List Char)}

/-! ## One pass -/

/-- The tokens that are resolved are among those that are to be replaced, in their order. -/
theorem callsOfTokens_sublist (tokens : List (List Char)) (current : Filled) (world : World σ) :
    ((setting.callsOfTokens path found tokens current world).map (·.token)).Sublist tokens := by
  induction tokens generalizing current world with
  | nil => exact List.Sublist.refl []
  | cons token rest ih =>
    rw [callsOfTokens]
    by_cases hin : Text.occursIn token current.text = true
    · rw [if_pos hin]
      rcases (setting.replaceToken path found current token).run world with ⟨failure | next, after⟩
      · exact (List.nil_sublist rest).cons_cons token
      · exact (ih next after).cons_cons token
    · rw [if_neg hin]
      rcases (setting.replaceToken path found current token).run world with ⟨failure | next, after⟩
      · exact List.nil_sublist _
      · exact (ih next after).cons token

/-- The first token is resolved if it is there. -/
theorem callsOfTokens_nonempty {token : List Char} {current : Filled}
    (hin : Text.occursIn token current.text = true) (rest : List (List Char)) (world : World σ) :
    setting.callsOfTokens path found (token :: rest) current world ≠ [] := by
  rw [callsOfTokens, if_pos hin]
  rcases (setting.replaceToken path found current token).run world with ⟨failure | next, after⟩
  · exact List.cons_ne_nil _ _
  · exact List.cons_ne_nil _ _

theorem callsOfPass_sublist (text : List Char) (world : World σ) :
    ((setting.callsOfPass path found text world).map (·.token)).Sublist (innermost found) := by
  rw [callsOfPass]
  rcases (setting.checkTokens path found).run world with ⟨failure | _, after⟩
  · exact List.nil_sublist _
  · exact callsOfTokens_sublist _ _ _

/-- Tokens that are not too deep pass the check, and nothing else happens. -/
theorem checkTokens_of_admitted {tokens : List (List Char)}
    (h : ∀ token ∈ tokens, setting.checkDepth token = .ok ()) : setting.checkTokens path tokens = .done () := by
  induction tokens with
  | nil => rfl
  | cons token rest ih =>
    have hfirst : setting.checkToken path token = .done () := by
      rw [checkToken, h token List.mem_cons_self]
    rw [checkTokens, hfirst]
    exact ih fun other hother => h other (List.mem_cons_of_mem token hother)

/-- **A pass over a text with tokens resolves at least one**, or it refuses one that is too deep, and does nothing
else. -/
theorem callsOfPass_nonempty_or_refuses (path : Option Path) {text : List Char} (ht : tokens text ≠ [])
    (world : World σ) :
    setting.callsOfPass path (tokens text) text world ≠ [] ∨
      ∃ limit, setting.options.maxDepth = some limit ∧ (∃ token ∈ tokens text, limit < depth token) ∧
        Refuses limit path (setting.pass path (tokens text) text) := by
  by_cases hdeep : ∃ limit, setting.options.maxDepth = some limit ∧ ∃ token ∈ tokens text, limit < depth token
  · obtain ⟨limit, hlimit, token, htoken, hd⟩ := hdeep
    have hrefuses : Refuses limit path (setting.checkTokens path (tokens text)) :=
      checkTokens_refuses hlimit path htoken hd
    exact .inr ⟨limit, hlimit, ⟨token, htoken, hd⟩, hrefuses.bind _⟩
  · left
    have hadmitted : ∀ token ∈ tokens text, setting.checkDepth token = .ok () := by
      intro token htoken
      apply checkDepth_eq_ok_iff.mpr
      intro limit hlimit
      apply Nat.le_of_not_lt
      intro hd
      exact hdeep ⟨limit, hlimit, token, htoken, hd⟩
    obtain ⟨first, rest, hselected⟩ := List.exists_cons_of_ne_nil (selection_tokens ht).nonempty
    -- nothing was replaced before the first of them
    have hfirst : Text.occursIn first text = true := by
      have hmem : first ∈ innermost (tokens text) := by
        rw [hselected]
        exact List.mem_cons_self
      exact Text.occursIn_iff.mpr (infix_of_mem_tokens (mem_innermost_iff.mp hmem).1)
    rw [callsOfPass, checkTokens_of_admitted hadmitted, run_done, hselected]
    exact callsOfTokens_nonempty hfirst rest world

/-! ## All passes -/

/-- What is resolved in a pass of a run is what a pass over some text with tokens resolves. -/
theorem exists_pass_of_mem_calls {limit : Nat} {current : Filled} {world : World σ} {calls : List (Call σ)}
    (h : calls ∈ setting.callsOfPasses path limit current world) :
    ∃ text world', tokens text ≠ [] ∧ calls = setting.callsOfPass path (tokens text) text world' := by
  induction limit generalizing current world with
  | zero => exact absurd h List.not_mem_nil
  | succ limit ih =>
    by_cases ht : tokens current.text = []
    · rw [callsOfPasses_of_no_tokens _ ht] at h
      exact absurd h List.not_mem_nil
    · rw [callsOfPasses_succ limit ht] at h
      rcases List.mem_cons.mp h with rfl | h
      · exact ⟨current.text, world, ht, rfl⟩
      · split at h
        · split at h
          · exact absurd h List.not_mem_nil
          · exact ih h
        · exact absurd h List.not_mem_nil

/-- A run in which a pass resolves nothing fails, because a token is too deep. -/
theorem tooDeep_of_nil_mem_calls {limit : Nat} {current : Filled} {world : World σ}
    (h : [] ∈ setting.callsOfPasses path limit current world) :
    ∃ most failure, setting.options.maxDepth = some most ∧ failure.TooDeep most path ∧
      ((setting.passes path limit current >>= setting.conclude).run world).1 = .error failure := by
  induction limit generalizing current world with
  | zero => exact absurd h List.not_mem_nil
  | succ limit ih =>
    by_cases ht : tokens current.text = []
    · rw [callsOfPasses_of_no_tokens _ ht] at h
      exact absurd h List.not_mem_nil
    · rw [callsOfPasses_succ limit ht] at h
      rw [passes_succ path limit ht]
      rcases List.mem_cons.mp h with hnone | h
      · rcases callsOfPass_nonempty_or_refuses path ht world with hsome | ⟨most, hmost, -, hrefuses⟩
        · exact absurd hnone.symm hsome
        · obtain ⟨failure, hdeep, hrun, -⟩ := (hrefuses.bind _).run world
          exact ⟨most, failure, hmost, hdeep, hrun⟩
      · rw [run_bind]
        split at h
        · rename_i next after hrun
          rw [hrun]
          dsimp only
          split at h
          · exact absurd h List.not_mem_nil
          · rename_i hchanged
            rw [if_neg hchanged]
            exact ih h
        · exact absurd h List.not_mem_nil

/-- **Every pass takes innermost tokens, and takes some.** Of the tokens of any text that has one, a pass takes those
that hold no other, as `Selection` says. A pass over a text with tokens resolves at least one of them, or refuses the
text because a token in it is too deep. In a whole run no pass resolves a token twice, no token that is resolved has
a token in it, and a pass that resolves none is the end of the run, which fails for that reason. -/
theorem substitute_takes_innermost (setting : Setting σ) (path : Option Path) :
    (∀ text, tokens text ≠ [] → Selection (tokens text) (innermost (tokens text)) ∧
      ∀ world : World σ, setting.callsOfPass path (tokens text) text world ≠ [] ∨
        ∃ limit, setting.options.maxDepth = some limit ∧ (∃ token ∈ tokens text, limit < depth token) ∧
          Refuses limit path (setting.pass path (tokens text) text)) ∧
    ∀ text world, ∀ calls ∈ setting.calls path text world,
      (calls.map (·.token)).Nodup ∧
      (∀ call ∈ calls, tokens (interior call.token) = [] ∧ depth call.token = 1) ∧
      (calls = [] → ∃ limit failure, setting.options.maxDepth = some limit ∧ failure.TooDeep limit path ∧
        ((setting.substitute path text).run world).1 = .error failure) := by
  constructor
  · intro text ht
    exact ⟨selection_tokens ht, callsOfPass_nonempty_or_refuses path ht⟩
  · intro text world calls hcalls
    obtain ⟨passed, world', ht, hpass⟩ := exists_pass_of_mem_calls hcalls
    have hsublist : (calls.map (·.token)).Sublist (innermost (tokens passed)) := by
      rw [hpass]
      exact callsOfPass_sublist passed world'
    refine ⟨hsublist.nodup (selection_tokens ht).nodup, ?_, ?_⟩
    · intro call hcall
      exact (selection_tokens ht).flat call.token (hsublist.subset (List.mem_map_of_mem hcall))
    · rintro rfl
      rw [substitute_eq_conclude]
      exact tooDeep_of_nil_mem_calls hcalls

/-- In a token that is counted twice, the inner one is resolved first. -/
theorem substitute_takes_innermost_counting :
    let text := Engine.countTwice.render
    tokens text ≠ [] ∧ Selection (tokens text) (innermost (tokens text)) ∧
      counting.callsOfPass none (tokens text) text { state := 0 } ≠ [] := by
  intro text
  have ht : tokens text ≠ [] := by
    rw [Engine.tokens_countTwice]
    exact List.cons_ne_nil _ _
  obtain ⟨hpass, -⟩ := substitute_takes_innermost counting none
  obtain ⟨hselection, hcalls⟩ := hpass text ht
  refine ⟨ht, hselection, ?_⟩
  rcases hcalls { state := 0 } with hsome | ⟨limit, hlimit, -⟩
  · exact hsome
  · cases hlimit

/-- **A pass may resolve nothing**: a text with a token that is too deep is refused before anything in it is. -/
theorem calls_of_tooDeep :
    let setting := echoing.withMaxDepth (some 1)
    tokens Engine.echoTwice.toList ≠ [] ∧ setting.calls none Engine.echoTwice.toList { state := () } = [[]] := by
  intro setting
  have htokens := Engine.tokens_echoTwice
  have ht : tokens Engine.echoTwice.toList ≠ [] := by
    rw [htokens]
    exact List.cons_ne_nil _ _
  have hlimit : setting.maxPasses.toNat = 9 + 1 := rfl
  refine ⟨ht, ?_⟩
  rw [calls, hlimit, callsOfPasses_succ 9 ht, htokens]
  rfl

end Setting

end Template
