import Template.Proofs.Balance
import Template.Proofs.Calls
import Template.Proofs.Walk

/-!
# `Template.Proofs.Framing` — text around tokens

Text without braces may be put in front of a text and behind it, and nothing changes about what substitution does
with the text in between. No token reaches over a seam, whatever braces there are in the text: what stands in
front opens nothing, and what stands behind closes nothing, not even a pair that was left open. So the two runs
find the same tokens in every pass, hand over the same ones to be resolved in the same worlds, and come to the same
text, the one with the frame and the other without it.

The two runs are followed side by side. Within the passes they agree in everything but the frame (`Framed`). At the
end they may differ in what they note about a text that has not settled, and in the text that such a failure shows
(`FramedEnd`).

## Contents
- `occursIn_framed`, `replaceAll_framed` — tokens in a framed text.
- `replaceTokens_framed`, `pass_framed`, `passes_framed` — the runs side by side.
- `Setting.substitute_framed`.
-/

namespace Template

variable {σ : Type} {before behind : List Char}

namespace Token

/-! ## Tokens in a framed text -/

/-- A token that begins in a text does not reach behind it. -/
theorem prefix_of_prefix_append {inside text : List Char} (hb : Braceless behind)
    (h : bracket inside <+: text ++ behind) : bracket inside <+: text := by
  rcases List.prefix_or_prefix_of_prefix h (List.prefix_append text behind) with hin | ⟨more, hmore⟩
  · exact hin
  · rcases List.eq_nil_or_concat more with rfl | ⟨start, last, rfl⟩
    · rw [List.append_nil] at hmore
      exact hmore ▸ List.prefix_refl text
    · -- the token would bring its last brace behind the seam
      have hends : text ++ start ++ [last] = ('{' :: '{' :: inside ++ ['}']) ++ ['}'] := by
        rw [List.append_assoc, ← List.concat_eq_append, hmore]
        simp [bracket]
      obtain ⟨-, hlast⟩ := List.append_inj' hends rfl
      obtain ⟨rfl, -⟩ := List.cons.inj hlast
      rw [← hmore, List.prefix_append_right_inj] at h
      have hbrace : '}' ∈ behind := h.subset (by simp)
      exact absurd rfl (hb '}' hbrace).2

theorem bracket_prefix_append_iff {inside text : List Char} (hb : Braceless behind) :
    bracket inside <+: text ++ behind ↔ bracket inside <+: text :=
  ⟨prefix_of_prefix_append hb, fun h => h.trans (List.prefix_append text behind)⟩

theorem not_bracket_infix_braceless (hb : Braceless behind) (inside : List Char) :
    ¬ bracket inside <:+: behind := by
  intro h
  have hbrace : '{' ∈ behind := h.subset List.mem_cons_self
  exact (hb '{' hbrace).1 rfl

theorem occursIn_append_braceless (hb : Braceless behind) (inside text : List Char) :
    Text.occursIn (bracket inside) (text ++ behind) = Text.occursIn (bracket inside) text := by
  induction text with
  | nil =>
    show Text.occursIn (bracket inside) behind = false
    rw [Bool.eq_false_iff, Ne, Text.occursIn_iff]
    exact not_bracket_infix_braceless hb inside
  | cons c rest ih =>
    have hprefix : (bracket inside).isPrefixOf (c :: (rest ++ behind)) = (bracket inside).isPrefixOf (c :: rest) := by
      rw [Bool.eq_iff_iff, List.isPrefixOf_iff_prefix, List.isPrefixOf_iff_prefix, ← List.cons_append]
      exact bracket_prefix_append_iff hb
    rw [List.cons_append, Text.occursIn, Text.occursIn, hprefix, ih]

theorem occursIn_braceless_append (hb : Braceless before) (inside text : List Char) :
    Text.occursIn (bracket inside) (before ++ text) = Text.occursIn (bracket inside) text := by
  induction before with
  | nil => rfl
  | cons c rest ih =>
    obtain ⟨hc, hrest⟩ := braceless_cons.mp hb
    have hprefix : (bracket inside).isPrefixOf (c :: (rest ++ text)) = false := by
      rw [Bool.eq_false_iff, Ne, List.isPrefixOf_iff_prefix]
      intro h
      exact hc.1 (List.cons_prefix_cons.mp h).1.symm
    rw [List.cons_append, Text.occursIn, hprefix, Bool.false_or]
    exact ih hrest

/-- A token stands in a framed text if it stands in the text. -/
theorem occursIn_framed (hp : Braceless before) (hq : Braceless behind) (inside text : List Char) :
    Text.occursIn (bracket inside) (before ++ text ++ behind) = Text.occursIn (bracket inside) text := by
  rw [occursIn_append_braceless hq, occursIn_braceless_append hp]

/-- Replacement stops at the seam. The characters that are still skipped are those of a token in front of it. -/
theorem replaceFrom_append_braceless (hb : Braceless behind) (inside new text : List Char) {skip : Nat}
    (hskip : skip ≤ text.length) :
    Text.replaceFrom (bracket inside) new skip (text ++ behind) =
      Text.replaceFrom (bracket inside) new skip text ++ behind := by
  induction text generalizing skip with
  | nil =>
    obtain rfl : skip = 0 := Nat.le_zero.mp hskip
    have hnone : Text.occursIn (bracket inside) behind = false := by
      rw [Bool.eq_false_iff, Ne, Text.occursIn_iff]
      exact not_bracket_infix_braceless hb inside
    exact Text.replaceFrom_of_not_occursIn hnone
  | cons c rest ih =>
    cases skip with
    | succ skip => exact ih (Nat.le_of_succ_le_succ hskip)
    | zero =>
      by_cases hhit : bracket inside <+: c :: rest
      · have hlength : (bracket inside).length - 1 ≤ rest.length := by
          have hle := hhit.length_le
          rw [List.length_cons] at hle
          omega
        have hhit' : bracket inside <+: c :: (rest ++ behind) := hhit.trans (List.prefix_append (c :: rest) behind)
        rw [List.cons_append, Text.replaceFrom, Text.replaceFrom, if_pos (List.isPrefixOf_iff_prefix.mpr hhit),
          if_pos (List.isPrefixOf_iff_prefix.mpr hhit'), ih hlength, List.append_assoc]
      · have hmiss : ¬ bracket inside <+: c :: (rest ++ behind) := fun h => hhit (prefix_of_prefix_append hb h)
        rw [List.cons_append, Text.replaceFrom_cons_of_not_prefix hmiss, Text.replaceFrom_cons_of_not_prefix hhit,
          ih (Nat.zero_le _), List.cons_append]

/-- **Replacing a token leaves the frame as it is.** -/
theorem replaceAll_framed (hp : Braceless before) (hq : Braceless behind) (inside new text : List Char) :
    Text.replaceAll (bracket inside) new (before ++ text ++ behind) =
      before ++ Text.replaceAll (bracket inside) new text ++ behind := by
  unfold Text.replaceAll
  rw [replaceFrom_append_braceless hq inside new _ (Nat.zero_le _),
    Content.replaceFrom_braceless new text fun c hc => (hp c hc).1]

end Token

open Token

/-! ## Two runs side by side -/

/-- Two runs of a pass have come to the same in the same world, but for the frame of the text. -/
inductive Framed (before behind : List Char) : Except Failure Filled × World σ → Except Failure Filled × World σ → Prop where
  | ok {filled framed : Filled} (h : framed.text = before ++ filled.text ++ behind) (world : World σ) :
      Framed before behind (.ok filled, world) (.ok framed, world)
  | error (failure : Failure) (world : World σ) :
      Framed before behind (.error failure, world) (.error failure, world)

/-- The failure of a framed text: if a text is shown in it, it is shown with the frame. -/
def Failure.framed (before behind : List Char) : Failure → Failure
  | .unsettled text limit => .unsettled (String.ofList (before ++ text.toList ++ behind)) limit
  | failure => failure

/-- Two runs of substitution have come to the same, but for the frame of the text, and the plugins are in the same
state after them. -/
inductive FramedEnd (before behind : List Char) : Except Failure Filled × World σ → Except Failure Filled × World σ → Prop where
  | ok {filled framed : Filled} (h : framed.text = before ++ filled.text ++ behind) {world world' : World σ}
      (hstate : world'.state = world.state) : FramedEnd before behind (.ok filled, world) (.ok framed, world')
  | error (failure : Failure) {world world' : World σ} (hstate : world'.state = world.state) :
      FramedEnd before behind (.error failure, world) (.error (failure.framed before behind), world')

namespace Setting

open Script

variable {setting : Setting σ} {path : Option Path} {found : List (List Char)}

section

variable (hp : Braceless before) (hq : Braceless behind)

include hp hq

/-- **One token** of a pass is resolved in both runs or in neither. -/
theorem replaceToken_framed {current framed : Filled} (h : framed.text = before ++ current.text ++ behind)
    (inside : List Char) (world : World σ) :
    Framed before behind ((setting.replaceToken path found current (bracket inside)).run world)
      ((setting.replaceToken path found framed (bracket inside)).run world) := by
  have hoccurs : Text.occursIn (bracket inside) framed.text = Text.occursIn (bracket inside) current.text := by
    rw [h, occursIn_framed hp hq]
  by_cases hin : Text.occursIn (bracket inside) current.text = true
  · rw [replaceToken_of_occurs hin, replaceToken_of_occurs (hoccurs.trans hin), run_bind, run_bind]
    rcases (setting.resolve path (bracket inside)).run world with ⟨failure | value, after⟩
    · exact .error failure after
    · refine .ok ?_ after
      show Text.replaceAll _ _ framed.text = _
      rw [h, replaceAll_framed hp hq]
      rfl
  · have hgone : ¬ Text.occursIn (bracket inside) framed.text = true := by rwa [hoccurs]
    rw [replaceToken_of_gone hin, replaceToken_of_gone hgone]
    exact .ok h world

/-- The tokens of a pass, one after another. -/
theorem replaceTokens_framed {tokens : List (List Char)}
    (htokens : ∀ token ∈ tokens, ∃ inside, token = bracket inside) {current framed : Filled}
    (h : framed.text = before ++ current.text ++ behind) (world : World σ) :
    Framed before behind ((setting.replaceTokens path found tokens current).run world)
        ((setting.replaceTokens path found tokens framed).run world) ∧
      setting.callsOfTokens path found tokens framed world = setting.callsOfTokens path found tokens current world := by
  induction tokens generalizing current framed world with
  | nil => exact ⟨.ok h world, rfl⟩
  | cons token rest ih =>
    obtain ⟨inside, rfl⟩ := htokens token List.mem_cons_self
    have hrest : ∀ token ∈ rest, ∃ inside, token = bracket inside := fun token htoken =>
      htokens token (List.mem_cons_of_mem _ htoken)
    have hoccurs : Text.occursIn (bracket inside) framed.text = Text.occursIn (bracket inside) current.text := by
      rw [h, occursIn_framed hp hq]
    have hfirst : Framed before behind ((setting.replaceToken path found current (bracket inside)).run world)
        ((setting.replaceToken path found framed (bracket inside)).run world) :=
      replaceToken_framed hp hq h inside world
    rw [replaceTokens, replaceTokens, run_bind, run_bind, callsOfTokens, callsOfTokens, hoccurs]
    generalize (setting.replaceToken path found current (bracket inside)).run world = result at hfirst ⊢
    generalize (setting.replaceToken path found framed (bracket inside)).run world = result' at hfirst ⊢
    cases hfirst with
    | error failure after => exact ⟨.error failure after, rfl⟩
    | ok hnext after =>
      obtain ⟨hrun, hcalls⟩ := ih hrest hnext after
      exact ⟨hrun, congrArg _ hcalls⟩

/-- **A pass** over a framed text checks and resolves what the pass over the text does. -/
theorem pass_framed (hfound : ∀ token ∈ found, ∃ inside, token = bracket inside) {text text' : List Char}
    (h : text' = before ++ text ++ behind) (world : World σ) :
    Framed before behind ((setting.pass path found text).run world) ((setting.pass path found text').run world) ∧
      setting.callsOfPass path found text' world = setting.callsOfPass path found text world := by
  have hinnermost : ∀ token ∈ innermost found, ∃ inside, token = bracket inside := fun token htoken =>
    hfound token (List.mem_filter.mp htoken).1
  rw [pass, pass, run_bind, run_bind, callsOfPass, callsOfPass]
  rcases (setting.checkTokens path found).run world with ⟨failure | _, after⟩
  · exact ⟨.error failure after, rfl⟩
  · exact replaceTokens_framed hp hq hinnermost h after

/-- A text that is left as it is when the passes are over is so in its frame. -/
theorem conclude_framed {current framed : Filled} (h : framed.text = before ++ current.text ++ behind)
    (settled : Bool) (world : World σ) :
    FramedEnd before behind ((setting.conclude (current, settled)).run world)
      ((setting.conclude (framed, settled)).run world) := by
  have htokens : tokens framed.text = tokens current.text := by
    rw [h, tokens_framed hp hq]
  unfold conclude
  dsimp only
  rw [htokens]
  by_cases hdone : (settled || (tokens current.text).isEmpty) = true
  · rw [if_pos hdone, if_pos hdone]
    exact .ok h rfl
  · rw [if_neg hdone, if_neg hdone]
    by_cases hstrict : setting.strict = true
    · rw [if_pos hstrict, if_pos hstrict]
      have hshown : Failure.unsettled (String.ofList framed.text) setting.maxPasses =
          (Failure.unsettled (String.ofList current.text) setting.maxPasses).framed before behind := by
        rw [Failure.framed, String.toList_ofList, h]
      rw [hshown]
      exact .error _ rfl
    · rw [if_neg hstrict, if_neg hstrict]
      exact .ok h rfl

/-- **All passes.** In each of them the two texts have the same tokens, and one changes if the other does. -/
theorem passes_framed (limit : Nat) {current framed : Filled} (h : framed.text = before ++ current.text ++ behind)
    (world : World σ) :
    FramedEnd before behind ((setting.passes path limit current >>= setting.conclude).run world)
        ((setting.passes path limit framed >>= setting.conclude).run world) ∧
      setting.callsOfPasses path limit framed world = setting.callsOfPasses path limit current world := by
  induction limit generalizing current framed world with
  | zero => exact ⟨conclude_framed hp hq h false world, rfl⟩
  | succ limit ih =>
    have htokens : tokens framed.text = tokens current.text := by
      rw [h, tokens_framed hp hq]
    by_cases ht : tokens current.text = []
    · have ht' : tokens framed.text = [] := htokens.trans ht
      rw [passes_of_no_tokens path _ ht, passes_of_no_tokens path _ ht', callsOfPasses_of_no_tokens _ ht,
        callsOfPasses_of_no_tokens _ ht']
      exact ⟨.ok h rfl, rfl⟩
    · have ht' : tokens framed.text ≠ [] := by rwa [htokens]
      have hfound : ∀ token ∈ tokens current.text, ∃ inside, token = bracket inside := by
        intro token htoken
        obtain ⟨inside, -, rfl, -⟩ := exists_balanced_of_mem (List.mem_eraseDups.mp htoken)
        exact ⟨inside, rfl⟩
      obtain ⟨hpass, hcalls⟩ : Framed before behind
            ((setting.pass path (tokens current.text) current.text).run world)
            ((setting.pass path (tokens current.text) framed.text).run world) ∧ _ :=
        pass_framed hp hq hfound h world
      rw [passes_succ path limit ht, passes_succ path limit ht', run_bind, run_bind, callsOfPasses_succ limit ht,
        callsOfPasses_succ limit ht', htokens, hcalls]
      -- a pass fails because a token has no value, and such a failure shows no text
      have hfails : (setting.pass path (tokens current.text) current.text).FailsOnly
          fun failure => failure.framed before behind = failure := pass_failsOnly (.plain fun _ _ => rfl) _ _
      generalize hrun : (setting.pass path (tokens current.text) current.text).run world = result at hpass ⊢
      generalize (setting.pass path (tokens current.text) framed.text).run world = result' at hpass ⊢
      cases hpass with
      | error failure after =>
        have hend : FramedEnd before behind (.error failure, after) (.error (failure.framed before behind), after) :=
          .error failure rfl
        rw [hfails.of_run hrun] at hend
        exact ⟨hend, rfl⟩
      | @ok next next' hnext after =>
        have hsame : next'.text = framed.text ↔ next.text = current.text := by
          rw [hnext, h, List.append_left_inj, List.append_right_inj]
        by_cases hunchanged : next.text = current.text
        · dsimp only
          rw [if_pos hunchanged, if_pos hunchanged, if_pos (hsame.mpr hunchanged), if_pos (hsame.mpr hunchanged)]
          exact ⟨.ok hnext rfl, rfl⟩
        · have hchanged : ¬ next'.text = framed.text := fun h => hunchanged (hsame.mp h)
          dsimp only
          rw [if_neg hunchanged, if_neg hunchanged, if_neg hchanged, if_neg hchanged]
          obtain ⟨hend, hrest⟩ := ih hnext after
          exact ⟨hend, congrArg _ hrest⟩

end

/-- **Text without braces around a text changes nothing about its substitution.** Whatever stands in the text, and
whatever state plugins keep, the same tokens are resolved in the same order, pass by pass and each in the same world,
and the same questions are asked. If the text becomes another one, the framed text becomes that one in its frame; if
it fails, the framed text fails for the same token and the same cause, or, if it has not settled, with a text that is
shown in its frame. -/
theorem substitute_framed (hp : Braceless before) (hq : Braceless behind) (setting : Setting σ)
    (path : Option Path) (text : List Char) (world : World σ) :
    setting.calls path (before ++ text ++ behind) world = setting.calls path text world ∧
    (setting.substitute path (before ++ text ++ behind)).asked world =
      (setting.substitute path text).asked world ∧
    FramedEnd before behind ((setting.substitute path text).run world)
      ((setting.substitute path (before ++ text ++ behind)).run world) := by
  have hframed : ({ text := before ++ text ++ behind } : Filled).text =
      before ++ ({ text } : Filled).text ++ behind := rfl
  obtain ⟨hend, hcalls⟩ : FramedEnd before behind
        ((setting.passes path setting.maxPasses.toNat { text } >>= setting.conclude).run world)
        ((setting.passes path setting.maxPasses.toNat { text := before ++ text ++ behind } >>=
          setting.conclude).run world) ∧
      setting.calls path (before ++ text ++ behind) world = setting.calls path text world :=
    passes_framed hp hq setting.maxPasses.toNat hframed world
  refine ⟨hcalls, ?_, hend⟩
  rw [asked_substitute, asked_substitute, hcalls]

/-! ## A token in front of an open pair -/

/-- A token that is counted, and a pair that is opened behind it and not closed. -/
def countAndOpen : List Char :=
  bracket "count:a".toList ++ '{' :: '{' :: "b".toList

theorem occurrences_countAndOpen : occurrences countAndOpen = [bracket "count:a".toList] := by
  have hinside : Balanced "count:a".toList := balanced_of_braceless (by decide)
  have hnone : occurrences "count:a".toList = [] := by
    have hempty := occurrences_braceless_append (by decide : Braceless "count:a".toList) []
    rwa [List.append_nil, occurrences_nil] at hempty
  rw [countAndOpen, occurrences_bracket hinside, hnone, occurrences_unclosed (unclosed_of_braceless (by decide)),
    List.append_nil]

theorem substitute_countAndOpen :
    (counting.substitute none countAndOpen).run { state := 0 } =
      (.ok { text := "0\x7b\x7bb".toList }, { state := 1 }) := by
  have htokens : tokens countAndOpen = [bracket "count:a".toList] := by
    rw [tokens, occurrences_countAndOpen]
    rfl
  have hfound : tokens countAndOpen ≠ [] := by
    rw [htokens]
    exact List.cons_ne_nil _ _
  have hpass : (counting.pass none (tokens countAndOpen) countAndOpen).run { state := 0 } =
      (.ok { text := "0\x7b\x7bb".toList }, { state := 1 }) := by
    rw [htokens]
    rfl
  have hleft : tokens "0\x7b\x7bb".toList = [] := by
    have hplain : ¬ ∃ tail, '0' = '{' ∧ '{' :: '{' :: "b".toList = '{' :: tail := by
      rintro ⟨tail, hopen, -⟩
      exact absurd hopen (by decide)
    show (occurrences ('0' :: '{' :: '{' :: "b".toList)).eraseDups = []
    rw [occurrences_cons hplain, occurrences_unclosed (unclosed_of_braceless (by decide))]
    rfl
  have hlimit : counting.maxPasses.toNat = 9 + 1 := rfl
  rw [substitute_eq_conclude, hlimit, passes_succ none 9 hfound, run_bind, hpass]
  dsimp only
  rw [if_neg (by decide), passes_of_no_tokens none 9 hleft]
  rfl

/-- In a frame, the token is counted as well, and the open pair stays open. -/
theorem substitute_framed_countAndOpen :
    Braceless "<".toList ∧ Braceless ">".toList ∧
    ∃ framed after, (counting.substitute none ("<".toList ++ countAndOpen ++ ">".toList)).run { state := 0 } =
      (.ok framed, after) ∧ framed.text = "<0\x7b\x7bb>".toList ∧ after.state = 1 := by
  have hp : Braceless "<".toList := by decide
  have hq : Braceless ">".toList := by decide
  obtain ⟨-, -, hend⟩ := substitute_framed hp hq counting none countAndOpen { state := 0 }
  rw [substitute_countAndOpen] at hend
  refine ⟨hp, hq, ?_⟩
  generalize (counting.substitute none ("<".toList ++ countAndOpen ++ ">".toList)).run { state := 0 } = result
    at hend ⊢
  cases hend with
  | ok h hstate => exact ⟨_, _, rfl, h, hstate⟩

end Setting

end Template
