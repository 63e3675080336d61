import Template.Proofs.Identifier

/-!
# `Template.Proofs.Generated` — calls that use up random numbers

A call to the module `gen` with an argument takes its value from it, and one with an unknown action fails; neither looks at
the random numbers. All other calls use up a fixed count of them. So in a row of calls, those that do not draw can be left
out, put in or changed: the replies to all others stay the same, number for number.

## Contents
- `Bare`, `Settled` — calls without an argument, and calls that do not draw.
- `resolve_settled`, `resolve_drawn` — one call.
- `replies`, `replies_filter` — rows of calls.
- `Action.Makes`, `draw_makes` — what is made from random numbers.
- `draws_of_bare_calls` — all of this for the plugin.
-/

namespace Template

/-- Random numbers with so many more of them used up. -/
def Draws.skip (draws : Draws) (count : ℕ) : Draws :=
  { draws with used := draws.used + count }

theorem Draws.take_snd (count : ℕ) (draws : Draws) : (take count draws).2 = draws.skip count := by
  have hsource := source_take count draws
  have hused := used_take count draws
  generalize (take count draws).2 = left at hsource hused
  obtain ⟨source, used⟩ := left
  cases hsource
  cases hused
  rfl

theorem Draws.length_take (count : ℕ) (draws : Draws) : (take count draws).1.length = count := by
  induction count generalizing draws with
  | zero => rfl
  | succ count ih => simp only [take, List.length_cons, ih]

namespace Generator

/-! ## One call -/

/-- There is no first argument, or it is empty. -/
def Bare (arguments : List String) : Prop :=
  ∀ first, arguments.head? = some first → first = ""

/-- The words for the actions. -/
def words : List String := ["uuid", "number", "zugnummer", "string", "boolean"]

theorem given?_eq_none_iff {arguments : List String} : given? arguments = none ↔ Bare arguments := by
  unfold Bare
  cases arguments with
  | nil => simp [given?]
  | cons first rest => simp [given?]

theorem lookup_eq_none_iff {asked : String} : actions.lookup asked = none ↔ asked ∉ words := by
  rw [List.lookup_eq_none_iff]
  simp [actions, words]

/-- A call that does not draw: it has an argument, or its action is not known. -/
def Settled (call : Placeholder) : Prop :=
  ¬Bare call.args ∨ call.action ∉ words

theorem resolve_eq (call : Placeholder) (context : Context) (draws : Draws) :
    plugin.resolve call context draws =
      ({ answer := (answer call.action call.args draws).1.map .value }, (answer call.action call.args draws).2) := rfl

/-- **A call that does not draw** has the same reply whatever the random numbers are. -/
theorem resolve_settled {call : Placeholder} (h : Settled call) (context : Context) :
    ∃ reply, ∀ draws, plugin.resolve call context draws = (reply, draws) := by
  obtain ⟨outcome, houtcome⟩ : ∃ outcome, ∀ draws, answer call.action call.args draws = (outcome, draws) := by
    cases haction : actions.lookup call.action with
    | none => exact ⟨_, fun draws => by rw [answer, haction]⟩
    | some action =>
      cases hgiven : given? call.args with
      | some argument => exact ⟨_, fun draws => by rw [answer, haction, hgiven]⟩
      | none =>
        -- an action that is known, and no argument
        rcases h with hbare | hunknown
        · exact absurd (given?_eq_none_iff.mp hgiven) hbare
        · rw [lookup_eq_none_iff.mpr hunknown] at haction
          cases haction
  refine ⟨{ answer := outcome.map .value }, fun draws => ?_⟩
  rw [resolve_eq, houtcome]

/-- How many random numbers the value of an action takes. -/
def Action.count : Action → ℕ
  | .text => textLength
  | .identifier | .number | .boolean => 1

theorem draw_snd (action : Action) (draws : Draws) : (action.draw draws).2 = draws.skip action.count := by
  cases action with
  | text => exact Draws.take_snd textLength draws
  | identifier | number | boolean => rfl

/-- **A call that draws** has a value, and uses up the random numbers that it takes. -/
theorem resolve_drawn {call : Placeholder} {action : Action} (hbare : Bare call.args)
    (haction : actions.lookup call.action = some action) (context : Context) (draws : Draws) :
    plugin.resolve call context draws =
      ({ answer := .ok (.value (action.draw draws).1) }, draws.skip action.count) := by
  rw [resolve_eq, answer, haction, given?_eq_none_iff.mpr hbare, ← draw_snd]
  rfl

/-! ## Rows of calls -/

/-- Calls one after the other, each with its reply, and the random numbers after it. -/
def replies : List (Placeholder × Context) → Draws → List ((Placeholder × Context) × Reply) × Draws
  | [], draws => ([], draws)
  | call :: rest, draws =>
    let (reply, draws) := plugin.resolve call.1 call.2 draws
    let (others, draws) := replies rest draws
    ((call, reply) :: others, draws)

theorem replies_cons (call : Placeholder × Context) (rest : List (Placeholder × Context)) {draws left : Draws} {reply : Reply}
    (h : plugin.resolve call.1 call.2 draws = (reply, left)) :
    replies (call :: rest) draws = ((call, reply) :: (replies rest left).1, (replies rest left).2) := by
  rw [replies, h]

/-- **Calls that do not draw may be left out**: the others have the same replies, and the same random numbers are left. -/
theorem replies_filter {keep : Placeholder × Context → Bool} (hkeep : ∀ call, keep call = false → Settled call.1)
    (calls : List (Placeholder × Context)) (draws : Draws) :
    replies (calls.filter keep) draws =
      ((replies calls draws).1.filter (keep ·.1), (replies calls draws).2) := by
  induction calls generalizing draws with
  | nil => rfl
  | cons call rest ih =>
    obtain ⟨⟨reply, left⟩, hreply⟩ : ∃ replied, plugin.resolve call.1 call.2 draws = replied := ⟨_, rfl⟩
    rw [replies_cons call rest hreply]
    cases hcall : keep call with
    | true =>
      rw [List.filter_cons_of_pos hcall, replies_cons _ _ hreply, ih, List.filter_cons_of_pos (by exact hcall)]
    | false =>
      obtain ⟨settled, hsettled⟩ := resolve_settled (hkeep call hcall) call.2
      cases (hsettled draws).symm.trans hreply
      rw [List.filter_cons_of_neg (by simp [hcall]), List.filter_cons_of_neg (by simp [hcall])]
      exact ih draws

/-! ## What is made -/

theorem isAlphanum_of_mem_alphabet : ∀ c ∈ alphabet, c.isAlphanum = true := by
  have hall : alphabet.all Char.isAlphanum = true := by decide
  exact List.all_eq_true.mp hall

theorem isAlphanum_letter (n : ℕ) : (letter n).isAlphanum = true := by
  have hlt : n % alphabet.length < alphabet.length := Nat.mod_lt n (by decide)
  rw [letter, List.getD_eq_getElem?_getD, List.getElem?_eq_getElem hlt]
  exact isAlphanum_of_mem_alphabet _ (List.getElem_mem hlt)

/-- What an action makes, if `n` is the next random number. -/
def Action.Makes (n : ℕ) (value : Json) : Action → Prop
  | .identifier => ∃ text, value = .string text ∧ IsUuid n text.toList
  | .number => ∃ k : ℕ, k ≤ 9999 ∧ value = .int k
  | .text => ∃ text, value = .string text ∧ text.toList.length = 8 ∧ ∀ c ∈ text.toList, c.isAlphanum = true
  | .boolean => ∃ b, value = .bool b

theorem draw_makes (action : Action) (draws : Draws) :
    action.Makes (draws.source draws.used) (action.draw draws).1 := by
  cases action with
  | identifier =>
    refine ⟨_, rfl, ?_⟩
    rw [String.toList_ofList]
    exact isUuid_uuid _
  | number => exact ⟨_, Nat.le_of_lt_succ (Nat.mod_lt _ (by decide)), rfl⟩
  | text =>
    refine ⟨String.ofList ((draws.take textLength).1.map letter), rfl, ?_, ?_⟩
    · rw [String.toList_ofList, List.length_map, Draws.length_take]
      rfl
    · rw [String.toList_ofList]
      intro c hc
      obtain ⟨n, -, rfl⟩ := List.mem_map.mp hc
      exact isAlphanum_letter n
  | boolean => exact ⟨_, rfl⟩

/-- A known word asks for an action. -/
theorem exists_action {word : String} (h : word ∈ words) :
    ∃ action, actions.lookup word = some action ∧ action.count = (if word = "string" then 8 else 1) ∧
      (word = "uuid" → action = .identifier) ∧ (word = "number" ∨ word = "zugnummer" → action = .number) ∧
      (word = "string" → action = .text) ∧ (word = "boolean" → action = .boolean) := by
  simp only [words, List.mem_cons, List.not_mem_nil, or_false] at h
  rcases h with rfl | rfl | rfl | rfl | rfl
  · exact ⟨.identifier, by decide⟩
  · exact ⟨.number, by decide⟩
  · exact ⟨.number, by decide⟩
  · exact ⟨.text, by decide⟩
  · exact ⟨.boolean, by decide⟩

/-! ## Seeded calls -/

/-- **Only bare calls draw.** A call with an argument or an unknown action draws nothing, and its reply does not depend on the
random numbers. Every other call has a value: an identifier, a number or a truth value takes one random number, and a text
takes eight. Rows of calls that differ only in calls that do not draw have the same replies to all others, and leave the same
random numbers. The values are UUIDs of version 4 that show the random number, numbers up to 9999, and texts of eight letters
and digits. -/
theorem draws_of_bare_calls :
    (∀ (call : Placeholder) context, (∃ first rest, call.args = first :: rest ∧ first ≠ "") ∨ call.action ∉ words →
      ∃ reply, ∀ draws, plugin.resolve call context draws = (reply, draws)) ∧
    (∀ (call : Placeholder) context (draws : Draws), (call.args = [] ∨ ∃ rest, call.args = "" :: rest) →
      call.action ∈ words →
      ∃ value, plugin.resolve call context draws =
          ({ answer := .ok (.value value) }, draws.skip (if call.action = "string" then 8 else 1)) ∧
        (call.action = "uuid" → ∃ text, value = .string text ∧ IsUuid (draws.source draws.used) text.toList) ∧
        (call.action = "number" ∨ call.action = "zugnummer" → ∃ k : ℕ, k ≤ 9999 ∧ value = .int k) ∧
        (call.action = "string" →
          ∃ text, value = .string text ∧ text.toList.length = 8 ∧ ∀ c ∈ text.toList, c.isAlphanum = true) ∧
        (call.action = "boolean" → ∃ b, value = .bool b)) ∧
    (∀ keep : Placeholder × Context → Bool, (∀ call, keep call = false → Settled call.1) →
      ∀ calls calls', calls.filter keep = calls'.filter keep → ∀ draws,
        (replies calls draws).1.filter (keep ·.1) = (replies calls' draws).1.filter (keep ·.1) ∧
          (replies calls draws).2 = (replies calls' draws).2) := by
  refine ⟨?_, ?_, ?_⟩
  · intro call context hcall
    refine resolve_settled ?_ context
    rcases hcall with ⟨first, rest, hargs, hfirst⟩ | hunknown
    · exact .inl fun hbare => hfirst (hbare first (by rw [hargs]; rfl))
    · exact .inr hunknown
  · intro call context draws hargs hword
    have hbare : Bare call.args := by
      intro first hfirst
      rcases hargs with hargs | ⟨rest, hargs⟩
      · rw [hargs] at hfirst
        cases hfirst
      · rw [hargs] at hfirst
        cases hfirst
        rfl
    obtain ⟨action, haction, hcount, hidentifier, hnumber, htext, hboolean⟩ := exists_action hword
    have hresolve := resolve_drawn hbare haction context draws
    have hmakes := draw_makes action draws
    rw [hcount] at hresolve
    generalize (action.draw draws).1 = value at hresolve hmakes
    refine ⟨value, hresolve, fun h => ?_, fun h => ?_, fun h => ?_, fun h => ?_⟩
    · rwa [hidentifier h] at hmakes
    · rwa [hnumber h] at hmakes
    · rwa [htext h] at hmakes
    · rwa [hboolean h] at hmakes
  · intro keep hkeep calls calls' heq draws
    have hcalls := replies_filter hkeep calls draws
    rw [heq, replies_filter hkeep calls' draws] at hcalls
    obtain ⟨hreplies, hleft⟩ := Prod.mk.inj hcalls
    exact ⟨hreplies.symm, hleft.symm⟩

/-- A call for an action with arguments. -/
def asking (action : String) (args : List String) : Placeholder × Context :=
  ({ token := "", module := name, action, args, transforms := [] }, {})

/-- A call with an argument is put in, one is changed, and the number behind them stays the same. -/
theorem draws_of_bare_calls_inserted :
    (∃ reply, ∀ draws, plugin.resolve (asking "number" ["42"]).1 {} draws = (reply, draws)) ∧
    (∃ value, plugin.resolve (asking "string" [""]).1 {} { source := id } =
      ({ answer := .ok (.value value) }, { source := id, used := 8 })) ∧
    (replies [asking "uuid" [], asking "number" ["42"], asking "number" []] { source := id }).1.filter
        (fun replied => (given? replied.1.1.args).isNone) =
      (replies [asking "number" ["43"], asking "uuid" [], asking "string" ["a"], asking "number" []]
        { source := id }).1.filter (fun replied => (given? replied.1.1.args).isNone) := by
  obtain ⟨hsettled, hdrawn, hrows⟩ := draws_of_bare_calls
  refine ⟨hsettled _ _ (.inl ⟨"42", [], rfl, by decide⟩), ?_, ?_⟩
  · obtain ⟨value, hvalue, -⟩ := hdrawn (asking "string" [""]).1 {} { source := id } (.inr ⟨[], rfl⟩) (by decide)
    exact ⟨value, hvalue⟩
  · refine (hrows (fun call => (given? call.1.args).isNone) ?_ _ _ rfl { source := id }).1
    intro call hcall
    refine .inl fun hbare => ?_
    rw [given?_eq_none_iff.mpr hbare] at hcall
    cases hcall

end Generator

end Template
