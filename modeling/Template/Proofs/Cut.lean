import Template.Proofs.Asked
import Template.Proofs.Concurrency

/-!
# `Template.Proofs.Cut` — scripts that are cut off

A limit takes something away from a run and puts a failure in its place: up to there, the run with the limit and
the run without it are the same. Said of scripts, one is the other **cut off** in places. It does not matter
what the plugins answer, nor what state they keep: run in the same world, the two ask the same and come to the
same, or the first one fails with the error of the cut after part of the questions of the second
(`Cut.run_cases`).

## Contents
- `Script.Cut`, `Plan.Cut` — scripts and plans cut off by errors with a property.
- `Cut.bind`, `Cut.inOrder` — composition keeps the relation.
- `Setting.passes_cut`, `Setting.fillString_cut` — substitution, and the strings of a document.
- `Setting.plan_cut`, `Setting.fill_cut_cases` — documents, from their strings.
- `Engine.generate_cut_cases` — templates, one part after the other.
-/

namespace Template

variable {σ ε α β : Type} {P : ε → Prop}

namespace Script

/-- The first script is the second one, cut off in places: there it leaves a note and fails with an error that
    has the property, whatever the second one does. -/
inductive Cut (P : ε → Prop) : Script σ ε α → Script σ ε α → Prop where
  | off (message : String) {error : ε} (h : P error) (long : Script σ ε α) :
      Cut P (note message (fail error)) long
  | done (value : α) : Cut P (done value) (done value)
  | fail (error : ε) : Cut P (fail error) (fail error)
  | note (message : String) {short long : Script σ ε α} (h : Cut P short long) :
      Cut P (note message short) (note message long)
  | ask (plugin : Plugin σ) (placeholder : Placeholder) (context : Context)
      {short long : Reply → Script σ ε α} (h : ∀ reply, Cut P (short reply) (long reply)) :
      Cut P (ask plugin placeholder context short) (ask plugin placeholder context long)
  | pause {short long : Script σ ε α} (h : Cut P short long) : Cut P (pause short) (pause long)

theorem Cut.refl (script : Script σ ε α) : Cut P script script := by
  induction script with
  | done value => exact .done value
  | fail error => exact .fail error
  | note message next ih => exact .note message ih
  | ask plugin placeholder context next ih => exact .ask plugin placeholder context ih
  | pause next ih => exact .pause ih

theorem Cut.bind {short long : Script σ ε α} {f g : α → Script σ ε β} (h : Cut P short long)
    (hf : ∀ value, Cut P (f value) (g value)) : Cut P (short >>= f) (long >>= g) := by
  show Cut P (short.bind f) (long.bind g)
  induction h with
  | off message h long => exact .off message h _
  | done value => exact hf value
  | fail error => exact .fail error
  | note message _ ih => exact .note message ih
  | ask plugin placeholder context _ ih => exact .ask plugin placeholder context ih
  | pause _ ih => exact .pause ih

theorem bind_assoc {γ : Type} (script : Script σ ε α) (f : α → Script σ ε β) (g : β → Script σ ε γ) :
    script >>= f >>= g = script >>= fun value => f value >>= g := by
  show (script.bind f).bind g = script.bind fun value => (f value).bind g
  induction script with
  | done value => rfl
  | fail error => rfl
  | note message next ih => simp only [Script.bind, ih]
  | ask plugin placeholder context next ih => simp only [Script.bind, ih]
  | pause next ih => simp only [Script.bind, ih]

/-- **Run in the same world, a script that is cut off asks the same and comes to the same**, or it fails with the
    error of the cut, and has asked part of what the other one asks. -/
theorem Cut.run_cases {short long : Script σ ε α} (h : Cut P short long) (world : World σ) :
    (short.run world = long.run world ∧ short.asked world = long.asked world) ∨
      ∃ error, P error ∧ (short.run world).1 = .error error ∧ short.asked world <+: long.asked world := by
  induction h generalizing world with
  | off message h long => exact .inr ⟨_, h, rfl, List.nil_prefix⟩
  | done value => exact .inl ⟨rfl, rfl⟩
  | fail error => exact .inl ⟨rfl, rfl⟩
  | note message _ ih => exact ih (world.note message)
  | ask plugin placeholder context _ ih =>
    simp only [run, asked, List.cons.injEq, true_and, List.prefix_cons_inj]
    exact ih _ _
  | pause _ ih => exact ih world

/-- A script that is cut off and has a value nevertheless has not come to a cut. -/
theorem Cut.run_eq {short long : Script σ ε α} (h : Cut P short long) {world : World σ} {value : α}
    (hv : (short.run world).1 = .ok value) :
    long.run world = short.run world ∧ long.asked world = short.asked world := by
  rcases h.run_cases world with ⟨hrun, hasked⟩ | ⟨error, -, herror, -⟩
  · exact ⟨hrun.symm, hasked.symm⟩
  · cases hv.symm.trans herror

end Script

/-! ## Plans -/

namespace Plan

mutual

/-- The first plan is the second one, with scripts that are cut off. -/
inductive Cut (P : ε → Prop) : Plan σ ε α → Plan σ ε α → Prop where
  | work {short long : Script σ ε α} (h : short.Cut P long) : Cut P (.work short) (.work long)
  | split (build : List α → α) {parts parts' : List (Plan σ ε α)} (h : CutAll P parts parts') :
      Cut P (.split build parts) (.split build parts')

/-- The same for several plans, one by one. -/
inductive CutAll (P : ε → Prop) : List (Plan σ ε α) → List (Plan σ ε α) → Prop where
  | nil : CutAll P [] []
  | cons {plan plan' : Plan σ ε α} {rest rest' : List (Plan σ ε α)} (h : Cut P plan plan')
      (hr : CutAll P rest rest') : CutAll P (plan :: rest) (plan' :: rest')

end

mutual

/-- **One part after the other, a plan that is cut off is a script that is.** -/
theorem Cut.inOrder {plan plan' : Plan σ ε α} (h : plan.Cut P plan') : plan.inOrder.Cut P plan'.inOrder := by
  match h with
  | .work h => exact h
  | .split build h => exact h.inOrderAll.bind fun values => .done (build values)

theorem CutAll.inOrderAll {plans plans' : List (Plan σ ε α)} (h : CutAll P plans plans') :
    (Plan.inOrderAll plans).Cut P (Plan.inOrderAll plans') := by
  match h with
  | .nil => exact .done []
  | .cons h hr =>
    refine h.inOrder.bind fun value => ?_
    exact hr.inOrderAll.bind fun values => .done (value :: values)

end

end Plan

namespace Setting

variable {setting setting' : Setting σ} {P : Failure → Prop}

/-! ## Texts and strings -/

/-- The end of substitution, after the last pass. -/
def conclude (setting : Setting σ) (last : Filled × Bool) : Script σ Failure Filled :=
  if last.2 || (Token.tokens last.1.text).isEmpty then
    return last.1
  else
    let shown := String.ofList last.1.text
    .note s!"Substitution stopped after {setting.maxPasses.toNat} passes: {shown}" <|
      if setting.strict then .fail (.unsettled shown setting.maxPasses) else .done last.1

theorem substitute_eq_conclude (path : Option Path) (text : List Char) :
    setting.substitute path text =
      setting.passes path setting.maxPasses.toNat { text } >>= setting.conclude := rfl

/-- A text without tokens has settled. -/
theorem conclude_of_no_tokens {filled : Filled} (ht : Token.tokens filled.text = []) (settled : Bool) :
    setting.conclude (filled, settled) = .done filled := by
  have hempty : (settled || (Token.tokens filled.text).isEmpty) = true := by
    rw [ht, List.isEmpty_nil, Bool.or_true]
  exact if_pos hempty

theorem passes_of_no_tokens (path : Option Path) (limit : Nat) {current : Filled}
    (ht : Token.tokens current.text = []) :
    (setting.passes path limit current >>= setting.conclude) = .done current := by
  cases limit with
  | zero => exact conclude_of_no_tokens ht false
  | succ limit =>
    rw [passes, ht]
    rfl

theorem passes_succ (path : Option Path) (limit : Nat) {current : Filled}
    (ht : Token.tokens current.text ≠ []) :
    (setting.passes path (limit + 1) current >>= setting.conclude) =
      setting.pass path (Token.tokens current.text) current.text >>= fun next =>
        if next.text = current.text then .done next
        else setting.passes path limit next >>= setting.conclude := by
  have hpasses : setting.passes path (limit + 1) current =
      setting.pass path (Token.tokens current.text) current.text >>= fun next =>
        if next.text = current.text then .done (next, true) else setting.passes path limit next := by
    rw [passes]
    split
    · exact absurd ‹_› ht
    · rfl
  rw [hpasses, Script.bind_assoc]
  congr 1
  funext next
  split <;> rfl

/-- **Substitution that is cut off in its passes or behind the last of them.** The other substitution may make
    more passes. -/
theorem passes_cut {path : Option Path} {more : Nat}
    (hpass : ∀ found text, (setting.pass path found text).Cut P (setting'.pass path found text))
    (hend : ∀ filled,
      (setting.conclude (filled, false)).Cut P (setting'.passes path more filled >>= setting'.conclude))
    (few : Nat) (current : Filled) :
    (setting.passes path few current >>= setting.conclude).Cut P
      (setting'.passes path (few + more) current >>= setting'.conclude) := by
  induction few generalizing current with
  | zero =>
    rw [Nat.zero_add]
    exact hend current
  | succ few ih =>
    by_cases ht : Token.tokens current.text = []
    · rw [passes_of_no_tokens path _ ht, passes_of_no_tokens path _ ht]
      exact .done current
    · rw [Nat.add_right_comm, passes_succ path _ ht, passes_succ path _ ht]
      refine (hpass _ _).bind fun next => ?_
      by_cases hsame : next.text = current.text
      · rw [if_pos hsame, if_pos hsame]
        exact .done next
      · rw [if_neg hsame, if_neg hsame]
        exact ih next

theorem fillText_cut (h : ∀ text, (setting.substitute none text).Cut P (setting'.substitute none text))
    (text : List Char) : (setting.fillText text).Cut P (setting'.fillText text) := by
  unfold fillText
  split
  · exact .done text
  · exact (h text).bind fun filled => .done filled.text

/-- A string is cut off if tokens and texts at its place are. -/
theorem fillString_cut {path : Path}
    (hr : ∀ token, (setting.resolve (some path) token).Cut P (setting'.resolve (some path) token))
    (hs : ∀ text, (setting.substitute (some path) text).Cut P (setting'.substitute (some path) text))
    (s : String) : (setting.fillString path s).Cut P (setting'.fillString path s) := by
  unfold fillString
  dsimp only
  split
  · exact .done _
  · split
    · exact hr s.toList
    · refine (hs s.toList).bind fun result => ?_
      split
      · exact .done _
      · split
        · exact .done _
        · split
          · exact hr result.text
          · exact .done _

/-! ## Documents -/

mutual

/-- **The plan of a document is cut off if all its strings are.** -/
theorem plan_cut (path : Path) (value : Json)
    (h : ∀ leaf ∈ value.leaves path,
      (setting.fillString leaf.1 leaf.2).Cut P (setting'.fillString leaf.1 leaf.2)) :
    (setting.plan path value).Cut P (setting'.plan path value) := by
  match value with
  | .string s => exact .work (h (path, s) List.mem_cons_self)
  | .array items => exact .split _ (plansOfItems_cut path 0 items h)
  | .object members => exact .split _ (plansOfMembers_cut path members h)
  | .null => exact .work (.done _)
  | .bool b => exact .work (.done _)
  | .number n => exact .work (.done _)

theorem plansOfItems_cut (path : Path) (index : Nat) (items : List Json)
    (h : ∀ leaf ∈ Json.leavesOfItems path index items,
      (setting.fillString leaf.1 leaf.2).Cut P (setting'.fillString leaf.1 leaf.2)) :
    Plan.CutAll P (setting.plansOfItems path index items) (setting'.plansOfItems path index items) := by
  match items with
  | [] => exact .nil
  | item :: rest =>
    refine .cons (plan_cut _ item ?_) (plansOfItems_cut path (index + 1) rest ?_)
    · intro leaf hleaf
      exact h leaf (List.mem_append_left _ hleaf)
    · intro leaf hleaf
      exact h leaf (List.mem_append_right _ hleaf)

theorem plansOfMembers_cut (path : Path) (members : List (String × Json))
    (h : ∀ leaf ∈ Json.leavesOfMembers path members,
      (setting.fillString leaf.1 leaf.2).Cut P (setting'.fillString leaf.1 leaf.2)) :
    Plan.CutAll P (setting.plansOfMembers path members) (setting'.plansOfMembers path members) := by
  match members with
  | [] => exact .nil
  | (name, value) :: rest =>
    refine .cons (plan_cut _ value ?_) (plansOfMembers_cut path rest ?_)
    · intro leaf hleaf
      exact h leaf (List.mem_append_left _ hleaf)
    · intro leaf hleaf
      exact h leaf (List.mem_append_right _ hleaf)

end

/-- **One part after the other, a document whose strings are cut off** comes to the same as without the cut, after
    the same questions, or fails with the error of a cut, after part of them. -/
theorem fill_cut_cases (hc : setting.options.concurrent = false) (hc' : setting'.options.concurrent = false)
    {path : Path} {value : Json} (world : World σ)
    (h : ∀ leaf ∈ value.leaves path,
      (setting.fillString leaf.1 leaf.2).Cut P (setting'.fillString leaf.1 leaf.2)) :
    (setting.fill path value world = setting'.fill path value world ∧
        setting.questions path value world = setting'.questions path value world) ∨
      ∃ failure, P failure ∧ (setting.fill path value world).1 = .error failure ∧
        setting.questions path value world <+: setting'.questions path value world := by
  unfold fill questions
  rw [hc, hc']
  exact (plan_cut path value h).inOrder.run_cases world

end Setting

/-! ## Templates -/

namespace Engine

variable {engine engine' : Engine σ} {options options' : Options} {P : Failure → Prop}

/-- **One part after the other, a template whose strings are cut off** gives the same result as without the cut,
    after the same questions, or fails with the error of a cut, after part of them. -/
theorem generate_cut_cases (hf : options'.format = options.format)
    (hi : engine'.settings.indent = engine.settings.indent)
    (hc : options.format = .json → options.concurrent = false ∧ options'.concurrent = false)
    (ht : ∀ text, ((engine.setting options).fillText text).Cut P ((engine'.setting options').fillText text))
    (hs : ∀ path s,
      ((engine.setting options).fillString path s).Cut P ((engine'.setting options').fillString path s))
    (content : List Char) (world : World σ) :
    (engine.generate options content world = engine'.generate options' content world ∧
        engine.questions options content world = engine'.questions options' content world) ∨
      ∃ failure, P failure ∧ (engine.generate options content world).1 = .error failure ∧
        engine.questions options content world <+: engine'.questions options' content world := by
  unfold generate questions
  rw [hf]
  cases hformat : options.format with
  | text => exact (ht content).run_cases world
  | xml => exact .inl ⟨rfl, rfl⟩
  | json =>
    dsimp only
    unfold generateDocument
    rw [hi]
    cases Json.read content with
    | error fault => exact .inl ⟨rfl, rfl⟩
    | ok value =>
      dsimp only
      have hshort : (engine.setting options).options.concurrent = false := (hc hformat).1
      have hlong : (engine'.setting options').options.concurrent = false := (hc hformat).2
      rcases Setting.fill_cut_cases hshort hlong world fun leaf (_ : leaf ∈ value.leaves []) => hs leaf.1 leaf.2
        with ⟨hfill, hasked⟩ | ⟨failure, hp, herror, hasked⟩
      · rw [hfill]
        exact .inl ⟨rfl, hasked⟩
      · refine .inr ⟨failure, hp, ?_, hasked⟩
        rw [herror]
        rfl

end Engine

end Template
