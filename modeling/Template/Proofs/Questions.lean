import Template.Document

/-!
# `Template.Proofs.Questions` — what scripts ask, and how they may fail

Running a script alone gives a result and changes the world. It also puts questions to plugins, one after the
other, and which ones these are may depend on the answers. `Script.asked` lists them; a script after another
one asks the questions of both, in this order (`asked_bind`).

What a script may fail with can be read off the script, whatever the plugins answer: `Script.FailsOnly`. The
scripts of a run fail with an error of the very string that they work on (`fillString_failsOnly`), or with one that
stands in for the words of a value or a cause (`Failure.Covers`, `fillString_failsOnly_of`).
-/

namespace Template

variable {σ ε ε' α β : Type}

/-- A question that is put to a plugin. -/
structure Question (σ : Type) where
  /-- The plugin that is asked. -/
  plugin : Plugin σ
  /-- The parts of the token for which it is asked. -/
  placeholder : Placeholder
  /-- The context that it is asked in. -/
  context : Context

namespace Script

/-! ## Questions -/

/-- The questions of a script that runs alone, in order. -/
def asked (script : Script σ ε α) (world : World σ) : List (Question σ) :=
  match script with
  | done _ => []
  | fail _ => []
  | note message next => next.asked (world.note message)
  | ask plugin placeholder context next =>
    let (reply, state) := plugin.resolve placeholder context world.state
    { plugin, placeholder, context } :: (next reply).asked { world with state }
  | pause next => next.asked world

/-- A script after another one asks the questions of both, those of the second if there is one. -/
theorem asked_bind (script : Script σ ε α) (f : α → Script σ ε β) (world : World σ) :
    (script >>= f).asked world =
      script.asked world ++
        match script.run world with
        | (.ok value, world) => (f value).asked world
        | (.error _, _) => [] := by
  show (script.bind f).asked world = _
  induction script generalizing world with
  | done value => rfl
  | fail error => rfl
  | note message next ih => exact ih _
  | ask plugin placeholder context next ih =>
    simp only [bind, asked, run, List.cons_append]
    rw [ih]
  | pause next ih => exact ih _

/-! ## Failures -/

/-- Whatever plugins answer, the script fails only with errors that have the property. -/
def FailsOnly (P : ε → Prop) : Script σ ε α → Prop
  | done _ => True
  | fail error => P error
  | note _ next => next.FailsOnly P
  | ask _ _ _ next => ∀ reply, (next reply).FailsOnly P
  | pause next => next.FailsOnly P

variable {P : ε → Prop} {Q : ε' → Prop}

/-- The error of a script that runs alone has the property. -/
theorem FailsOnly.of_run {script : Script σ ε α} (h : script.FailsOnly P) {world after : World σ} {error : ε}
    (hr : script.run world = (.error error, after)) : P error := by
  induction script generalizing world with
  | done value => cases hr
  | fail own =>
    cases hr
    exact h
  | note message next ih => exact ih h hr
  | ask plugin placeholder context next ih => exact ih _ (h _) hr
  | pause next ih => exact ih h hr

theorem FailsOnly.bind {script : Script σ ε α} {f : α → Script σ ε β} (h : script.FailsOnly P)
    (hf : ∀ value, (f value).FailsOnly P) : (script >>= f).FailsOnly P := by
  show (script.bind f).FailsOnly P
  induction script with
  | done value => exact hf value
  | fail error => exact h
  | note message next ih => exact ih h
  | ask plugin placeholder context next ih => exact fun reply => ih reply (h reply)
  | pause next ih => exact ih h

/-- Errors that all have another property have that one. -/
theorem FailsOnly.mono {P Q : ε → Prop} {script : Script σ ε α} (h : script.FailsOnly P)
    (hPQ : ∀ error, P error → Q error) : script.FailsOnly Q := by
  induction script with
  | done value => trivial
  | fail error => exact hPQ error h
  | note message next ih => exact ih h
  | ask plugin placeholder context next ih => exact fun reply => ih reply (h reply)
  | pause next ih => exact ih h

/-- An error that is dealt with does not matter any more. -/
theorem failsOnly_handle (script : Script σ ε α) {f : ε → Script σ ε' α} (hf : ∀ error, (f error).FailsOnly Q) :
    (script.handle f).FailsOnly Q := by
  induction script with
  | done value => trivial
  | fail error => exact hf error
  | note message next ih => exact ih
  | ask plugin placeholder context next ih => exact fun reply => ih reply
  | pause next ih => exact ih

end Script

/-! ## The scripts of a run -/

/-- The failure is that of a string at a place, or of a text if there is none: the string did not settle, or a
token in it has no value, and then the failure names the place. -/
inductive Failure.IsOf (path : Option Path) : Failure → Prop where
  | unsettled (text : String) (limit : Int) : IsOf path (.unsettled text limit)
  | unresolved (token : String) (cause : Cause) :
      IsOf path (.unresolved token (path.map fun path => String.ofList path.format) cause)

/-- A property that covers what comes up before a string at the given place has settled: a token has no value, and
the cause is told, or an error stands in for the words of something. -/
structure Failure.Covers [Wording] (place : Option String) (P : Failure → Prop) : Prop where
  unresolved (token : String) {cause : Cause} {said : String} (h : Wording.cause cause = .ok said) :
    P (.unresolved token place cause)
  stated {error : String} (h : Wording.Refuses error) : P (.stated error)

/-- If everything has its words, only tokens without a value come up. -/
theorem Failure.Covers.plain {place : Option String} {P : Failure → Prop}
    (h : ∀ token cause, P (.unresolved token place cause)) : Failure.Covers place P where
  unresolved token cause _ _ := h token cause
  stated hrefuses := absurd hrefuses Wording.not_refuses_plain

namespace Setting

open Script

variable {setting : Setting σ}

section

variable [Wording] {P : Failure → Prop} {path : Option Path}
  (hP : Failure.Covers (path.map fun path => String.ofList path.format) P)

include hP

theorem failAt_failsOnly {α : Type} (token : List Char) (cause : Cause) :
    (failAt token path cause : Script σ Failure α).FailsOnly P := by
  unfold failAt
  cases hsaid : Wording.cause cause with
  | ok said => exact hP.unresolved _ hsaid
  | error error => exact hP.stated (.cause hsaid)

/-- Until substitution has come to its end, only the value of a token may be missing, or the words for it. -/
theorem resolve_failsOnly (token : List Char) : (setting.resolve path token).FailsOnly P :=
  failsOnly_handle _ (failAt_failsOnly hP token)

theorem checkToken_failsOnly (token : List Char) : (setting.checkToken path token).FailsOnly P := by
  unfold checkToken
  split
  · trivial
  · exact failAt_failsOnly hP token _

theorem checkTokens_failsOnly (tokens : List (List Char)) :
    (setting.checkTokens path tokens).FailsOnly P := by
  induction tokens with
  | nil => trivial
  | cons token rest ih => exact (checkToken_failsOnly hP token).bind fun _ => ih

theorem replaceToken_failsOnly (found : List (List Char)) (current : Filled) (token : List Char) :
    (setting.replaceToken path found current token).FailsOnly P := by
  unfold replaceToken
  split
  · refine (resolve_failsOnly hP token).bind fun value => ?_
    cases htext : Wording.text value with
    | ok text => trivial
    | error error => exact hP.stated (.text htext)
  · trivial

theorem replaceTokens_failsOnly (found tokens : List (List Char)) (current : Filled) :
    (setting.replaceTokens path found tokens current).FailsOnly P := by
  induction tokens generalizing current with
  | nil => trivial
  | cons token rest ih => exact (replaceToken_failsOnly hP found current token).bind ih

theorem pass_failsOnly (found : List (List Char)) (text : List Char) :
    (setting.pass path found text).FailsOnly P :=
  (checkTokens_failsOnly hP found).bind fun _ => replaceTokens_failsOnly hP found _ _

theorem passes_failsOnly (limit : Nat) (current : Filled) :
    (setting.passes path limit current).FailsOnly P := by
  induction limit generalizing current with
  | zero => trivial
  | succ limit ih =>
    unfold passes
    split
    · trivial
    · refine (pass_failsOnly hP _ _).bind fun next => ?_
      split
      · trivial
      · exact ih next

/-- When it has come to its end, there is another failure, but only in a strict setting. -/
theorem substitute_failsOnly_of (hsettle : setting.strict = true → ∀ shown, P (.unsettled shown setting.maxPasses))
    (text : List Char) : (setting.substitute path text).FailsOnly P := by
  refine (passes_failsOnly hP _ _).bind fun ⟨result, settled⟩ => ?_
  show FailsOnly _ (if settled || (Token.tokens result.text).isEmpty then _ else _)
  split
  · trivial
  · show FailsOnly _ (if setting.strict then _ else _)
    by_cases hstrict : setting.strict = true
    · rw [if_pos hstrict]
      exact hsettle hstrict _
    · rw [if_neg hstrict]
      trivial

end

/-- The same for a string of a document. -/
theorem fillString_failsOnly_of [Wording] {P : Failure → Prop} {place : Path}
    (hP : Failure.Covers (some (String.ofList place.format)) P)
    (hsettle : setting.strict = true → ∀ shown, P (.unsettled shown setting.maxPasses)) (s : String) :
    (setting.fillString place s).FailsOnly P := by
  have hplaced : Failure.Covers ((some place).map fun path => String.ofList path.format) P := hP
  unfold fillString
  dsimp only
  split
  · trivial
  · split
    · exact resolve_failsOnly hplaced _
    · refine (substitute_failsOnly_of hplaced hsettle _).bind fun result => ?_
      split
      · trivial
      · split
        · trivial
        · split
          · exact resolve_failsOnly hplaced _
          · trivial

/-- **A string of a document fails with a failure of its own**, which names its place, as long as everything has its
words. -/
theorem fillString_failsOnly (place : Path) (s : String) :
    (setting.fillString place s).FailsOnly (Failure.IsOf (some place)) :=
  fillString_failsOnly_of (.plain .unresolved) (fun _ shown => .unsettled shown _) s

end Setting

end Template
