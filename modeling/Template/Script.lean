import Template.Plugin

/-!
# `Template.Script` — work that asks plugins

A script is a piece of work that asks plugins: a finite tree whose inner nodes are the questions, each with a
continuation for every reply. What a script does is thus fixed before any plugin is run, and one script can be
run against any plugins' state. Besides asking, a script may write a note to the journal, and pause, which
lets other scripts go on when several run at once.

* `Script` — the trees, with `bind` and `handle` (a monad, and recovery from an error);
* `World` — the plugins' state and the journal;
* `Script.run` — the result of a script that runs alone, for which a pause is nothing;
* `Script.advance` — a script up to its next pause;
* `run_bind`, `run_handle` — running one script after another, and running with recovery.

A script that has been advanced to a pause is a later part of the one before (`later_of_advance`), and that
relation is well-founded (`later_wf`); this is why scripts that run in turns come to an end.
-/

namespace Template

/-- What is there besides the scripts: the plugins' state, and what was noted, in order. -/
structure World (σ : Type) where
  /-- The state of the plugins. -/
  state : σ
  /-- What was noted. -/
  journal : List String := []

/-- Adds a note to the journal. -/
def World.note {σ : Type} (world : World σ) (message : String) : World σ :=
  { world with journal := world.journal ++ [message] }

/-- Work that asks plugins and ends with a value or an error. -/
inductive Script (σ ε α : Type) where
  /-- The end, with a value. -/
  | done (value : α)
  /-- The end, with an error. -/
  | fail (error : ε)
  /-- A note to the journal. -/
  | note (message : String) (next : Script σ ε α)
  /-- A question to a plugin. -/
  | ask (plugin : Plugin σ) (placeholder : Placeholder) (context : Context)
      (next : Reply → Script σ ε α)
  /-- A chance for others to go on. -/
  | pause (next : Script σ ε α)

namespace Script

variable {σ ε ε' α β : Type}

/-! ## Composition -/

/-- One script and then another, which depends on the value of the first. -/
def bind (script : Script σ ε α) (f : α → Script σ ε β) : Script σ ε β :=
  match script with
  | done value => f value
  | fail error => fail error
  | note message next => note message (next.bind f)
  | ask plugin placeholder context next =>
    ask plugin placeholder context fun reply => (next reply).bind f
  | pause next => pause (next.bind f)

instance : Monad (Script σ ε) where
  pure := done
  bind := bind

/-- A script in which an error is dealt with by another script. -/
def handle (script : Script σ ε α) (f : ε → Script σ ε' α) : Script σ ε' α :=
  match script with
  | done value => done value
  | fail error => f error
  | note message next => note message (next.handle f)
  | ask plugin placeholder context next =>
    ask plugin placeholder context fun reply => (next reply).handle f
  | pause next => pause (next.handle f)

/-- The script that ends at once, as a computation that has ended already. -/
def ofExcept : Except ε α → Script σ ε α
  | .ok value => done value
  | .error error => fail error

/-- A script that starts after a number of pauses. -/
def after (turns : Nat) (script : Script σ ε α) : Script σ ε α :=
  match turns with
  | 0 => script
  | turns + 1 => pause (script.after turns)

/-- Asks a plugin and waits for as many turns as the reply takes. -/
def question (plugin : Plugin σ) (placeholder : Placeholder) (context : Context) :
    Script σ ε (Except Cause Outcome) :=
  ask plugin placeholder context fun reply => (done reply.answer).after reply.turns

/-! ## Running -/

/-- The result of a script that runs alone, and the world after it. -/
def run (script : Script σ ε α) (world : World σ) : Except ε α × World σ :=
  match script with
  | done value => (.ok value, world)
  | fail error => (.error error, world)
  | note message next => next.run (world.note message)
  | ask plugin placeholder context next =>
    let (reply, state) := plugin.resolve placeholder context world.state
    (next reply).run { world with state }
  | pause next => next.run world

/-- How far a script got. -/
inductive Progress (σ ε α : Type) where
  /-- To its end. -/
  | ended (result : Except ε α)
  /-- To a pause; this is what is left. -/
  | paused (rest : Script σ ε α)

/-- Runs a script up to its next pause. -/
def advance (script : Script σ ε α) (world : World σ) : Progress σ ε α × World σ :=
  match script with
  | done value => (.ended (.ok value), world)
  | fail error => (.ended (.error error), world)
  | note message next => next.advance (world.note message)
  | ask plugin placeholder context next =>
    let (reply, state) := plugin.resolve placeholder context world.state
    (next reply).advance { world with state }
  | pause next => (.paused next, world)

/-! ## Laws -/

@[simp] theorem run_done (value : α) (world : World σ) :
    (done value : Script σ ε α).run world = (.ok value, world) := rfl

@[simp] theorem run_pure (value : α) (world : World σ) :
    (pure value : Script σ ε α).run world = (.ok value, world) := rfl

@[simp] theorem run_fail (error : ε) (world : World σ) :
    (fail error : Script σ ε α).run world = (.error error, world) := rfl

@[simp] theorem run_note (message : String) (next : Script σ ε α) (world : World σ) :
    (note message next).run world = next.run (world.note message) := rfl

@[simp] theorem run_pause (next : Script σ ε α) (world : World σ) :
    (pause next).run world = next.run world := rfl

@[simp] theorem run_after (turns : Nat) (script : Script σ ε α) (world : World σ) :
    (script.after turns).run world = script.run world := by
  induction turns with
  | zero => rfl
  | succ turns ih => simpa [after] using ih

/-- Running one script after another. -/
theorem run_bind (script : Script σ ε α) (f : α → Script σ ε β) (world : World σ) :
    (script >>= f).run world =
      match script.run world with
      | (.ok value, world) => (f value).run world
      | (.error error, world) => (.error error, world) := by
  show (script.bind f).run world = _
  induction script generalizing world with
  | done value => rfl
  | fail error => rfl
  | note message next ih => exact ih _
  | ask plugin placeholder context next ih =>
    simp only [bind, run]
    exact ih _ _
  | pause next ih => exact ih _

/-- Running a script whose errors are dealt with. -/
theorem run_handle (script : Script σ ε α) (f : ε → Script σ ε' α) (world : World σ) :
    (script.handle f).run world =
      match script.run world with
      | (.ok value, world) => (.ok value, world)
      | (.error error, world) => (f error).run world := by
  induction script generalizing world with
  | done value => rfl
  | fail error => rfl
  | note message next ih => exact ih _
  | ask plugin placeholder context next ih =>
    simp only [handle, run]
    exact ih _ _
  | pause next ih => exact ih _

/-- Running alone is advancing past every pause. -/
theorem run_eq_advance (script : Script σ ε α) (world : World σ) :
    script.run world =
      match script.advance world with
      | (.ended result, world) => (result, world)
      | (.paused rest, world) => rest.run world := by
  induction script generalizing world with
  | done value => rfl
  | fail error => rfl
  | note message next ih => exact ih _
  | ask plugin placeholder context next ih =>
    simp only [advance, run]
    exact ih _ _
  | pause next => rfl

/-! ## Scripts end -/

/-- `Next rest script`: a script is at `rest` after its first node. -/
inductive Next : Script σ ε α → Script σ ε α → Prop where
  | note (message : String) (next : Script σ ε α) : Next next (note message next)
  | ask (plugin : Plugin σ) (placeholder : Placeholder) (context : Context)
      (next : Reply → Script σ ε α) (reply : Reply) :
      Next (next reply) (ask plugin placeholder context next)
  | pause (next : Script σ ε α) : Next next (pause next)

theorem next_wf : WellFounded (@Next σ ε α) := by
  refine ⟨fun script => ?_⟩
  induction script with
  | done value => exact ⟨_, fun _ h => nomatch h⟩
  | fail error => exact ⟨_, fun _ h => nomatch h⟩
  | note message next ih => exact ⟨_, fun _ h => by cases h; exact ih⟩
  | ask plugin placeholder context next ih => exact ⟨_, fun _ h => by cases h; exact ih _⟩
  | pause next ih => exact ⟨_, fun _ h => by cases h; exact ih⟩

/-- `Later rest script`: a script is at `rest` after some of its nodes. -/
abbrev Later : Script σ ε α → Script σ ε α → Prop :=
  Relation.TransGen Next

/-- No script goes on for ever. -/
theorem later_wf : WellFounded (@Later σ ε α) :=
  next_wf.transGen

/-- What is left at a pause is a later part of the script. -/
theorem later_of_advance {script rest : Script σ ε α} {world world' : World σ}
    (h : script.advance world = (.paused rest, world')) : Later rest script := by
  induction script generalizing world with
  | done value => simp [advance] at h
  | fail error => simp [advance] at h
  | note message next ih => exact .tail (ih h) (.note message next)
  | ask plugin placeholder context next ih =>
    simp only [advance] at h
    exact .tail (ih _ h) (.ask plugin placeholder context next _)
  | pause next =>
    simp only [advance, Prod.mk.injEq, Progress.paused.injEq] at h
    exact h.1 ▸ .single (.pause next)

end Script

end Template
