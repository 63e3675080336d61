import Template.Engine
import Template.Proofs.Questions

/-!
# `Template.Proofs.Asked` — the questions of a run, in both orders of work

`Script.asked` lists the questions of a script that runs alone. When parts of a plan take turns, a script asks
some of its questions in each of its turns, and between them others ask theirs. The definitions here follow the
rounds of `Template.Rounds`, turn by turn, and list the questions of a run in the order in which plugins hear
them.

## Contents
- `Script.askedNow` — the questions up to the next pause; with those of what is left, they are all
  (`asked_eq_askedNow`).
- `Job.askedInTurn`, `Job.askedInRounds`, `Plan.askedTogether` — turns, rounds, and plans.
- `Setting.questions`, `Engine.questions` — a document, and a template.
-/

namespace Template

variable {σ ε α : Type}

namespace Script

/-- The questions of a script up to its next pause, in order. -/
def askedNow (script : Script σ ε α) (world : World σ) : List (Question σ) :=
  match script with
  | done _ => []
  | fail _ => []
  | note message next => next.askedNow (world.note message)
  | ask plugin placeholder context next =>
    let (reply, state) := plugin.resolve placeholder context world.state
    { plugin, placeholder, context } :: (next reply).askedNow { world with state }
  | pause _ => []

/-- A script that runs alone asks what it asks up to its next pause, and then what is left asks. -/
theorem asked_eq_askedNow (script : Script σ ε α) (world : World σ) :
    script.asked world =
      script.askedNow world ++
        match script.advance world with
        | (.ended _, _) => []
        | (.paused rest, world) => rest.asked world := by
  induction script generalizing world with
  | done value => rfl
  | fail error => rfl
  | note message next ih => exact ih _
  | ask plugin placeholder context next ih =>
    simp only [asked, askedNow, advance, List.cons_append]
    rw [ih]
  | pause next => rfl

end Script

namespace Job

mutual

/-- The questions asked in a turn of a job, which is cancelled (`cancel`) or not. -/
def askedInTurn (cancel : Bool) : Job σ ε α → World σ → List (Question σ)
  | pending (.work script) cancelled, world => if cancelled || cancel then [] else script.askedNow world
  | pending (.split _ _) _, _ => []
  | group _ standing members, world =>
    if members.all isNoticed then []
    else askedInTurns (standing.strike? (firstFailure? members)) 0 members world
  | ended _, _ => []
  | noticed _, _ => []

/-- The questions asked in a turn of the members of a group from a place on, when the group is called off at
    `strike`. -/
def askedInTurns (strike : Option Nat) (place : Nat) : List (Job σ ε α) → World σ → List (Question σ)
  | [], _ => []
  | job :: rest, world =>
    job.askedInTurn (strike.any (· ≤ place)) world ++
      askedInTurns strike (place + 1) rest (job.turn (strike.any (· ≤ place)) world).2

end

/-- The questions asked in all rounds of a group that nobody cancels. -/
def askedInRounds (standing : Standing ε) (members : List (Job σ ε α)) (world : World σ) :
    List (Question σ) :=
  if members.all isNoticed then []
  else
    let failure := firstFailure? members
    let next := turnAll (standing.strike? failure) 0 members world
    askedInTurns (standing.strike? failure) 0 members world ++
      askedInRounds (standing.review false failure) next.1 next.2
termination_by nearer_wf.wrap (leftOf members)
decreasing_by exact turnAll_nearer _ _ _ (Bool.eq_false_iff.mpr ‹_›) _

end Job

/-- The questions asked when all parts of a plan are done at the same time. -/
def Plan.askedTogether (plan : Plan σ ε α) (world : World σ) : List (Question σ) :=
  match plan with
  | .work script => script.asked world
  | .split _ parts => Job.askedInRounds {} (parts.map Job.ofPlan) world

/-- The questions asked when a document is filled in, as the options say. -/
def Setting.questions [Wording] (setting : Setting σ) (path : Path) (value : Json) (world : World σ) :
    List (Question σ) :=
  let plan := setting.plan path value
  if setting.options.concurrent then plan.askedTogether world else plan.inOrder.asked world

/-- The questions asked when a template is filled in. A text that is no document is refused before any of
    them. -/
def Engine.questions [Wording] (engine : Engine σ) (options : Options) (content : List Char) (world : World σ) :
    List (Question σ) :=
  match options.format with
  | .json =>
    match Json.read content with
    | .error _ => []
    | .ok value => (engine.setting options).questions [] value world
  | .text => ((engine.setting options).fillText content).asked world
  | .xml => []

end Template
