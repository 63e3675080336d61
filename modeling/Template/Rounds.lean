import Template.Plan

/-!
# `Template.Rounds` — the parts of a plan at the same time

The parts of a plan share one world. They take turns in rounds: in a round every job has a turn, in the order
of the plan. In its turn a script goes on to its next pause, and a divided plan becomes a group, whose members
have their first turn in the next round.

News travels a round at a time. A job that ends in one round is noticed by its group in the next, and a group
whose members have all been noticed ends in the round after. The first error that a group notices calls the
group off: every member that has not ended is cancelled. Members behind the one that failed have yet to take
their turn and are cancelled in that very round; members in front of it have had theirs and are cancelled in
the next.

A cancelled script ends at once. A cancelled group looks up in its next turn and is then called off, if it is
not already: in front of its members when it was cancelled before a turn, and behind them when it was cancelled
after one. A group looks up after a failure of its own too, at the place of the member that failed. If all
members have been noticed when a group looks up, it ends there and then. A group that was called off has no
value; what it passes on is the first error that it noticed.

* `Ending` — how a job ended;
* `Standing` — what a group knows besides its members, with the decisions that it takes (`strike?`, `review`);
* `Job` — a part of a plan on its way;
* `Job.turn`, `Job.turnAll` — a turn of one job, and of all members of a group;
* `Plan.together` — all rounds of a plan.

`Plan.together` ends because every turn of a job that has not been noticed leaves less to do, or as much and
the first script that is at work is further on (`turn_nearer`).
-/

namespace Template

/-- How a job ended. -/
inductive Ending (ε α : Type) where
  /-- With a value. -/
  | value (value : α)
  /-- With an error. -/
  | error (error : ε)
  /-- It was cancelled. -/
  | cancelled

/-- What a group knows besides its members. -/
structure Standing (ε : Type) where
  /-- The first error that was noticed. -/
  error : Option ε := none
  /-- Whether the group has been cancelled and is aware of it. -/
  cancelled : Bool := false
  /-- The group looks up in its next turn, when as many members as this have had theirs. -/
  lookUp : Option Nat := none

namespace Standing

variable {ε α : Type}

/-- Whether a group has been called off. -/
def isOff (standing : Standing ε) : Bool :=
  standing.error.isSome || standing.cancelled

/-- Where a group is called off in a turn, if it is: where it looks up, or at the first member whose failure
is noticed. Members from there on are cancelled in this turn, and members in front of it after their turn. -/
def strike? (standing : Standing ε) (failure : Option (Nat × ε)) : Option Nat :=
  if standing.isOff then none
  else
    match standing.lookUp, failure with
    | some place, some (failed, _) => some (min place failed)
    | some place, none => some place
    | none, some (failed, _) => some failed
    | none, none => none

/-- What a group knows after a turn in which it is cancelled (`cancel`) or not. A group that looks up without
having seen an error has been cancelled. After a failure of its own it looks up at the place of the member
that failed. -/
def review (standing : Standing ε) (cancel : Bool) (failure : Option (Nat × ε)) : Standing ε where
  error := standing.error <|> failure.map (·.2)
  cancelled := standing.cancelled || (standing.lookUp.isSome && standing.error.isNone)
  lookUp :=
    if standing.lookUp.isSome then none
    else if cancel then some 0
    else if standing.isOff then none
    else failure.map (·.1)

/-- How a group ends whose members have the given value together. -/
def ending (standing : Standing ε) (value : α) : Ending ε α :=
  match standing.error with
  | some error => .error error
  | none => if standing.cancelled then .cancelled else .value value

/-- The result of a group that nobody cancels. -/
def result (standing : Standing ε) (value : α) : Except ε α :=
  match standing.error with
  | some error => .error error
  | none => .ok value

end Standing

/-- A part of a plan on its way. -/
inductive Job (σ ε α : Type) where
  /-- Work to begin or to go on with; it may have been cancelled since its last turn. -/
  | pending (plan : Plan σ ε α) (cancelled : Bool)
  /-- Work in parts that has begun. -/
  | group (build : List α → α) (standing : Standing ε) (members : List (Job σ ε α))
  /-- It has ended. -/
  | ended (ending : Ending ε α)
  /-- It has ended, and its group knows. -/
  | noticed (ending : Ending ε α)

namespace Job

variable {σ ε α : Type}

/-- A plan that has not begun. -/
def ofPlan (plan : Plan σ ε α) : Job σ ε α :=
  pending plan false

/-- Whether a job has been noticed to have ended. -/
def isNoticed : Job σ ε α → Bool
  | noticed _ => true
  | _ => false

/-- The value of a job that has been noticed to have one. -/
def value? : Job σ ε α → Option α
  | noticed (.value value) => some value
  | _ => none

/-- The first member that has failed and is to be noticed, and its error. -/
def firstFailure? : List (Job σ ε α) → Option (Nat × ε)
  | [] => none
  | ended (.error error) :: _ => some (0, error)
  | _ :: rest => (firstFailure? rest).map fun (place, error) => (place + 1, error)

/-- Cancels a job that has had its turn in this round. -/
def cancelLate : Job σ ε α → Job σ ε α
  | pending plan _ => pending plan true
  | group build standing members =>
    group build { standing with lookUp := standing.lookUp <|> some members.length } members
  | job => job

/-- The first turn of a plan, and every further turn of a script. -/
def begin (plan : Plan σ ε α) (world : World σ) : Job σ ε α × World σ :=
  match plan with
  | .work script =>
    match script.advance world with
    | (.ended (.ok value), world) => (ended (.value value), world)
    | (.ended (.error error), world) => (ended (.error error), world)
    | (.paused rest, world) => (pending (.work rest) false, world)
  | .split build [] => (ended (.value (build [])), world)
  | .split build parts => (group build {} (parts.map ofPlan), world)

/-- Whether a group that looks up in a turn finds that all members have been noticed: those that have had
their turn by then, and the others before theirs. -/
def seesAllNoticed (standing : Standing ε) (before after : List (Job σ ε α)) : Bool :=
  match standing.lookUp with
  | none => false
  | some place => (after.take place).all isNoticed && (before.drop place).all isNoticed

mutual

/-- A turn of a job, which is cancelled (`cancel`) or not. -/
def turn (cancel : Bool) : Job σ ε α → World σ → Job σ ε α × World σ
  | pending plan cancelled, world =>
    if cancelled || cancel then (ended .cancelled, world) else begin plan world
  | group build standing members, world =>
    if members.all isNoticed then (ended (standing.ending (build (members.filterMap value?))), world)
    else
      let failure := firstFailure? members
      let next := turnAll (standing.strike? failure) 0 members world
      let reviewed := standing.review cancel failure
      if seesAllNoticed standing members next.1 then
        (ended (reviewed.ending (build (next.1.filterMap value?))), next.2)
      else (group build reviewed next.1, next.2)
  | ended ending, world => (noticed ending, world)
  | noticed ending, world => (noticed ending, world)

/-- A turn of the members of a group from a place on, when the group is called off at `strike`. -/
def turnAll (strike : Option Nat) (place : Nat) :
    List (Job σ ε α) → World σ → List (Job σ ε α) × World σ
  | [], world => ([], world)
  | job :: rest, world =>
    let (job, world) := job.turn (strike.any (· ≤ place)) world
    let (rest, world) := turnAll strike (place + 1) rest world
    ((if strike.any (place < ·) then job.cancelLate else job) :: rest, world)

end

/-! ## Rounds end -/

mutual

/-- What there is to do for a plan besides the turns of its scripts: a divided plan has to become a group,
and everything has to end and to be noticed. -/
def planWeight : Plan σ ε α → Nat
  | .work _ => 2
  | .split _ parts => planWeightAll parts + 3

/-- The same for several plans. -/
def planWeightAll : List (Plan σ ε α) → Nat
  | [] => 0
  | plan :: rest => planWeight plan + planWeightAll rest

end

mutual

/-- What there is to do for a job besides the turns of its scripts. -/
def weight : Job σ ε α → Nat
  | pending plan _ => planWeight plan
  | group _ _ members => weightAll members + 2
  | ended _ => 1
  | noticed _ => 0

/-- The same for several jobs. -/
def weightAll : List (Job σ ε α) → Nat
  | [] => 0
  | job :: rest => weight job + weightAll rest

end

mutual

/-- The first script that is at work in a job. -/
def front? : Job σ ε α → Option (Script σ ε α)
  | pending (.work script) _ => some script
  | group _ _ members => frontOf? members
  | _ => none

/-- The first script that is at work in several jobs. -/
def frontOf? : List (Job σ ε α) → Option (Script σ ε α)
  | [] => none
  | job :: rest => front? job <|> frontOf? rest

end

/-- `Further new old`: a script is at work in both cases, and further on in the new one. -/
inductive Further : Option (Script σ ε α) → Option (Script σ ε α) → Prop where
  | intro {rest script : Script σ ε α} (h : Script.Later rest script) : Further (some rest) (some script)

/-- `Nearer new old`: less is left to do, or as much and the first script that is at work is further on. -/
abbrev Nearer : Nat × Option (Script σ ε α) → Nat × Option (Script σ ε α) → Prop :=
  Prod.Lex (· < ·) Further

theorem further_wf : WellFounded (@Further σ ε α) :=
  Subrelation.wf (fun h => by cases h with | intro h => exact h) (Option.wellFounded_lt Script.later_wf)

theorem nearer_wf : WellFounded (@Nearer σ ε α) :=
  (Prod.lex Nat.lt_wfRel ⟨_, further_wf⟩).wf

theorem nearer_iff {new old : Nat × Option (Script σ ε α)} :
    Nearer new old ↔ new.1 < old.1 ∨ new.1 = old.1 ∧ Further new.2 old.2 :=
  Prod.lex_def

/-- What is left of a job. -/
def left (job : Job σ ε α) : Nat × Option (Script σ ε α) :=
  (weight job, front? job)

/-- What is left of several jobs. -/
def leftOf (jobs : List (Job σ ε α)) : Nat × Option (Script σ ε α) :=
  (weightAll jobs, frontOf? jobs)

theorem left_cancelLate (job : Job σ ε α) : job.cancelLate.left = job.left := by
  cases job with
  | pending plan cancelled => cases plan <;> rfl
  | _ => rfl

theorem weightAll_map_ofPlan (parts : List (Plan σ ε α)) :
    weightAll (parts.map ofPlan) = planWeightAll parts := by
  induction parts with
  | nil => rfl
  | cons plan rest ih => simp [weightAll, planWeightAll, ofPlan, weight, ih]

theorem turnAll_of_noticed (strike : Option Nat) (place : Nat) {jobs : List (Job σ ε α)}
    (h : jobs.all isNoticed = true) (world : World σ) :
    turnAll strike place jobs world = (jobs, world) := by
  induction jobs generalizing place with
  | nil => rfl
  | cons job rest ih =>
    cases job <;> simp_all [isNoticed, turnAll, turn, cancelLate]

theorem fst_le_of_nearer {new old : Nat × Option (Script σ ε α)} (h : Nearer new old) :
    new.1 ≤ old.1 := by
  cases h with
  | left _ _ h => exact Nat.le_of_lt h
  | right _ _ => exact Nat.le_refl _

/-- A plan that begins, or a script that goes on. -/
theorem begin_nearer (plan : Plan σ ε α) (cancelled : Bool) (world : World σ) :
    Nearer (begin plan world).1.left (pending plan cancelled).left := by
  cases plan with
  | work script =>
    rcases h : script.advance world with ⟨progress, after⟩
    cases progress with
    | ended result => cases result <;> exact .left _ _ (by simp [begin, h, weight, planWeight])
    | paused rest =>
      simp only [begin, h]
      exact .right _ (.intro (Script.later_of_advance h))
  | split build parts =>
    cases parts with
    | nil => exact .left _ _ (by simp [begin, weight, planWeight, planWeightAll])
    | cons part parts =>
      refine .left _ _ ?_
      simp only [begin, weight, planWeight, weightAll_map_ofPlan]
      omega

/-- One job with a turn behind it, and others that have not gone back. -/
theorem nearer_cons {job new : Job σ ε α} {rest news : List (Job σ ε α)}
    (h : Nearer new.left job.left) (hr : (leftOf news).1 ≤ (leftOf rest).1) :
    Nearer (leftOf (new :: news)) (leftOf (job :: rest)) := by
  simp only [nearer_iff, left, leftOf, weightAll, frontOf?] at h hr ⊢
  rcases h with h | ⟨hw, hf⟩
  · exact .inl (by omega)
  · rcases Nat.lt_or_eq_of_le hr with hlt | heq
    · exact .inl (by omega)
    · refine .inr ⟨by omega, ?_⟩
      generalize front? new = front', front? job = front at hf ⊢
      cases hf with
      | intro h => exact .intro h

mutual

/-- A turn of a job that has not been noticed. -/
theorem turn_nearer (cancel : Bool) (job : Job σ ε α) (h : job.isNoticed = false)
    (world : World σ) : Nearer (job.turn cancel world).1.left job.left := by
  match job with
  | pending plan cancelled =>
    by_cases hc : (cancelled || cancel) = true
    · refine .left _ _ ?_
      cases plan <;> simp [turn, hc, weight, planWeight]
    · simp only [turn, hc]
      exact begin_nearer plan cancelled world
  | group build standing members =>
    cases hm : members.all isNoticed with
    | true => exact .left _ _ (by simp [turn, hm, weight])
    | false =>
      have hn := turnAll_nearer (standing.strike? (firstFailure? members)) 0 members hm world
      simp only [turn, hm, Bool.false_eq_true, if_false]
      split
      · exact .left _ _ (by simp [weight])
      · simp only [nearer_iff, left, leftOf, weight, front?] at hn ⊢
        exact hn.imp (by omega) (fun h => ⟨by omega, h.2⟩)
  | ended ending => exact .left _ _ (by simp [turn, weight])
  | noticed ending => simp [isNoticed] at h

/-- A turn of all members of a group of which not all have been noticed. -/
theorem turnAll_nearer (strike : Option Nat) (place : Nat) (jobs : List (Job σ ε α))
    (h : jobs.all isNoticed = false) (world : World σ) :
    Nearer (leftOf (turnAll strike place jobs world).1) (leftOf jobs) := by
  match jobs with
  | [] => simp at h
  | job :: rest =>
    simp only [turnAll]
    cases ht : job.isNoticed with
    | true =>
      have hr : rest.all isNoticed = false := by simpa [ht] using h
      have := turnAll_nearer strike (place + 1) rest hr (job.turn (strike.any (· ≤ place)) world).2
      cases job <;> simp_all [isNoticed, turn, cancelLate, leftOf, weightAll, weight, frontOf?, front?]
    | false =>
      refine nearer_cons ?_ ?_
      · split
        · rw [left_cancelLate]
          exact turn_nearer _ job ht world
        · exact turn_nearer _ job ht world
      · cases hr : rest.all isNoticed with
        | true => exact Nat.le_of_eq (by rw [turnAll_of_noticed _ _ hr])
        | false => exact fst_le_of_nearer (turnAll_nearer _ _ rest hr _)

end

/-! ## All rounds -/

/-- Round after round of a group that nobody cancels, until all members have been noticed. -/
def runGroup (build : List α → α) (standing : Standing ε) (members : List (Job σ ε α))
    (world : World σ) : Except ε α × World σ :=
  if members.all isNoticed then
    (standing.result (build (members.filterMap value?)), world)
  else
    let failure := firstFailure? members
    let next := turnAll (standing.strike? failure) 0 members world
    runGroup build (standing.review false failure) next.1 next.2
termination_by nearer_wf.wrap (leftOf members)
decreasing_by exact turnAll_nearer _ _ _ (Bool.eq_false_iff.mpr ‹_›) _

end Job

/-- All parts of a plan at the same time: the value, or the first error that is noticed. -/
def Plan.together {σ ε α : Type} (plan : Plan σ ε α) (world : World σ) : Except ε α × World σ :=
  match plan with
  | .work script => script.run world
  | .split build parts => Job.runGroup build {} (parts.map Job.ofPlan) world

end Template
