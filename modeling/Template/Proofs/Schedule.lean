import Template.Rounds

/-!
# `Template.Proofs.Schedule` — the parts of a plan in any order

`Template.Rounds` lets the parts of a plan take turns in one order. Here the order is left open: whatever can
be done next may be done next. A **thread** is a part of a plan on its way, and a **move** is one thing that
happens to it: a script goes on to its next pause, a divided plan becomes a group, a member of a group moves,
a group notices the end of a member, a group ends, or a thread is cancelled because its group, or one around
it, has seen an error.

## Contents
- `Thread`, `Thread.Move`, `Thread.Moves` — threads, one move, and a schedule: moves one after another.
- `Thread.after_wf`, `Thread.not_endless` — no schedule goes on for ever.
-/

namespace Template

variable {σ ε α : Type}

/-- The error that an ending passes on. -/
def Ending.error? : Ending ε α → Option ε
  | .error e => some e
  | _ => none

/-- A group that has seen an error, or was called off, still has when the end of a member is noticed. -/
theorem Ending.off_of_off {off : Bool} {error : Option ε} (ending : Ending ε α)
    (h : (off || error.isSome) = true) : (off || (error <|> ending.error?).isSome) = true := by
  cases error with
  | some e => exact h
  | none =>
    rw [Option.isSome_none, Bool.or_false] at h
    rw [h, Bool.true_or]

/-- The ending with the result of a script. -/
def Ending.ofResult : Except ε α → Ending ε α
  | .ok v => .value v
  | .error e => .error e

/-- A part of a plan on its way. -/
inductive Thread (σ ε α : Type) where
  /-- Work to begin or to go on with. -/
  | waiting (plan : Plan σ ε α)
  /-- Work in parts that has begun, with the first error that was noticed. -/
  | group (build : List α → α) (error : Option ε) (members : List (Thread σ ε α))
  /-- It has ended. -/
  | ended (ending : Ending ε α)
  /-- It has ended, and its group knows. -/
  | noticed (ending : Ending ε α)

namespace Thread

/-- Whether the end of a thread has been noticed. -/
def isNoticed : Thread σ ε α → Bool
  | noticed _ => true
  | _ => false

/-- A script that has got so far. -/
def ofProgress : Script.Progress σ ε α → Thread σ ε α
  | .ended result => ended (.ofResult result)
  | .paused rest => waiting (.work rest)

/-- One thing that may happen to a thread. With `off`, a group around it has been called off. -/
inductive Move : Bool → Thread σ ε α → World σ → Thread σ ε α → World σ → Prop where
  /-- A script goes on to its next pause. -/
  | go (off : Bool) (script : Script σ ε α) (world : World σ) :
      Move off (waiting (.work script)) world (ofProgress (script.advance world).1)
        (script.advance world).2
  /-- A divided plan becomes a group. -/
  | divide (off : Bool) (build : List α → α) (parts : List (Plan σ ε α)) (world : World σ) :
      Move off (waiting (.split build parts)) world (group build none (parts.map waiting)) world
  /-- A thread of a group that was called off is cancelled. -/
  | cancel (plan : Plan σ ε α) (world : World σ) :
      Move true (waiting plan) world (ended .cancelled) world
  /-- A member moves; an error that was noticed has called its group off. -/
  | member {off : Bool} {build : List α → α} {error : Option ε} {thread thread' : Thread σ ε α}
      {world world' : World σ} (before after : List (Thread σ ε α))
      (h : Move (off || error.isSome) thread world thread' world') :
      Move off (group build error (before ++ thread :: after)) world
        (group build error (before ++ thread' :: after)) world'
  /-- The end of a member is noticed. -/
  | notice (off : Bool) (build : List α → α) (error : Option ε) (before after : List (Thread σ ε α))
      (ending : Ending ε α) (world : World σ) :
      Move off (group build error (before ++ ended ending :: after)) world
        (group build (error <|> ending.error?) (before ++ noticed ending :: after)) world
  /-- A group whose members have all been noticed ends with the error that it noticed first. -/
  | fails (off : Bool) (build : List α → α) (error : ε) {members : List (Thread σ ε α)}
      (h : members.all isNoticed = true) (world : World σ) :
      Move off (group build (some error) members) world (ended (.error error)) world
  /-- A group whose members have all come to values ends with the value that these make up. -/
  | completes (off : Bool) (build : List α → α) (values : List α) (world : World σ) :
      Move off (group build none (values.map fun value => noticed (.value value))) world
        (ended (.value (build values))) world
  /-- A group that was called off from outside ends when its members have all been noticed. -/
  | stops (build : List α → α) {members : List (Thread σ ε α)} (h : members.all isNoticed = true)
      (world : World σ) :
      Move true (group build none members) world (ended .cancelled) world

/-- Moves one after another. -/
inductive Moves (off : Bool) : Thread σ ε α → World σ → Thread σ ε α → World σ → Prop where
  | refl (thread : Thread σ ε α) (world : World σ) : Moves off thread world thread world
  | head {thread next last : Thread σ ε α} {world world' world'' : World σ}
      (h : Move off thread world next world') (rest : Moves off next world' last world'') :
      Moves off thread world last world''

/-! ## Every schedule comes to an end -/

/-- `After new old`: a thread may be at `new` after one move. -/
def After (new old : Thread σ ε α) : Prop :=
  ∃ off world world', Move off old world new world'

/-- A move of a member of a group, or its end being noticed. -/
inductive Turn : Thread σ ε α → Thread σ ε α → Prop where
  | move {new old : Thread σ ε α} (h : After new old) : Turn new old
  | notice (ending : Ending ε α) : Turn (noticed ending) (ended ending)

/-- A turn of one among several threads. -/
inductive TurnOf : List (Thread σ ε α) → List (Thread σ ε α) → Prop where
  | intro {new old : Thread σ ε α} (before after : List (Thread σ ε α)) (h : Turn new old) :
      TurnOf (before ++ new :: after) (before ++ old :: after)

theorem acc_ended (ending : Ending ε α) : Acc After (ended ending : Thread σ ε α) :=
  ⟨_, fun _ ⟨_, _, _, h⟩ => nomatch h⟩

theorem acc_noticed (ending : Ending ε α) : Acc After (noticed ending : Thread σ ε α) :=
  ⟨_, fun _ ⟨_, _, _, h⟩ => nomatch h⟩

/-- That the end of a thread may be noticed is one turn more. -/
theorem acc_turn {thread : Thread σ ε α} (h : Acc After thread) : Acc Turn thread := by
  -- nothing happens to a thread once its end has been noticed
  have hnoticed : ∀ ending, Acc Turn (noticed ending : Thread σ ε α) := by
    intro ending
    constructor
    intro new hnew
    cases hnew with
    | move h =>
      obtain ⟨_, _, _, h⟩ := h
      cases h
  induction h with
  | intro thread _ ih =>
    constructor
    intro new hnew
    cases hnew with
    | move h => exact ih new h
    | notice ending => exact hnoticed ending

/-- Of two rows of turns, either may go on first. -/
theorem acc_cons {thread : Thread σ ε α} {rest : List (Thread σ ε α)} (ht : Acc Turn thread)
    (hr : Acc TurnOf rest) : Acc TurnOf (thread :: rest) := by
  induction ht generalizing rest with
  | intro thread _ ihThread =>
    induction hr with
    | intro rest hrest ihRest =>
      constructor
      intro new hnew
      -- a turn of the first one starts the rest over, so the outer induction is on the first
      generalize hold : thread :: rest = old at hnew
      obtain ⟨before, after, hturn⟩ := hnew
      cases before with
      | nil =>
        cases hold
        exact ihThread _ hturn ⟨_, hrest⟩
      | cons first before =>
        cases hold
        exact ihRest _ ⟨before, after, hturn⟩

theorem acc_turnOf {threads : List (Thread σ ε α)} (h : ∀ thread ∈ threads, Acc After thread) :
    Acc TurnOf threads := by
  induction threads with
  | nil =>
    constructor
    intro new hnew
    generalize hold : [] = old at hnew
    obtain ⟨before, after, -⟩ := hnew
    simp at hold
  | cons thread rest ih =>
    exact acc_cons (acc_turn (h thread List.mem_cons_self))
      (ih fun other hmem => h other (List.mem_cons_of_mem _ hmem))

/-- A group has at most as many moves as its members have turns, and one at the end. -/
theorem acc_group (build : List α → α) (error : Option ε) {members : List (Thread σ ε α)}
    (h : ∀ thread ∈ members, Acc After thread) : Acc After (group build error members) := by
  have hturns := acc_turnOf h
  clear h
  induction hturns generalizing error with
  | intro members _ ih =>
    constructor
    rintro new ⟨off, world, world', hmove⟩
    cases hmove with
    | member before after h => exact ih _ ⟨before, after, .move ⟨_, _, _, h⟩⟩ error
    | notice _ _ _ before after ending => exact ih _ ⟨before, after, .notice ending⟩ _
    | fails => exact acc_ended _
    | completes => exact acc_ended _
    | stops => exact acc_ended _

theorem acc_work (script : Script σ ε α) : Acc After (waiting (.work script)) := by
  induction script using Script.later_wf.induction with
  | _ script ih =>
    constructor
    rintro new ⟨off, world, world', hmove⟩
    cases hmove with
    | go =>
      cases hadvance : script.advance world with
      | mk progress after =>
        cases progress with
        | ended result => exact acc_ended _
        | paused rest => exact ih rest (Script.later_of_advance hadvance)
    | cancel => exact acc_ended _

mutual

theorem acc_waiting (plan : Plan σ ε α) : Acc After (waiting plan) := by
  match plan with
  | .work script => exact acc_work script
  | .split build parts =>
    constructor
    rintro new ⟨off, world, world', hmove⟩
    cases hmove with
    | divide => exact acc_group build none (acc_waitingAll parts)
    | cancel => exact acc_ended _

theorem acc_waitingAll (plans : List (Plan σ ε α)) :
    ∀ thread ∈ plans.map waiting, Acc After thread := by
  match plans with
  | [] => exact fun _ h => absurd h List.not_mem_nil
  | plan :: rest =>
    intro thread h
    rcases List.mem_cons.mp h with h | h
    · rw [h]
      exact acc_waiting plan
    · exact acc_waitingAll rest thread h

end

mutual

theorem acc_after (thread : Thread σ ε α) : Acc After thread := by
  match thread with
  | waiting plan => exact acc_waiting plan
  | group build error members => exact acc_group build error (acc_afterAll members)
  | ended ending => exact acc_ended ending
  | noticed ending => exact acc_noticed ending

theorem acc_afterAll (threads : List (Thread σ ε α)) : ∀ thread ∈ threads, Acc After thread := by
  match threads with
  | [] => exact fun _ h => absurd h List.not_mem_nil
  | first :: rest =>
    intro thread h
    rcases List.mem_cons.mp h with h | h
    · rw [h]
      exact acc_after first
    · exact acc_afterAll rest thread h

end

/-- **No schedule goes on for ever**, whichever thread moves next. -/
theorem after_wf : WellFounded (@After σ ε α) :=
  ⟨acc_after⟩

/-- There is no endless row of moves. -/
theorem not_endless (off : Bool) (threads : Nat → Thread σ ε α) (worlds : Nat → World σ) :
    ¬ ∀ n, Move off (threads n) (worlds n) (threads (n + 1)) (worlds (n + 1)) := by
  intro h
  have hnone : ∀ thread : Thread σ ε α, ∀ n, threads n ≠ thread := by
    intro thread
    induction thread using after_wf.induction with
    | _ thread ih =>
      intro n hn
      exact ih (threads (n + 1)) ⟨off, _, _, hn ▸ h n⟩ (n + 1) rfl
  exact hnone (threads 0) 0 rfl

/-! ## Schedules of a group -/

theorem Moves.trans {off : Bool} {first next last : Thread σ ε α} {world world' world'' : World σ}
    (h : Moves off first world next world') (h' : Moves off next world' last world'') :
    Moves off first world last world'' := by
  induction h with
  | refl => exact h'
  | head hmove _ ih => exact .head hmove (ih h')

theorem Moves.single {off : Bool} {thread next : Thread σ ε α} {world world' : World σ}
    (h : Move off thread world next world') : Moves off thread world next world' :=
  .head h (.refl _ _)

/-- What every move keeps, a row of moves keeps. -/
theorem Moves.keeps {P : Thread σ ε α → Prop} {off : Bool}
    (hmove : ∀ {thread next : Thread σ ε α} {world world' : World σ},
      Move off thread world next world' → P thread → P next)
    {thread last : Thread σ ε α} {world world' : World σ} (h : Moves off thread world last world')
    (hp : P thread) : P last := by
  induction h with
  | refl => exact hp
  | head hfirst _ ih => exact ih (hmove hfirst hp)

/-- What a member does alone, it may do in its group. -/
theorem Moves.member {off : Bool} {build : List α → α} {error : Option ε}
    {thread thread' : Thread σ ε α} {world world' : World σ} (before after : List (Thread σ ε α))
    (h : Moves (off || error.isSome) thread world thread' world') :
    Moves off (group build error (before ++ thread :: after)) world
      (group build error (before ++ thread' :: after)) world' := by
  induction h with
  | refl => exact .refl _ _
  | head hmove _ ih => exact .head (.member before after hmove) ih

end Thread

end Template
