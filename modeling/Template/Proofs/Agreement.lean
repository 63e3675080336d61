import Template.Proofs.Schedule
import Template.Proofs.Steady

/-!
# `Template.Proofs.Agreement` — all schedules of a plan agree

The scripts of a plan are steady here: each comes to one result, whatever the others do in the meantime. Then
the order of moves shows nowhere but in the choice of an error. `Thread.Sound` relates a thread to its plan,
every move keeps it (`sound_of_move`), and a sound thread that has not ended can move (`exists_move`), so that
every schedule ends, and ends soundly (`Plan.schedules_agree`): with the value that the parts have one after
the other, or, when they fail so, with an error that one of the scripts comes to by itself.
-/

namespace Template

open Script

variable {σ ε α : Type}

/-! ## What a plan comes to -/

namespace Plan

mutual

/-- The scripts of a plan, in order. -/
def scripts : Plan σ ε α → List (Script σ ε α)
  | work script => [script]
  | split _ parts => scriptsOf parts

/-- The scripts of several plans, in order. -/
def scriptsOf : List (Plan σ ε α) → List (Script σ ε α)
  | [] => []
  | plan :: rest => plan.scripts ++ scriptsOf rest

end

/-- All scripts of the plan are steady. -/
def Steady (plan : Plan σ ε α) : Prop :=
  ∀ script ∈ plan.scripts, script.Steady

/-- One of the scripts comes to the error. -/
def FailsWith (plan : Plan σ ε α) (error : ε) : Prop :=
  ∃ script ∈ plan.scripts, script.EndsWith (.error error)

theorem mem_scriptsOf {parts : List (Plan σ ε α)} {script : Script σ ε α} :
    script ∈ scriptsOf parts ↔ ∃ plan ∈ parts, script ∈ plan.scripts := by
  induction parts with
  | nil => simp [scriptsOf]
  | cons plan rest ih => simp [scriptsOf, ih]

theorem failsWith_of_mem {build : List α → α} {parts : List (Plan σ ε α)} {part : Plan σ ε α}
    {error : ε} (hmem : part ∈ parts) (h : part.FailsWith error) :
    (split build parts).FailsWith error := by
  obtain ⟨script, hscript, hends⟩ := h
  exact ⟨script, mem_scriptsOf.mpr ⟨part, hmem, hscript⟩, hends⟩

theorem steady_of_mem {build : List α → α} {parts : List (Plan σ ε α)} {part : Plan σ ε α}
    (h : (split build parts).Steady) (hmem : part ∈ parts) : part.Steady :=
  fun script hscript => h script (mem_scriptsOf.mpr ⟨part, hmem, hscript⟩)

/-- Parts that have values make up the value of the whole. -/
theorem endsWith_split {build : List α → α} {parts : List (Plan σ ε α)} {values : List α}
    (h : (inOrderAll parts).EndsWith (.ok values)) :
    (split build parts).inOrder.EndsWith (.ok (build values)) :=
  h.bind (.done _)

theorem endsWith_cons {plan : Plan σ ε α} {rest : List (Plan σ ε α)} {value : α} {values : List α}
    (h : plan.inOrder.EndsWith (.ok value)) (hr : (inOrderAll rest).EndsWith (.ok values)) :
    (inOrderAll (plan :: rest)).EndsWith (.ok (value :: values)) :=
  h.bind (hr.bind (.done _))

mutual

/-- One after the other, the parts of a steady plan have a value and so has every script, or they fail with
    the error of a script. -/
theorem inOrder_cases (plan : Plan σ ε α) (hs : plan.Steady) :
    (∃ value, plan.inOrder.EndsWith (.ok value) ∧
      ∀ script ∈ plan.scripts, ∃ own, script.EndsWith (.ok own)) ∨
    ∃ error, plan.inOrder.EndsWith (.error error) ∧ plan.FailsWith error := by
  match plan with
  | work script =>
    obtain ⟨error | value, h⟩ := hs script List.mem_cons_self
    · exact .inr ⟨error, h, script, List.mem_cons_self, h⟩
    · refine .inl ⟨value, h, fun other hmem => ⟨value, ?_⟩⟩
      rw [List.mem_singleton.mp hmem]
      exact h
  | split build parts =>
    rcases inOrderAll_cases parts hs with ⟨values, hvalues, hall⟩ | ⟨error, herror, hfails⟩
    · exact .inl ⟨build values, endsWith_split hvalues, hall⟩
    · exact .inr ⟨error, herror.bind_error, hfails⟩

/-- The same for several plans. -/
theorem inOrderAll_cases (plans : List (Plan σ ε α)) (hs : ∀ script ∈ scriptsOf plans, script.Steady) :
    (∃ values, (inOrderAll plans).EndsWith (.ok values) ∧
      ∀ script ∈ scriptsOf plans, ∃ own, script.EndsWith (.ok own)) ∨
    ∃ error, (inOrderAll plans).EndsWith (.error error) ∧
      ∃ script ∈ scriptsOf plans, script.EndsWith (.error error) := by
  match plans with
  | [] => exact .inl ⟨[], .done [], fun _ h => absurd h List.not_mem_nil⟩
  | plan :: rest =>
    have hplan := inOrder_cases plan fun script h => hs script (List.mem_append_left _ h)
    have hrest := inOrderAll_cases rest fun script h => hs script (List.mem_append_right _ h)
    rcases hplan with ⟨value, hvalue, hall⟩ | ⟨error, herror, script, hmem, hends⟩
    · rcases hrest with ⟨values, hvalues, hall'⟩ | ⟨error, herror, script, hmem, hends⟩
      · refine .inl ⟨value :: values, endsWith_cons hvalue hvalues, ?_⟩
        intro script h
        exact (List.mem_append.mp h).elim (hall script) (hall' script)
      · exact .inr ⟨error, hvalue.bind herror.bind_error, script, List.mem_append_right _ hmem, hends⟩
    · exact .inr ⟨error, herror.bind_error, script, List.mem_append_left _ hmem, hends⟩

end

theorem steady_inOrder {plan : Plan σ ε α} (hs : plan.Steady) : plan.inOrder.Steady := by
  rcases inOrder_cases plan hs with ⟨value, h, -⟩ | ⟨error, h, -⟩
  · exact ⟨_, h⟩
  · exact ⟨_, h⟩

theorem steady_inOrderAll {plans : List (Plan σ ε α)} (hs : ∀ script ∈ scriptsOf plans, script.Steady) :
    (inOrderAll plans).Steady := by
  rcases inOrderAll_cases plans hs with ⟨values, h, -⟩ | ⟨error, h, -⟩
  · exact ⟨_, h⟩
  · exact ⟨_, h⟩

/-- If a script fails by itself, then the parts fail one after the other. -/
theorem run_inOrder_of_failsWith {plan : Plan σ ε α} (hs : plan.Steady) {error : ε}
    (h : plan.FailsWith error) (world : World σ) :
    ∃ first, (plan.inOrder.run world).1 = .error first := by
  rcases inOrder_cases plan hs with ⟨value, -, hall⟩ | ⟨first, hfirst, -⟩
  · -- a script cannot both fail and have a value
    obtain ⟨script, hmem, hends⟩ := h
    obtain ⟨own, hown⟩ := hall script hmem
    cases (hends.run world).symm.trans (hown.run world)
  · exact ⟨first, hfirst.run world⟩

/-- What is left of a plan that has been begun: the same plan, or a script that comes to the same result. -/
inductive Continues : Plan σ ε α → Plan σ ε α → Prop where
  | work {script rest : Script σ ε α} {result : Except ε α} (h : script.EndsWith result)
      (hr : rest.EndsWith result) : Continues (work script) (work rest)
  | split {build : List α → α} {parts : List (Plan σ ε α)} (h : (split build parts).Steady) :
      Continues (split build parts) (split build parts)

theorem continues_self {plan : Plan σ ε α} (h : plan.Steady) : plan.Continues plan := by
  cases plan with
  | work script =>
    obtain ⟨result, hresult⟩ := h script List.mem_cons_self
    exact .work hresult hresult
  | split build parts => exact .split h

/-- How a thread of the plan may have ended: with the value that its parts have one after the other, with
    the error that one of its scripts comes to, or, if it was called off, without any. -/
def Fits (off : Bool) (plan : Plan σ ε α) : Ending ε α → Prop
  | .value value => plan.inOrder.EndsWith (.ok value)
  | .error error => plan.FailsWith error
  | .cancelled => off = true

end Plan

/-! ## What all moves keep -/

namespace Thread

open Plan

mutual

/-- The thread is one of the plan. An error that a group has noticed is one of its plan, and calls its
    members off. -/
def Sound (off : Bool) (plan : Plan σ ε α) : Thread σ ε α → Prop
  | waiting current => plan.Continues current
  | group build error members =>
    ∃ parts, plan = .split build parts ∧ (∀ e, error = some e → plan.FailsWith e) ∧
      (∀ e, noticed (.error e) ∈ members → error.isSome = true) ∧
      SoundAll (off || error.isSome) parts members
  | ended ending => plan.Fits off ending
  | noticed ending => plan.Fits off ending

/-- The threads are those of the plans, one by one. -/
def SoundAll (off : Bool) (plans : List (Plan σ ε α)) : List (Thread σ ε α) → Prop
  | [] => plans = []
  | thread :: rest =>
    ∃ plan plans', plans = plan :: plans' ∧ thread.Sound off plan ∧ SoundAll off plans' rest

end

theorem soundAll_append {off : Bool} {plans : List (Plan σ ε α)} {before after : List (Thread σ ε α)}
    {thread : Thread σ ε α} :
    SoundAll off plans (before ++ thread :: after) ↔
      ∃ plans₁ plan plans₂, plans = plans₁ ++ plan :: plans₂ ∧ SoundAll off plans₁ before ∧
        thread.Sound off plan ∧ SoundAll off plans₂ after := by
  induction before generalizing plans with
  | nil =>
    constructor
    · rintro ⟨plan, plans', rfl, hthread, hafter⟩
      exact ⟨[], plan, plans', rfl, rfl, hthread, hafter⟩
    · rintro ⟨plans₁, plan, plans₂, rfl, rfl, hthread, hafter⟩
      exact ⟨plan, plans₂, rfl, hthread, hafter⟩
  | cons first before ih =>
    constructor
    · rintro ⟨plan₀, plans', rfl, hfirst, hrest⟩
      obtain ⟨plans₁, plan, plans₂, rfl, hbefore, hthread, hafter⟩ := ih.mp hrest
      exact ⟨plan₀ :: plans₁, plan, plans₂, rfl, ⟨plan₀, plans₁, rfl, hfirst, hbefore⟩, hthread,
        hafter⟩
    · rintro ⟨_, plan, plans₂, rfl, ⟨plan₀, plans₁, rfl, hfirst, hbefore⟩, hthread, hafter⟩
      exact ⟨plan₀, plans₁ ++ plan :: plans₂, rfl, hfirst,
        ih.mpr ⟨plans₁, plan, plans₂, rfl, hbefore, hthread, hafter⟩⟩

theorem soundAll_waiting (off : Bool) {parts : List (Plan σ ε α)} (h : ∀ part ∈ parts, part.Steady) :
    SoundAll off parts (parts.map waiting) := by
  induction parts with
  | nil => rfl
  | cons part rest ih =>
    exact ⟨part, rest, rfl, continues_self (h part List.mem_cons_self),
      ih fun other hmem => h other (List.mem_cons_of_mem _ hmem)⟩

theorem fits_mono {off off' : Bool} (h : off = true → off' = true) {plan : Plan σ ε α}
    {ending : Ending ε α} (hf : plan.Fits off ending) : plan.Fits off' ending := by
  cases ending with
  | value value => exact hf
  | error error => exact hf
  | cancelled => exact h hf

mutual

/-- A group that is called off does not make its threads less sound. -/
theorem Sound.mono {off off' : Bool} (h : off = true → off' = true) {plan : Plan σ ε α}
    {thread : Thread σ ε α} (hs : thread.Sound off plan) : thread.Sound off' plan := by
  match thread with
  | waiting current => exact hs
  | group build error members =>
    obtain ⟨parts, hplan, herror, hseen, hmembers⟩ := hs
    refine ⟨parts, hplan, herror, hseen, SoundAll.mono ?_ hmembers⟩
    simpa using fun hoff => hoff.imp_left h
  | ended ending => exact fits_mono h hs
  | noticed ending => exact fits_mono h hs

theorem SoundAll.mono {off off' : Bool} (h : off = true → off' = true) {plans : List (Plan σ ε α)}
    {threads : List (Thread σ ε α)} (hs : SoundAll off plans threads) : SoundAll off' plans threads := by
  match threads with
  | [] => exact hs
  | thread :: rest =>
    obtain ⟨plan, plans', hplans, hthread, hrest⟩ := hs
    exact ⟨plan, plans', hplans, hthread.mono h, hrest.mono h⟩

end

theorem sound_ofProgress {off : Bool} {script rest : Script σ ε α} {result : Except ε α}
    (h : script.EndsWith result) (hr : rest.EndsWith result) (world : World σ) :
    (ofProgress (rest.advance world).1).Sound off (.work script) := by
  rcases hr.advance world with hended | ⟨rest', hpaused, hrest'⟩
  · rw [hended]
    cases result with
    | ok value => exact h
    | error error => exact ⟨script, List.mem_cons_self, h⟩
  · rw [hpaused]
    exact .work h hrest'

/-- The members of a group that were all noticed with values, one by one. -/
theorem inOrderAll_of_values {off : Bool} {plans : List (Plan σ ε α)} {values : List α}
    (h : SoundAll off plans (values.map fun value => noticed (.value value))) :
    (inOrderAll plans).EndsWith (.ok values) := by
  induction values generalizing plans with
  | nil =>
    obtain rfl : plans = [] := h
    exact .done []
  | cons value values ih =>
    obtain ⟨plan, plans', rfl, hvalue, hrest⟩ := h
    exact endsWith_cons hvalue (ih hrest)

/-- A member does not notice its own end. -/
theorem not_noticed_of_move {off : Bool} {thread thread' : Thread σ ε α} {world world' : World σ}
    (h : Move off thread world thread' world') (ending : Ending ε α) : thread' ≠ noticed ending := by
  rintro rfl
  generalize hnew : noticed ending = new at h
  cases h with
  | go =>
    rename_i script
    cases hadvance : (script.advance world).1 with
    | ended result => rw [hadvance] at hnew; cases hnew
    | paused rest => rw [hadvance] at hnew; cases hnew
  | _ => cases hnew

/-- **Every move keeps a thread sound.** -/
theorem sound_of_move {off : Bool} {thread thread' : Thread σ ε α} {world world' : World σ}
    (h : Move off thread world thread' world') {plan : Plan σ ε α} (hs : thread.Sound off plan) :
    thread'.Sound off plan := by
  induction h generalizing plan with
  | go off rest world =>
    cases hs with
    | work h hr => exact sound_ofProgress h hr world
  | divide off build parts world =>
    cases hs with
    | split h =>
      have hparts : ∀ part ∈ parts, part.Steady := fun part hmem => steady_of_mem h hmem
      refine ⟨parts, rfl, ?_, ?_, soundAll_waiting _ hparts⟩
      · intro e he
        cases he
      · intro e he
        obtain ⟨part, -, hpart⟩ := List.mem_map.mp he
        cases hpart
  | cancel current world => rfl
  | member before after hmove ih =>
    -- the others stay as they are, and a move notices nothing
    obtain ⟨parts, hplan, herror, hseen, hmembers⟩ := hs
    obtain ⟨plans₁, part, plans₂, hparts, hbefore, hthread, hafter⟩ := soundAll_append.mp hmembers
    refine ⟨parts, hplan, herror, ?_, ?_⟩
    · intro e he
      apply hseen e
      rcases List.mem_append.mp he with he | he
      · exact List.mem_append_left _ he
      · rcases List.mem_cons.mp he with he | he
        · exact absurd he.symm (not_noticed_of_move hmove _)
        · exact List.mem_append_right _ (List.mem_cons_of_mem _ he)
    · exact soundAll_append.mpr ⟨plans₁, part, plans₂, hparts, hbefore, ih hthread, hafter⟩
  | notice off build error before after ending world =>
    obtain ⟨parts, rfl, herror, hseen, hmembers⟩ := hs
    obtain ⟨plans₁, part, plans₂, rfl, hbefore, hthread, hafter⟩ := soundAll_append.mp hmembers
    have hmono : (off || error.isSome) = true → (off || (error <|> ending.error?).isSome) = true :=
      ending.off_of_off
    have hknown : error.isSome = true → (error <|> ending.error?).isSome = true :=
      @Ending.off_of_off _ _ false error ending
    refine ⟨_, rfl, ?_, ?_, ?_⟩
    · intro e he
      cases error with
      | some first => exact herror e he
      | none =>
        -- the first error of the group is that of the member
        cases ending with
        | value value => cases he
        | cancelled => cases he
        | error own =>
          cases he
          exact failsWith_of_mem (List.mem_append_right _ List.mem_cons_self) hthread
    · intro e he
      rcases List.mem_append.mp he with he | he
      · exact hknown (hseen e (List.mem_append_left _ he))
      · rcases List.mem_cons.mp he with he | he
        · cases he
          cases error <;> rfl
        · exact hknown (hseen e (List.mem_append_right _ (List.mem_cons_of_mem _ he)))
    · exact soundAll_append.mpr
        ⟨plans₁, part, plans₂, rfl, hbefore.mono hmono, fits_mono hmono hthread, hafter.mono hmono⟩
  | fails off build error hall world =>
    obtain ⟨parts, rfl, herror, -, -⟩ := hs
    exact herror error rfl
  | completes off build values world =>
    obtain ⟨parts, rfl, -, -, hmembers⟩ := hs
    exact endsWith_split (inOrderAll_of_values hmembers)
  | stops => rfl

/-! ## Sound threads are never stuck -/

/-- Members that have all been noticed, none of them with an error and none cancelled, have values. -/
theorem exists_values {plans : List (Plan σ ε α)} {members : List (Thread σ ε α)}
    (h : members.all isNoticed = true) (hs : SoundAll false plans members)
    (herror : ∀ e, noticed (.error e) ∉ members) :
    ∃ values : List α, members = values.map fun value => noticed (.value value) := by
  induction members generalizing plans with
  | nil => exact ⟨[], rfl⟩
  | cons thread rest ih =>
    obtain ⟨plan, plans', rfl, hthread, hrest⟩ := hs
    rw [List.all_cons, Bool.and_eq_true] at h
    obtain ⟨values, rfl⟩ := ih h.2 hrest fun e he => herror e (List.mem_cons_of_mem _ he)
    cases thread with
    | noticed ending =>
      cases ending with
      | value value => exact ⟨value :: values, rfl⟩
      | error e => exact absurd List.mem_cons_self (herror e)
      | cancelled => cases hthread
    | _ => cases h.1

mutual

/-- **A sound thread that has not ended can move.** -/
theorem exists_move {off : Bool} {plan : Plan σ ε α} (thread : Thread σ ε α) (hs : thread.Sound off plan)
    (world : World σ) :
    (∃ thread' world', Move off thread world thread' world') ∨
      ∃ ending, thread = ended ending ∨ thread = noticed ending := by
  match thread with
  | waiting (.work script) => exact .inl ⟨_, _, .go off script world⟩
  | waiting (.split build parts) => exact .inl ⟨_, _, .divide off build parts world⟩
  | ended ending => exact .inr ⟨ending, .inl rfl⟩
  | noticed ending => exact .inr ⟨ending, .inr rfl⟩
  | group build error members =>
    left
    obtain ⟨parts, -, -, hseen, hmembers⟩ := hs
    rcases exists_moveOf members hmembers world with hall | ⟨before, first, after, rfl, hfirst⟩
    · -- the group itself ends: it failed, was called off, or all its members have values
      cases error with
      | some e => exact ⟨_, _, .fails off build e hall world⟩
      | none =>
        cases off with
        | true => exact ⟨_, _, .stops build hall world⟩
        | false =>
          obtain ⟨values, rfl⟩ := exists_values hall hmembers fun e he => nomatch hseen e he
          exact ⟨_, _, .completes false build values world⟩
    · rcases hfirst with ⟨thread', world', hmove⟩ | ⟨ending, rfl⟩
      · exact ⟨_, _, .member before after hmove⟩
      · exact ⟨_, _, .notice off build error before after ending world⟩

/-- Of the members of a group, one can move or be noticed unless all have been. -/
theorem exists_moveOf {off : Bool} {plans : List (Plan σ ε α)} (members : List (Thread σ ε α))
    (hs : SoundAll off plans members) (world : World σ) :
    members.all isNoticed = true ∨
      ∃ before thread after, members = before ++ thread :: after ∧
        ((∃ thread' world', Move off thread world thread' world') ∨ ∃ ending, thread = ended ending) := by
  match members with
  | [] => exact .inl rfl
  | thread :: rest =>
    obtain ⟨plan, plans', -, hthread, hrest⟩ := hs
    rcases exists_move thread hthread world with hmove | ⟨ending, hended | hnoticed⟩
    · exact .inr ⟨[], thread, rest, rfl, .inl hmove⟩
    · exact .inr ⟨[], thread, rest, rfl, .inr ⟨ending, hended⟩⟩
    · rcases exists_moveOf rest hrest world with hall | ⟨before, first, after, hsplit, hfirst⟩
      · left
        rw [List.all_cons, hall, hnoticed]
        rfl
      · exact .inr ⟨thread :: before, first, after, by rw [hsplit, List.cons_append], hfirst⟩

end

end Thread

/-! ## Agreement -/

/-- How a plan may end whose parts give a result one after the other: with the same value, or, if that is an
    error, with an error that a script comes to by itself. -/
def Plan.Agrees (plan : Plan σ ε α) (ending : Ending ε α) : Except ε α → Prop
  | .ok value => ending = .value value
  | .error _ => ∃ error, ending = .error error ∧ plan.FailsWith error

/-- **All schedules of a steady plan agree.** Wherever a schedule has got, something can be done next, or the
    plan has ended and agrees with its parts being done one after the other. -/
theorem Plan.schedules_agree {plan : Plan σ ε α} (hs : plan.Steady) {world world' : World σ}
    {thread : Thread σ ε α} (h : Thread.Moves false (.waiting plan) world thread world') :
    (∃ thread' world'', Thread.Move false thread world' thread' world'') ∨
      ∃ ending, thread = .ended ending ∧ plan.Agrees ending (plan.inOrder.run world).1 := by
  have hsound : thread.Sound false plan :=
    h.keeps (fun hmove hsound => Thread.sound_of_move hmove hsound) (Plan.continues_self hs)
  have hnotice : ∀ ending, thread ≠ .noticed ending :=
    h.keeps (fun hmove _ => Thread.not_noticed_of_move hmove) fun ending hnoticed => by cases hnoticed
  rcases Thread.exists_move thread hsound world' with hmove | ⟨ending, rfl | rfl⟩
  · exact .inl hmove
  · refine .inr ⟨ending, rfl, ?_⟩
    cases ending with
    | value value =>
      rw [EndsWith.run hsound world]
      rfl
    | error error =>
      obtain ⟨first, hfirst⟩ := Plan.run_inOrder_of_failsWith hs hsound world
      rw [hfirst]
      exact ⟨error, rfl, hsound⟩
    | cancelled => cases hsound
  · exact absurd rfl (hnotice ending)

end Template
