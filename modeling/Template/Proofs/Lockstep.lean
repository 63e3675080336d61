import Template.Proofs.Cut
import Template.Proofs.Turns

/-!
# `Template.Proofs.Lockstep` — plans that are cut off, all parts at the same time

When the parts of a plan are done at the same time, a script that is cut off fails early, and everything behind
it runs in another world. If the plan has a value nevertheless, there was no such script: a job that has failed
dooms the groups around it, whatever else happens (`Thread.doomed_of_move`). So either a plan that is cut off and
the plan itself go through the same rounds, in lockstep (`turn_cut`), or the first one fails (`together_cut`).

## Contents
- `Thread.Doomed` — threads that do not come to a value any more.
- `Job.Cut` — jobs of a plan that is cut off, and of the plan itself.
- `Job.turn_cut`, `Job.runGroup_cut` — a turn, and all rounds.
- `Plan.together_cut`, `Setting.fill_cut`, `Engine.generate_cut` — plans, documents and templates.
-/

namespace Template

variable {σ ε α : Type} {P : ε → Prop}

/-! ## Threads that do not come to a value -/

namespace Thread

mutual

/-- The thread has ended without a value, or it is a group that has seen an error or has such a member. -/
def Doomed : Thread σ ε α → Prop
  | waiting _ => False
  | group _ error members => error.isSome = true ∨ DoomedAmong members
  | ended ending => ∀ value, ending ≠ .value value
  | noticed ending => ∀ value, ending ≠ .value value

/-- One of the threads is doomed. -/
def DoomedAmong : List (Thread σ ε α) → Prop
  | [] => False
  | thread :: rest => thread.Doomed ∨ DoomedAmong rest

end

theorem doomedAmong_iff {threads : List (Thread σ ε α)} :
    DoomedAmong threads ↔ ∃ thread ∈ threads, thread.Doomed := by
  induction threads with
  | nil => simp [DoomedAmong]
  | cons thread rest ih => simp [DoomedAmong, ih]

/-- If a doomed thread stays so when it is exchanged for another one, so does one among several. -/
theorem DoomedAmong.exchange {before after : List (Thread σ ε α)} {thread thread' : Thread σ ε α}
    (ht : thread.Doomed → thread'.Doomed) (h : DoomedAmong (before ++ thread :: after)) :
    DoomedAmong (before ++ thread' :: after) := by
  rw [doomedAmong_iff] at h ⊢
  obtain ⟨other, hmem, hother⟩ := h
  rcases List.mem_append.mp hmem with hmem | hmem
  · exact ⟨other, List.mem_append_left _ hmem, hother⟩
  · rcases List.mem_cons.mp hmem with rfl | hmem
    · exact ⟨thread', List.mem_append_right _ List.mem_cons_self, ht hother⟩
    · exact ⟨other, List.mem_append_right _ (List.mem_cons_of_mem _ hmem), hother⟩

/-- **No move takes a thread from its doom.** -/
theorem doomed_of_move {off : Bool} {thread thread' : Thread σ ε α} {world world' : World σ}
    (h : Move off thread world thread' world') (hd : thread.Doomed) : thread'.Doomed := by
  induction h with
  | go off script world => exact absurd hd id
  | divide off build parts world => exact absurd hd id
  | cancel plan world => exact absurd hd id
  | member before after hmove ih => exact hd.imp_right (DoomedAmong.exchange ih)
  | notice off build error before after ending world =>
    rcases hd with hseen | hamong
    · exact .inl (@Ending.off_of_off _ _ false error ending hseen)
    · have hstays : (ended ending : Thread σ ε α).Doomed → (noticed ending : Thread σ ε α).Doomed := fun hd => hd
      exact .inr (hamong.exchange hstays)
  | fails off build error hall world =>
    intro value he
    cases he
  | completes off build values world =>
    -- its members have all come to values
    rcases hd with hseen | hamong
    · cases hseen
    · obtain ⟨thread, hmem, hthread⟩ := doomedAmong_iff.mp hamong
      obtain ⟨value, -, rfl⟩ := List.mem_map.mp hmem
      exact absurd rfl (hthread value)
  | stops build hall world =>
    intro value he
    cases he

end Thread

/-! ## A script that is cut off, up to its next pause -/

namespace Script

/-- Up to its next pause, a script that is cut off asks the same and gets as far as the other one, or it fails. -/
theorem Cut.advance_cases {short long : Script σ ε α} (h : Cut P short long) (world : World σ) :
    (short.askedNow world = long.askedNow world ∧
      ((∃ rest rest' after, short.advance world = (.paused rest, after) ∧
          long.advance world = (.paused rest', after) ∧ Cut P rest rest') ∨
        ∃ result after, short.advance world = (.ended result, after) ∧
          long.advance world = (.ended result, after))) ∨
      ∃ error, (short.advance world).1 = .ended (.error error) := by
  induction h generalizing world with
  | off message h long => exact .inr ⟨_, rfl⟩
  | done value => exact .inl ⟨rfl, .inr ⟨_, _, rfl, rfl⟩⟩
  | fail error => exact .inl ⟨rfl, .inr ⟨_, _, rfl, rfl⟩⟩
  | note message _ ih => exact ih (world.note message)
  | ask plugin placeholder context _ ih =>
    simp only [advance, askedNow, List.cons.injEq, true_and]
    exact ih _ _
  | pause h _ => exact .inl ⟨rfl, .inl ⟨_, _, world, rfl, rfl, h⟩⟩

end Script

/-! ## Jobs -/

namespace Job

mutual

/-- The first job is the second one, with scripts that are cut off. -/
inductive Cut (P : ε → Prop) : Job σ ε α → Job σ ε α → Prop where
  | pending {plan plan' : Plan σ ε α} (h : plan.Cut P plan') (cancelled : Bool) :
      Cut P (pending plan cancelled) (pending plan' cancelled)
  | group (build : List α → α) (standing : Standing ε) {members members' : List (Job σ ε α)}
      (h : CutAll P members members') : Cut P (group build standing members) (group build standing members')
  | ended (ending : Ending ε α) : Cut P (ended ending) (ended ending)
  | noticed (ending : Ending ε α) : Cut P (noticed ending) (noticed ending)

/-- The same for several jobs, one by one. -/
inductive CutAll (P : ε → Prop) : List (Job σ ε α) → List (Job σ ε α) → Prop where
  | nil : CutAll P [] []
  | cons {job job' : Job σ ε α} {rest rest' : List (Job σ ε α)} (h : Cut P job job')
      (hr : CutAll P rest rest') : CutAll P (job :: rest) (job' :: rest')

end

/-! ### What a group sees of its members is the same -/

theorem Cut.isNoticed {job job' : Job σ ε α} (h : job.Cut P job') : job.isNoticed = job'.isNoticed := by
  cases h <;> rfl

theorem Cut.eq_of_isNoticed {job job' : Job σ ε α} (h : job.Cut P job') (hn : job.isNoticed = true) :
    job = job' := by
  cases h with
  | noticed ending => rfl
  | _ => cases hn

theorem CutAll.length {jobs jobs' : List (Job σ ε α)} (h : CutAll P jobs jobs') : jobs.length = jobs'.length := by
  induction jobs generalizing jobs' with
  | nil =>
    cases h
    rfl
  | cons job rest ih =>
    cases h with
    | cons _ hr => rw [List.length_cons, List.length_cons, ih hr]

theorem Cut.cancelLate {job job' : Job σ ε α} (h : job.Cut P job') : job.cancelLate.Cut P job'.cancelLate := by
  cases h with
  | pending h cancelled => exact .pending h true
  | group build standing h =>
    rw [Job.cancelLate, Job.cancelLate, h.length]
    exact .group build _ h
  | ended ending => exact .ended ending
  | noticed ending => exact .noticed ending

theorem CutAll.map_isNoticed {jobs jobs' : List (Job σ ε α)} (h : CutAll P jobs jobs') :
    jobs.map Job.isNoticed = jobs'.map Job.isNoticed := by
  induction jobs generalizing jobs' with
  | nil =>
    cases h
    rfl
  | cons job rest ih =>
    cases h with
    | cons h hr => rw [List.map_cons, List.map_cons, h.isNoticed, ih hr]

theorem CutAll.all_isNoticed {jobs jobs' : List (Job σ ε α)} (h : CutAll P jobs jobs') :
    jobs.all Job.isNoticed = jobs'.all Job.isNoticed := by
  have hmap : ∀ list : List (Job σ ε α), list.all Job.isNoticed = (list.map Job.isNoticed).all id := by
    intro list
    rw [List.all_map]
    rfl
  rw [hmap, hmap, h.map_isNoticed]

theorem CutAll.take {jobs jobs' : List (Job σ ε α)} (h : CutAll P jobs jobs') (count : Nat) :
    CutAll P (jobs.take count) (jobs'.take count) := by
  induction count generalizing jobs jobs' with
  | zero => exact .nil
  | succ count ih =>
    cases h with
    | nil => exact .nil
    | cons h hr => exact .cons h (ih hr)

theorem CutAll.drop {jobs jobs' : List (Job σ ε α)} (h : CutAll P jobs jobs') (count : Nat) :
    CutAll P (jobs.drop count) (jobs'.drop count) := by
  induction count generalizing jobs jobs' with
  | zero => exact h
  | succ count ih =>
    cases h with
    | nil => exact .nil
    | cons h hr => exact ih hr

theorem CutAll.seesAllNoticed {before before' after after' : List (Job σ ε α)} (hb : CutAll P before before')
    (ha : CutAll P after after') (standing : Standing ε) :
    Job.seesAllNoticed standing before after = Job.seesAllNoticed standing before' after' := by
  unfold Job.seesAllNoticed
  cases standing.lookUp with
  | none => rfl
  | some place =>
    dsimp only
    rw [(ha.take place).all_isNoticed, (hb.drop place).all_isNoticed]

theorem CutAll.eq_of_all {jobs jobs' : List (Job σ ε α)} (h : CutAll P jobs jobs')
    (hall : jobs.all Job.isNoticed = true) : jobs = jobs' := by
  induction jobs generalizing jobs' with
  | nil =>
    cases h
    rfl
  | cons job rest ih =>
    rw [List.all_cons, Bool.and_eq_true] at hall
    cases h with
    | cons h hr => rw [h.eq_of_isNoticed hall.1, ih hr hall.2]

theorem CutAll.firstFailure? {jobs jobs' : List (Job σ ε α)} (h : CutAll P jobs jobs') :
    Job.firstFailure? jobs = Job.firstFailure? jobs' := by
  induction jobs generalizing jobs' with
  | nil =>
    cases h
    rfl
  | cons job rest ih =>
    cases h with
    | cons h hr =>
      have hrest := ih hr
      cases h with
      | ended ending => cases ending <;> simp [Job.firstFailure?, hrest]
      | _ => simp [Job.firstFailure?, hrest]

theorem cutAll_map_ofPlan {parts parts' : List (Plan σ ε α)} (h : Plan.CutAll P parts parts') :
    CutAll P (parts.map ofPlan) (parts'.map ofPlan) := by
  induction parts generalizing parts' with
  | nil =>
    cases h
    exact .nil
  | cons part rest ih =>
    cases h with
    | cons h hr => exact .cons (.pending h false) (ih hr)

/-! ### A turn -/

/-- What there is after a turn with a cut, and after the same turn without: the same, but for scripts that are cut
    off, and the same was asked. -/
structure InStep {β : Type} (cut : β → β → Prop) (short long : β × World σ) (asked asked' : List (Question σ)) :
    Prop where
  cut : cut short.1 long.1
  world : short.2 = long.2
  asked : asked = asked'

/-- The first turn of a plan, and every further turn of a script. -/
theorem begin_cut {plan plan' : Plan σ ε α} (h : plan.Cut P plan') (world : World σ) :
    InStep (Cut P) (begin plan world) (begin plan' world) ((pending plan false).askedInTurn false world)
        ((pending plan' false).askedInTurn false world) ∨
      (begin plan world).1.thread.Doomed := by
  cases h with
  | work h =>
    rcases h.advance_cases world with ⟨hasked, hprogress⟩ | ⟨error, hfails⟩
    · left
      rcases hprogress with ⟨rest, rest', after, hshort, hlong, hrest⟩ | ⟨result, after, hshort, hlong⟩
      · simp only [begin, hshort, hlong]
        exact ⟨.pending (.work hrest) false, rfl, hasked⟩
      · cases result with
        | ok value =>
          simp only [begin, hshort, hlong]
          exact ⟨.ended _, rfl, hasked⟩
        | error error =>
          simp only [begin, hshort, hlong]
          exact ⟨.ended _, rfl, hasked⟩
    · right
      rw [(begin_work _ world).2.1, hfails]
      intro value he
      cases he
  | split build h =>
    left
    cases h with
    | nil => exact ⟨.ended _, rfl, rfl⟩
    | cons hpart hparts => exact ⟨.group build {} (cutAll_map_ofPlan (.cons hpart hparts)), rfl, rfl⟩

/-- A group with a doomed member ends without a value. -/
theorem doomed_ending {off : Bool} {build : List α → α} {standing : Standing ε} {members : List (Job σ ε α)}
    (hj : (group build standing members).Flagged off) (hall : members.all Job.isNoticed = true)
    (hd : Thread.DoomedAmong (threads members)) (world : World σ) :
    (ended (standing.ending (build (members.filterMap value?))) : Job σ ε α).thread.Doomed :=
  (moves_ending hj hall world).keeps Thread.doomed_of_move (.inr hd)

mutual

/-- **A turn of a job that is cut off is that of the job itself, or the job is doomed after it.** -/
theorem turn_cut {off : Bool} (cancel : Bool) {job job' : Job σ ε α} (h : job.Cut P job')
    (hj : job.Flagged off) (world : World σ) :
    InStep (Cut P) (job.turn cancel world) (job'.turn cancel world) (job.askedInTurn cancel world)
        (job'.askedInTurn cancel world) ∨
      (job.turn cancel world).1.thread.Doomed := by
  match job, job', h with
  | .pending plan _, .pending plan' _, .pending hplan cancelled =>
    by_cases hc : (cancelled || cancel) = true
    · left
      rw [turn, turn, if_pos hc, if_pos hc]
      refine ⟨.ended _, rfl, ?_⟩
      cases hplan with
      | work h => rw [askedInTurn, askedInTurn, if_pos hc, if_pos hc]
      | split build h => rfl
    · rw [turn, turn, if_neg hc, if_neg hc]
      rcases begin_cut hplan world with hstep | hdoomed
      · refine .inl ⟨hstep.cut, hstep.world, ?_⟩
        have hasked := hstep.asked
        cases hplan with
        | work h =>
          rw [askedInTurn, askedInTurn, if_neg hc, if_neg hc]
          exact hasked
        | split build h => rfl
      · exact .inr hdoomed
  | .group _ _ members, .group _ _ members', .group build standing hmembers =>
    rw [turn, turn, askedInTurn, askedInTurn, ← hmembers.all_isNoticed, ← hmembers.firstFailure?]
    by_cases hall : members.all Job.isNoticed = true
    · left
      rw [if_pos hall, if_pos hall, if_pos hall, if_pos hall, ← hmembers.eq_of_all hall]
      exact ⟨.ended _, rfl, rfl⟩
    · rw [if_neg hall, if_neg hall, if_neg hall, if_neg hall]
      dsimp only
      have hon : off = true → true = true := fun _ => rfl
      have hcancel : cancel = true → true = true := fun _ => rfl
      have hnext := flagged_next cancel hon hcancel hj world
      rcases turnAll_cut (standing.strike? (Job.firstFailure? members)) 0 hmembers hj.2.2 world
        with ⟨hcut, hworld, hasked⟩ | hdoomed
      · left
        rw [← hmembers.seesAllNoticed hcut]
        by_cases hsees : Job.seesAllNoticed standing members
            (turnAll (standing.strike? (Job.firstFailure? members)) 0 members world).1 = true
        · rw [if_pos hsees, if_pos hsees, ← hcut.eq_of_all (all_isNoticed_of_sees hsees)]
          exact ⟨.ended _, hworld, hasked⟩
        · rw [if_neg hsees, if_neg hsees]
          exact ⟨.group build _ hcut, hworld, hasked⟩
      · right
        by_cases hsees : Job.seesAllNoticed standing members
            (turnAll (standing.strike? (Job.firstFailure? members)) 0 members world).1 = true
        · rw [if_pos hsees]
          exact doomed_ending hnext (all_isNoticed_of_sees hsees) hdoomed world
        · rw [if_neg hsees]
          exact .inr hdoomed
  | _, _, .ended ending => exact .inl ⟨.noticed ending, rfl, rfl⟩
  | _, _, .noticed ending => exact .inl ⟨.noticed ending, rfl, rfl⟩

/-- The same for the members of a group: one that is doomed is enough. -/
theorem turnAll_cut {off : Bool} (strike : Option Nat) (place : Nat) {jobs jobs' : List (Job σ ε α)}
    (h : CutAll P jobs jobs') (hj : FlaggedAll off jobs) (world : World σ) :
    InStep (CutAll P) (turnAll strike place jobs world) (turnAll strike place jobs' world)
        (askedInTurns strike place jobs world) (askedInTurns strike place jobs' world) ∨
      Thread.DoomedAmong (threads (turnAll strike place jobs world).1) := by
  match jobs, jobs', h with
  | _, _, .nil => exact .inl ⟨.nil, rfl, rfl⟩
  | job :: rest, _ :: _, .cons hjob hrest =>
    obtain ⟨hthreads, -⟩ := threads_turnAll_cons strike place job rest world
    rcases turn_cut (strike.any (· ≤ place)) hjob hj.1 world with ⟨hcut, hworld, hasked⟩ | hdoomed
    · rcases turnAll_cut strike (place + 1) hrest hj.2 (job.turn (strike.any (· ≤ place)) world).2
        with ⟨hcuts, hworlds, haskeds⟩ | hdoomed
      · left
        rw [turnAll, turnAll, askedInTurns, askedInTurns]
        dsimp only
        rw [← hworld]
        refine ⟨.cons ?_ hcuts, hworlds, ?_⟩
        · split
          · exact hcut.cancelLate
          · exact hcut
        · rw [hasked, haskeds]
      · right
        rw [hthreads]
        exact .inr hdoomed
    · right
      rw [hthreads]
      exact .inl hdoomed

end

/-- **If a group has a value although its members are cut off, the group without the cut goes through the same
    rounds.** -/
theorem runGroup_cut (build : List α → α) (standing : Standing ε) (members : List (Job σ ε α))
    {members' : List (Job σ ε α)} (world : World σ) (h : CutAll P members members')
    (hj : (group build standing members).Flagged false) {value : α}
    (hv : (runGroup build standing members world).1 = .ok value) :
    runGroup build standing members' world = runGroup build standing members world ∧
      askedInRounds standing members' world = askedInRounds standing members world := by
  fun_induction runGroup build standing members world generalizing members' with
  | case1 standing members world hall =>
    rw [← h.eq_of_all hall, runGroup, askedInRounds, if_pos hall, if_pos hall]
    exact ⟨rfl, rfl⟩
  | case2 =>
    rename_i standing members world hall failure next ih
    have hnext := flagged_next false id id hj world
    rcases turnAll_cut (standing.strike? failure) 0 h hj.2.2 world with ⟨hcut, hworld, hasked⟩ | hdoomed
    · obtain ⟨hrun, hrest⟩ := ih hcut hnext hv
      have hall' : ¬ members'.all Job.isNoticed = true := by rwa [← h.all_isNoticed]
      rw [runGroup, askedInRounds, askedInRounds, if_neg hall', if_neg hall', if_neg hall]
      dsimp only
      rw [← h.firstFailure?, ← hworld, ← hasked]
      exact ⟨hrun, congrArg _ hrest⟩
    · -- a doomed member would have kept the group from its value
      have hend : Thread.Doomed (.ended (.ofResult (runGroup build _ next.1 next.2).1)) :=
        (moves_runGroup build _ next.1 next.2 hnext).keeps Thread.doomed_of_move (.inr hdoomed)
      rw [hv] at hend
      exact absurd rfl (hend value)

end Job

/-! ## Plans and documents -/

/-- **All parts at the same time, a plan that is cut off does what the plan itself does**, if it has a value. -/
theorem Plan.together_cut {plan plan' : Plan σ ε α} (h : plan.Cut P plan') {world : World σ} {value : α}
    (hv : (plan.together world).1 = .ok value) :
    plan'.together world = plan.together world ∧ plan'.askedTogether world = plan.askedTogether world := by
  cases h with
  | work h => exact h.run_eq hv
  | split build h =>
    refine Job.runGroup_cut build {} _ world (Job.cutAll_map_ofPlan h) ⟨⟨fun h => h, fun h => h⟩, ?_, ?_⟩ hv
    · intro e he
      obtain ⟨part, -, hpart⟩ := List.mem_map.mp he
      cases hpart
    · rw [Job.flaggedAll_iff]
      intro job hjob
      obtain ⟨part, -, rfl⟩ := List.mem_map.mp hjob
      exact fun h => h

/-- **A document is filled in as without the cut**, if it is filled in although its strings are cut off: with the
    same result, in the same world, after the same questions. -/
theorem Setting.fill_cut {setting setting' : Setting σ} {P : Failure → Prop}
    (hc : setting'.options.concurrent = setting.options.concurrent) {path : Path} {value filled : Json}
    {world : World σ}
    (h : ∀ leaf ∈ value.leaves path,
      (setting.fillString leaf.1 leaf.2).Cut P (setting'.fillString leaf.1 leaf.2))
    (hf : (setting.fill path value world).1 = .ok filled) :
    setting'.fill path value world = setting.fill path value world ∧
      setting'.questions path value world = setting.questions path value world := by
  have hplan := plan_cut path value h
  unfold fill questions at *
  rw [hc]
  dsimp only at hf ⊢
  by_cases hconcurrent : setting.options.concurrent = true
  · rw [if_pos hconcurrent] at hf
    rw [if_pos hconcurrent, if_pos hconcurrent, if_pos hconcurrent, if_pos hconcurrent]
    exact Plan.together_cut hplan hf
  · rw [if_neg hconcurrent] at hf
    rw [if_neg hconcurrent, if_neg hconcurrent, if_neg hconcurrent, if_neg hconcurrent]
    exact hplan.inOrder.run_eq hf

/-- **A template is filled in as without the cut**, if it is filled in although its strings are cut off, in both
    orders of work. -/
theorem Engine.generate_cut {engine engine' : Engine σ} {options options' : Options} {P : Failure → Prop}
    (hf : options'.format = options.format) (hi : engine'.settings.indent = engine.settings.indent)
    (hc : options'.concurrent = options.concurrent)
    (ht : ∀ text, ((engine.setting options).fillText text).Cut P ((engine'.setting options').fillText text))
    (hs : ∀ path s,
      ((engine.setting options).fillString path s).Cut P ((engine'.setting options').fillString path s))
    {content output : List Char} {world : World σ} (h : (engine.generate options content world).1 = .ok output) :
    engine'.generate options' content world = engine.generate options content world ∧
      engine'.questions options' content world = engine.questions options content world := by
  unfold generate questions at *
  rw [hf]
  cases hformat : options.format with
  | text =>
    rw [hformat] at h
    exact (ht content).run_eq h
  | xml => exact ⟨rfl, rfl⟩
  | json =>
    rw [hformat] at h
    dsimp only at h ⊢
    unfold generateDocument at h ⊢
    rw [hi]
    cases hread : Json.read content with
    | error fault => exact ⟨rfl, rfl⟩
    | ok value =>
      rw [hread] at h
      have hconcurrent : (engine'.setting options').options.concurrent =
          (engine.setting options).options.concurrent := hc
      dsimp only at h ⊢
      cases hfilled : ((engine.setting options).fill [] value world).1 with
      | error failure =>
        rw [hfilled] at h
        cases h
      | ok filled =>
        obtain ⟨hfill, hasked⟩ :=
          Setting.fill_cut hconcurrent (fun leaf (_ : leaf ∈ value.leaves []) => hs leaf.1 leaf.2) hfilled
        rw [hfill, hfilled]
        exact ⟨rfl, hasked⟩

end Template
