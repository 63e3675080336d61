import Template.Proofs.Agreement
import Template.Proofs.Turns

/-!
# `Template.Proofs.Concurrency` — documents filled in one part after the other or all at once

Against steady plugins it does not show in a result whether the parts of a document are filled in one after
the other or at the same time, nor in which order they are when it is at the same time. Only a failure may
differ: it is the one of some string, the same that this string has when it is filled in by itself.

## Contents
- `Json.leaves` — the strings of a document, with their places.
- `SameTokens` — settings that treat a token alike, and hence a text.
- `plan_withConcurrent` — both ways work on the same plan.
- `exists_leaf_of_fill_error` — a failure is the one of some string.
- `fill_agrees` — the two ways agree, and so does every schedule.
-/

namespace Template

variable {σ : Type}

/-! ## The strings of a document -/

namespace Json

mutual

/-- The strings of a value that stands at a place, in order. -/
def leaves (path : Path) : Json → List (Path × String)
  | .string s => [(path, s)]
  | .array items => leavesOfItems path 0 items
  | .object members => leavesOfMembers path members
  | .null => []
  | .bool _ => []
  | .number _ => []

/-- The strings of the items of an array, from the one with the given number on. -/
def leavesOfItems (path : Path) (index : Nat) : List Json → List (Path × String)
  | [] => []
  | item :: rest => leaves (path ++ [.index index]) item ++ leavesOfItems path (index + 1) rest

/-- The strings of the members of an object. -/
def leavesOfMembers (path : Path) : List (String × Json) → List (Path × String)
  | [] => []
  | (name, value) :: rest => leaves (path ++ [.name name]) value ++ leavesOfMembers path rest

end

end Json

namespace Setting

open Script

variable {setting : Setting σ}

section

variable [Wording]

/-- A script that the plan of a document holds: one of its strings is filled in, or there is nothing to do. -/
def IsLeaf (setting : Setting σ) (leaves : List (Path × String)) (script : Script σ Failure Json) : Prop :=
  (∃ leaf ∈ leaves, script = setting.fillString leaf.1 leaf.2) ∨ ∃ value, script = .done value

theorem IsLeaf.mono {leaves leaves' : List (Path × String)} {script : Script σ Failure Json}
    (h : setting.IsLeaf leaves script) (hsub : ∀ leaf ∈ leaves, leaf ∈ leaves') :
    setting.IsLeaf leaves' script :=
  h.imp_left fun ⟨leaf, hmem, hscript⟩ => ⟨leaf, hsub leaf hmem, hscript⟩

mutual

/-- **The plan of a document fills in its strings**, each at its place. -/
theorem isLeaf_of_mem_plan (path : Path) (value : Json) :
    ∀ script ∈ (setting.plan path value).scripts, setting.IsLeaf (value.leaves path) script := by
  intro script h
  match value with
  | .string s =>
    rw [List.mem_singleton.mp h]
    exact .inl ⟨(path, s), List.mem_cons_self, rfl⟩
  | .array items => exact isLeaf_of_mem_items path 0 items script h
  | .object members => exact isLeaf_of_mem_members path members script h
  | .null => exact .inr ⟨_, List.mem_singleton.mp h⟩
  | .bool b => exact .inr ⟨_, List.mem_singleton.mp h⟩
  | .number n => exact .inr ⟨_, List.mem_singleton.mp h⟩

theorem isLeaf_of_mem_items (path : Path) (index : Nat) (items : List Json) :
    ∀ script ∈ Plan.scriptsOf (setting.plansOfItems path index items),
      setting.IsLeaf (Json.leavesOfItems path index items) script := by
  intro script h
  match items with
  | [] => exact absurd h List.not_mem_nil
  | item :: rest =>
    rcases List.mem_append.mp h with h | h
    · exact (isLeaf_of_mem_plan _ item script h).mono fun _ => List.mem_append_left _
    · exact (isLeaf_of_mem_items path (index + 1) rest script h).mono fun _ => List.mem_append_right _

theorem isLeaf_of_mem_members (path : Path) (members : List (String × Json)) :
    ∀ script ∈ Plan.scriptsOf (setting.plansOfMembers path members),
      setting.IsLeaf (Json.leavesOfMembers path members) script := by
  intro script h
  match members with
  | [] => exact absurd h List.not_mem_nil
  | (name, value) :: rest =>
    rcases List.mem_append.mp h with h | h
    · exact (isLeaf_of_mem_plan _ value script h).mono fun _ => List.mem_append_left _
    · exact (isLeaf_of_mem_members path rest script h).mono fun _ => List.mem_append_right _

end

end

theorem IsLeaf.steady {leaves : List (Path × String)} {script : Script σ Failure Json}
    (hl : setting.IsLeaf leaves script) (h : setting.registry.Steady) : script.Steady := by
  rcases hl with ⟨leaf, -, rfl⟩ | ⟨value, rfl⟩
  · exact fillString_steady h leaf.1 leaf.2
  · exact steady_done value

theorem plan_steady (h : setting.registry.Steady) (path : Path) (value : Json) :
    (setting.plan path value).Steady :=
  fun script hscript => (isLeaf_of_mem_plan path value script hscript).steady h

/-- An error of the plan of a document is that of one of its strings. -/
theorem exists_leaf_of_failsWith {path : Path} {value : Json} {error : Failure}
    (h : (setting.plan path value).FailsWith error) :
    ∃ leaf ∈ value.leaves path, (setting.fillString leaf.1 leaf.2).EndsWith (.error error) := by
  obtain ⟨script, hscript, hends⟩ := h
  rcases isLeaf_of_mem_plan path value script hscript with ⟨leaf, hleaf, rfl⟩ | ⟨value, rfl⟩
  · exact ⟨leaf, hleaf, hends⟩
  · cases hends

/-! ## Both ways work on the same plan -/

/-- Tokens are checked and evaluated in both settings in the same way. -/
structure SameTokens (setting setting' : Setting σ) : Prop where
  checkDepth : setting'.checkDepth = setting.checkDepth
  evaluate : setting'.evaluate = setting.evaluate

section

variable {setting' : Setting σ} (hsame : SameTokens setting setting')

include hsame

theorem SameTokens.checkTokens (path : Option Path) (tokens : List (List Char)) :
    setting'.checkTokens path tokens = setting.checkTokens path tokens := by
  induction tokens with
  | nil => rfl
  | cons token rest ih =>
    rw [Setting.checkTokens, Setting.checkTokens, ih, checkToken, checkToken, hsame.checkDepth]

theorem SameTokens.replaceTokens (path : Option Path) (found tokens : List (List Char)) (current : Filled) :
    setting'.replaceTokens path found tokens current = setting.replaceTokens path found tokens current := by
  induction tokens generalizing current with
  | nil => rfl
  | cons token rest ih =>
    rw [Setting.replaceTokens, Setting.replaceTokens, funext ih, replaceToken, replaceToken, resolve, resolve,
      hsame.evaluate]

theorem SameTokens.pass (path : Option Path) (found : List (List Char)) (text : List Char) :
    setting'.pass path found text = setting.pass path found text := by
  unfold Setting.pass
  rw [hsame.checkTokens, hsame.replaceTokens]

/-- So the passes over a text are the same. -/
theorem SameTokens.passes (path : Option Path) (limit : Nat) (current : Filled) :
    setting'.passes path limit current = setting.passes path limit current := by
  induction limit generalizing current with
  | zero => rfl
  | succ limit ih =>
    unfold Setting.passes
    simp only [hsame.pass, ih]

end

/-- The same setting, with the parts of a document at the same time or not. -/
def withConcurrent (setting : Setting σ) (concurrent : Bool) : Setting σ :=
  { setting with options := { setting.options with concurrent } }

/-- A token does not look at how the parts of a document are filled in. -/
theorem sameTokens_withConcurrent (setting : Setting σ) (concurrent : Bool) :
    SameTokens setting (setting.withConcurrent concurrent) where
  checkDepth := rfl
  evaluate := rfl

theorem substitute_withConcurrent (concurrent : Bool) (path : Option Path) (text : List Char) :
    (setting.withConcurrent concurrent).substitute path text = setting.substitute path text := by
  unfold substitute
  rw [(sameTokens_withConcurrent setting concurrent).passes]
  rfl

theorem fillString_withConcurrent (concurrent : Bool) (path : Path) (s : String) :
    (setting.withConcurrent concurrent).fillString path s = setting.fillString path s := by
  unfold fillString
  dsimp only
  rw [substitute_withConcurrent]
  rfl

mutual

/-- **The plan of a document is the same**, whether its parts are filled in at the same time or not. -/
theorem plan_withConcurrent (concurrent : Bool) (path : Path) (value : Json) :
    (setting.withConcurrent concurrent).plan path value = setting.plan path value := by
  match value with
  | .string s => exact congrArg Plan.work (fillString_withConcurrent concurrent path s)
  | .array items => rw [plan, plan, plansOfItems_withConcurrent]
  | .object members => rw [plan, plan, plansOfMembers_withConcurrent]
  | .null => rfl
  | .bool b => rfl
  | .number n => rfl

theorem plansOfItems_withConcurrent (concurrent : Bool) (path : Path) (index : Nat) (items : List Json) :
    (setting.withConcurrent concurrent).plansOfItems path index items =
      setting.plansOfItems path index items := by
  match items with
  | [] => rfl
  | item :: rest =>
    rw [plansOfItems, plansOfItems, plan_withConcurrent, plansOfItems_withConcurrent]

theorem plansOfMembers_withConcurrent (concurrent : Bool) (path : Path) (members : List (String × Json)) :
    (setting.withConcurrent concurrent).plansOfMembers path members =
      setting.plansOfMembers path members := by
  match members with
  | [] => rfl
  | (name, value) :: rest =>
    rw [plansOfMembers, plansOfMembers, plan_withConcurrent, plansOfMembers_withConcurrent]

end

/-! ## Agreement -/

/-- All parts at the same time agree with one part after the other. -/
theorem together_agrees {ε α : Type} {plan : Plan σ ε α} (hs : plan.Steady) (world : World σ) :
    plan.Agrees (.ofResult (plan.together world).1) (plan.inOrder.run world).1 := by
  have hschedule := Plan.moves_together plan world
  rcases Plan.schedules_agree hs hschedule with ⟨_, _, hmove⟩ | ⟨ending, hended, hagrees⟩
  · -- what has ended does not move
    cases hmove
  · rw [Thread.ended.inj hended]
    exact hagrees

/-- What a document may come to when its parts are filled in at the same time, given what it comes to one part
    after the other: the same value, or, if that is a failure, the failure that one of its strings has by
    itself, at its own place. -/
def AgreesWith (setting : Setting σ) (path : Path) (value : Json) (result : Except Failure Json) :
    (sequential : Except Failure Json) → Prop
  | .ok filled => result = .ok filled
  | .error _ => ∃ error, result = .error error ∧
      ∃ leaf ∈ value.leaves path, ∀ world, ((setting.fillString leaf.1 leaf.2).run world).1 = .error error

theorem agreesWith_of_agrees {path : Path} {value : Json} {ending : Ending Failure Json}
    {sequential : Except Failure Json} (h : (setting.plan path value).Agrees ending sequential) :
    ∃ result, ending = .ofResult result ∧ setting.AgreesWith path value result sequential := by
  cases sequential with
  | ok filled => exact ⟨.ok filled, h, rfl⟩
  | error first =>
    obtain ⟨error, hending, hfails⟩ := h
    obtain ⟨leaf, hleaf, hends⟩ := exists_leaf_of_failsWith hfails
    exact ⟨.error error, hending, error, rfl, leaf, hleaf, hends.run⟩

theorem ofResult_injective {ε α : Type} {result result' : Except ε α}
    (h : Ending.ofResult result = Ending.ofResult result') : result = result' := by
  cases result <;> cases result' <;> cases h <;> rfl

/-- **A document that fails, fails with the failure of one of its strings.** -/
theorem exists_leaf_of_fill_error (h : setting.registry.Steady) {path : Path} {value : Json}
    {world : World σ} {error : Failure} (hfill : (setting.fill path value world).1 = .error error) :
    ∃ leaf ∈ value.leaves path, ∀ world', ((setting.fillString leaf.1 leaf.2).run world').1 = .error error := by
  have hplan := plan_steady h path value
  unfold fill at hfill
  dsimp only at hfill
  split at hfill
  · have hagrees := together_agrees hplan world
    rw [hfill] at hagrees
    obtain ⟨result, hresult, hagrees⟩ := agreesWith_of_agrees hagrees
    cases ofResult_injective hresult
    cases hseq : ((setting.plan path value).inOrder.run world).1 with
    | ok filled =>
      rw [hseq] at hagrees
      cases hagrees
    | error first =>
      rw [hseq] at hagrees
      obtain ⟨_, ⟨⟩, hleaf⟩ := hagrees
      exact hleaf
  · rcases Plan.inOrder_cases (setting.plan path value) hplan with ⟨filled, hends, -⟩ | ⟨first, hends, hfails⟩
    · cases (hends.run world).symm.trans hfill
    · cases (hends.run world).symm.trans hfill
      obtain ⟨leaf, hleaf, hends⟩ := exists_leaf_of_failsWith hfails
      exact ⟨leaf, hleaf, hends.run⟩

/-- One part after the other, whatever else the setting says. -/
theorem fill_sequential (path : Path) (value : Json) (world : World σ) :
    (setting.withConcurrent false).fill path value world = (setting.plan path value).inOrder.run world := by
  unfold fill
  rw [plan_withConcurrent]
  rfl

/-- All parts at the same time. -/
theorem fill_concurrent (path : Path) (value : Json) (world : World σ) :
    (setting.withConcurrent true).fill path value world = (setting.plan path value).together world := by
  unfold fill
  rw [plan_withConcurrent]
  rfl

/-- **Filling in a document at the same time agrees with filling it in part by part.** Against steady plugins
    this holds of the rounds in which the engine works, and of every other schedule: it comes to an end, and
    wherever it has got, it can go on, or has ended with the value that the parts have one after the other, or
    with the failure of one string. -/
theorem fill_agrees (h : setting.registry.Steady) (path : Path) (value : Json) (world world' : World σ) :
    let sequential := ((setting.withConcurrent false).fill path value world).1
    setting.AgreesWith path value ((setting.withConcurrent true).fill path value world').1 sequential ∧
    (∀ thread last, Thread.Moves false (.waiting (setting.plan path value)) world' thread last →
      (∃ thread' last', Thread.Move false thread last thread' last') ∨
      ∃ result, thread = .ended (.ofResult result) ∧ setting.AgreesWith path value result sequential) ∧
    ∀ (threads : Nat → Thread σ Failure Json) (worlds : Nat → World σ),
      threads 0 = .waiting (setting.plan path value) →
      ¬ ∀ n, Thread.Move false (threads n) (worlds n) (threads (n + 1)) (worlds (n + 1)) := by
  intro sequential
  have hplan := plan_steady h path value
  have hseq : sequential = ((setting.plan path value).inOrder.run world').1 := by
    show ((setting.withConcurrent false).fill path value world).1 = _
    rw [fill_sequential]
    exact (Plan.steady_inOrder hplan).run_eq world world'
  have hschedules : ∀ thread last,
      Thread.Moves false (.waiting (setting.plan path value)) world' thread last →
      (∃ thread' last', Thread.Move false thread last thread' last') ∨
      ∃ result, thread = .ended (.ofResult result) ∧ setting.AgreesWith path value result sequential := by
    intro thread last hmoves
    rcases Plan.schedules_agree hplan hmoves with hmove | ⟨ending, rfl, hagrees⟩
    · exact .inl hmove
    · rw [← hseq] at hagrees
      obtain ⟨result, rfl, hresult⟩ := agreesWith_of_agrees hagrees
      exact .inr ⟨result, rfl, hresult⟩
  refine ⟨?_, hschedules, fun threads worlds _ => Thread.not_endless false threads worlds⟩
  -- the rounds are one of the schedules, and one that has ended
  rw [fill_concurrent]
  obtain ⟨result, hresult, hagrees⟩ := agreesWith_of_agrees (together_agrees hplan world')
  rw [ofResult_injective hresult, hseq]
  exact hagrees

/-- An array in which two strings fail, with another array in front. -/
theorem fill_agrees_echo :
    let value : Json := .array [.array [.string "\x7b\x7becho:say:a\x7d\x7d"],
      .string "\x7b\x7bsing:b\x7d\x7d", .string "\x7b\x7bdance:c\x7d\x7d"]
    echoing.AgreesWith [] value ((echoing.withConcurrent true).fill [] value { state := () }).1
      ((echoing.withConcurrent false).fill [] value { state := () }).1 :=
  (fill_agrees steady_echoing [] _ { state := () } { state := () }).1

end Setting

end Template
