import Template.Proofs.Cut
import Template.Proofs.JsonText
import Template.Proofs.Turns

/-!
# `Template.Proofs.Given` — what scripts give

A value that a script comes to is put together from what plugins answer. If every answer that its plugins can
give, in whatever state, leads to a value with a property, the script **gives** values with the property, however
it is run: alone, or in turns with others. For plans, it is enough that the property is passed on from the parts
to what is put together from them (`Plan.Gives.together`).

The property here is that of a value of a document: no object in it holds a name twice. If plugins and transforms
deal with such values, a filled-in document is one (`fill_gives`), stateful plugins or not.

## Contents
- `Script.Gives`, `Plan.Gives`, `Thread.Gives` — what scripts, plans and threads come to.
- `Plan.Gives.inOrder`, `Plan.Gives.together` — both orders of work.
- `Registry.Proper` — plugins and transforms whose values are values of documents.
- `fillString_gives`, `plan_gives`, `fill_gives` — strings and documents.
-/

namespace Template

variable {σ ε ε' α β : Type} {Q : α → Prop} {R : β → Prop}

namespace Script

/-! ## Scripts -/

/-- Whatever the plugins that it asks answer, in any of their states, the script has no value without the
    property. -/
def Gives (Q : α → Prop) : Script σ ε α → Prop
  | done value => Q value
  | fail _ => True
  | note _ next => next.Gives Q
  | ask plugin placeholder context next =>
    ∀ state, (next (plugin.resolve placeholder context state).1).Gives Q
  | pause next => next.Gives Q

theorem Gives.bind {script : Script σ ε α} {f : α → Script σ ε β} (h : script.Gives Q)
    (hf : ∀ value, Q value → (f value).Gives R) : (script >>= f).Gives R := by
  show (script.bind f).Gives R
  induction script with
  | done value => exact hf value h
  | fail error => trivial
  | note message next ih => exact ih h
  | ask plugin placeholder context next ih => exact fun state => ih _ (h state)
  | pause next ih => exact ih h

theorem Gives.handle {script : Script σ ε α} {f : ε → Script σ ε' α} (h : script.Gives Q)
    (hf : ∀ error, (f error).Gives Q) : (script.handle f).Gives Q := by
  induction script with
  | done value => exact h
  | fail error => exact hf error
  | note message next ih => exact ih h
  | ask plugin placeholder context next ih => exact fun state => ih _ (h state)
  | pause next ih => exact ih h

theorem Gives.after {script : Script σ ε α} (h : script.Gives Q) (turns : Nat) : (script.after turns).Gives Q := by
  induction turns with
  | zero => exact h
  | succ turns ih => exact ih

theorem gives_ofExcept {result : Except ε α} (h : ∀ value, result = .ok value → Q value) :
    (ofExcept result : Script σ ε α).Gives Q := by
  cases result with
  | error error => trivial
  | ok value => exact h value rfl

/-- The value of a script that runs alone has the property. -/
theorem Gives.of_run {script : Script σ ε α} (h : script.Gives Q) {world : World σ} {value : α}
    (hr : (script.run world).1 = .ok value) : Q value := by
  induction script generalizing world with
  | done own =>
    cases hr
    exact h
  | fail error => cases hr
  | note message next ih => exact ih h hr
  | ask plugin placeholder context next ih => exact ih _ (h _) hr
  | pause next ih => exact ih h hr

end Script

/-! ## Plans -/

namespace Plan

mutual

/-- All scripts of the plan give values with the property, and what is put together from such values has it, too. -/
def Gives (Q : α → Prop) : Plan σ ε α → Prop
  | work script => script.Gives Q
  | split build parts => (∀ values, (∀ value ∈ values, Q value) → Q (build values)) ∧ GivesAll Q parts

/-- The same for several plans. -/
def GivesAll (Q : α → Prop) : List (Plan σ ε α) → Prop
  | [] => True
  | plan :: rest => plan.Gives Q ∧ GivesAll Q rest

end

mutual

theorem Gives.inOrder {plan : Plan σ ε α} (h : plan.Gives Q) : plan.inOrder.Gives Q := by
  match plan with
  | work script => exact h
  | split build parts => exact (GivesAll.inOrderAll h.2).bind fun values hvalues => h.1 values hvalues

theorem GivesAll.inOrderAll {plans : List (Plan σ ε α)} (h : GivesAll Q plans) :
    (inOrderAll plans).Gives fun values => ∀ value ∈ values, Q value := by
  match plans with
  | [] =>
    intro value hvalue
    exact absurd hvalue List.not_mem_nil
  | plan :: rest =>
    refine (Gives.inOrder h.1).bind fun value hvalue => ?_
    exact (GivesAll.inOrderAll h.2).bind fun values hvalues => List.forall_mem_cons.mpr ⟨hvalue, hvalues⟩

end

end Plan

/-! ## Threads -/

namespace Thread

mutual

/-- The thread has no value without the property, and will come to none. -/
def Gives (Q : α → Prop) : Thread σ ε α → Prop
  | waiting plan => plan.Gives Q
  | group build _ members => (∀ values, (∀ value ∈ values, Q value) → Q (build values)) ∧ GivesAll Q members
  | ended ending => ∀ value, ending = .value value → Q value
  | noticed ending => ∀ value, ending = .value value → Q value

/-- The same for several threads. -/
def GivesAll (Q : α → Prop) : List (Thread σ ε α) → Prop
  | [] => True
  | thread :: rest => thread.Gives Q ∧ GivesAll Q rest

end

theorem givesAll_iff {threads : List (Thread σ ε α)} : GivesAll Q threads ↔ ∀ thread ∈ threads, thread.Gives Q := by
  induction threads with
  | nil => simp [GivesAll]
  | cons thread rest ih => simp [GivesAll, ih]

/-- One among several threads may be exchanged for another one. -/
theorem GivesAll.exchange {before after : List (Thread σ ε α)} {thread thread' : Thread σ ε α}
    (ht : thread.Gives Q → thread'.Gives Q) (h : GivesAll Q (before ++ thread :: after)) :
    GivesAll Q (before ++ thread' :: after) := by
  rw [givesAll_iff, List.forall_mem_append, List.forall_mem_cons] at h ⊢
  exact ⟨h.1, ht h.2.1, h.2.2⟩

theorem givesAll_waiting {plans : List (Plan σ ε α)} (h : Plan.GivesAll Q plans) :
    GivesAll Q (plans.map waiting) := by
  induction plans with
  | nil => trivial
  | cons plan rest ih => exact ⟨h.1, ih h.2⟩

/-- A script has given nothing else by its next pause. -/
theorem gives_ofProgress {script : Script σ ε α} (h : script.Gives Q) (world : World σ) :
    (ofProgress (script.advance world).1).Gives Q := by
  induction script generalizing world with
  | done own =>
    intro value hvalue
    cases hvalue
    exact h
  | fail error =>
    intro value hvalue
    cases hvalue
  | note message next ih => exact ih h _
  | ask plugin placeholder context next ih => exact ih _ (h _) _
  | pause next ih => exact h

/-- **What a thread gives, it gives after every move.** -/
theorem gives_of_move {off : Bool} {thread thread' : Thread σ ε α} {world world' : World σ}
    (h : Move off thread world thread' world') (hg : thread.Gives Q) : thread'.Gives Q := by
  induction h with
  | go off script world => exact gives_ofProgress hg world
  | divide off build parts world => exact ⟨hg.1, givesAll_waiting hg.2⟩
  | cancel plan world =>
    intro value hvalue
    cases hvalue
  | member before after hmove ih => exact ⟨hg.1, hg.2.exchange ih⟩
  | notice off build error before after ending world =>
    have hsame : (ended ending : Thread σ ε α).Gives Q → (noticed ending : Thread σ ε α).Gives Q := fun hg => hg
    exact ⟨hg.1, hg.2.exchange hsame⟩
  | fails off build error hall world =>
    intro value hvalue
    cases hvalue
  | completes off build values world =>
    have hvalues : ∀ value ∈ values, Q value := by
      intro value hvalue
      exact givesAll_iff.mp hg.2 _ (List.mem_map_of_mem hvalue) value rfl
    intro value hvalue
    cases hvalue
    exact hg.1 values hvalues
  | stops build hall world =>
    intro value hvalue
    cases hvalue

end Thread

/-- **All parts at the same time, a plan gives no other values** than part by part. -/
theorem Plan.Gives.together {plan : Plan σ ε α} (h : plan.Gives Q) {world : World σ} {value : α}
    (hv : (plan.together world).1 = .ok value) : Q value := by
  have hended : Thread.Gives Q (.ended (.ofResult (plan.together world).1)) :=
    (Plan.moves_together plan world).keeps Thread.gives_of_move h
  rw [hv] at hended
  exact hended value rfl

/-! ## Values of documents -/

/-- The plugin answers with values of documents: no object in them holds a name twice. -/
def Plugin.Proper (plugin : Plugin σ) : Prop :=
  ∀ placeholder context state value,
    (plugin.resolve placeholder context state).1.answer = .ok (.value value) → value.Distinct

/-- The transform makes values of documents from values of documents. -/
def Transform.Proper (transform : Transform) : Prop :=
  ∀ value params new, value.Distinct → transform.apply value params = .ok (.value new) → new.Distinct

/-- All plugins and transforms of the registry deal with values of documents. -/
structure Registry.Proper (registry : Registry σ) : Prop where
  plugins : ∀ plugin ∈ registry.plugins, plugin.Proper
  transforms : ∀ transform ∈ registry.transforms, transform.Proper

namespace Json

theorem distinctItems_of_forall {items : List Json} (h : ∀ item ∈ items, item.Distinct) : DistinctItems items := by
  induction items with
  | nil => trivial
  | cons item rest ih =>
    rw [List.forall_mem_cons] at h
    exact ⟨h.1, ih h.2⟩

theorem names_zip_sublist (names : List String) (values : List Json) :
    ((names.zip values).map (·.1)).Sublist names := by
  induction names generalizing values with
  | nil => exact List.nil_sublist _
  | cons name names ih =>
    cases values with
    | nil => exact List.nil_sublist _
    | cons value values => exact (ih values).cons_cons name

theorem distinctMembers_zip (names : List String) {values : List Json} (h : ∀ value ∈ values, value.Distinct) :
    DistinctMembers (names.zip values) := by
  induction names generalizing values with
  | nil => trivial
  | cons name names ih =>
    cases values with
    | nil => trivial
    | cons value values =>
      rw [List.forall_mem_cons] at h
      exact ⟨h.1, ih h.2⟩

/-- Values of documents, put under names of which none is there twice. -/
theorem distinct_object_zip {names : List String} (hn : names.Nodup) {values : List Json}
    (h : ∀ value ∈ values, value.Distinct) : (Json.object (names.zip values)).Distinct :=
  ⟨hn.sublist (names_zip_sublist names values), distinctMembers_zip names h⟩

end Json

/-- The value that is kept with the text, if there is one, is that of a document. -/
def Filled.Distinct (filled : Filled) : Prop :=
  ∀ value, filled.single = some value → value.Distinct

namespace Setting

open Script

variable {setting : Setting σ}

theorem exists_of_bind_eq_ok {ε α β : Type} {first : Except ε α} {f : α → Except ε β} {result : β}
    (h : (first >>= f) = .ok result) : ∃ value, first = .ok value ∧ f value = .ok result := by
  cases first with
  | error fault => cases h
  | ok value => exact ⟨value, rfl, h⟩

theorem eq_value_of_toValue {source : String} {outcome : Outcome} {value : Json}
    (h : outcome.toValue source = .ok value) : outcome = .value value := by
  cases outcome with
  | value other => cases h; rfl
  | foreign typeName => cases h

theorem distinct_applyTransforms {registry : Registry σ} (hp : registry.Proper)
    {calls : List TransformCall} {value new : Json} (hv : value.Distinct)
    (h : applyTransforms registry value calls = .ok new) : new.Distinct := by
  induction calls generalizing value with
  | nil =>
    cases h
    exact hv
  | cons call rest ih =>
    obtain ⟨transform, hfind, h⟩ := exists_of_bind_eq_ok h
    obtain ⟨outcome, happly, h⟩ := exists_of_bind_eq_ok h
    obtain ⟨middle, hmiddle, h⟩ := exists_of_bind_eq_ok h
    rw [eq_value_of_toValue hmiddle] at happly
    have hproper := hp.transforms transform (mem_transforms_of_findTransform hfind)
    exact ih (hproper value call.params middle hv happly) h

section

variable (hp : setting.registry.Proper)

include hp

/-- The value of a token is that of a document. -/
theorem evaluate_gives (token : List Char) : (setting.evaluate token).Gives Json.Distinct := by
  unfold evaluate
  split
  · trivial
  · trivial
  · rename_i placeholder plugin hprepare
    have hproper := hp.plugins plugin (mem_plugins_of_prepare hprepare)
    have hanswer : (question plugin placeholder setting.options.context : Script σ Cause _).Gives
        fun answer => ∀ value, answer = .ok (.value value) → value.Distinct := by
      intro state
      have hdone : (done (plugin.resolve placeholder setting.options.context state).1.answer :
          Script σ Cause _).Gives fun answer => ∀ value, answer = .ok (.value value) → value.Distinct :=
        hproper placeholder setting.options.context state
      exact hdone.after _
    refine hanswer.bind fun answer hanswer => gives_ofExcept fun value hvalue => ?_
    obtain ⟨outcome, houtcome, hrest⟩ := exists_of_bind_eq_ok hvalue
    obtain ⟨first, hfirst, htransforms⟩ := exists_of_bind_eq_ok hrest
    rw [eq_value_of_toValue hfirst] at houtcome
    exact distinct_applyTransforms hp (hanswer first houtcome) htransforms

theorem resolve_gives (path : Option Path) (token : List Char) :
    (setting.resolve path token).Gives Json.Distinct :=
  (evaluate_gives hp token).handle fun _ => trivial

theorem replaceTokens_gives (path : Option Path) (found tokens : List (List Char)) {current : Filled}
    (hc : current.Distinct) : (setting.replaceTokens path found tokens current).Gives Filled.Distinct := by
  induction tokens generalizing current with
  | nil => exact hc
  | cons token rest ih =>
    have hfirst : (setting.replaceToken path found current token).Gives Filled.Distinct := by
      unfold replaceToken
      split
      · refine (resolve_gives hp path token).bind fun value hvalue => ?_
        intro kept hkept
        dsimp only at hkept
        split at hkept
        · cases hkept
          exact hvalue
        · exact hc kept hkept
      · exact hc
    exact hfirst.bind fun next hnext => ih hnext

theorem pass_gives (path : Option Path) (found : List (List Char)) (text : List Char) :
    (setting.pass path found text).Gives Filled.Distinct := by
  have hchecked : (setting.checkTokens path found).Gives fun _ => True := by
    induction found with
    | nil => trivial
    | cons token rest ih =>
      have hfirst : (setting.checkToken path token).Gives fun _ => True := by
        unfold checkToken
        split <;> trivial
      exact hfirst.bind fun _ _ => ih
  refine hchecked.bind fun _ _ => replaceTokens_gives hp path found _ ?_
  intro value hvalue
  cases hvalue

theorem passes_gives (path : Option Path) (limit : Nat) {current : Filled} (hc : current.Distinct) :
    (setting.passes path limit current >>= setting.conclude).Gives Filled.Distinct := by
  induction limit generalizing current with
  | zero =>
    show (setting.conclude (current, false)).Gives Filled.Distinct
    unfold conclude
    dsimp only
    split
    · exact hc
    · show (if setting.strict then _ else _ : Script σ Failure Filled).Gives Filled.Distinct
      split
      · trivial
      · exact hc
  | succ limit ih =>
    by_cases ht : Token.tokens current.text = []
    · rw [passes_of_no_tokens path _ ht]
      exact hc
    · rw [passes_succ path _ ht]
      refine (pass_gives hp path _ _).bind fun next hnext => ?_
      split
      · exact hnext
      · exact ih hnext

theorem substitute_gives (path : Option Path) (text : List Char) :
    (setting.substitute path text).Gives Filled.Distinct := by
  rw [substitute_eq_conclude]
  refine passes_gives hp path _ ?_
  intro value hvalue
  cases hvalue

/-- **What a string becomes is the value of a document.** -/
theorem fillString_gives (path : Path) (s : String) : (setting.fillString path s).Gives Json.Distinct := by
  unfold fillString
  dsimp only
  split
  · trivial
  · split
    · exact resolve_gives hp _ _
    · refine (substitute_gives hp _ _).bind fun result hresult => ?_
      split
      · trivial
      · split
        · rename_i value hvalue
          exact hresult value hvalue
        · split
          · exact resolve_gives hp _ _
          · trivial

end

mutual

/-- A document is put together from such values under its own names. -/
theorem plan_gives (hp : setting.registry.Proper) (path : Path) {value : Json} (hv : value.Distinct) :
    (setting.plan path value).Gives Json.Distinct := by
  match value with
  | .string s => exact fillString_gives hp path s
  | .array items => exact ⟨fun _ => Json.distinctItems_of_forall, plansOfItems_gives hp path 0 hv⟩
  | .object members => exact ⟨fun _ => Json.distinct_object_zip hv.1, plansOfMembers_gives hp path hv.2⟩
  | .null => trivial
  | .bool b => trivial
  | .number n => trivial

theorem plansOfItems_gives (hp : setting.registry.Proper) (path : Path) (index : Nat) {items : List Json}
    (hv : Json.DistinctItems items) :
    Plan.GivesAll Json.Distinct (setting.plansOfItems path index items) := by
  match items with
  | [] => trivial
  | item :: rest => exact ⟨plan_gives hp _ hv.1, plansOfItems_gives hp path (index + 1) hv.2⟩

theorem plansOfMembers_gives (hp : setting.registry.Proper) (path : Path) {members : List (String × Json)}
    (hv : Json.DistinctMembers members) :
    Plan.GivesAll Json.Distinct (setting.plansOfMembers path members) := by
  match members with
  | [] => trivial
  | (name, value) :: rest => exact ⟨plan_gives hp _ hv.1, plansOfMembers_gives hp path hv.2⟩

end

/-- **A filled-in document is a document**, in both orders of work. -/
theorem fill_gives (hp : setting.registry.Proper) {path : Path} {value filled : Json} (hv : value.Distinct)
    {world : World σ} (hf : (setting.fill path value world).1 = .ok filled) : filled.Distinct := by
  have hplan := plan_gives hp path hv
  unfold fill at hf
  dsimp only at hf
  split at hf
  · exact hplan.together hf
  · exact hplan.inOrder.of_run hf

end Setting

end Template
