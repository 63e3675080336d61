import Mathlib.Data.List.DropRight
import Mathlib.Data.List.Nodup
import Template.Engine

/-!
# `Template.Proofs.Registration` — a registry is its history

Whatever is asked of a registry that was empty at first, it holds what was registered since it was last cleared,
each under a name of its own and in the order of registration, and it answers by name from exactly that. What is
refused leaves no trace; of several offered at once those before the refused one stay.

A registry has two tables, one for plugins and one for transforms, which do not affect each other. They are
treated alike: a `Table` says which part of the registry it is and which functions are about it, and everything
is proved for tables.

The history is a list of events of its own. It says of every single registration whether it was refused, and it
is read without regard to what the registry holds.

## Contents
- `Request`, `Response`, `Table.serve` — what can be asked of a table; `Operation`, `after` — of a registry.
- `Event`, `history`, `sinceCleared` — what has happened.
- `Table.add_cases`, `Table.addMany_cases` — what a registration can do.
- `Table.lists_perform`, `Table.lists_after` — one operation, and all of them.
- `registry_is_its_history`.
-/

namespace Template.Registry

variable {σ α β : Type}

/-! ## What can be asked -/

/-- What can be asked of a table of plugins or transforms. -/
inductive Request (α : Type) where
  /-- To register one. -/
  | register (candidate : Candidate α)
  /-- To register several. -/
  | registerMany (candidates : List (Candidate α))
  /-- For the one of a name. -/
  | get (name : String)
  /-- Whether there is one of a name. -/
  | has (name : String)

/-- What a table answers. -/
inductive Response (α : Type) where
  /-- All is registered. -/
  | done
  /-- Something is not registered, and why. -/
  | refused (fault : RegistrationFault)
  /-- The one asked for. -/
  | found (item : α)
  /-- There is none of that name. -/
  | missing (cause : Cause)
  /-- Whether there is one. -/
  | known (answer : Bool)

/-- What can be asked of a registry. -/
inductive Operation (σ : Type) where
  | plugins (request : Request (Plugin σ))
  | transforms (request : Request Transform)
  /-- To be empty again. -/
  | clear

/-- What has happened to a registry. -/
inductive Event (σ : Type) where
  /-- A plugin was offered, and refused for the fault if there is one. -/
  | plugin (candidate : Candidate (Plugin σ)) (fault : Option RegistrationFault)
  /-- A transform was offered, and refused for the fault if there is one. -/
  | transform (candidate : Candidate Transform) (fault : Option RegistrationFault)
  /-- The registry was cleared. -/
  | cleared

/-- Whether something was offered. -/
def Event.isOffer : Event σ → Bool
  | .cleared => false
  | _ => true

/-- The plugin that was registered. -/
def Event.plugin? : Event σ → Option (Plugin σ)
  | Event.plugin (.fit item) none => some item
  | _ => none

/-- The transform that was registered. -/
def Event.transform? : Event σ → Option Transform
  | Event.transform (.fit item) none => some item
  | _ => none

/-! ## Tables -/

/-- A part of a registry, the functions of the registry that are about it, and the events that are. -/
structure Table (σ α : Type) where
  /-- What is in the table. -/
  role : Role
  name : α → String
  items : Registry σ → List α
  /-- The registry with other contents of the table. -/
  put : Registry σ → List α → Registry σ
  add : Registry σ → Candidate α → Except RegistrationFault (Registry σ)
  addMany : Registry σ → List (Candidate α) → Registry σ × Option RegistrationFault
  lookup : Registry σ → String → Option α
  find : Registry σ → String → Except Cause α
  /-- Why there is nothing of a name, if these are the names. -/
  unknown : String → List String → Cause
  event : Candidate α → Option RegistrationFault → Event σ
  registered? : Event σ → Option α
  items_put : ∀ registry list, items (put registry list) = list
  put_items : ∀ registry, put registry (items registry) = registry
  put_put : ∀ registry list list', put (put registry list) list' = put registry list'
  add_unfit : ∀ registry shown, add registry (.unfit shown) = .error (.unfit role shown)
  add_fit : ∀ registry item, add registry (.fit item) =
    if ((items registry).map name).contains (name item) then .error (.duplicate role (name item))
    else .ok (put registry (items registry ++ [item]))
  addMany_eq : ∀ registry candidates, addMany registry candidates = addAll add registry candidates
  lookup_eq : ∀ registry wanted, lookup registry wanted = (items registry).find? (name · == wanted)
  find_eq : ∀ registry wanted, find registry wanted =
    match lookup registry wanted with
    | some item => .ok item
    | none => .error (unknown wanted ((items registry).map name))
  items_clear : ∀ registry, items (clear registry) = []
  isOffer_event : ∀ candidate fault, (event candidate fault).isOffer = true
  registered_fit : ∀ item, registered? (event (.fit item) none) = some item
  registered_refused : ∀ candidate fault, registered? (event candidate (some fault)) = none

/-- The plugins of a registry. -/
def Table.plugins : Table σ (Plugin σ) where
  role := .plugin
  name := (·.name)
  items := (·.plugins)
  put registry plugins := { registry with plugins }
  add := addPlugin
  addMany := addPlugins
  lookup := plugin?
  find := findPlugin
  unknown := .unknownPlugin
  event := .plugin
  registered? := Event.plugin?
  items_put _ _ := rfl
  put_items _ := rfl
  put_put _ _ _ := rfl
  add_unfit _ _ := rfl
  add_fit _ _ := rfl
  addMany_eq _ _ := rfl
  lookup_eq _ _ := rfl
  find_eq registry wanted := by
    unfold findPlugin
    cases registry.plugin? wanted <;> rfl
  items_clear _ := rfl
  isOffer_event _ _ := rfl
  registered_fit _ := rfl
  registered_refused candidate _ := by cases candidate <;> rfl

/-- The transforms of a registry. -/
def Table.transforms : Table σ Transform where
  role := .transform
  name := (·.name)
  items := (·.transforms)
  put registry transforms := { registry with transforms }
  add := addTransform
  addMany := addTransforms
  lookup := transform?
  find := findTransform
  unknown := .unknownTransform
  event := .transform
  registered? := Event.transform?
  items_put _ _ := rfl
  put_items _ := rfl
  put_put _ _ _ := rfl
  add_unfit _ _ := rfl
  add_fit _ _ := rfl
  addMany_eq _ _ := rfl
  lookup_eq _ _ := rfl
  find_eq registry wanted := by
    unfold findTransform
    cases registry.transform? wanted <;> rfl
  items_clear _ := rfl
  isOffer_event _ _ := rfl
  registered_fit _ := rfl
  registered_refused candidate _ := by cases candidate <;> rfl

namespace Table

/-- The names in a table, in order. -/
def names (table : Table σ α) (registry : Registry σ) : List String :=
  (table.items registry).map table.name

/-- The answer of a table to a request, and the registry after it. -/
def serve (table : Table σ α) (registry : Registry σ) : Request α → Response α × Registry σ
  | .register candidate =>
    match table.add registry candidate with
    | .ok registry => (.done, registry)
    | .error fault => (.refused fault, registry)
  | .registerMany candidates =>
    match table.addMany registry candidates with
    | (registry, none) => (.done, registry)
    | (registry, some fault) => (.refused fault, registry)
  | .get name =>
    match table.find registry name with
    | .ok item => (.found item, registry)
    | .error cause => (.missing cause, registry)
  | .has name => (.known (table.lookup registry name).isSome, registry)

/-- What happens when one thing after another is offered up to the first that is refused. -/
def offers (table : Table σ α) (registry : Registry σ) : List (Candidate α) → List (Event σ)
  | [] => []
  | candidate :: rest =>
    match table.add registry candidate with
    | .ok registry => table.event candidate none :: table.offers registry rest
    | .error fault => [table.event candidate (some fault)]

/-- What happens on a request. -/
def events (table : Table σ α) (registry : Registry σ) : Request α → List (Event σ)
  | .register candidate => table.offers registry [candidate]
  | .registerMany candidates => table.offers registry candidates
  | .get _ | .has _ => []

end Table

/-! ## Runs -/

/-- The registry after an operation. -/
def perform (registry : Registry σ) : Operation σ → Registry σ
  | .plugins request => (Table.plugins.serve registry request).2
  | .transforms request => (Table.transforms.serve registry request).2
  | .clear => registry.clear

/-- The registry after operations, at first empty. -/
def after (operations : List (Operation σ)) : Registry σ :=
  operations.foldl perform {}

theorem after_append (operations : List (Operation σ)) (operation : Operation σ) :
    after (operations ++ [operation]) = (after operations).perform operation := by
  rw [after, List.foldl_append]
  rfl

/-- What happens in an operation. -/
def events (registry : Registry σ) : Operation σ → List (Event σ)
  | .plugins request => Table.plugins.events registry request
  | .transforms request => Table.transforms.events registry request
  | .clear => [.cleared]

/-- What happens in operations, from a registry on. -/
def historyFrom (registry : Registry σ) : List (Operation σ) → List (Event σ)
  | [] => []
  | operation :: rest => registry.events operation ++ historyFrom (registry.perform operation) rest

/-- What happens in operations on a registry that is empty at first. -/
def history (operations : List (Operation σ)) : List (Event σ) :=
  historyFrom {} operations

/-- What has happened since the registry was last cleared. -/
def sinceCleared (history : List (Event σ)) : List (Event σ) :=
  history.rtakeWhile Event.isOffer

theorem sinceCleared_cleared (history : List (Event σ)) : sinceCleared (history ++ [.cleared]) = [] := by
  apply List.rtakeWhile_concat_neg
  simp [Event.isOffer]

/-- Offers are added to what has happened before. -/
theorem sinceCleared_append {events : List (Event σ)} (h : ∀ event ∈ events, event.isOffer = true)
    (history : List (Event σ)) : sinceCleared (history ++ events) = sinceCleared history ++ events := by
  induction events using List.reverseRecOn with
  | nil => simp
  | append_singleton events event ih =>
    have hlast : event.isOffer = true := h event (by simp)
    have hbefore := ih fun event' hevent' => h event' (List.mem_append_left _ hevent')
    unfold sinceCleared at hbefore ⊢
    rw [← List.append_assoc, List.rtakeWhile_concat_pos _ _ _ hlast, hbefore, List.append_assoc]

namespace Table

variable (table : Table σ α) {registry : Registry σ}

/-- What was registered since the registry was last cleared, in order. -/
def registered (history : List (Event σ)) : List α :=
  (sinceCleared history).filterMap table.registered?

theorem registered_cleared (history : List (Event σ)) : table.registered (history ++ [.cleared]) = [] := by
  unfold registered
  rw [sinceCleared_cleared, List.filterMap_nil]

theorem registered_append {events : List (Event σ)} (h : ∀ event ∈ events, event.isOffer = true)
    (history : List (Event σ)) :
    table.registered (history ++ events) = table.registered history ++ events.filterMap table.registered? := by
  unfold registered
  rw [sinceCleared_append h, List.filterMap_append]

/-! ## What a registration can do -/

/-- A single thing is registered behind what is there, unless it cannot play its role or its name is taken. -/
theorem add_cases (registry : Registry σ) (candidate : Candidate α) :
    (∃ item, candidate = .fit item ∧ table.name item ∉ table.names registry ∧
      table.add registry candidate = .ok (table.put registry (table.items registry ++ [item]))) ∨
    (∃ item, candidate = .fit item ∧ table.name item ∈ table.names registry ∧
      table.add registry candidate = .error (.duplicate table.role (table.name item))) ∨
    (∃ shown, candidate = .unfit shown ∧
      table.add registry candidate = .error (.unfit table.role shown)) := by
  cases candidate with
  | unfit shown => exact .inr (.inr ⟨shown, rfl, table.add_unfit registry shown⟩)
  | fit item =>
    by_cases htaken : table.name item ∈ table.names registry
    · refine .inr (.inl ⟨item, rfl, htaken, ?_⟩)
      rw [table.add_fit]
      exact if_pos (List.contains_iff_mem.mpr htaken)
    · refine .inl ⟨item, rfl, htaken, ?_⟩
      rw [table.add_fit]
      exact if_neg fun h => htaken (List.contains_iff_mem.mp h)

section Serve

variable {table} {next : Registry σ} {candidate : Candidate α} {fault : RegistrationFault}

theorem serve_register_of_ok (hadd : table.add registry candidate = .ok next) :
    table.serve registry (.register candidate) = (.done, next) := by
  simp only [serve, hadd]

theorem serve_register_of_error (hadd : table.add registry candidate = .error fault) :
    table.serve registry (.register candidate) = (.refused fault, registry) := by
  simp only [serve, hadd]

theorem serve_registerMany_nil : table.serve registry (.registerMany []) = (.done, registry) := by
  simp only [serve, table.addMany_eq, addAll]

theorem serve_registerMany_of_ok (hadd : table.add registry candidate = .ok next) (rest : List (Candidate α)) :
    table.serve registry (.registerMany (candidate :: rest)) = table.serve next (.registerMany rest) := by
  simp only [serve, table.addMany_eq, addAll, hadd]

theorem serve_registerMany_of_error (hadd : table.add registry candidate = .error fault)
    (rest : List (Candidate α)) :
    table.serve registry (.registerMany (candidate :: rest)) = (.refused fault, registry) := by
  simp only [serve, table.addMany_eq, addAll, hadd]

/-- The registry after several are offered. -/
theorem registerMany_snd (registry : Registry σ) (candidates : List (Candidate α)) :
    (table.serve registry (.registerMany candidates)).2 = (table.addMany registry candidates).1 := by
  rw [serve]
  rcases table.addMany registry candidates with ⟨after, fault | fault⟩
  · rfl
  · rfl

/-- To register one thing is to register several of which it is the only one. -/
theorem serve_register (registry : Registry σ) (candidate : Candidate α) :
    table.serve registry (.register candidate) = table.serve registry (.registerMany [candidate]) := by
  cases hadd : table.add registry candidate with
  | ok next => rw [serve_register_of_ok hadd, serve_registerMany_of_ok hadd, serve_registerMany_nil]
  | error fault => rw [serve_register_of_error hadd, serve_registerMany_of_error hadd]

end Serve

/-- What becomes of several that are offered: `added` are registered one behind the other, each of them finding
its name free; the first of `rest`, if there is one, is refused, as it would be by itself, and ends it all. -/
structure Takes (table : Table σ α) (registry : Registry σ) (candidates : List (Candidate α)) (added : List α)
    (rest : List (Candidate α)) : Prop where
  split : candidates = added.map .fit ++ rest
  free : (table.names registry ++ added.map table.name).Nodup
  all : rest = [] →
    table.serve registry (.registerMany candidates) =
      (.done, table.put registry (table.items registry ++ added)) ∧
    table.offers registry candidates = added.map fun item => table.event (.fit item) none
  stop : ∀ first others, rest = first :: others → ∃ fault,
    table.serve registry (.registerMany candidates) =
      (.refused fault, table.put registry (table.items registry ++ added)) ∧
    table.serve (table.put registry (table.items registry ++ added)) (.register first) =
      (.refused fault, table.put registry (table.items registry ++ added)) ∧
    table.offers registry candidates =
      (added.map fun item => table.event (.fit item) none) ++ [table.event first (some fault)]

variable {table}

/-- Nothing is registered from one that is refused on. -/
theorem takes_none {candidate : Candidate α} {fault : RegistrationFault}
    (hadd : table.add registry candidate = .error fault) (hnodup : (table.names registry).Nodup)
    (rest : List (Candidate α)) : table.Takes registry (candidate :: rest) [] (candidate :: rest) := by
  have hsame : table.put registry (table.items registry ++ []) = registry := by
    rw [List.append_nil, table.put_items]
  refine ⟨rfl, by simpa using hnodup, nofun, ?_⟩
  rintro first others hfirst
  obtain ⟨rfl, rfl⟩ := List.cons.inj hfirst
  rw [hsame]
  refine ⟨fault, serve_registerMany_of_error hadd _, serve_register_of_error hadd, ?_⟩
  rw [offers, hadd]
  rfl

/-- What becomes of those behind one that is registered becomes of all. -/
theorem Takes.cons {item : α} {rest left : List (Candidate α)} {added : List α}
    (hadd : table.add registry (.fit item) = .ok (table.put registry (table.items registry ++ [item])))
    (h : table.Takes (table.put registry (table.items registry ++ [item])) rest added left) :
    table.Takes registry (.fit item :: rest) (item :: added) left := by
  have hput : table.put (table.put registry (table.items registry ++ [item]))
      (table.items (table.put registry (table.items registry ++ [item])) ++ added) =
      table.put registry (table.items registry ++ item :: added) := by
    rw [table.items_put, table.put_put, List.append_assoc]
    rfl
  have hoffers : table.offers registry (.fit item :: rest) = table.event (.fit item) none ::
      table.offers (table.put registry (table.items registry ++ [item])) rest := by
    rw [offers, hadd]
  have hserve := serve_registerMany_of_ok hadd rest
  obtain ⟨hsplit, hfree, hall, hstop⟩ := h
  rw [hput] at hall hstop
  refine ⟨?_, ?_, ?_, ?_⟩
  · rw [hsplit]
    rfl
  · simpa [names, table.items_put] using hfree
  · intro hleft
    obtain ⟨hafter, hevents⟩ := hall hleft
    exact ⟨hserve.trans hafter, by rw [hoffers, hevents, List.map_cons]⟩
  · intro first others hleft
    obtain ⟨fault, hafter, hfirst, hevents⟩ := hstop first others hleft
    exact ⟨fault, hserve.trans hafter, hfirst, by rw [hoffers, hevents, List.map_cons, List.cons_append]⟩

/-- **Several are registered one after another up to the first that is refused.** -/
theorem exists_takes (candidates : List (Candidate α)) (registry : Registry σ)
    (hnodup : (table.names registry).Nodup) : ∃ added rest, table.Takes registry candidates added rest := by
  induction candidates generalizing registry with
  | nil =>
    refine ⟨[], [], rfl, by simpa using hnodup, ?_, nofun⟩
    intro _
    rw [List.append_nil, table.put_items, serve_registerMany_nil]
    exact ⟨rfl, rfl⟩
  | cons candidate rest ih =>
    rcases table.add_cases registry candidate with ⟨item, rfl, hfree, hadd⟩ | ⟨item, -, -, hadd⟩ |
      ⟨shown, -, hadd⟩
    · have hnames : (table.names (table.put registry (table.items registry ++ [item]))).Nodup := by
        rw [names, table.items_put, List.map_append, List.map_singleton, ← List.concat_eq_append]
        exact List.Nodup.concat hfree hnodup
      obtain ⟨added, left, htakes⟩ := ih _ hnames
      exact ⟨item :: added, left, htakes.cons hadd⟩
    · exact ⟨[], candidate :: rest, takes_none hadd hnodup rest⟩
    · exact ⟨[], candidate :: rest, takes_none hadd hnodup rest⟩

/-- What happens when things are offered is about this table. -/
theorem exists_of_mem_offers {candidates : List (Candidate α)} {event : Event σ}
    (h : event ∈ table.offers registry candidates) : ∃ candidate fault, event = table.event candidate fault := by
  induction candidates generalizing registry with
  | nil => cases h
  | cons candidate rest ih =>
    unfold offers at h
    split at h
    · rcases List.mem_cons.mp h with rfl | hrest
      · exact ⟨candidate, none, rfl⟩
      · exact ih hrest
    · exact ⟨candidate, _, List.mem_singleton.mp h⟩

/-- What is registered changes this table only. -/
theorem exists_put (request : Request α) (registry : Registry σ) :
    ∃ list, (table.serve registry request).2 = table.put registry list := by
  have hmany : ∀ candidates (registry : Registry σ),
      ∃ list, (table.serve registry (.registerMany candidates)).2 = table.put registry list := by
    intro candidates
    induction candidates with
    | nil =>
      intro registry
      exact ⟨_, by rw [serve_registerMany_nil, table.put_items]⟩
    | cons candidate rest ih =>
      intro registry
      rcases table.add_cases registry candidate with ⟨item, -, -, hadd⟩ | ⟨item, -, -, hadd⟩ | ⟨shown, -, hadd⟩
      · obtain ⟨list, hlist⟩ := ih (table.put registry (table.items registry ++ [item]))
        exact ⟨list, by rw [serve_registerMany_of_ok hadd, hlist, table.put_put]⟩
      · exact ⟨_, by rw [serve_registerMany_of_error hadd, table.put_items]⟩
      · exact ⟨_, by rw [serve_registerMany_of_error hadd, table.put_items]⟩
  cases request with
  | register candidate => exact serve_register registry candidate ▸ hmany [candidate] registry
  | registerMany candidates => exact hmany candidates registry
  | get name =>
    refine ⟨table.items registry, ?_⟩
    rw [table.put_items, serve]
    split <;> rfl
  | has name => exact ⟨table.items registry, (table.put_items registry).symm⟩

/-! ## One operation -/

/-- A table holds what its history says, each under a name of its own. -/
structure Lists (table : Table σ α) (registry : Registry σ) (history : List (Event σ)) : Prop where
  items : table.items registry = table.registered history
  nodup : (table.names registry).Nodup

theorem Lists.of_append_nil {history : List (Event σ)} (h : table.Lists registry history) :
    table.Lists registry (history ++ []) := by
  rwa [List.append_nil]

/-- Several that are offered enter the table and its history alike. -/
theorem Lists.registerMany {history : List (Event σ)} (h : table.Lists registry history)
    (candidates : List (Candidate α)) :
    table.Lists (table.serve registry (.registerMany candidates)).2
      (history ++ table.offers registry candidates) := by
  obtain ⟨added, rest, htakes⟩ := exists_takes candidates registry h.nodup
  have hadded : (added.map fun item => table.event (.fit item) none).filterMap table.registered? = added := by
    rw [List.filterMap_map]
    refine (List.filterMap_congr fun item _ => ?_).trans List.filterMap_some
    exact table.registered_fit item
  have hoffers : (table.serve registry (.registerMany candidates)).2 =
        table.put registry (table.items registry ++ added) ∧
      (table.offers registry candidates).filterMap table.registered? = added := by
    cases rest with
    | nil =>
      obtain ⟨hserve, hevents⟩ := htakes.all rfl
      exact ⟨by rw [hserve], by rw [hevents, hadded]⟩
    | cons first others =>
      obtain ⟨fault, hserve, -, hevents⟩ := htakes.stop first others rfl
      refine ⟨by rw [hserve], ?_⟩
      rw [hevents, List.filterMap_append, hadded, List.filterMap_cons_none (table.registered_refused first fault)]
      exact List.append_nil added
  have hoffer : ∀ event ∈ table.offers registry candidates, event.isOffer = true := by
    intro event hevent
    obtain ⟨candidate, fault, rfl⟩ := exists_of_mem_offers hevent
    exact table.isOffer_event candidate fault
  constructor
  · rw [hoffers.1, table.items_put, table.registered_append hoffer, hoffers.2, h.items]
  · rw [hoffers.1, names, table.items_put, List.map_append]
    exact htakes.free

/-- **A request keeps a table in step with its history.** -/
theorem Lists.serve {history : List (Event σ)} (h : table.Lists registry history) (request : Request α) :
    table.Lists (table.serve registry request).2 (history ++ table.events registry request) := by
  cases request with
  | register candidate =>
    rw [serve_register]
    exact h.registerMany [candidate]
  | registerMany candidates => exact h.registerMany candidates
  | get name =>
    have hsame : (table.serve registry (.get name)).2 = registry := by
      rw [Table.serve]
      split <;> rfl
    rw [hsame]
    exact h.of_append_nil
  | has name => exact h.of_append_nil

/-- Two tables that have nothing to do with each other. -/
structure Apart (table : Table σ α) (other : Table σ β) : Prop where
  items : ∀ registry list, table.items (other.put registry list) = table.items registry
  events : ∀ candidate fault, table.registered? (other.event candidate fault) = none

theorem apart_plugins : (plugins : Table σ _).Apart transforms :=
  ⟨fun _ _ => rfl, fun _ _ => rfl⟩

theorem apart_transforms : (transforms : Table σ _).Apart plugins :=
  ⟨fun _ _ => rfl, fun _ _ => rfl⟩

/-- A request to one table leaves the other as it is. -/
theorem Apart.items_serve {other : Table σ β} (hapart : table.Apart other) (registry : Registry σ)
    (request : Request β) : table.items (other.serve registry request).2 = table.items registry := by
  obtain ⟨list, hlist⟩ := other.exists_put request registry
  rw [hlist, hapart.items]

/-- A request to one table keeps the other in step with its history. -/
theorem Apart.lists_serve {other : Table σ β} (hapart : table.Apart other) {history : List (Event σ)}
    (h : table.Lists registry history) (request : Request β) :
    table.Lists (other.serve registry request).2 (history ++ other.events registry request) := by
  have hitems := hapart.items_serve registry request
  have hevents : ∀ event ∈ other.events registry request,
      ∃ candidate fault, event = other.event candidate fault := by
    intro event hevent
    cases request with
    | register candidate => exact exists_of_mem_offers hevent
    | registerMany candidates => exact exists_of_mem_offers hevent
    | get name => cases hevent
    | has name => cases hevent
  have hoffer : ∀ event ∈ other.events registry request, event.isOffer = true := by
    intro event hevent
    obtain ⟨candidate, fault, rfl⟩ := hevents event hevent
    exact other.isOffer_event candidate fault
  have hnone : (other.events registry request).filterMap table.registered? = [] := by
    apply List.filterMap_eq_nil_iff.mpr
    intro event hevent
    obtain ⟨candidate, fault, rfl⟩ := hevents event hevent
    exact hapart.events candidate fault
  constructor
  · rw [hitems, table.registered_append hoffer, hnone, List.append_nil, h.items]
  · rw [names, hitems]
    exact h.nodup

/-- A table is empty after clearing, whatever was registered before. -/
theorem lists_cleared (registry : Registry σ) (history : List (Event σ)) :
    table.Lists registry.clear (history ++ [.cleared]) := by
  constructor
  · rw [table.items_clear, table.registered_cleared]
  · rw [names, table.items_clear]
    exact List.nodup_nil

end Table

/-! ## All operations -/

/-- Both tables are in step with a history. -/
structure Follows (registry : Registry σ) (history : List (Event σ)) : Prop where
  plugins : Table.plugins.Lists registry history
  transforms : Table.transforms.Lists registry history

/-- **One operation** keeps a registry in step with its history. -/
theorem Follows.perform {registry : Registry σ} {history : List (Event σ)} (h : registry.Follows history)
    (operation : Operation σ) : (registry.perform operation).Follows (history ++ registry.events operation) := by
  cases operation with
  | plugins request => exact ⟨h.plugins.serve request, Table.apart_transforms.lists_serve h.transforms request⟩
  | transforms request => exact ⟨Table.apart_plugins.lists_serve h.plugins request, h.transforms.serve request⟩
  | clear => exact ⟨Table.lists_cleared registry history, Table.lists_cleared registry history⟩

/-- Operations keep a registry in step with its history. -/
theorem Follows.performAll {registry : Registry σ} {history : List (Event σ)} (h : registry.Follows history)
    (operations : List (Operation σ)) :
    (operations.foldl Registry.perform registry).Follows (history ++ historyFrom registry operations) := by
  induction operations generalizing registry history with
  | nil => simpa [historyFrom] using h
  | cons operation rest ih =>
    have hrest := ih (h.perform operation)
    rw [List.append_assoc] at hrest
    exact hrest

/-- **A registry that was empty at first is in step with its history.** -/
theorem follows_after (operations : List (Operation σ)) : (after operations).Follows (history operations) := by
  have hempty : ({} : Registry σ).Follows [] :=
    ⟨⟨rfl, List.nodup_nil⟩, ⟨rfl, List.nodup_nil⟩⟩
  exact hempty.performAll operations

/-! ## Answers -/

namespace Table

variable {table : Table σ α} {registry : Registry σ} {history : List (Event σ)}

/-- What a table that has a history says and does: it lists what was registered since it was last cleared,
answers by name from that, and takes in what is offered under a free name. -/
structure Keeps (table : Table σ α) (registry : Registry σ) (history : List (Event σ)) : Prop where
  /-- The names are those of what was registered, in order, and none twice. -/
  names : table.names registry = (table.registered history).map table.name
  nodup : (table.names registry).Nodup
  /-- Under the name of something registered there is just that. -/
  found : ∀ item ∈ table.registered history,
    table.serve registry (.get (table.name item)) = (.found item, registry) ∧
    table.serve registry (.has (table.name item)) = (.known true, registry)
  /-- Under any other name there is nothing, and the answer says which names there are. -/
  missing : ∀ wanted ∉ table.names registry,
    table.serve registry (.get wanted) = (.missing (table.unknown wanted (table.names registry)), registry) ∧
    table.serve registry (.has wanted) = (.known false, registry)
  /-- What cannot play the role is refused. -/
  unfit : ∀ shown, table.serve registry (.register (.unfit shown)) =
    (.refused (.unfit table.role shown), registry)
  /-- So is a name that is taken. -/
  taken : ∀ item, table.name item ∈ table.names registry → table.serve registry (.register (.fit item)) =
    (.refused (.duplicate table.role (table.name item)), registry)
  /-- Everything else is registered. -/
  free : ∀ item, table.name item ∉ table.names registry → table.serve registry (.register (.fit item)) =
    (.done, table.put registry (table.items registry ++ [item]))
  /-- Several are registered up to the first that is refused. -/
  many : ∀ candidates, ∃ added rest, table.Takes registry candidates added rest

/-- Among things with names of their own, each is found by its name. -/
theorem lookup_name (hnodup : (table.names registry).Nodup) {item : α} (hitem : item ∈ table.items registry) :
    table.lookup registry (table.name item) = some item := by
  rw [table.lookup_eq]
  obtain ⟨found, hfound⟩ : ∃ found, (table.items registry).find? (table.name · == table.name item) = some found := by
    apply Option.isSome_iff_exists.mp
    rw [List.find?_isSome]
    exact ⟨item, hitem, beq_self_eq_true _⟩
  have hname : table.name found = table.name item := by
    simpa using List.find?_some hfound
  have hmem := List.mem_of_find?_eq_some hfound
  rw [hfound, List.inj_on_of_nodup_map hnodup hmem hitem hname]

/-- Under a name that is not there nothing is found. -/
theorem lookup_of_notMem {wanted : String} (h : wanted ∉ table.names registry) :
    table.lookup registry wanted = none := by
  rw [table.lookup_eq, List.find?_eq_none]
  intro item hitem hname
  exact h (List.mem_map.mpr ⟨item, hitem, by simpa using hname⟩)

theorem Lists.keeps (h : table.Lists registry history) : table.Keeps registry history where
  names := by rw [Table.names, h.items]
  nodup := h.nodup
  found item hitem := by
    have hlookup := lookup_name h.nodup (h.items ▸ hitem)
    exact ⟨by simp only [Table.serve, table.find_eq, hlookup], by simp only [Table.serve, hlookup, Option.isSome]⟩
  missing wanted hwanted := by
    have hlookup := lookup_of_notMem hwanted
    refine ⟨?_, by simp only [Table.serve, hlookup, Option.isSome]⟩
    simp only [Table.serve, table.find_eq, hlookup]
    rfl
  unfit shown := serve_register_of_error (table.add_unfit registry shown)
  taken item htaken := by
    apply serve_register_of_error
    rw [table.add_fit]
    exact if_pos (List.contains_iff_mem.mpr htaken)
  free item hfree := by
    apply serve_register_of_ok
    rw [table.add_fit]
    exact if_neg fun hin => hfree (List.contains_iff_mem.mp hin)
  many candidates := exists_takes candidates registry h.nodup

end Table

/-- **A registry is its history.** Whatever is asked of a registry that was empty at first, at every moment each
of its tables lists what was registered since the registry was last cleared, in order and no name twice; it
answers by name from that list; what is refused changes nothing, and of several offered at once those before the
first refused one are added. What is asked of one table does not change the other. What an engine is offered, or told
to clear, goes to its registry in just this way. -/
theorem registry_is_its_history (operations : List (Operation σ)) :
    (after operations).pluginNames = (Table.plugins.registered (history operations)).map (·.name) ∧
    (after operations).transformNames = (Table.transforms.registered (history operations)).map (·.name) ∧
    Table.plugins.Keeps (after operations) (history operations) ∧
    Table.transforms.Keeps (after operations) (history operations) ∧
    (∀ request, (Table.plugins.serve (after operations) request).2.transforms =
      (after operations).transforms) ∧
    (∀ request, (Table.transforms.serve (after operations) request).2.plugins =
      (after operations).plugins) ∧
    ∀ settings world,
      let engine : Engine σ := { settings, registry := after operations }
      engine.clear.registry = after (operations ++ [.clear]) ∧
      (∀ plugins, (engine.registerPlugins plugins world).1.registry =
        after (operations ++ [.plugins (.registerMany plugins)])) ∧
      ∀ transforms, (engine.registerTransforms transforms world).1.registry =
        after (operations ++ [.transforms (.registerMany transforms)]) := by
  have hplugins := (follows_after operations).plugins.keeps
  have htransforms := (follows_after operations).transforms.keeps
  refine ⟨hplugins.names, htransforms.names, hplugins, htransforms, ?_, ?_, ?_⟩
  · intro request
    exact Table.apart_transforms.items_serve (after operations) request
  · intro request
    exact Table.apart_plugins.items_serve (after operations) request
  · intro settings world engine
    refine ⟨?_, fun plugins => ?_, fun transforms => ?_⟩
    · rw [after_append]
      rfl
    · rw [after_append, perform, Table.registerMany_snd]
      rfl
    · rw [after_append, perform, Table.registerMany_snd]
      rfl

/-- A batch ends at the second `a`; after clearing, `c` is the only one, and `a` is free again. -/
example :
    let offer (name : String) : Candidate (Plugin Unit) := .fit (.pure name fun _ _ => .ok .null)
    let batch := Operation.plugins (.registerMany [offer "a", offer "b", offer "a", offer "c"])
    (after [batch]).pluginNames = ["a", "b"] ∧
    (after [batch, .clear, .plugins (.register (offer "c"))]).pluginNames = ["c"] ∧
    (after [batch, .clear, .plugins (.register (offer "c")), batch]).pluginNames = ["c", "a", "b"] := by
  decide

end Template.Registry
