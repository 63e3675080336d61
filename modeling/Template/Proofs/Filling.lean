import Template.Proofs.Concurrency
import Template.Proofs.JsonText
import Template.Proofs.Passes

/-!
# `Template.Proofs.Filling` — documents filled in string by string

Against steady plugins a document is filled in by a function on its strings: each string is replaced by its own
value, and nothing else changes (`fill_eq_ok_iff`). It does not matter whether the parts of the document are
filled in one after the other or at the same time. What holds of the result is then a matter of the single
strings, by induction on the document.

## Contents
- `Json.fillWith` — a document with every string replaced.
- `Json.AllStrings` — a property of all strings of a document; `allStrings_iff` goes through its leaves.
- `exists_fillWith_iff`, `fillWith_eq_self_iff`, `allStrings_fillWith`, `distinct_of_fillWith` — the result by its
  strings.
- `fillWith_fillWith` — a document filled in again.
- `Setting.filled?`, `fill_eq_ok_iff` — what a string becomes, and a whole document.
-/

namespace Template

namespace Json

/-! ## Every string replaced -/

mutual

/-- The value with each string replaced as `f` says, if it says so for all of them. -/
def fillWith (f : String → Option Json) : Json → Option Json
  | .string s => f s
  | .array items => (fillItems f items).map .array
  | .object members => (fillMembers f members).map .object
  | .null => some .null
  | .bool b => some (.bool b)
  | .number n => some (.number n)

/-- The same for the items of an array. -/
def fillItems (f : String → Option Json) : List Json → Option (List Json)
  | [] => some []
  | item :: rest => (fillWith f item).bind fun item => (fillItems f rest).map (item :: ·)

/-- The same for the members of an object, which keep their names. -/
def fillMembers (f : String → Option Json) : List (String × Json) → Option (List (String × Json))
  | [] => some []
  | (name, value) :: rest =>
    (fillWith f value).bind fun value => (fillMembers f rest).map ((name, value) :: ·)

end

mutual

/-- All strings in the value have the property. -/
def AllStrings (P : String → Prop) : Json → Prop
  | .string s => P s
  | .array items => AllStringsOfItems P items
  | .object members => AllStringsOfMembers P members
  | .null => True
  | .bool _ => True
  | .number _ => True

/-- The same for the items of an array. -/
def AllStringsOfItems (P : String → Prop) : List Json → Prop
  | [] => True
  | item :: rest => AllStrings P item ∧ AllStringsOfItems P rest

/-- The same for the members of an object. -/
def AllStringsOfMembers (P : String → Prop) : List (String × Json) → Prop
  | [] => True
  | (_, value) :: rest => AllStrings P value ∧ AllStringsOfMembers P rest

end

section

variable {f g : String → Option Json} {P Q : String → Prop}

mutual

/-- A property of all strings of a document is one of the strings that stand at its places. -/
theorem allStrings_iff (path : Path) (value : Json) :
    value.AllStrings P ↔ ∀ leaf ∈ value.leaves path, P leaf.2 := by
  match value with
  | .string s =>
    rw [leaves, List.forall_mem_singleton]
    exact Iff.rfl
  | .array items => exact allStringsOfItems_iff path 0 items
  | .object members => exact allStringsOfMembers_iff path members
  | .null => exact iff_of_true trivial fun _ h => absurd h List.not_mem_nil
  | .bool _ => exact iff_of_true trivial fun _ h => absurd h List.not_mem_nil
  | .number _ => exact iff_of_true trivial fun _ h => absurd h List.not_mem_nil

theorem allStringsOfItems_iff (path : Path) (index : Nat) (items : List Json) :
    AllStringsOfItems P items ↔ ∀ leaf ∈ leavesOfItems path index items, P leaf.2 := by
  match items with
  | [] => exact iff_of_true trivial fun _ h => absurd h List.not_mem_nil
  | item :: rest =>
    rw [leavesOfItems, List.forall_mem_append, ← allStrings_iff _ item, ← allStringsOfItems_iff path _ rest]
    exact Iff.rfl

theorem allStringsOfMembers_iff (path : Path) (members : List (String × Json)) :
    AllStringsOfMembers P members ↔ ∀ leaf ∈ leavesOfMembers path members, P leaf.2 := by
  match members with
  | [] => exact iff_of_true trivial fun _ h => absurd h List.not_mem_nil
  | (name, value) :: rest =>
    rw [leavesOfMembers, List.forall_mem_append, ← allStrings_iff _ value, ← allStringsOfMembers_iff path rest]
    exact Iff.rfl

end

theorem allStrings_of_forall (h : ∀ s, P s) (value : Json) : value.AllStrings P :=
  (allStrings_iff [] value).mpr fun leaf _ => h leaf.2

theorem AllStrings.mono {value : Json} (hv : value.AllStrings P) (h : ∀ s, P s → Q s) : value.AllStrings Q :=
  (allStrings_iff [] value).mpr fun leaf hl => h leaf.2 ((allStrings_iff [] value).mp hv leaf hl)

theorem AllStrings.and {value : Json} (hp : value.AllStrings P) (hq : value.AllStrings Q) :
    value.AllStrings fun s => P s ∧ Q s :=
  (allStrings_iff [] value).mpr fun leaf hl =>
    ⟨(allStrings_iff [] value).mp hp leaf hl, (allStrings_iff [] value).mp hq leaf hl⟩

theorem fillItems_cons_eq_some {item : Json} {rest filled : List Json} :
    fillItems f (item :: rest) = some filled ↔
      ∃ first others, item.fillWith f = some first ∧ fillItems f rest = some others ∧
        first :: others = filled := by
  simp only [fillItems, Option.bind_eq_some_iff, Option.map_eq_some_iff]
  constructor
  · rintro ⟨first, hfirst, others, hothers, heq⟩
    exact ⟨first, others, hfirst, hothers, heq⟩
  · rintro ⟨first, others, hfirst, hothers, heq⟩
    exact ⟨first, hfirst, others, hothers, heq⟩

theorem fillMembers_cons_eq_some {name : String} {value : Json} {rest filled : List (String × Json)} :
    fillMembers f ((name, value) :: rest) = some filled ↔
      ∃ first others, value.fillWith f = some first ∧ fillMembers f rest = some others ∧
        (name, first) :: others = filled := by
  simp only [fillMembers, Option.bind_eq_some_iff, Option.map_eq_some_iff]
  constructor
  · rintro ⟨first, hfirst, others, hothers, heq⟩
    exact ⟨first, others, hfirst, hothers, heq⟩
  · rintro ⟨first, others, hfirst, hothers, heq⟩
    exact ⟨first, hfirst, others, hothers, heq⟩

mutual

/-- A value can be filled in exactly if each of its strings can. -/
theorem exists_fillWith_iff (value : Json) :
    (∃ filled, value.fillWith f = some filled) ↔ value.AllStrings fun s => ∃ own, f s = some own := by
  match value with
  | .string s => exact Iff.rfl
  | .array items =>
    rw [AllStrings, ← exists_fillItems_iff items]
    simp only [fillWith, Option.map_eq_some_iff, exists_comm, exists_and_left, exists_eq', and_true]
  | .object members =>
    rw [AllStrings, ← exists_fillMembers_iff members]
    simp only [fillWith, Option.map_eq_some_iff, exists_comm, exists_and_left, exists_eq', and_true]
  | .null => exact iff_of_true ⟨_, rfl⟩ trivial
  | .bool _ => exact iff_of_true ⟨_, rfl⟩ trivial
  | .number _ => exact iff_of_true ⟨_, rfl⟩ trivial

theorem exists_fillItems_iff (items : List Json) :
    (∃ filled, fillItems f items = some filled) ↔ AllStringsOfItems (fun s => ∃ own, f s = some own) items := by
  match items with
  | [] => exact iff_of_true ⟨_, rfl⟩ trivial
  | item :: rest =>
    rw [AllStringsOfItems, ← exists_fillWith_iff item, ← exists_fillItems_iff rest]
    simp only [fillItems_cons_eq_some]
    constructor
    · rintro ⟨_, first, others, hfirst, hothers, -⟩
      exact ⟨⟨first, hfirst⟩, others, hothers⟩
    · rintro ⟨⟨first, hfirst⟩, others, hothers⟩
      exact ⟨_, first, others, hfirst, hothers, rfl⟩

theorem exists_fillMembers_iff (members : List (String × Json)) :
    (∃ filled, fillMembers f members = some filled) ↔
      AllStringsOfMembers (fun s => ∃ own, f s = some own) members := by
  match members with
  | [] => exact iff_of_true ⟨_, rfl⟩ trivial
  | (name, value) :: rest =>
    rw [AllStringsOfMembers, ← exists_fillWith_iff value, ← exists_fillMembers_iff rest]
    simp only [fillMembers_cons_eq_some]
    constructor
    · rintro ⟨_, first, others, hfirst, hothers, -⟩
      exact ⟨⟨first, hfirst⟩, others, hothers⟩
    · rintro ⟨⟨first, hfirst⟩, others, hothers⟩
      exact ⟨_, first, others, hfirst, hothers, rfl⟩

end

mutual

/-- **Filling in one way and then another is filling in the other way**, if that is so for each string. -/
theorem fillWith_fillWith (value : Json) {filled : Json}
    (hg : value.AllStrings fun s => ∀ own, g s = some own → own.fillWith f = f s)
    (h : value.fillWith g = some filled) : filled.fillWith f = value.fillWith f := by
  match value with
  | .string s => exact hg filled h
  | .array items =>
    obtain ⟨filled, hitems, rfl⟩ := Option.map_eq_some_iff.mp h
    rw [fillWith, fillWith, fillItems_fillItems items hg hitems]
  | .object members =>
    obtain ⟨filled, hmembers, rfl⟩ := Option.map_eq_some_iff.mp h
    rw [fillWith, fillWith, fillMembers_fillMembers members hg hmembers]
  | .null => cases h; rfl
  | .bool _ => cases h; rfl
  | .number _ => cases h; rfl

theorem fillItems_fillItems (items : List Json) {filled : List Json}
    (hg : AllStringsOfItems (fun s => ∀ own, g s = some own → own.fillWith f = f s) items)
    (h : fillItems g items = some filled) : fillItems f filled = fillItems f items := by
  match items with
  | [] => cases h; rfl
  | item :: rest =>
    obtain ⟨first, others, hfirst, hothers, rfl⟩ := fillItems_cons_eq_some.mp h
    rw [fillItems, fillItems, fillWith_fillWith item hg.1 hfirst, fillItems_fillItems rest hg.2 hothers]

theorem fillMembers_fillMembers (members : List (String × Json)) {filled : List (String × Json)}
    (hg : AllStringsOfMembers (fun s => ∀ own, g s = some own → own.fillWith f = f s) members)
    (h : fillMembers g members = some filled) : fillMembers f filled = fillMembers f members := by
  match members with
  | [] => cases h; rfl
  | (name, value) :: rest =>
    obtain ⟨first, others, hfirst, hothers, rfl⟩ := fillMembers_cons_eq_some.mp h
    rw [fillMembers, fillMembers, fillWith_fillWith value hg.1 hfirst,
      fillMembers_fillMembers rest hg.2 hothers]

end

mutual

/-- **A value stays as it is exactly if each of its strings does.** -/
theorem fillWith_eq_self_iff (value : Json) :
    value.fillWith f = some value ↔ value.AllStrings fun s => f s = some (.string s) := by
  match value with
  | .string s => exact Iff.rfl
  | .array items =>
    rw [fillWith, AllStrings, ← fillItems_eq_self_iff items, Option.map_eq_some_iff]
    simp
  | .object members =>
    rw [fillWith, AllStrings, ← fillMembers_eq_self_iff members, Option.map_eq_some_iff]
    simp
  | .null => exact iff_of_true rfl trivial
  | .bool b => exact iff_of_true rfl trivial
  | .number n => exact iff_of_true rfl trivial

theorem fillItems_eq_self_iff (items : List Json) :
    fillItems f items = some items ↔ AllStringsOfItems (fun s => f s = some (.string s)) items := by
  match items with
  | [] => exact iff_of_true rfl trivial
  | item :: rest =>
    rw [fillItems_cons_eq_some, AllStringsOfItems, ← fillWith_eq_self_iff item,
      ← fillItems_eq_self_iff rest]
    simp

theorem fillMembers_eq_self_iff (members : List (String × Json)) :
    fillMembers f members = some members ↔
      AllStringsOfMembers (fun s => f s = some (.string s)) members := by
  match members with
  | [] => exact iff_of_true rfl trivial
  | (name, value) :: rest =>
    rw [fillMembers_cons_eq_some, AllStringsOfMembers, ← fillWith_eq_self_iff value,
      ← fillMembers_eq_self_iff rest]
    simp

end

mutual

/-- **The strings of a filled-in value are those that its strings have brought.** -/
theorem allStrings_fillWith (value : Json) {filled : Json} (h : value.fillWith f = some filled) :
    filled.AllStrings P ↔ value.AllStrings fun s => ∀ own, f s = some own → own.AllStrings P := by
  match value with
  | .string s =>
    -- the string has brought all of the filled-in value
    rw [AllStrings]
    constructor
    · intro hall own hown
      cases h.symm.trans hown
      exact hall
    · exact fun hall => hall filled h
  | .array items =>
    obtain ⟨filled, hitems, rfl⟩ := Option.map_eq_some_iff.mp h
    exact allStrings_fillItems items hitems
  | .object members =>
    obtain ⟨filled, hmembers, rfl⟩ := Option.map_eq_some_iff.mp h
    exact allStrings_fillMembers members hmembers
  | .null => cases h; exact Iff.rfl
  | .bool b => cases h; exact Iff.rfl
  | .number n => cases h; exact Iff.rfl

theorem allStrings_fillItems (items : List Json) {filled : List Json}
    (h : fillItems f items = some filled) :
    AllStringsOfItems P filled ↔
      AllStringsOfItems (fun s => ∀ own, f s = some own → own.AllStrings P) items := by
  match items with
  | [] => cases h; exact Iff.rfl
  | item :: rest =>
    obtain ⟨first, others, hfirst, hothers, rfl⟩ := fillItems_cons_eq_some.mp h
    exact and_congr (allStrings_fillWith item hfirst) (allStrings_fillItems rest hothers)

theorem allStrings_fillMembers (members : List (String × Json)) {filled : List (String × Json)}
    (h : fillMembers f members = some filled) :
    AllStringsOfMembers P filled ↔
      AllStringsOfMembers (fun s => ∀ own, f s = some own → own.AllStrings P) members := by
  match members with
  | [] => cases h; exact Iff.rfl
  | (name, value) :: rest =>
    obtain ⟨first, others, hfirst, hothers, rfl⟩ := fillMembers_cons_eq_some.mp h
    exact and_congr (allStrings_fillWith value hfirst) (allStrings_fillMembers rest hothers)

end

theorem names_fillMembers (members : List (String × Json)) {filled : List (String × Json)}
    (h : fillMembers f members = some filled) : filled.map (·.1) = members.map (·.1) := by
  induction members generalizing filled with
  | nil => cases h; rfl
  | cons member rest ih =>
    obtain ⟨first, others, -, hothers, rfl⟩ := fillMembers_cons_eq_some.mp h
    rw [List.map_cons, List.map_cons, ih hothers]

mutual

/-- Filling in leaves no name twice in an object, if none of the strings brings such an object. -/
theorem distinct_of_fillWith (value : Json) {filled : Json} (hv : value.Distinct)
    (hf : value.AllStrings fun s => ∀ own, f s = some own → own.Distinct)
    (h : value.fillWith f = some filled) : filled.Distinct := by
  match value with
  | .string s => exact hf filled h
  | .array items =>
    obtain ⟨filled, hitems, rfl⟩ := Option.map_eq_some_iff.mp h
    exact distinct_of_fillItems items hv hf hitems
  | .object members =>
    obtain ⟨filled, hmembers, rfl⟩ := Option.map_eq_some_iff.mp h
    -- the names are those from before
    refine ⟨?_, distinct_of_fillMembers members hv.2 hf hmembers⟩
    rw [names_fillMembers members hmembers]
    exact hv.1
  | .null => cases h; trivial
  | .bool b => cases h; trivial
  | .number n => cases h; trivial

theorem distinct_of_fillItems (items : List Json) {filled : List Json} (hv : DistinctItems items)
    (hf : AllStringsOfItems (fun s => ∀ own, f s = some own → own.Distinct) items)
    (h : fillItems f items = some filled) : DistinctItems filled := by
  match items with
  | [] => cases h; trivial
  | item :: rest =>
    obtain ⟨first, others, hfirst, hothers, rfl⟩ := fillItems_cons_eq_some.mp h
    exact ⟨distinct_of_fillWith item hv.1 hf.1 hfirst, distinct_of_fillItems rest hv.2 hf.2 hothers⟩

theorem distinct_of_fillMembers (members : List (String × Json)) {filled : List (String × Json)}
    (hv : DistinctMembers members)
    (hf : AllStringsOfMembers (fun s => ∀ own, f s = some own → own.Distinct) members)
    (h : fillMembers f members = some filled) : DistinctMembers filled := by
  match members with
  | [] => cases h; trivial
  | (name, value) :: rest =>
    obtain ⟨first, others, hfirst, hothers, rfl⟩ := fillMembers_cons_eq_some.mp h
    exact ⟨distinct_of_fillWith value hv.1 hf.1 hfirst, distinct_of_fillMembers rest hv.2 hf.2 hothers⟩

end

/-- The same if no string at all brings such an object. -/
theorem distinct_fillWith (hf : ∀ s own, f s = some own → own.Distinct) (value : Json) {filled : Json}
    (hv : value.Distinct) (h : value.fillWith f = some filled) : filled.Distinct :=
  distinct_of_fillWith value hv (allStrings_of_forall hf value) h

end

end Json

namespace Setting

open Script

variable {σ : Type} {setting : Setting σ} {world : World σ}

/-! ## What a document becomes -/

/-- What becomes of a string of a document in a world. -/
def filled? (setting : Setting σ) (world : World σ) (s : String) : Option Json :=
  (setting.fillString [] s).value? world

/-- A string becomes the same at every place. -/
theorem value?_fillString_place (h : setting.registry.Steady) (path : Path) (s : String)
    (world : World σ) :
    (setting.fillString path s).value? world = setting.filled? world s := by
  rw [filled?, value?_fillString h, value?_fillString h, value?_substitute_place h (some path) (some [])]

/-- The value of parts is that of their plans one after the other. -/
theorem value?_split {build : List Json → Json} {parts : List (Plan σ Failure Json)} :
    (Plan.split build parts).inOrder.value? world = ((Plan.inOrderAll parts).value? world).map build := by
  refine (value?_bind _ (fun _ => steady_done _) world).trans ?_
  rw [Option.map_eq_bind]
  rfl

theorem value?_inOrderAll_cons {plan : Plan σ Failure Json} {rest : List (Plan σ Failure Json)}
    (h : ∀ script ∈ Plan.scriptsOf rest, script.Steady) :
    (Plan.inOrderAll (plan :: rest)).value? world =
      (plan.inOrder.value? world).bind fun value =>
        ((Plan.inOrderAll rest).value? world).map (value :: ·) := by
  have hrest : ∀ value : Json, (do return value :: (← Plan.inOrderAll rest) : Script σ Failure _).Steady :=
    fun value => steady_bind (Plan.steady_inOrderAll h) fun _ => steady_done _
  refine (value?_bind _ hrest world).trans (congrArg _ (funext fun value => ?_))
  refine (value?_bind _ (fun _ => steady_done _) world).trans ?_
  rw [Option.map_eq_bind]
  rfl

mutual

/-- **Part by part, a document is filled in string by string.** -/
theorem value?_plan (h : setting.registry.Steady) (path : Path) (value : Json) :
    (setting.plan path value).inOrder.value? world = value.fillWith (setting.filled? world) := by
  match value with
  | .string s => exact value?_fillString_place h path s world
  | .array items => rw [plan, value?_split, value?_plansOfItems h path 0 items, Json.fillWith]
  | .object members =>
    rw [plan, value?_split, value?_plansOfMembers h path members, Json.fillWith, Option.map_map]
    -- the plan puts the names beside the values again
    refine Option.map_congr fun filled hfilled => congrArg Json.object ?_
    rw [← Json.names_fillMembers members hfilled]
    show (filled.map Prod.fst).zip (filled.map Prod.snd) = filled
    rw [← List.unzip_fst, ← List.unzip_snd, List.zip_unzip]
  | .null => rfl
  | .bool b => rfl
  | .number n => rfl

theorem value?_plansOfItems (h : setting.registry.Steady) (path : Path) (index : Nat)
    (items : List Json) :
    (Plan.inOrderAll (setting.plansOfItems path index items)).value? world =
      Json.fillItems (setting.filled? world) items := by
  match items with
  | [] => rfl
  | item :: rest =>
    have hrest : ∀ script ∈ Plan.scriptsOf (setting.plansOfItems path (index + 1) rest), script.Steady :=
      fun script hs => (isLeaf_of_mem_items path (index + 1) rest script hs).steady h
    rw [plansOfItems, value?_inOrderAll_cons hrest, value?_plan h _ item,
      value?_plansOfItems h path (index + 1) rest, Json.fillItems]

theorem value?_plansOfMembers (h : setting.registry.Steady) (path : Path)
    (members : List (String × Json)) :
    (Plan.inOrderAll (setting.plansOfMembers path members)).value? world =
      (Json.fillMembers (setting.filled? world) members).map (·.map (·.2)) := by
  match members with
  | [] => rfl
  | (name, value) :: rest =>
    have hrest : ∀ script ∈ Plan.scriptsOf (setting.plansOfMembers path rest), script.Steady :=
      fun script hs => (isLeaf_of_mem_members path rest script hs).steady h
    rw [plansOfMembers, value?_inOrderAll_cons hrest, value?_plan h _ value,
      value?_plansOfMembers h path rest, Json.fillMembers]
    cases value.fillWith (setting.filled? world) with
    | none => rfl
    | some filled => cases Json.fillMembers (setting.filled? world) rest <;> rfl

end

/-- **A document is filled in string by string**, one part after the other or all parts at the same time. -/
theorem fill_eq_ok_iff (h : setting.registry.Steady) (path : Path) (value : Json) (world : World σ)
    {filled : Json} :
    (setting.fill path value world).1 = .ok filled ↔
      value.fillWith (setting.filled? world) = some filled := by
  rw [← value?_plan h path value, value?_eq_some_iff]
  unfold fill
  dsimp only
  split
  · -- all parts at the same time give a value exactly if one part after the other does, and the same
    have hagrees := together_agrees (plan_steady h path value) world
    constructor
    · intro htogether
      rw [htogether] at hagrees
      cases hseq : ((setting.plan path value).inOrder.run world).1 with
      | ok other =>
        rw [hseq] at hagrees
        rw [Ending.value.inj hagrees]
      | error first =>
        rw [hseq] at hagrees
        obtain ⟨error, hending, -⟩ := hagrees
        cases hending
    · intro hseq
      rw [hseq] at hagrees
      exact ofResult_injective hagrees
  · exact Iff.rfl

end Setting

end Template
