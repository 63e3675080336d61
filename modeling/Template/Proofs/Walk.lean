import Template.Proofs.Concurrency
import Template.Proofs.Interpolation
import Template.Proofs.Questions

/-!
# `Template.Proofs.Walk` — documents filled in one part after the other

Whatever plugins do, stateful or not, filling in a document part by part is filling in its strings one after
the other, in the order in which they stand in it, up to the first that fails. If none does, each string is
replaced by what has become of it and all else stays as it is; otherwise the failure is that of the string,
and no plugin is asked on behalf of any string behind it.

## Contents
- `Walked`, `Setting.walk` — strings filled in one after the other, each in the world that the last one left.
- `Json.Replaced` — a document with its strings replaced by the values of a row.
- `inOrder_plan` — the plan of a document, done in order, is a walk over its strings.
- `fill_walks` — the result, the world after it and the questions asked.
-/

namespace Template

variable {σ : Type}

/-! ## Strings one after the other -/

/-- What comes of filling in strings one after the other. -/
structure Walked (σ : Type) where
  /-- The values of all strings, or the failure of the first that has one, with its place. -/
  result : Except (Path × Failure) (List Json)
  /-- The questions put to plugins, in order. -/
  asked : List (Question σ)
  /-- The world after it. -/
  world : World σ

/-- A walk that had another string in front, which has become `value`. -/
def Walked.behind (value : Json) (asked : List (Question σ)) (walked : Walked σ) : Walked σ where
  result := walked.result.map (value :: ·)
  asked := asked ++ walked.asked
  world := walked.world

/-- Fills in strings at their places, one after the other, up to the first that fails. -/
def Setting.walk (setting : Setting σ) : List (Path × String) → World σ → Walked σ
  | [], world => { result := .ok [], asked := [], world }
  | (place, s) :: rest, world =>
    let asked := (setting.fillString place s).asked world
    match (setting.fillString place s).run world with
    | (.error failure, world) => { result := .error (place, failure), asked, world }
    | (.ok value, world) => (setting.walk rest world).behind value asked

namespace Json

/-! ## Strings replaced -/

mutual

/-- The second document is the first one with its strings replaced by the values, in order. -/
inductive Replaced : Json → List Json → Json → Prop where
  | string (s : String) (value : Json) : Replaced (.string s) [value] value
  | null : Replaced .null [] .null
  | bool (b : Bool) : Replaced (.bool b) [] (.bool b)
  | number (n : Number) : Replaced (.number n) [] (.number n)
  | array {items items' : List Json} {values : List Json} (h : ReplacedItems items values items') :
      Replaced (.array items) values (.array items')
  | object {members members' : List (String × Json)} {values : List Json}
      (h : ReplacedMembers members values members') : Replaced (.object members) values (.object members')

/-- The same for the items of an array: as many as before. -/
inductive ReplacedItems : List Json → List Json → List Json → Prop where
  | nil : ReplacedItems [] [] []
  | cons {item item' : Json} {rest rest' values values' : List Json} (h : Replaced item values item')
      (hr : ReplacedItems rest values' rest') :
      ReplacedItems (item :: rest) (values ++ values') (item' :: rest')

/-- The same for the members of an object: under the same names as before. -/
inductive ReplacedMembers : List (String × Json) → List Json → List (String × Json) → Prop where
  | nil : ReplacedMembers [] [] []
  | cons {name : String} {value value' : Json} {rest rest' : List (String × Json)}
      {values values' : List Json} (h : Replaced value values value')
      (hr : ReplacedMembers rest values' rest') :
      ReplacedMembers ((name, value) :: rest) (values ++ values') ((name, value') :: rest')

end

end Json

namespace Setting

open Script

variable {setting : Setting σ}

/-! ## Walks over rows of strings -/

theorem walk_cons_ok {place : Path} {s : String} {rest : List (Path × String)} {world after : World σ}
    {value : Json} (h : (setting.fillString place s).run world = (.ok value, after)) :
    setting.walk ((place, s) :: rest) world =
      (setting.walk rest after).behind value ((setting.fillString place s).asked world) := by
  rw [walk, h]

theorem walk_cons_error {place : Path} {s : String} {rest : List (Path × String)} {world after : World σ}
    {failure : Failure} (h : (setting.fillString place s).run world = (.error failure, after)) :
    setting.walk ((place, s) :: rest) world =
      { result := .error (place, failure), asked := (setting.fillString place s).asked world,
        world := after } := by
  rw [walk, h]

/-- Behind a row of strings that do not fail, a walk goes on. -/
theorem walk_append_ok {first second : List (Path × String)} {world : World σ} {values : List Json}
    (h : (setting.walk first world).result = .ok values) :
    setting.walk (first ++ second) world =
      { result := (setting.walk second (setting.walk first world).world).result.map (values ++ ·)
        asked := (setting.walk first world).asked ++
          (setting.walk second (setting.walk first world).world).asked
        world := (setting.walk second (setting.walk first world).world).world } := by
  induction first generalizing world values with
  | nil =>
    cases h
    rw [List.nil_append]
    cases hw : setting.walk second world with
    | mk result asked after => cases result <;> simp [walk, hw, Except.map]
  | cons leaf rest ih =>
    obtain ⟨place, s⟩ := leaf
    rw [List.cons_append]
    rcases hrun : (setting.fillString place s).run world with ⟨failure | value, after⟩
    · rw [walk_cons_error hrun] at h
      cases h
    · rw [walk_cons_ok hrun] at h ⊢
      cases hrest : (setting.walk rest after).result with
      | error failed =>
        simp only [Walked.behind, hrest, Except.map] at h
        cases h
      | ok others =>
        simp only [Walked.behind, hrest, Except.map] at h
        cases h
        rw [walk_cons_ok hrun, ih hrest]
        unfold Walked.behind
        cases (setting.walk second (setting.walk rest after).world).result with
        | error failed => simp [Except.map]
        | ok more => simp [Except.map]

/-- A walk ends with the first string that fails. -/
theorem walk_append_error {first : List (Path × String)} (second : List (Path × String))
    {world : World σ} {failed : Path × Failure} (h : (setting.walk first world).result = .error failed) :
    setting.walk (first ++ second) world = setting.walk first world := by
  induction first generalizing world failed with
  | nil => cases h
  | cons leaf rest ih =>
    obtain ⟨place, s⟩ := leaf
    rw [List.cons_append]
    rcases hrun : (setting.fillString place s).run world with ⟨failure | value, after⟩
    · rw [walk_cons_error hrun, walk_cons_error hrun]
    · rw [walk_cons_ok hrun] at h ⊢
      cases hrest : (setting.walk rest after).result with
      | ok others =>
        simp only [Walked.behind, hrest, Except.map] at h
        cases h
      | error other => rw [walk_cons_ok hrun, ih hrest]

/-- A walk that fails has come to a string that does, through strings that do not. -/
theorem exists_of_walk_error {leaves : List (Path × String)} {world : World σ} {place : Path}
    {failure : Failure} (h : (setting.walk leaves world).result = .error (place, failure)) :
    ∃ before s behind values, leaves = before ++ (place, s) :: behind ∧
      (setting.walk before world).result = .ok values ∧
      (setting.fillString place s).run (setting.walk before world).world =
        (.error failure, (setting.walk leaves world).world) ∧
      (setting.walk leaves world).asked = (setting.walk before world).asked ++
        (setting.fillString place s).asked (setting.walk before world).world := by
  induction leaves generalizing world with
  | nil => cases h
  | cons leaf rest ih =>
    obtain ⟨own, s⟩ := leaf
    rcases hrun : (setting.fillString own s).run world with ⟨error | value, after⟩
    · rw [walk_cons_error hrun] at h ⊢
      cases h
      exact ⟨[], s, rest, [], rfl, rfl, hrun, rfl⟩
    · rw [walk_cons_ok hrun] at h ⊢
      cases hrest : (setting.walk rest after).result with
      | ok values =>
        simp only [Walked.behind, hrest, Except.map] at h
        cases h
      | error failed =>
        simp only [Walked.behind, hrest, Except.map] at h
        cases h
        obtain ⟨before, t, behind, values, rfl, hvalues, hfail, hasked⟩ := ih hrest
        refine ⟨(own, s) :: before, t, behind, value :: values, rfl, ?_, ?_, ?_⟩
        · rw [walk_cons_ok hrun, Walked.behind, hvalues]
          rfl
        · rw [walk_cons_ok hrun]
          exact hfail
        · rw [walk_cons_ok hrun]
          unfold Walked.behind
          rw [hasked, List.append_assoc]

/-! ## The plan of a document is a walk over its strings -/

/-- A script does what a walk does: it asks the same, fails with the same failure, and otherwise makes a value
that is related to those of the walk. -/
structure Follows {α : Type} (script : Script σ Failure α) (world : World σ) (walked : Walked σ)
    (made : List Json → α → Prop) : Prop where
  asked : script.asked world = walked.asked
  ok : ∀ values, walked.result = .ok values →
    ∃ value, made values value ∧ script.run world = (.ok value, walked.world)
  error : ∀ place failure, walked.result = .error (place, failure) →
    script.run world = (.error failure, walked.world)

/-- A script that asks nothing and has a value follows a walk over no strings. -/
theorem follows_done {α : Type} {made : List Json → α → Prop} {value : α} (h : made [] value)
    (world : World σ) : Follows (.done value) world (setting.walk [] world) made where
  asked := rfl
  ok := by
    intro values hvalues
    cases hvalues
    exact ⟨value, h, rfl⟩
  error := by
    intro place failure hresult
    cases hresult

/-- What is made of the value of a script. -/
theorem Follows.map {α β : Type} {script : Script σ Failure α} {world : World σ} {walked : Walked σ}
    {made : List Json → α → Prop} {made' : List Json → β → Prop} (h : Follows script world walked made)
    {f : α → β} (hf : ∀ values value, made values value → made' values (f value)) :
    Follows (do return f (← script)) world walked made' where
  asked := by
    show (script >>= fun value => .done (f value)).asked world = _
    rw [asked_bind, h.asked]
    rcases script.run world with ⟨_ | _, _⟩ <;> exact List.append_nil _
  ok := by
    intro values hvalues
    obtain ⟨value, hvalue, hrun⟩ := h.ok values hvalues
    refine ⟨f value, hf values value hvalue, ?_⟩
    show (script >>= fun value => .done (f value)).run world = _
    rw [run_bind, hrun]
    rfl
  error := by
    intro place failure hresult
    show (script >>= fun value => .done (f value)).run world = _
    rw [run_bind, h.error place failure hresult]

/-- Two scripts one after the other follow a walk over the strings of both. -/
theorem Follows.cons {α : Type} {first : Script σ Failure α} {second : Script σ Failure (List α)}
    {leaves leaves' : List (Path × String)} {world : World σ} {made : List Json → α → Prop}
    {made' mades : List Json → List α → Prop} (h : Follows first world (setting.walk leaves world) made)
    (hr : ∀ world, Follows second world (setting.walk leaves' world) made')
    (hm : ∀ values values' value rest, made values value → made' values' rest →
      mades (values ++ values') (value :: rest)) :
    Follows (do return (← first) :: (← second)) world (setting.walk (leaves ++ leaves') world) mades := by
  show Follows (first >>= fun value => do return value :: (← second)) _ _ _
  cases hresult : (setting.walk leaves world).result with
  | error failed =>
    obtain ⟨place, failure⟩ := failed
    have hrun := h.error place failure hresult
    rw [walk_append_error leaves' hresult]
    refine ⟨?_, ?_, ?_⟩
    · rw [asked_bind, hrun, h.asked]
      exact List.append_nil _
    · intro values hvalues
      cases hresult.symm.trans hvalues
    · intro place' failure' hresult'
      cases hresult.symm.trans hresult'
      rw [run_bind, hrun]
  | ok values =>
    obtain ⟨value, hvalue, hrun⟩ := h.ok values hresult
    have hrest : Follows (do return value :: (← second)) (setting.walk leaves world).world
        (setting.walk leaves' (setting.walk leaves world).world)
        (fun values' made => mades (values ++ values') made) :=
      (hr _).map fun values' rest hrest => hm values values' value rest hvalue hrest
    rw [walk_append_ok hresult]
    refine ⟨?_, ?_, ?_⟩
    · rw [asked_bind, hrun, h.asked]
      exact congrArg _ hrest.asked
    · intro all hall
      cases hmore : (setting.walk leaves' (setting.walk leaves world).world).result with
      | error failed =>
        simp only [hmore, Except.map] at hall
        cases hall
      | ok values' =>
        simp only [hmore, Except.map] at hall
        cases hall
        obtain ⟨made, hmade, hrun'⟩ := hrest.ok values' hmore
        refine ⟨made, hmade, ?_⟩
        rw [run_bind, hrun]
        exact hrun'
    · intro place failure hall
      cases hmore : (setting.walk leaves' (setting.walk leaves world).world).result with
      | ok values' =>
        simp only [hmore, Except.map] at hall
        cases hall
      | error failed =>
        simp only [hmore, Except.map] at hall
        cases hall
        rw [run_bind, hrun]
        exact hrest.error place failure hmore

theorem follows_fillString (path : Path) (s : String) (world : World σ) :
    Follows (setting.fillString path s) world (setting.walk [(path, s)] world)
      ((Json.string s).Replaced) := by
  rcases hrun : (setting.fillString path s).run world with ⟨failure | value, after⟩
  · rw [walk_cons_error hrun]
    refine ⟨rfl, ?_, ?_⟩
    · intro values hvalues
      cases hvalues
    · intro place failure' hresult
      cases hresult
      exact hrun
  · rw [walk_cons_ok hrun]
    refine ⟨(List.append_nil _).symm, ?_, ?_⟩
    · intro values hvalues
      cases hvalues
      exact ⟨value, .string s value, hrun⟩
    · intro place failure hresult
      cases hresult

mutual

/-- **The plan of a document, done in order, is a walk over its strings.** -/
theorem inOrder_plan (path : Path) (value : Json) (world : World σ) :
    Follows (setting.plan path value).inOrder world (setting.walk (value.leaves path) world)
      value.Replaced := by
  match value with
  | .string s => exact follows_fillString path s world
  | .array items => exact (inOrder_items path 0 items world).map fun _ _ h => .array h
  | .object members =>
    refine (inOrder_members path members world).map ?_
    rintro values made ⟨filled, h, hnames, rfl⟩
    -- the names are put beside the values again
    have hzip : (members.map (·.1)).zip (filled.map (·.2)) = filled := by
      rw [← hnames, ← List.unzip_fst, ← List.unzip_snd, List.zip_unzip]
    rw [hzip]
    exact .object h
  | .null => exact follows_done .null world
  | .bool b => exact follows_done (.bool b) world
  | .number n => exact follows_done (.number n) world

theorem inOrder_items (path : Path) (index : Nat) (items : List Json) (world : World σ) :
    Follows (Plan.inOrderAll (setting.plansOfItems path index items)) world
      (setting.walk (Json.leavesOfItems path index items) world) (Json.ReplacedItems items) := by
  match items with
  | [] => exact follows_done .nil world
  | item :: rest =>
    refine (inOrder_plan (path ++ [.index index]) item world).cons
      (fun world => inOrder_items path (index + 1) rest world) ?_
    intro values values' made others h hr
    exact .cons h hr

theorem inOrder_members (path : Path) (members : List (String × Json)) (world : World σ) :
    Follows (Plan.inOrderAll (setting.plansOfMembers path members)) world
      (setting.walk (Json.leavesOfMembers path members) world)
      (fun values made => ∃ filled, Json.ReplacedMembers members values filled ∧
        filled.map (·.1) = members.map (·.1) ∧ filled.map (·.2) = made) := by
  match members with
  | [] => exact follows_done ⟨[], .nil, rfl, rfl⟩ world
  | (name, value) :: rest =>
    refine (inOrder_plan (path ++ [.name name]) value world).cons
      (fun world => inOrder_members path rest world) ?_
    rintro values values' made _ h ⟨filled, hr, hnames, rfl⟩
    refine ⟨(name, made) :: filled, .cons h hr, ?_, rfl⟩
    rw [List.map_cons, List.map_cons, hnames]

end

end Setting

/-! ## Where strings stand -/

namespace Json

/-- Going down a document by the steps of a path, one comes to a value. -/
inductive Leads : Json → Path → Json → Prop where
  | here (value : Json) : Leads value [] value
  | item {items : List Json} {index : Nat} {item value : Json} {steps : Path} (hi : items[index]? = some item)
      (h : Leads item steps value) : Leads (.array items) (.index index :: steps) value
  | member {members : List (String × Json)} {name : String} {own value : Json} {steps : Path}
      (hm : (name, own) ∈ members) (h : Leads own steps value) :
      Leads (.object members) (.name name :: steps) value

mutual

/-- The place of a string is that of the document, and then the steps that lead to the string. -/
theorem leads_of_mem_leaves {path place : Path} {s : String} (value : Json)
    (h : (place, s) ∈ value.leaves path) : ∃ steps, place = path ++ steps ∧ value.Leads steps (.string s) := by
  match value with
  | .string t =>
    cases List.mem_singleton.mp h
    exact ⟨[], (List.append_nil path).symm, .here _⟩
  | .array items =>
    obtain ⟨index, item, steps, hitem, rfl, hleads⟩ :=
      leads_of_mem_items items (h : (place, s) ∈ leavesOfItems path 0 items)
    rw [Nat.zero_add]
    exact ⟨_, rfl, .item hitem hleads⟩
  | .object members =>
    obtain ⟨name, own, steps, hown, rfl, hleads⟩ := leads_of_mem_members members h
    exact ⟨_, rfl, .member hown hleads⟩
  | .null => exact absurd h List.not_mem_nil
  | .bool _ => exact absurd h List.not_mem_nil
  | .number _ => exact absurd h List.not_mem_nil

theorem leads_of_mem_items {path place : Path} {s : String} {first : Nat} (items : List Json)
    (h : (place, s) ∈ leavesOfItems path first items) :
    ∃ index item steps, items[index]? = some item ∧
      place = path ++ .index (first + index : Nat) :: steps ∧ item.Leads steps (.string s) := by
  match items with
  | [] => exact absurd h List.not_mem_nil
  | item :: rest =>
    rcases List.mem_append.mp h with h | h
    · obtain ⟨steps, rfl, hleads⟩ := leads_of_mem_leaves item h
      refine ⟨0, item, steps, rfl, ?_, hleads⟩
      rw [List.append_assoc]
      rfl
    · obtain ⟨index, own, steps, hown, rfl, hleads⟩ := leads_of_mem_items rest h
      refine ⟨index + 1, own, steps, hown, ?_, hleads⟩
      rw [Nat.add_right_comm, Nat.add_assoc]

theorem leads_of_mem_members {path place : Path} {s : String} (members : List (String × Json))
    (h : (place, s) ∈ leavesOfMembers path members) :
    ∃ name own steps, (name, own) ∈ members ∧ place = path ++ .name name :: steps ∧
      own.Leads steps (.string s) := by
  match members with
  | [] => exact absurd h List.not_mem_nil
  | (name, value) :: rest =>
    rcases List.mem_append.mp h with h | h
    · obtain ⟨steps, rfl, hleads⟩ := leads_of_mem_leaves value h
      refine ⟨name, value, steps, List.mem_cons_self, ?_, hleads⟩
      rw [List.append_assoc]
      rfl
    · obtain ⟨other, own, steps, hown, rfl, hleads⟩ := leads_of_mem_members rest h
      exact ⟨other, own, steps, List.mem_cons_of_mem _ hown, rfl, hleads⟩

end

end Json

namespace Setting

open Script

variable {setting : Setting σ}

/-! ## Documents -/

/-- The questions put to plugins when a document is filled in one part after the other. -/
def askedInOrder (setting : Setting σ) (path : Path) (value : Json) (world : World σ) : List (Question σ) :=
  (setting.plan path value).inOrder.asked world

/-- One part after the other, a document is filled in by the script that does its plan in order. -/
theorem fill_inOrder (hs : setting.options.concurrent = false) (path : Path) (value : Json)
    (world : World σ) :
    setting.fill path value world = (setting.plan path value).inOrder.run world := by
  unfold fill
  rw [hs]
  rfl

/-- **A document is filled in string by string, in the order in which its strings stand in it.** If a walk
    over them comes to its end, the result is the document with each string replaced by what has become of it.
    Otherwise the walk has come to a first string that fails, and the result is the failure of that string,
    which names its place: the place of the document and the steps to the string. Either way the questions put
    to plugins are those of the walk, which are those of the strings up to that one, and the world is left as
    the walk leaves it. -/
theorem fill_walks (hs : setting.options.concurrent = false) (path : Path) (value : Json)
    (world : World σ) :
    let walked := setting.walk (value.leaves path) world
    setting.askedInOrder path value world = walked.asked ∧
    (∀ values, walked.result = .ok values →
      ∃ filled, value.Replaced values filled ∧ setting.fill path value world = (.ok filled, walked.world)) ∧
    ∀ place failure, walked.result = .error (place, failure) →
      setting.fill path value world = (.error failure, walked.world) ∧ failure.IsOf (some place) ∧
      ∃ before s behind values, value.leaves path = before ++ (place, s) :: behind ∧
        (∃ steps, place = path ++ steps ∧ value.Leads steps (.string s)) ∧
        (setting.walk before world).result = .ok values ∧
        (setting.fillString place s).run (setting.walk before world).world =
          (.error failure, walked.world) ∧
        walked.asked = (setting.walk before world).asked ++
          (setting.fillString place s).asked (setting.walk before world).world := by
  intro walked
  have hfollows : Follows (setting.plan path value).inOrder world walked value.Replaced :=
    inOrder_plan path value world
  refine ⟨hfollows.asked, ?_, ?_⟩
  · intro values hvalues
    rw [fill_inOrder hs]
    exact hfollows.ok values hvalues
  · intro place failure hresult
    obtain ⟨before, s, behind, values, hleaves, hvalues, hrun, hasked⟩ := exists_of_walk_error hresult
    have hmem : (place, s) ∈ value.leaves path := by
      rw [hleaves]
      exact List.mem_append_right _ List.mem_cons_self
    rw [fill_inOrder hs]
    exact ⟨hfollows.error place failure hresult, (fillString_failsOnly place s).of_run hrun, before, s, behind,
      values, hleaves, Json.leads_of_mem_leaves value hmem, hvalues, hrun, hasked⟩

/-! ## A document with two strings that fail -/

/-- A string that is a token is resolved as a whole. -/
theorem fillString_of_isSingle (path : Path) {s : String} (hs : Token.isSingle s.toList = true) :
    setting.fillString path s = setting.resolve (some path) s.toList := by
  have ht : (Token.tokens s.toList).isEmpty = false := by
    rw [List.isEmpty_eq_false_iff]
    exact tokens_of_isSingle hs
  unfold fillString
  dsimp only
  rw [ht, hs, if_neg Bool.false_ne_true, if_pos rfl]

/-- So is a string with nothing but a token in it that has no braces between its own. -/
theorem fillString_of_bracket (path : Path) (s : String) (chars : List Char) (hs : s.toList = Token.bracket chars)
    (hb : Token.Braceless chars) (hne : chars ≠ []) (hline : '\n' ∉ chars) :
    setting.fillString path s = setting.resolve (some path) (Token.bracket chars) := by
  have hsingle : Token.isSingle s.toList = true := by
    rw [hs]
    exact isSingle_bracket hb hne hline
  rw [fillString_of_isSingle path hsingle, hs]

end Setting

/-- The plugin that answers with the number of questions it was asked before. -/
def Plugin.count : Plugin Nat where
  name := "count"
  resolve _ _ asked := ({ answer := .ok (.value (.number (.integer asked))) }, asked + 1)

/-- The setting in which only `Plugin.count` is registered. -/
def Setting.counting : Setting Nat where
  registry := { plugins := [.count] }

namespace Setting

/-- An array of a string that is counted, an object with a string that is counted and one that fails, and
    another string that would be counted. -/
def miscounted : Json :=
  .array [.string "\x7b\x7bcount:a\x7d\x7d",
    .object [("b", .string "\x7b\x7bcount:b\x7d\x7d"), ("c", .string "\x7b\x7blost:c\x7d\x7d")],
    .string "\x7b\x7bcount:d\x7d\x7d"]

/-- Two strings are counted, the third one fails, and the fourth one is not counted any more. -/
theorem fill_walks_counting :
    counting.options.concurrent = false ∧
    (counting.fill [] miscounted { state := 0 }).1 =
      .error (.unresolved "\x7b\x7blost:c\x7d\x7d" (some "[1].c") (.unknownPlugin "lost" ["count"])) ∧
    (counting.fill [] miscounted { state := 0 }).2.state = 2 ∧
    (counting.askedInOrder [] miscounted { state := 0 }).map (·.placeholder.action) = ["a", "b"] := by
  have ha : counting.fillString [.index 0] "\x7b\x7bcount:a\x7d\x7d" = _ :=
    fillString_of_bracket _ _ "count:a".toList rfl (by decide) (by decide) (by decide)
  have hb : counting.fillString [.index 1, .name "b"] "\x7b\x7bcount:b\x7d\x7d" = _ :=
    fillString_of_bracket _ _ "count:b".toList rfl (by decide) (by decide) (by decide)
  have hc : counting.fillString [.index 1, .name "c"] "\x7b\x7blost:c\x7d\x7d" = _ :=
    fillString_of_bracket _ _ "lost:c".toList rfl (by decide) (by decide) (by decide)
  have hleaves : miscounted.leaves [] =
      [([.index 0], "\x7b\x7bcount:a\x7d\x7d"), ([.index 1, .name "b"], "\x7b\x7bcount:b\x7d\x7d"),
        ([.index 1, .name "c"], "\x7b\x7blost:c\x7d\x7d"), ([.index 2], "\x7b\x7bcount:d\x7d\x7d")] := rfl
  have hfirst : (counting.fillString [.index 0] "\x7b\x7bcount:a\x7d\x7d").run { state := 0 } =
      (.ok (.number (.integer 0)), { state := 1 }) := by
    rw [ha]
    rfl
  have hsecond : (counting.fillString [.index 1, .name "b"] "\x7b\x7bcount:b\x7d\x7d").run { state := 1 } =
      (.ok (.number (.integer 1)), { state := 2 }) := by
    rw [hb]
    rfl
  obtain ⟨after, hthird, hstate⟩ : ∃ after,
      (counting.fillString [.index 1, .name "c"] "\x7b\x7blost:c\x7d\x7d").run { state := 2 } =
        (.error (.unresolved "\x7b\x7blost:c\x7d\x7d" (some "[1].c") (.unknownPlugin "lost" ["count"])), after) ∧
      after.state = 2 := by
    rw [hc]
    exact ⟨_, rfl, rfl⟩
  obtain ⟨hasked, -, herror⟩ := fill_walks (rfl : counting.options.concurrent = false) [] miscounted { state := 0 }
  rw [hleaves, walk_cons_ok hfirst, walk_cons_ok hsecond, walk_cons_error hthird] at hasked herror
  obtain ⟨hfill, -⟩ := herror _ _ rfl
  rw [hfill, hasked]
  refine ⟨rfl, rfl, hstate, ?_⟩
  unfold Walked.behind
  rw [ha, hb, hc]
  rfl

end Setting

end Template
