import Mathlib.Data.List.Nodup
import Template.Proofs.Failures
import Template.Proofs.JsonText
import Template.Proofs.Walk

/-!
# `Template.Proofs.Places` — places that are told from their text

A path is written without anything that sets its steps apart but a point or a bracket, and the first step has no point. As
long as names are not empty and hold neither, the text still tells the path: each step ends where the next mark stands, and
a number ends at its closing bracket. So in a document with such names a failure names the one string that it comes from.

## Contents
- `PathStep.Plain`, `Path.Plain` — names without marks.
- `Path.behind`, `format_cons` — the text of a path, step by step.
- `format_inj` — a text is that of one path at most.
- `Json.PlainNames`, `Json.Leads.unique` — places in documents.
- `Setting.exists_leaf_of_fill` — a failure names the place of a string.
- `Path.format_identifies` — all of this for paths, and for the places in failures.
-/

namespace Template

open Text

/-! ## Steps -/

/-- The name of a member is not empty and holds no point and no opening bracket. -/
def PathStep.Plain : PathStep → Prop
  | .name own => own ≠ "" ∧ '.' ∉ own.toList ∧ '[' ∉ own.toList
  | .index _ => True

namespace Path

/-- All names of a path are plain. -/
def Plain (path : Path) : Prop := ∀ step ∈ path, step.Plain

theorem plain_cons {step : PathStep} {path : Path} : Plain (step :: path) ↔ step.Plain ∧ path.Plain :=
  List.forall_mem_cons

theorem plain_append {front back : Path} : Plain (front ++ back) ↔ front.Plain ∧ back.Plain :=
  List.forall_mem_append

/-- A step at the start of a path. -/
def atStart : PathStep → List Char
  | .index i => '[' :: (integer i ++ [']'])
  | .name name => name.toList

/-- A step behind another one. -/
def behind : PathStep → List Char
  | .index i => '[' :: (integer i ++ [']'])
  | .name name => '.' :: name.toList

/-- No mark that begins a step behind another one. -/
def unmarked (c : Char) : Bool := c != '.' && c != '['

theorem atStart_ne_nil {step : PathStep} (h : step.Plain) : atStart step ≠ [] := by
  cases step with
  | index i => exact List.cons_ne_nil _ _
  | name name => exact fun hempty => h.1 (String.toList_eq_nil_iff.mp hempty)

theorem foldl_extend {written : List Char} (h : written ≠ []) (path : Path) :
    path.foldl extend written = written ++ path.flatMap behind := by
  induction path generalizing written with
  | nil => exact (List.append_nil written).symm
  | cons step rest ih =>
    have hextend : extend written step = written ++ behind step := by
      cases step with
      | index i => simp [extend, behind]
      | name name => rw [extend, if_neg (by rwa [List.isEmpty_iff]), behind]
    rw [List.foldl_cons, hextend, ih (by simp [h]), List.flatMap_cons, List.append_assoc]

/-- **The text of a path** is that of its first step, and of the others behind it. -/
theorem format_cons {step : PathStep} (h : step.Plain) (rest : Path) :
    format (step :: rest) = atStart step ++ rest.flatMap behind := by
  have hfirst : extend [] step = atStart step := by
    cases step with
    | index i => rfl
    | name name => rfl
  rw [format, List.foldl_cons, hfirst, foldl_extend (atStart_ne_nil h)]

/-! ## One path at most -/

theorem head?_behind {path : Path} {c : Char} (h : (path.flatMap behind).head? = some c) : unmarked c = false := by
  cases path with
  | nil => cases h
  | cons step rest =>
    cases step with
    | index i =>
      cases h
      rfl
    | name name =>
      cases h
      rfl

/-- A number ends at its closing bracket. -/
theorem integer_closes (i : ℤ) : ∀ c ∈ integer i, (c != ']') = true := by
  have hdecimal : ∀ n : ℕ, ∀ c ∈ decimal n, (c != ']') = true := by
    intro n c hc
    obtain ⟨digits, hrow, hdigits, -⟩ := exists_row_decimal n
    rw [hrow] at hc
    obtain ⟨d, hd, rfl⟩ := List.mem_map.mp hc
    have hdigit : ∀ d < 10, (Nat.digitChar d != ']') = true := by decide
    exact hdigit d (hdigits d hd)
  cases i with
  | ofNat n => exact hdecimal n
  | negSucc n =>
    intro c hc
    rcases List.mem_cons.mp hc with rfl | hc
    · rfl
    · exact hdecimal _ c hc

theorem index_inj {i j : ℤ} {back back' : List Char} (h : integer i ++ ']' :: back = integer j ++ ']' :: back') :
    i = j ∧ back = back' := by
  obtain ⟨hdigits, hback⟩ := stretch_inj (· != ']') (integer_closes i) (integer_closes j) (by rintro c ⟨⟩; rfl)
    (by rintro c ⟨⟩; rfl) h
  exact ⟨Json.integer_injective hdigits, (List.cons.inj hback).2⟩

/-- A plain name ends at the next mark. -/
theorem name_inj {name name' : String} {rest rest' : Path} (hname : (PathStep.name name).Plain)
    (hname' : (PathStep.name name').Plain)
    (h : name.toList ++ rest.flatMap behind = name'.toList ++ rest'.flatMap behind) :
    name = name' ∧ rest.flatMap behind = rest'.flatMap behind := by
  have hunmarked : ∀ {name : String}, (PathStep.name name).Plain → ∀ c ∈ name.toList, unmarked c = true := by
    rintro name ⟨-, hpoint, hbracket⟩ c hc
    rw [unmarked, Bool.and_eq_true, bne_iff_ne, bne_iff_ne]
    exact ⟨fun heq => hpoint (heq ▸ hc), fun heq => hbracket (heq ▸ hc)⟩
  obtain ⟨hchars, hback⟩ := stretch_inj unmarked (hunmarked hname) (hunmarked hname') (fun c => head?_behind)
    (fun c => head?_behind) h
  exact ⟨String.toList_inj.mp hchars, hback⟩

/-- A step behind another one ends before the next one. -/
theorem behind_append_inj {step step' : PathStep} {rest rest' : Path} (hstep : step.Plain) (hstep' : step'.Plain)
    (h : behind step ++ rest.flatMap behind = behind step' ++ rest'.flatMap behind) :
    step = step' ∧ rest.flatMap behind = rest'.flatMap behind := by
  cases step with
  | index i =>
    cases step' with
    | index j =>
      obtain ⟨rfl, hback⟩ := index_inj (by simpa [behind] using h)
      exact ⟨rfl, hback⟩
    | name name' => cases h
  | name name =>
    cases step' with
    | index j => cases h
    | name name' =>
      obtain ⟨rfl, hback⟩ := name_inj hstep hstep' (List.cons.inj h).2
      exact ⟨rfl, hback⟩

/-- Steps behind others are told from their text. -/
theorem behind_inj {path path' : Path} (hp : path.Plain) (hp' : path'.Plain)
    (h : path.flatMap behind = path'.flatMap behind) : path = path' := by
  have hne : ∀ step (rest : Path), (step :: rest).flatMap behind ≠ [] := by
    rintro (i | name) rest <;> exact List.cons_ne_nil _ _
  induction path generalizing path' with
  | nil =>
    cases path' with
    | nil => rfl
    | cons step rest => exact absurd h.symm (hne step rest)
  | cons step rest ih =>
    cases path' with
    | nil => exact absurd h (hne step rest)
    | cons step' rest' =>
      obtain ⟨hstep, hrest⟩ := plain_cons.mp hp
      obtain ⟨hstep', hrest'⟩ := plain_cons.mp hp'
      rw [List.flatMap_cons, List.flatMap_cons] at h
      obtain ⟨rfl, hback⟩ := behind_append_inj hstep hstep' h
      rw [ih hrest hrest' hback]

/-- A name at the start is not taken for a number. -/
theorem name_ne_index {name : String} (hname : (PathStep.name name).Plain) (i : ℤ) (back back' : List Char) :
    name.toList ++ back ≠ atStart (.index i) ++ back' := by
  intro h
  cases hchars : name.toList with
  | nil => exact hname.1 (String.toList_eq_nil_iff.mp hchars)
  | cons c chars =>
    rw [hchars] at h
    obtain ⟨rfl, -⟩ := List.cons.inj h
    exact hname.2.2 (by rw [hchars]; exact List.mem_cons_self)

/-- The first step ends before the second one. -/
theorem atStart_append_inj {step step' : PathStep} {rest rest' : Path} (hstep : step.Plain) (hstep' : step'.Plain)
    (h : atStart step ++ rest.flatMap behind = atStart step' ++ rest'.flatMap behind) :
    step = step' ∧ rest.flatMap behind = rest'.flatMap behind := by
  cases step with
  | index i =>
    cases step' with
    | index j => exact behind_append_inj hstep hstep' h
    | name name' => exact absurd h.symm (name_ne_index hstep' i _ _)
  | name name =>
    cases step' with
    | index j => exact absurd h (name_ne_index hstep j _ _)
    | name name' =>
      obtain ⟨rfl, hback⟩ := name_inj hstep hstep' h
      exact ⟨rfl, hback⟩

theorem format_eq_nil_iff {path : Path} (h : path.Plain) : path.format = [] ↔ path = [] := by
  cases path with
  | nil => exact ⟨fun _ => rfl, fun _ => rfl⟩
  | cons step rest =>
    obtain ⟨hstep, -⟩ := plain_cons.mp h
    rw [format_cons hstep]
    simp [atStart_ne_nil hstep]

/-- **A text is that of one plain path at most.** -/
theorem format_inj {path path' : Path} (hp : path.Plain) (hp' : path'.Plain) (h : path.format = path'.format) :
    path = path' := by
  cases path with
  | nil => exact ((format_eq_nil_iff hp').mp h.symm).symm
  | cons step rest =>
    cases path' with
    | nil => exact (format_eq_nil_iff hp).mp h
    | cons step' rest' =>
      obtain ⟨hstep, hrest⟩ := plain_cons.mp hp
      obtain ⟨hstep', hrest'⟩ := plain_cons.mp hp'
      rw [format_cons hstep, format_cons hstep'] at h
      obtain ⟨rfl, hback⟩ := atStart_append_inj hstep hstep' h
      rw [behind_inj hrest hrest' hback]

/-- A name with a point in it is not told from two names. -/
example : format [.name "a.b"] = format [.name "a", .name "b"] := by decide

end Path

/-! ## Places in documents -/

namespace Json

mutual

/-- All names in the value are plain. -/
def PlainNames : Json → Prop
  | .array items => PlainNamesOfItems items
  | .object members => PlainNamesOfMembers members
  | .null => True
  | .bool _ => True
  | .number _ => True
  | .string _ => True

/-- All names in the items of an array are plain. -/
def PlainNamesOfItems : List Json → Prop
  | [] => True
  | item :: rest => PlainNames item ∧ PlainNamesOfItems rest

/-- All names of the members of an object, and in them, are plain. -/
def PlainNamesOfMembers : List (String × Json) → Prop
  | [] => True
  | (name, value) :: rest => (PathStep.name name).Plain ∧ PlainNames value ∧ PlainNamesOfMembers rest

end

theorem plainNamesOfItems_iff {items : List Json} : PlainNamesOfItems items ↔ ∀ item ∈ items, item.PlainNames := by
  induction items with
  | nil => simp [PlainNamesOfItems]
  | cons item rest ih => rw [PlainNamesOfItems, ih, List.forall_mem_cons]

theorem plainNamesOfMembers_iff {members : List (String × Json)} :
    PlainNamesOfMembers members ↔ ∀ member ∈ members, (PathStep.name member.1).Plain ∧ member.2.PlainNames := by
  induction members with
  | nil => simp [PlainNamesOfMembers]
  | cons member rest ih =>
    obtain ⟨name, value⟩ := member
    rw [PlainNamesOfMembers, ih, List.forall_mem_cons, and_assoc]

theorem distinctItems_iff {items : List Json} : DistinctItems items ↔ ∀ item ∈ items, item.Distinct := by
  induction items with
  | nil => simp [DistinctItems]
  | cons item rest ih => rw [DistinctItems, ih, List.forall_mem_cons]

theorem distinctMembers_iff {members : List (String × Json)} :
    DistinctMembers members ↔ ∀ member ∈ members, member.2.Distinct := by
  induction members with
  | nil => simp [DistinctMembers]
  | cons member rest ih =>
    obtain ⟨name, value⟩ := member
    rw [DistinctMembers, ih, List.forall_mem_cons]

/-- Steps through plain names are plain. -/
theorem Leads.plain {value part : Json} {steps : Path} (h : value.Leads steps part) (hplain : value.PlainNames) :
    steps.Plain := by
  induction h with
  | here value => exact fun step hstep => absurd hstep List.not_mem_nil
  | item hitem _ ih =>
    exact Path.plain_cons.mpr ⟨trivial, ih (plainNamesOfItems_iff.mp hplain _ (List.mem_of_getElem? hitem))⟩
  | member hmember _ ih =>
    obtain ⟨hname, hown⟩ := plainNamesOfMembers_iff.mp hplain _ hmember
    exact Path.plain_cons.mpr ⟨hname, ih hown⟩

/-- **The same steps lead to the same part**, if no object holds a name twice. -/
theorem Leads.unique {value part part' : Json} {steps : Path} (h : value.Leads steps part)
    (h' : value.Leads steps part') (hdistinct : value.Distinct) : part = part' := by
  induction h with
  | here value =>
    cases h'
    rfl
  | item hitem _ ih =>
    cases h' with
    | item hitem' hleads' =>
      cases hitem.symm.trans hitem'
      exact ih hleads' (distinctItems_iff.mp hdistinct _ (List.mem_of_getElem? hitem))
  | member hmember _ ih =>
    cases h' with
    | member hmember' hleads' =>
      obtain ⟨hnames, hmembers⟩ := hdistinct
      cases List.inj_on_of_nodup_map hnames hmember hmember' rfl
      exact ih hleads' (distinctMembers_iff.mp hmembers _ hmember)

end Json

/-! ## The places in failures -/

variable {σ : Type} {setting : Setting σ}

namespace Setting

/-- **A document fails with a failure of one of its strings**, which names its place. -/
theorem exists_leaf_of_fill {path : Path} {value : Json} {world : World σ} {failure : Failure}
    (h : (setting.fill path value world).1 = .error failure) :
    ∃ leaf ∈ value.leaves path, failure.IsOf (some leaf.1) := by
  have hplan : (setting.plan path value).FailsOnly
      fun failure => ∃ leaf ∈ value.leaves path, failure.IsOf (some leaf.1) := by
    intro script hscript
    rcases isLeaf_of_mem_plan path value script hscript with ⟨leaf, hleaf, rfl⟩ | ⟨value, rfl⟩
    · exact (fillString_failsOnly leaf.1 leaf.2).mono fun failure hof => ⟨leaf, hleaf, hof⟩
    · trivial
  exact fill_failsOnly_of_plan hplan h

end Setting

/-- A failure for lack of a value names the place of its string. -/
theorem Failure.IsOf.place_eq {place : Path} {token : String} {named : Option String} {cause : Cause}
    (h : (Failure.unresolved token named cause).IsOf (some place)) : named = some (String.ofList place.format) := by
  cases h
  rfl

/-- The place that a failure names is that of one string only. -/
theorem Path.eq_of_named {path path' : Path} (hp : path.Plain) (hp' : path'.Plain) {named : Option String}
    (h : named = some (String.ofList path.format)) (h' : named = some (String.ofList path'.format)) : path = path' := by
  have htext : String.ofList path.format = String.ofList path'.format := Option.some.inj (h.symm.trans h')
  exact format_inj hp hp' (String.ofList_injective htext)

/-- **Texts of places identify strings.** Two paths with plain names are the same if their texts are, and only the
    empty path has the empty text. So if a document with plain names, none of them twice in one object, fails for lack of
    a value, then the place that the failure names is that of a string in it, and of no other part of the document; and
    whatever plugins answer, no other string fails like this. -/
theorem Path.format_identifies :
    (∀ path path' : Path, path.Plain → path'.Plain → path.format = path'.format → path = path') ∧
    (∀ path : Path, path.Plain → (path.format = [] ↔ path = [])) ∧
    ∀ {σ : Type} (setting : Setting σ) (path : Path) (value : Json) (world : World σ) (token : String)
      (named : Option String) (cause : Cause), path.Plain → value.PlainNames → value.Distinct →
      (setting.fill path value world).1 = .error (.unresolved token named cause) →
      ∃ steps s, value.Leads steps (.string s) ∧ named = some (String.ofList (path ++ steps).format) ∧
        (∀ steps' part, value.Leads steps' part → named = some (String.ofList (path ++ steps').format) →
          steps' = steps ∧ part = .string s) ∧
        ∀ other ∈ value.leaves path, other ≠ (path ++ steps, s) →
          (setting.fillString other.1 other.2).FailsOnly (· ≠ .unresolved token named cause) := by
  refine ⟨fun _ _ => format_inj, fun _ => format_eq_nil_iff, ?_⟩
  intro σ setting path value world token named cause hpath hnames hdistinct h
  obtain ⟨⟨place, s⟩, hmem, hof⟩ := Setting.exists_leaf_of_fill h
  obtain ⟨steps, rfl, hleads⟩ := Json.leads_of_mem_leaves value hmem
  have hplace : named = some (String.ofList (path ++ steps).format) := hof.place_eq
  have honly : ∀ steps' part, value.Leads steps' part → named = some (String.ofList (path ++ steps').format) →
      steps' = steps ∧ part = .string s := by
    intro steps' part hleads' hplace'
    have hsame : path ++ steps' = path ++ steps := eq_of_named (plain_append.mpr ⟨hpath, hleads'.plain hnames⟩)
      (plain_append.mpr ⟨hpath, hleads.plain hnames⟩) hplace' hplace
    obtain rfl := List.append_cancel_left hsame
    exact ⟨rfl, hleads'.unique hleads hdistinct⟩
  refine ⟨steps, s, hleads, hplace, honly, ?_⟩
  rintro ⟨place', s'⟩ hmem' hne
  refine (Setting.fillString_failsOnly place' s').mono ?_
  rintro failure hof' rfl
  obtain ⟨steps', rfl, hleads'⟩ := Json.leads_of_mem_leaves value hmem'
  obtain ⟨rfl, hstring⟩ := honly steps' _ hleads' hof'.place_eq
  cases hstring
  exact hne rfl

/-- An object with two strings that fail, one of them in an array. -/
def Setting.losing : Json :=
  .object [("a", .array [.string "\x7b\x7blost:c\x7d\x7d"]), ("b", .string "\x7b\x7blost:d\x7d\x7d")]

/-- The text that a failure of the first one names is of no other path, and the string there is the only one that fails
    like this. -/
theorem Path.format_identifies_losing :
    (∀ path : Path, path.Plain → path.format = "a[0]".toList → path = [.name "a", .index 0]) ∧
    Path.format [.name "a", .index 0] ≠ [] ∧
    ∃ steps s, Setting.losing.Leads steps (.string s) ∧ some "a[0]" = some (String.ofList (Path.format steps)) ∧
      (∀ steps' part, Setting.losing.Leads steps' part →
        some "a[0]" = some (String.ofList (Path.format steps')) → steps' = steps ∧ part = .string s) ∧
      ∀ other ∈ Setting.losing.leaves [], other ≠ (steps, s) →
        (Setting.counting.fillString other.1 other.2).FailsOnly
          (· ≠ .unresolved "\x7b\x7blost:c\x7d\x7d" (some "a[0]") (.unknownPlugin "lost" ["count"])) := by
  have hstring : Setting.counting.fillString [.name "a", .index 0] "\x7b\x7blost:c\x7d\x7d" = _ :=
    Setting.fillString_of_bracket _ _ "lost:c".toList rfl (by decide) (by decide) (by decide)
  obtain ⟨after, hfails⟩ : ∃ after,
      (Setting.counting.fillString [.name "a", .index 0] "\x7b\x7blost:c\x7d\x7d").run { state := 0 } =
        (.error (.unresolved "\x7b\x7blost:c\x7d\x7d" (some "a[0]") (.unknownPlugin "lost" ["count"])), after) := by
    rw [hstring]
    exact ⟨_, rfl⟩
  have hwalk : Setting.counting.walk (Setting.losing.leaves []) { state := 0 } = _ := Setting.walk_cons_error hfails
  have hfill : (Setting.counting.fill [] Setting.losing { state := 0 }).1 =
      .error (.unresolved "\x7b\x7blost:c\x7d\x7d" (some "a[0]") (.unknownPlugin "lost" ["count"])) := by
    rw [Setting.fill_inOrder rfl, (Setting.inOrder_plan [] Setting.losing { state := 0 }).error _ _ (by rw [hwalk])]
  have hnames : Setting.losing.PlainNames := by
    simp [Setting.losing, Json.PlainNames, Json.PlainNamesOfMembers, Json.PlainNamesOfItems, PathStep.Plain]
  have hdistinct : Setting.losing.Distinct := by
    simp [Setting.losing, Json.Distinct, Json.DistinctMembers, Json.DistinctItems]
  have hplain : Path.Plain [.name "a", .index 0] := by simp [Path.Plain, PathStep.Plain]
  refine ⟨fun path hpath htext => Path.format_identifies.1 path _ hpath hplain htext, ?_, ?_⟩
  · rw [Ne, Path.format_identifies.2.1 _ hplain]
    exact List.cons_ne_nil _ _
  · exact Path.format_identifies.2.2 Setting.counting [] Setting.losing { state := 0 } _ _ _
      (fun _ hstep => absurd hstep List.not_mem_nil) hnames hdistinct hfill

end Template
