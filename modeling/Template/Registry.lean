import Template.Plugin

/-!
# `Template.Registry` — the plugins and transforms of an engine

A registry holds plugins by their modules and transforms by their names, in the order of registration. A name
is registered once. Offering something that cannot be a plugin or a transform is refused, and so is a name
that is taken; a refused registration changes nothing, and of several offered at once those before the
refused one stay.

* `Candidate` — what is offered for registration;
* `addPlugin`, `addTransform`, `addPlugins`, `addTransforms` — registration;
* `clear` — everything taken out;
* `plugin?`, `transform?`, `findPlugin`, `findTransform` — by name.
-/

namespace Template

/-- What is offered for registration. -/
inductive Candidate (α : Type) where
  /-- Something fit for its role. -/
  | fit (item : α)
  /-- Something else, as it is shown. -/
  | unfit (shown : String)

/-- Plugins and transforms by name. -/
structure Registry (σ : Type) where
  /-- The plugins, in the order of registration. -/
  plugins : List (Plugin σ) := []
  /-- The transforms, in the order of registration. -/
  transforms : List Transform := []

namespace Registry

variable {σ : Type}

/-- The modules, in the order of registration. -/
def pluginNames (registry : Registry σ) : List String :=
  registry.plugins.map (·.name)

/-- The names of the transforms, in the order of registration. -/
def transformNames (registry : Registry σ) : List String :=
  registry.transforms.map (·.name)

/-- The plugin of a module. -/
def plugin? (registry : Registry σ) (name : String) : Option (Plugin σ) :=
  registry.plugins.find? (·.name == name)

/-- The transform of a name. -/
def transform? (registry : Registry σ) (name : String) : Option Transform :=
  registry.transforms.find? (·.name == name)

/-- The plugin of a module, or what there is instead. -/
def findPlugin (registry : Registry σ) (name : String) : Except Cause (Plugin σ) :=
  match registry.plugin? name with
  | some plugin => .ok plugin
  | none => .error (.unknownPlugin name registry.pluginNames)

/-- The transform of a name, or what there is instead. -/
def findTransform (registry : Registry σ) (name : String) : Except Cause Transform :=
  match registry.transform? name with
  | some transform => .ok transform
  | none => .error (.unknownTransform name registry.transformNames)

/-- Registers a plugin. -/
def addPlugin (registry : Registry σ) : Candidate (Plugin σ) → Except RegistrationFault (Registry σ)
  | .unfit shown => .error (.unfit .plugin shown)
  | .fit plugin =>
    if registry.pluginNames.contains plugin.name then .error (.duplicate .plugin plugin.name)
    else .ok { registry with plugins := registry.plugins ++ [plugin] }

/-- Registers a transform. -/
def addTransform (registry : Registry σ) : Candidate Transform → Except RegistrationFault (Registry σ)
  | .unfit shown => .error (.unfit .transform shown)
  | .fit transform =>
    if registry.transformNames.contains transform.name then
      .error (.duplicate .transform transform.name)
    else .ok { registry with transforms := registry.transforms ++ [transform] }

/-- Registers one thing after another up to the first that is refused: what is registered then, and why the
rest is not. -/
def addAll {α : Type} (add : Registry σ → α → Except RegistrationFault (Registry σ))
    (registry : Registry σ) : List α → Registry σ × Option RegistrationFault
  | [] => (registry, none)
  | item :: rest =>
    match add registry item with
    | .ok registry => addAll add registry rest
    | .error fault => (registry, some fault)

/-- Registers plugins up to the first that is refused. -/
def addPlugins (registry : Registry σ) (plugins : List (Candidate (Plugin σ))) :
    Registry σ × Option RegistrationFault :=
  addAll addPlugin registry plugins

/-- Registers transforms up to the first that is refused. -/
def addTransforms (registry : Registry σ) (transforms : List (Candidate Transform)) :
    Registry σ × Option RegistrationFault :=
  addAll addTransform registry transforms

/-- Takes all plugins and transforms out. -/
def clear (registry : Registry σ) : Registry σ :=
  { registry with plugins := [], transforms := [] }

end Registry

end Template
