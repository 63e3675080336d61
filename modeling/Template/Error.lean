import Template.Json.Reader
import Template.Options
import Template.Text.Quoted
import Template.Token.Placeholder

/-!
# `Template.Error` — what can go wrong

Errors are kept as their causes and worded in one place. A `Cause` is why a single token has no value; a
`Failure` is why a run has no result, and most often it is the cause of one token together with the token
and the place in the document where it stands. A `RegistrationFault` is why something cannot be registered.

Callers that do not care about the cause itself may ask for its `Category`.

* `Cause`, `Failure`, `RegistrationFault`, each with `message`;
* `Category`, `Cause.categories`, `Failure.categories`, `RegistrationFault.categories`.
-/

namespace Template

/-- Why a token has no value. -/
inductive Cause where
  /-- The token is not well-formed. -/
  | malformed (fault : Malformed)
  /-- More tokens are nested in one another than the options admit. -/
  | tooDeep (depth limit : Nat)
  /-- The module is not registered. -/
  | unknownPlugin (name : String) (available : List String)
  /-- The transform is not registered. -/
  | unknownTransform (name : String) (available : List String)
  /-- The plugin rejects the action or its arguments. -/
  | rejected (module action reason : String)
  /-- The transform rejects the value. -/
  | inapplicable (transform reason : String)
  /-- A plugin or transform answers with something of a foreign type, which is no value. -/
  | foreign (source typeName : String)
  /-- A plugin refuses an argument in its own words. -/
  | badValue (text : String)
  /-- A date or a number is beyond what can be computed. What the system says of that depends on the computation. -/
  | outOfRange
deriving DecidableEq

/-- Names in a list, or a word for their absence. -/
def namesList (names : List String) : String :=
  let joined := ", ".intercalate names
  if joined.isEmpty then "none" else joined

/-- The wording of a cause. A sign stands for whatever the system says where something is out of range. -/
def Cause.message : Cause → String
  | .malformed fault => fault.message
  | .tooDeep depth limit => s!"Placeholder nesting depth {depth} exceeds maximum {limit}"
  | .unknownPlugin name available =>
    s!"Plugin '{name}' not found. Available plugins: {namesList available}"
  | .unknownTransform name available =>
    s!"Transform '{name}' not found. Available transforms: {namesList available}"
  | .rejected module action reason => s!"{module}:{action}: {reason}"
  | .inapplicable transform reason => s!"{transform}: {reason}"
  | .foreign source typeName => s!"'{source}' returned {typeName}, expected TypedValue"
  | .badValue text => text
  | .outOfRange => "<OutOfRange>"

/-- Something that is asked for and not there yet. -/
inductive Feature where
  /-- A format. -/
  | format (format : Format)
  /-- The comparison of two documents. -/
  | comparison
  /-- A feature described in a caller's own words. -/
  | stated (text : String)
deriving DecidableEq

/-- The wording for a missing feature. -/
def Feature.message : Feature → String
  | .format wanted => s!"{wanted.name.toUpper} format not yet implemented"
  | .comparison => "Compare mode not yet implemented"
  | .stated text => text

/-- Why a text is no document of its format. -/
inductive DocumentFault where
  /-- It is not JSON. -/
  | json (fault : Json.Fault)
  /-- A fault in a caller's own words. -/
  | stated (text : String)
deriving DecidableEq

/-- The wording of a fault. -/
def DocumentFault.message : DocumentFault → String
  | .json fault => s!"Invalid JSON document: {fault.message}"
  | .stated text => text

/-- Why a run has no result. -/
inductive Failure where
  /-- A token has no value. `path` is the place of its string in the document, if there is one. -/
  | unresolved (token : String) (path : Option String) (cause : Cause)
  /-- Substitution did not come to an end within the allowed number of passes. -/
  | unsettled (text : String) (limit : Int)
  /-- The template is no document of its format. -/
  | unreadable (fault : DocumentFault)
  /-- What is asked for is not there yet. -/
  | unsupported (feature : Feature)
  /-- An error of no narrower kind, in words of its own. -/
  | stated (text : String)
deriving DecidableEq

/-- The wording of a failure. -/
def Failure.message : Failure → String
  | .unresolved token path cause =>
    let place := match path with
      | some path => s!" at path \"{path}\""
      | none => ""
    s!"Failed to resolve placeholder \"{token}\"{place}: {cause.message}"
  | .unsettled text limit =>
    s!"Substitution did not settle after {limit} passes: {String.ofList (Text.quoted text.toList)}"
  | .unreadable fault => fault.message
  | .unsupported feature => feature.message
  | .stated text => text

/-- What can be registered. -/
inductive Role where
  | plugin
  | transform
deriving DecidableEq

/-- Why something cannot be registered. -/
inductive RegistrationFault where
  /-- The name is taken. -/
  | duplicate (role : Role) (name : String)
  /-- The thing, as it is shown, cannot play the role. -/
  | unfit (role : Role) (shown : String)
  /-- A fault in a caller's own words. -/
  | stated (text : String)
deriving DecidableEq

/-- The wording of a fault. -/
def RegistrationFault.message : RegistrationFault → String
  | .duplicate .plugin name => s!"Plugin '{name}' is already registered"
  | .duplicate .transform name => s!"Transform '{name}' is already registered"
  | .unfit .plugin shown => s!"{shown} does not implement PlaceholderPlugin"
  | .unfit .transform shown => s!"{shown} does not implement Transform"
  | .stated text => text

/-! ## Categories -/

/-- A kind of error that callers may want to treat alike. -/
inductive Category where
  /-- Every error of the engine. -/
  | engine
  /-- A token is not well-formed. -/
  | malformed
  /-- A value is not acceptable. -/
  | value
  /-- A name is not known. -/
  | lookup
  /-- Something is not there yet. -/
  | unsupported
deriving DecidableEq

/-- The wider categories of a cause. -/
def Cause.categories : Cause → List Category
  | .malformed _ => [.engine, .value]
  | .tooDeep _ _ => [.malformed, .engine, .value]
  | .unknownPlugin _ _ | .unknownTransform _ _ => [.lookup, .engine]
  | .rejected _ _ _ | .inapplicable _ _ => [.engine]
  | .foreign _ _ | .badValue _ | .outOfRange => []

/-- The wider categories of a failure. -/
def Failure.categories : Failure → List Category
  | .unresolved _ _ _ | .unsettled _ _ => [.engine]
  | .unreadable _ => [.engine, .value]
  | .unsupported _ => [.unsupported, .engine]
  | .stated _ => []

/-- The wider categories of a fault: a taken name is an error of the engine, but what cannot play its role
at all is a mistake of the program that offers it. -/
def RegistrationFault.categories : RegistrationFault → List Category
  | .duplicate _ _ | .stated _ => [.engine, .value]
  | .unfit _ _ => []

end Template
