import Wiring.Container
import Wiring.Registration.Literal

/-!
# Failures

The causes that stop a generation run, and the text of each.
-/

namespace Wiring

/-- Faults of a configuration. -/
inductive SettingsFault where
  /-- The name of bootstrap classes is no identifier. -/
  | invalidClassName (name : String)
  /-- The key of an option is blank. -/
  | blankOptionKey
  /-- The requested package name is malformed. -/
  | invalidPackage (name : String)
  deriving DecidableEq, Repr

/-- Text of a fault. -/
def SettingsFault.message : SettingsFault → String
  | invalidClassName name => "Bootstrap class name '" ++ name ++ "' is not a valid identifier"
  | blankOptionKey => "Option keys must not be empty"
  | invalidPackage name => "Invalid package name '" ++ name ++ "'"

/-- Reasons why a registration cannot be written. -/
inductive WriteProblem where
  /-- No constructor of the type stands out. -/
  | noUniqueConstructor (type : TypeName)
  /-- An explicit argument lies beyond the parameters. -/
  | argumentOutOfRange (index : Nat) (creator : Executable)
  /-- A property has no setter. -/
  | noSetter (property : String) (type : TypeName)
  /-- The method to call after creation is unknown. -/
  | noInitMethod (method : String) (type : TypeName)
  /-- The method to call before disposal is unknown. -/
  | noDestroyMethod (method : String) (type : TypeName)
  /-- An explicit argument is no literal of its parameter type. -/
  | invalidArgument (index : Nat) (cause : InvalidLiteral)
  /-- A property value is no literal of the property type. -/
  | invalidProperty (property : String) (cause : InvalidLiteral)
  deriving DecidableEq, Repr

/-- Text of a write problem. -/
def WriteProblem.message : WriteProblem → String
  | noUniqueConstructor type => "no unique constructor found on " ++ type.text
  | argumentOutOfRange index creator =>
      "argument index " ++ toString index ++ " is out of range for " ++ creator.signature
  | noSetter property type =>
      "no setter found for property '" ++ property ++ "' on " ++ type.text
  | noInitMethod method type => "init method '" ++ method ++ "' not found on " ++ type.text
  | noDestroyMethod method type => "destroy method '" ++ method ++ "' not found on " ++ type.text
  | invalidArgument index cause => "argument " ++ toString index ++ ": " ++ cause.message
  | invalidProperty property cause => "property '" ++ property ++ "': " ++ cause.message

/-- Causes that stop a run. -/
inductive Failure where
  /-- A component has no usable declared type. -/
  | unresolvedType (component : String)
  /-- A registration cannot be written. -/
  | writeFailed (component : String) (problem : WriteProblem)
  /-- The container has no merged definition of a name. -/
  | container (cause : ContainerError)
  /-- The configuration is faulty. -/
  | settings (fault : SettingsFault)
  deriving DecidableEq, Repr

/-- Text of a failure. -/
def Failure.message : Failure → String
  | unresolvedType component =>
      "Invalid definition for component '" ++ component ++ "': no resolvable component type"
  | writeFailed component problem =>
      "Failed to write registration for component '" ++ component ++ "': " ++ problem.message
  | container cause => "Container error: " ++ cause.message
  | settings fault => "Configuration error: " ++ fault.message

end Wiring
