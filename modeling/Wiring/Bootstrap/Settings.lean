import Wiring.Failure
import Wiring.SortedSet

/-!
# Settings and selection

Settings of a generation run with their validation, and the selector that skips denylisted
components.
-/

namespace Wiring

/-- Settings of a run. -/
structure Settings where
  /-- Simple name of the bootstrap class of every package. -/
  className : String
  /-- Names of components to skip. -/
  excludedNames : SortedSet String
  /-- Declared types of components to skip. -/
  excludedTypes : SortedSet String
  /-- Options handed to the image build. -/
  options : SortedMap String String
  /-- Whether event listeners are registered. -/
  eventListeners : Bool
  /-- Whether the context itself is set up. -/
  infrastructure : Bool
  deriving DecidableEq

namespace Settings

/-- Settings that write everything. -/
def standard : Settings :=
  ⟨"ContextBootstrapInitializer", .empty, .empty, .empty, true, true⟩

/-- Settings that write component registrations only. -/
def componentsOnly : Settings :=
  { standard with eventListeners := false, infrastructure := false }

/-- First fault of the settings. -/
def fault? (settings : Settings) : Option SettingsFault :=
  if !Text.isIdentifier settings.className.toList then some (.invalidClassName settings.className)
  else if settings.options.keys.any Text.isAllBlank then some .blankOptionKey
  else none

/-- First fault of the settings or of the package a run is asked for. -/
def faultFor? (settings : Settings) (package : String) : Option SettingsFault :=
  settings.fault? <|>
    if Text.isPackageName package.toList then none else some (.invalidPackage package)

/-- Without a fault, the class name is an identifier and the package has a package name. -/
theorem names_of_faultFor? {settings : Settings} {package : String}
    (valid : settings.faultFor? package = none) :
    Text.isIdentifier settings.className.toList = true ∧
      Text.isPackageName package.toList = true := by
  simp only [faultFor?, Option.orElse_eq_orElse, Option.orElse_eq_or, Option.or_eq_none_iff]
    at valid
  obtain ⟨no_fault, no_package_fault⟩ := valid
  constructor
  · unfold fault? at no_fault
    split at no_fault
    next => cases no_fault
    next named => simpa using named
  · split at no_package_fault
    next named => exact named
    next => cases no_package_fault

end Settings

/-- Selector that skips denylisted names and declared types. -/
structure Selector where
  /-- Names to skip. -/
  excludedNames : SortedSet String
  /-- Declared types to skip. -/
  excludedTypes : SortedSet String
  deriving DecidableEq

namespace Selector

/-- Selector that settings describe. -/
def ofSettings (settings : Settings) : Selector :=
  ⟨settings.excludedNames, settings.excludedTypes⟩

/-- Whether a component is registered; a component without a usable declared type is an error. -/
def select (selector : Selector) (name : String) (definition : Definition) :
    Except Failure Bool :=
  match definition.beanClass.filter fun type => !Text.isAllBlank type.text with
  | none => .error (.unresolvedType name)
  | some type =>
      .ok (decide (name ∉ selector.excludedNames) && decide (type.text ∉ selector.excludedTypes))

end Selector
end Wiring
