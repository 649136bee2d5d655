import Mathlib.Data.List.TakeWhile
import Wiring.Proofs.MemberCalls
import Wiring.Proofs.MemberTables

/-!
# Reflection asked for by a run

The reflection section of a result is determined by the writers of the components, the triggered
hints and the event listeners.  `Generator.Requires` gives one reason after another why a run keeps
an executable; every reason is honoured and nothing else is kept.
-/

namespace Wiring

namespace Component

end Component

namespace Writer

/-- Executables that the code of a writer calls reflectively, in a run with a main class in a given
package. -/
def reflected (main : String) : Writer → List Executable
  | listener _ implementation => [.ofConstructor implementation []]
  | registration component =>
      (component.creator?.toList ++ component.injections.map (·.setter)).filter fun executable =>
        !component.types.isAccessible executable (component.targetPackage main)

theorem mem_reflected_registration {component : Component} {main : String}
    {executable : Executable} :
    executable ∈ (registration component).reflected main ↔
      (component.creator? = some executable ∨
          ∃ injection ∈ component.injections, injection.setter = executable) ∧
        ¬ component.types.isAccessible executable (component.targetPackage main) := by
  simp [reflected, or_and_right]

theorem mem_kept_plan_registration {component : Component} {types : TypeSystem}
    {executable : Executable} :
    executable ∈ (registration component).plan.kept types ↔
      ((component.creator? = some executable ∨
            ∃ injection ∈ component.injections, injection.setter = executable) ∧
          ¬ types.isPublic executable) ∨
        executable ∈ component.initMethods ∨ executable ∈ component.destroyMethods := by
  rw [Plan.mem_kept]
  simp [plan, Component.plan]

end Writer

namespace Generator

/-- Reasons for which a run keeps an executable for reflection. -/
inductive Requires (generator : Generator) (container : Container) (package : String) :
    Executable → Prop where
  /-- A creator that its registration cannot call directly. -/
  | creator {component : Component} {creator : Executable}
      (written : .registration component ∈ generator.writers container)
      (resolved : component.creator? = some creator)
      (unreachable :
        ¬ container.types.isAccessible creator (component.targetPackage package)) :
      Requires generator container package creator
  /-- A setter that its registration cannot call directly. -/
  | setter {component : Component} {injection : Injection}
      (written : .registration component ∈ generator.writers container)
      (resolved : injection ∈ component.injections)
      (unreachable :
        ¬ container.types.isAccessible injection.setter (component.targetPackage package)) :
      Requires generator container package injection.setter
  /-- A creator that is not public. -/
  | hiddenCreator {component : Component} {creator : Executable}
      (written : .registration component ∈ generator.writers container)
      (resolved : component.creator? = some creator)
      (hidden : ¬ container.types.isPublic creator) :
      Requires generator container package creator
  /-- A setter that is not public. -/
  | hiddenSetter {component : Component} {injection : Injection}
      (written : .registration component ∈ generator.writers container)
      (resolved : injection ∈ component.injections)
      (hidden : ¬ container.types.isPublic injection.setter) :
      Requires generator container package injection.setter
  /-- A method that the context calls after creation. -/
  | initMethod {component : Component} {method : Executable}
      (written : .registration component ∈ generator.writers container)
      (resolved : method ∈ component.initMethods) :
      Requires generator container package method
  /-- A method that the context calls before disposal. -/
  | destroyMethod {component : Component} {method : Executable}
      (written : .registration component ∈ generator.writers container)
      (resolved : method ∈ component.destroyMethods) :
      Requires generator container package method
  /-- The default constructor of a test execution listener. -/
  | testListener {name : String} {implementation : TypeName}
      (written : .listener name implementation ∈ generator.writers container) :
      Requires generator container package (.ofConstructor implementation [])
  /-- The method of an event listener. -/
  | eventListener {listener : EventListener}
      (enabled : generator.settings.eventListeners = true)
      (declared : listener ∈ container.metadata.eventListeners) :
      Requires generator container package listener.method
  /-- An executable that a triggered hint asks for. -/
  | hint {hint : Hint} {present : SortedSet TypeName} {executable : Executable}
      (offered : hint ∈ Hint.transactionManagement ++ generator.hints)
      (known : container.presentTypes = .ok present)
      (triggered : hint.isTriggeredBy present)
      (asked : hint.Asks executable.declaringType executable) :
      Requires generator container package executable

/-- A registration writer reads the types of the container. -/
theorem types_of_mem_writers {generator : Generator} {container : Container}
    {component : Component} (written : .registration component ∈ generator.writers container) :
    component.types = container.types := by
  obtain ⟨name, -, offered⟩ := List.mem_filterMap.mp written
  rw [Component.types, (component_of_writerOf? offered).1]

theorem mem_listeners {generator : Generator} {container : Container} {listener : EventListener} :
    listener ∈ generator.listeners container ↔
      generator.settings.eventListeners = true ∧ listener ∈ container.metadata.eventListeners := by
  unfold listeners
  split
  next enabled => simp [enabled]
  next disabled => simp [disabled]

/-- Whatever is required is left to reflection by a writer, asked for by a triggered hint or an
event listener method. -/
theorem Requires.source {generator : Generator} {container : Container} {package : String}
    {executable : Executable} (required : generator.Requires container package executable) :
    (∃ writer ∈ generator.writers container,
        executable ∈ writer.reflected package ∨
          executable ∈ writer.plan.kept container.types) ∨
      (∃ present, container.presentTypes = .ok present ∧
        ∃ hint ∈ Hint.transactionManagement ++ generator.hints,
          hint.isTriggeredBy present ∧ hint.Asks executable.declaringType executable) ∨
      ∃ listener ∈ generator.listeners container, listener.method = executable := by
  cases required with
  | creator written resolved unreachable =>
      refine .inl ⟨_, written, .inl ?_⟩
      rw [Writer.mem_reflected_registration, types_of_mem_writers written]
      exact ⟨.inl resolved, unreachable⟩
  | setter written resolved unreachable =>
      refine .inl ⟨_, written, .inl ?_⟩
      rw [Writer.mem_reflected_registration, types_of_mem_writers written]
      exact ⟨.inr ⟨_, resolved, rfl⟩, unreachable⟩
  | hiddenCreator written resolved hidden =>
      exact .inl ⟨_, written,
        .inr (Writer.mem_kept_plan_registration.mpr (.inl ⟨.inl resolved, hidden⟩))⟩
  | hiddenSetter written resolved hidden =>
      exact .inl ⟨_, written,
        .inr (Writer.mem_kept_plan_registration.mpr (.inl ⟨.inr ⟨_, resolved, rfl⟩, hidden⟩))⟩
  | initMethod written resolved =>
      exact .inl ⟨_, written,
        .inr (Writer.mem_kept_plan_registration.mpr (.inr (.inl resolved)))⟩
  | destroyMethod written resolved =>
      exact .inl ⟨_, written,
        .inr (Writer.mem_kept_plan_registration.mpr (.inr (.inr resolved)))⟩
  | testListener written =>
      exact .inl ⟨_, written, .inl (List.mem_singleton.mpr rfl)⟩
  | eventListener enabled declared =>
      exact .inr (.inr ⟨_, mem_listeners.mpr ⟨enabled, declared⟩, rfl⟩)
  | hint offered known triggered asked =>
      exact .inr (.inl ⟨_, known, _, offered, triggered, asked⟩)

end Generator
end Wiring
