import Wiring.Proofs.Outcome
import Wiring.Proofs.StatementTexts

/-!
# Hosted code

Code is placed in the class of one package: in the entry method of the main class, or as the body of
a new method of another class that the entry method calls.  The other classes stay as they were.
-/

namespace Wiring

namespace Draft

/-- Whether code added to a draft stands in the class of a package: in the entry method of the main
class, or in a new method of another class that the entry method calls. -/
inductive Hosts (before after : Draft) (block : Block) : String → Prop
  | entry (body : after.body = before.body ++ block)
      (classes : ∀ package, after.classOf package = before.classOf package) :
      Hosts before after block before.package
  | helper {package : String} (method : Method) (call : Line) (away : package ≠ before.package)
      (holds : method.body = block)
      (added : (after.classOf package).methods = (before.classOf package).methods ++ [method])
      (body : after.body = before.body ++ [call])
      (calls : call.CallsMethod (after.classOf package).typeName method.name)
      (others : ∀ other, other ≠ package → after.classOf other = before.classOf other) :
      Hosts before after block package

@[simp]
theorem classOf_setClass_self (draft : Draft) (package : String) (cls : BootstrapClass) :
    (draft.setClass package cls).classOf package = cls := by
  by_cases home : package = draft.package
  · simp [setClass, classOf, home]
  · simp [setClass, classOf, home, SortedMap.get?_insert]

theorem classOf_setClass_of_ne {package other : String} (differs : other ≠ package) (draft : Draft)
    (cls : BootstrapClass) : (draft.setClass package cls).classOf other = draft.classOf other := by
  by_cases home : package = draft.package
  · simp [setClass, classOf, home, home ▸ differs]
  · simp [setClass, classOf, home, SortedMap.get?_insert, differs]

@[simp]
theorem append_classOf (draft : Draft) (block : Block) (package : String) :
    (draft.append block).classOf package = draft.classOf package := rfl

/-- Recorded executables stand in no class. -/
theorem Hosts.of_reflect {before after : Draft} {block : Block} {package : String}
    {executables : List Executable}
    (hosts : (before.reflect executables).Hosts after block package) :
    before.Hosts after block package := by
  cases hosts with
  | entry body classes => exact .entry body classes
  | helper method call away holds added body calls others =>
      exact .helper method call away holds added body calls others

end Draft

/-- Placed code is hosted by the class of the package for which it is placed. -/
theorem Component.hosts_place (component : Component) (draft : Draft) (package : String)
    (block : Block) : draft.Hosts (component.place draft package block) block package := by
  unfold place
  split
  next home =>
    rw [home]
    exact .entry rfl fun package => rfl
  next away =>
    let name := (draft.classOf package).freeName component.helperBase
    refine .helper (helperMethod name block)
      (Draft.helperStatement (draft.classOf package).typeName name) away rfl ?_ ?_ ?_
      fun other differs => ?_
    · simp only [Draft.append_classOf, Draft.classOf_setClass_self]
      rfl
    · simp only [Draft.setClass, if_neg away]
      rfl
    · rw [Draft.append_classOf, Draft.classOf_setClass_self]
      exact Line.callsMethod_helperStatement _ _
    · rw [Draft.append_classOf, Draft.classOf_setClass_of_ne differs]

end Wiring
