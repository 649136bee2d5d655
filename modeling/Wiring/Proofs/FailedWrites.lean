import Wiring.Proofs.HonouredValues
import Wiring.Proofs.Recordings

/-!
# Failed writes

A write stops at the first problem of resolution, at the first argument whose literal does not
convert, or at the first such property.  By then members that its code would have called
reflectively may be recorded for reflection; `Component.StopsAfter` says which ones the write has
come to, and everything else in the draft is as it was before.
-/

namespace Wiring

/-! ### Recorded executables -/

/-- Whether a table is an earlier one with some executables added under the types that declare
them. -/
structure MemberTable.AddsExecutables (before after : MemberTable)
    (executables : List Executable) : Prop where
  /-- The executables are listed under the types that declare them. -/
  listed : ∀ name executable, after.Lists name executable ↔ before.Lists name executable ∨
    name = executable.declaringType ∧ executable ∈ executables
  /-- No type is present beside those that declare one of the executables. -/
  present : ∀ name, (after.get? name).isSome ↔ (before.get? name).isSome ∨
    ∃ executable ∈ executables, name = executable.declaringType
  /-- Access stays as it was. -/
  access : ∀ name,
    ((after.get? name).getD .empty).access = ((before.get? name).getD .empty).access
  /-- Fields stay as they were. -/
  fields : ∀ name,
    ((after.get? name).getD .empty).fields = ((before.get? name).getD .empty).fields

theorem MemberTable.addsExecutables (table : MemberTable) (executables : List Executable) :
    table.AddsExecutables (table.addExecutables executables) executables where
  listed name executable := lists_addExecutables
  present name := by
    rw [addExecutables_eq_requireAll, isSome_get?_requireAll]
    simp [additionOf]
  access name := by
    apply SortedSet.ext
    intro access
    rw [addExecutables_eq_requireAll, getD_requireAll_iff (access ∈ ·.access)
      fun left right => SortedSet.mem_union]
    simp [additionOf, TypeEntry.ofLists]
  fields name := by
    apply SortedSet.ext
    intro field
    rw [addExecutables_eq_requireAll, getD_requireAll_iff (field ∈ ·.fields)
      fun left right => SortedSet.mem_union]
    simp [additionOf, TypeEntry.ofLists]

/-- Whether a draft is an earlier one with some executables recorded for reflection. -/
structure Draft.RecordsOnly (before after : Draft) (executables : List Executable) : Prop where
  /-- The package of the main class stays as it was. -/
  package : after.package = before.package
  /-- The name of the classes stays as it was. -/
  className : after.className = before.className
  /-- The entry method gets no code. -/
  body : after.body = before.body
  /-- The main class keeps its methods and reserved names. -/
  main : after.main = before.main
  /-- There are the same helper classes, and they keep their methods and reserved names. -/
  helpers : after.helpers = before.helpers
  /-- The reflection section gets the executables. -/
  reflection : before.registry.reflection.AddsExecutables after.registry.reflection executables
  /-- The section for native code stays as it was. -/
  jni : after.registry.jni = before.registry.jni
  /-- Resources stay as they were. -/
  resources : after.registry.resources = before.registry.resources
  /-- Proxies stay as they were. -/
  proxies : after.registry.proxies = before.registry.proxies
  /-- Initialization phases stay as they were. -/
  phases : after.registry.phases = before.registry.phases
  /-- Serializable types stay as they were. -/
  serialization : after.registry.serialization = before.registry.serialization
  /-- Options stay as they were. -/
  options : after.registry.options = before.registry.options

theorem Draft.recordsOnly_reflect (draft : Draft) (executables : List Executable) :
    draft.RecordsOnly (draft.reflect executables) executables where
  package := rfl
  className := rfl
  body := rfl
  main := rfl
  helpers := rfl
  reflection := MemberTable.addsExecutables _ _
  jni := rfl
  resources := rfl
  proxies := rfl
  phases := rfl
  serialization := rfl
  options := rfl

namespace Component

/-- Whether an executable creates the instances of a component or sets one of its properties. -/
def Owns (component : Component) (executable : Executable) : Prop :=
  component.creator? = some executable ∨
    ∃ property ∈ component.definition.properties, component.setter? property = some executable

/-- Problems at which the write of a component stops, with the members that it has come to. -/
inductive StopsAfter (component : Component) : WriteProblem → List Executable → Prop
  /-- Something is unresolved, and the first such problem is reported. -/
  | resolution {problem : WriteProblem} {later : List WriteProblem}
      (first : component.problems = problem :: later) : StopsAfter component problem []
  /-- An explicit argument is the first that does not convert; the creator is not called. -/
  | argument {creator : Executable} {position : Nat} {parameter : TypeName} {text : String}
      {cause : InvalidLiteral} (resolved : component.creator? = some creator)
      (no_problem : component.problems = [])
      (taken : creator.parameters[position]? = some parameter)
      (explicit : component.definition.arguments.get? position = some (.literal text))
      (refused : Literal.ofText component.types text parameter = .error cause)
      (earlier : ∀ position' < position, ∀ parameter value,
        creator.parameters[position']? = some parameter →
          component.definition.arguments.get? position' = some value →
            component.Converts parameter value) :
      StopsAfter component (.invalidArgument position cause) []
  /-- A property is the first that does not convert; the creator and the setters before it are
  called. -/
  | property {creator : Executable} {before : List Injection} {injection : Injection}
      {after : List Injection} {text : String} {cause : InvalidLiteral}
      (resolved : component.creator? = some creator) (no_problem : component.problems = [])
      (arguments : ∀ (position : Nat) (parameter : TypeName) (value : Value),
        creator.parameters[position]? = some parameter →
          component.definition.arguments.get? position = some value →
            component.Converts parameter value)
      (declared : component.injections = before ++ injection :: after)
      (explicit : injection.property.value = .literal text)
      (refused : Literal.ofText component.types text (setterTarget injection.setter) =
        .error cause)
      (earlier : ∀ injection ∈ before,
        component.Converts (setterTarget injection.setter) injection.property.value) :
      StopsAfter component (.invalidProperty injection.property.name cause)
        (creator :: before.map (·.setter))

variable {component : Component} {creator executable : Executable} {problem : WriteProblem}
  {package : String}

theorem setter?_of_mem_injections {injection : Injection}
    (mem : injection ∈ component.injections) :
    injection.property ∈ component.definition.properties ∧
      component.setter? injection.property = some injection.setter := by
  obtain ⟨property, declared, made⟩ := List.mem_filterMap.mp mem
  obtain ⟨setter, found, rfl⟩ := Option.map_eq_some_iff.mp made
  exact ⟨declared, found⟩

/-- A write comes to no members of others. -/
theorem StopsAfter.owns {reached : List Executable} (stops : component.StopsAfter problem reached)
    (mem : executable ∈ reached) : component.Owns executable := by
  cases stops with
  | resolution => cases mem
  | argument => cases mem
  | property resolved _ _ declared =>
      rcases List.mem_cons.mp mem with rfl | mem
      · exact .inl resolved
      · obtain ⟨injection, listed, rfl⟩ := List.mem_map.mp mem
        have injected : injection ∈ component.injections := by
          rw [declared]
          exact List.mem_append_left _ listed
        exact .inr ⟨injection.property, setter?_of_mem_injections injected⟩

/-! ### First failures -/

/-- Only literals fail to convert. -/
theorem valueCode_eq_error {target : TypeName} {value : Value} {cause : InvalidLiteral}
    (failed : component.valueCode target value = .error cause) :
    ∃ text, value = .literal text ∧ Literal.ofText component.types text target = .error cause := by
  cases value with
  | reference other => cases failed
  | literal text => exact ⟨text, rfl, failed⟩

theorem exists_injectionValue_iff {injection : Injection} :
    (∃ code, component.injectionValue injection = .ok code) ↔
      component.Converts (setterTarget injection.setter) injection.property.value := by
  simp only [injectionValue, Except.mapError_eq_ok, valueCode_eq_ok_iff, exists_isValue_iff]

/-- Arguments fail at the first one that does not convert. -/
theorem stopsAfter_of_argumentCodes (resolved : component.creator? = some creator)
    (no_problem : component.problems = [])
    (failed : component.argumentCodes creator = .error problem) :
    component.StopsAfter problem [] := by
  obtain ⟨before, ⟨parameter, position⟩, after, split, earlier, failed⟩ :=
    Except.mapM_eq_error_iff.mp failed
  obtain ⟨first, second, parameters, rfl, rest⟩ := List.zipIdx_eq_append_iff.mp split
  obtain ⟨_, others, rfl, same, -⟩ := List.zipIdx_eq_cons_iff.mp rest.symm
  simp only [Nat.zero_add, Prod.mk.injEq] at same
  obtain ⟨rfl, rfl⟩ := same
  simp only [argumentCode] at failed
  split at failed
  next value explicit =>
    obtain ⟨cause, unconverted, rfl⟩ := Except.mapError_eq_error.mp failed
    obtain ⟨text, rfl, refused⟩ := valueCode_eq_error unconverted
    refine .argument resolved no_problem (by simp [parameters]) explicit refused ?_
    intro position here parameter value taken given
    rw [parameters, List.getElem?_append_left here] at taken
    have listed : (parameter, position) ∈ first.zipIdx := List.mem_zipIdx_iff_getElem?.mpr taken
    exact exists_argumentCode_iff.mp (earlier _ listed) value given
  next => cases failed

/-- Properties fail at the first one that does not convert. -/
theorem stopsAfter_of_injections (resolved : component.creator? = some creator)
    (no_problem : component.problems = []) {arguments : List Fragment}
    (argued : component.argumentCodes creator = .ok arguments)
    (failed : component.injections.mapM (component.injectionCode package) = .error problem) :
    component.StopsAfter problem
      (creator :: (component.injections.takeWhile fun injection =>
        (component.injectionValue injection).isOk).map (·.setter)) := by
  obtain ⟨before, injection, after, declared, earlier, failed⟩ :=
    Except.mapM_eq_error_iff.mp failed
  have unvalued : component.injectionValue injection = .error problem :=
    Except.map_eq_error.mp failed
  have valued : ∀ injection ∈ before, ∃ code, component.injectionValue injection = .ok code := by
    intro injection mem
    obtain ⟨line, coded⟩ := earlier injection mem
    obtain ⟨code, found, -⟩ := Except.map_eq_ok.mp coded
    exact ⟨code, found⟩
  have reached : component.injections.takeWhile
      (fun injection => (component.injectionValue injection).isOk) = before := by
    rw [declared, List.takeWhile_append_of_pos, List.takeWhile_cons_of_neg, List.append_nil]
    · rw [unvalued]
      exact Bool.false_ne_true
    · intro injection mem
      obtain ⟨code, found⟩ := valued injection mem
      rw [found]
      rfl
  obtain ⟨cause, unconverted, rfl⟩ := Except.mapError_eq_error.mp unvalued
  obtain ⟨text, explicit, refused⟩ := valueCode_eq_error unconverted
  rw [reached]
  exact .property resolved no_problem (exists_argumentCodes_iff.mp ⟨arguments, argued⟩) declared
    explicit refused fun injection mem => exists_injectionValue_iff.mp (valued injection mem)

/-- A registration that cannot be made leaves its hidden members up to the failure recorded. -/
theorem exists_stopsAfter_of_registration (resolved : component.creator? = some creator)
    (no_problem : component.problems = [])
    (failed : component.registration package creator = .error problem) :
    ∃ reached, component.StopsAfter problem reached ∧
      component.recordedMembers package creator =
        reached.filter fun executable => !component.types.isAccessible executable package := by
  simp only [registration, Except.bind_eq_error, pure, Except.pure, reduceCtorEq, and_false,
    exists_false, or_false] at failed
  rcases failed with failed | ⟨code, created, failed⟩
  · have unargued : component.argumentCodes creator = .error problem :=
      Except.map_eq_error.mp failed
    refine ⟨[], stopsAfter_of_argumentCodes resolved no_problem unargued, ?_⟩
    simp [recordedMembers, unargued, Except.isOk, Except.toBool]
  · obtain ⟨arguments, argued, -⟩ := Except.map_eq_ok.mp created
    refine ⟨_, stopsAfter_of_injections resolved no_problem argued failed, ?_⟩
    simp [recordedMembers, argued, Except.isOk, Except.toBool]

/-- A failed write changes nothing but the reflection section, in which it leaves the creator and
the setters that it has come to, as far as code of the target package cannot call them. -/
theorem recordsOnly_of_write_failed {draft : Draft}
    (failed : (component.write draft).problem? = some problem) :
    ∃ reached, component.StopsAfter problem reached ∧
      (∀ executable ∈ reached, component.Owns executable) ∧
      draft.RecordsOnly (component.write draft).draft
        (reached.filter fun executable =>
          !component.types.isAccessible executable (component.targetPackage draft.package)) := by
  suffices stopped : ∃ reached, component.StopsAfter problem reached ∧
      (component.write draft).draft = draft.reflect (reached.filter fun executable =>
        !component.types.isAccessible executable (component.targetPackage draft.package)) by
    obtain ⟨reached, stops, same⟩ := stopped
    refine ⟨reached, stops, fun executable mem => stops.owns mem, ?_⟩
    rw [same]
    exact draft.recordsOnly_reflect _
  unfold write at failed ⊢
  split at failed
  next creator resolved no_problem =>
    simp only [writeWith] at failed ⊢
    split at failed
    next block coded => cases failed
    next cause coded =>
      cases failed
      obtain ⟨reached, stops, recorded⟩ :=
        exists_stopsAfter_of_registration resolved no_problem coded
      exact ⟨reached, stops, by rw [recorded]⟩
  next unresolved no_problem =>
    -- without a creator there is a problem
    simp [problems, creatorProblem?, unresolved] at no_problem
  next first later listed =>
    cases failed
    exact ⟨[], .resolution listed, rfl⟩

end Component

namespace Sample

/-- Component with a value that is no number, declared after values that convert. -/
def misconfigured : Component :=
  { connector with
    definition :=
      { connector.definition with
        properties := connector.definition.properties ++ [⟨"limit", .literal "many"⟩] } }

end Sample

theorem Component.recordsOnly_of_write_failed_sample :
    let written := Sample.misconfigured.write (.start "com.app" "Boot" .empty)
    let problem : WriteProblem := .invalidProperty "limit" ⟨"many", ⟨"int"⟩⟩
    written.problem? = some problem ∧
      ∃ reached, Sample.misconfigured.StopsAfter problem reached ∧
        (∀ executable ∈ reached, Sample.misconfigured.Owns executable) ∧
        (Draft.start "com.app" "Boot" .empty).RecordsOnly written.draft
          (reached.filter fun executable =>
            !Sample.misconfigured.types.isAccessible executable "com.app") := by
  have failed : (Sample.misconfigured.write (.start "com.app" "Boot" .empty)).problem? =
      some (.invalidProperty "limit" ⟨"many", ⟨"int"⟩⟩) := by
    decide +kernel
  exact ⟨failed, Component.recordsOnly_of_write_failed failed⟩

end Wiring
