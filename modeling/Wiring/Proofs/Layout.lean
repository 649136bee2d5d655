import Wiring.Proofs.FreeNames
import Wiring.Proofs.Outcome

/-!
# Layout of a run

The registrations of a run are placed one after another, each inline in the entry method or in a
helper method of the class of its package that the entry method calls.  `Draft.LaysOut` says where
every registration stands; adding one registration extends the layout by one placement.
-/

namespace Wiring

namespace BootstrapClass

/-- Helper class of a package with the given methods. -/
def ofMethods (className package : String) (methods : List Method) : BootstrapClass :=
  ⟨.qualify package className, false, methods, .ofList (methods.map (·.name))⟩

theorem addMethod_ofMethods (className package : String) (methods : List Method)
    (method : Method) :
    ((ofMethods className package methods).reserve method.name).addMethod method =
      ofMethods className package (methods ++ [method]) := by
  have names : ((SortedSet.ofList (methods.map (·.name))).insert method.name).insert method.name =
      .ofList ((methods ++ [method]).map (·.name)) := by
    apply SortedSet.ext
    intro name
    simp [or_comm]
  simp only [ofMethods, reserve, addMethod, names]

end BootstrapClass

/-- A registration with the name of its helper method, none when it stands inline. -/
structure Placement where
  /-- The registration. -/
  registration : Registration
  /-- Name of the helper method. -/
  helper : Option String
  deriving DecidableEq

namespace Placement

/-- Code that stands for a placement in the entry method. -/
def code (className : String) (placement : Placement) : Block :=
  match placement.helper with
  | none => placement.registration.block
  | some helper =>
      [Draft.helperStatement (.qualify placement.registration.package className) helper]

/-- Helper method of a placement, if it belongs to the class of a package. -/
def methodIn? (package : String) (placement : Placement) : Option Method :=
  if placement.registration.package = package then
    placement.helper.map (Component.helperMethod · placement.registration.block)
  else none

theorem methodIn?_eq_some_iff {package : String} {placement : Placement} {method : Method} :
    placement.methodIn? package = some method ↔
      placement.registration.package = package ∧
        ∃ helper, placement.helper = some helper ∧
          Component.helperMethod helper placement.registration.block = method := by
  unfold methodIn?
  split
  next same => simp [same]
  next differs => simp [differs]

/-- Helper methods that placements put into the class of a package. -/
def methodsIn (package : String) (placements : List Placement) : List Method :=
  placements.filterMap (methodIn? package)

/-- Class of a package with the helper methods of placements, unless there are none. -/
def helperClass? (className package : String) (placements : List Placement) :
    Option BootstrapClass :=
  if methodsIn package placements = [] then none
  else some (.ofMethods className package (methodsIn package placements))

theorem getD_helperClass? (className package : String) (placements : List Placement) :
    (helperClass? className package placements).getD (.create package className false) =
      .ofMethods className package (methodsIn package placements) := by
  unfold helperClass?
  split
  next empty => rw [empty]; rfl
  next => rfl

theorem methodsIn_inline (package : String) (placements : List Placement)
    (registration : Registration) :
    methodsIn package (placements ++ [⟨registration, none⟩]) = methodsIn package placements := by
  simp [methodsIn, methodIn?]

theorem methodsIn_here (placements : List Placement) (registration : Registration)
    (helper : String) :
    methodsIn registration.package (placements ++ [⟨registration, some helper⟩]) =
      methodsIn registration.package placements ++
        [Component.helperMethod helper registration.block] := by
  simp [methodsIn, methodIn?]

theorem methodsIn_elsewhere {package : String} {registration : Registration}
    (differs : package ≠ registration.package) (placements : List Placement)
    (helper : Option String) :
    methodsIn package (placements ++ [⟨registration, helper⟩]) = methodsIn package placements := by
  cases helper with
  | none => exact methodsIn_inline ..
  | some helper => simp [methodsIn, methodIn?, differs.symm]

end Placement

/-- Where the registrations of a run stand, counted from a start without helper classes. -/
structure Draft.LaysOut (draft start : Draft) (placements : List Placement) : Prop where
  /-- The main package stays. -/
  package_eq : draft.package = start.package
  /-- The class name stays. -/
  className_eq : draft.className = start.className
  /-- The main class has no method of a registration. -/
  main_eq : draft.main = start.main
  /-- The body holds one segment per placement, in order. -/
  body_eq : draft.body = start.body ++ placements.flatMap (Placement.code start.className)
  /-- Every helper class holds the helper methods of its package, in order. -/
  helpers_eq : ∀ package,
    draft.helpers.get? package = Placement.helperClass? start.className package placements
  /-- Registrations of the main package stand inline, and only they. -/
  inline_iff : ∀ placement ∈ placements,
    placement.helper = none ↔ placement.registration.package = start.package
  /-- Helper methods of one package have different names. -/
  names_distinct : ∀ package, ((Placement.methodsIn package placements).map Method.name).Nodup
  /-- Helper names are made from the bases of their registrations. -/
  names_derived : ∀ placement ∈ placements, ∀ helper, placement.helper = some helper →
    ∃ number, helper = BootstrapClass.candidate placement.registration.helperBase number
  /-- The registry has recorded what the registrations ask for. -/
  registry_eq :
    draft.registry = start.registry.reflect (placements.flatMap (·.registration.recorded))

theorem Reachability.reflect_append (registry : Reachability) (first second : List Executable) :
    registry.reflect (first ++ second) = (registry.reflect first).reflect second := by
  simp [reflect, MemberTable.addExecutables]

namespace Draft

section Steps

variable {draft : Draft} {registration : Registration}

theorem helperFor_of_home (home : registration.package = draft.package) :
    draft.helperFor registration = none := by
  rw [helperFor, if_pos home]

theorem helperFor_of_away (away : registration.package ≠ draft.package) :
    draft.helperFor registration =
      some ((draft.classOf registration.package).freeName registration.helperBase) := by
  rw [helperFor, if_neg away]

theorem add_of_home (home : registration.package = draft.package) :
    draft.add registration =
      (draft.append registration.block).reflect registration.recorded := by
  rw [add, helperFor_of_home home]
  rfl

/-- A registration of another package becomes a helper method and a call of it. -/
theorem add_of_away {helper : String} (away : registration.package ≠ draft.package)
    (named : draft.helperFor registration = some helper) :
    draft.add registration =
      { draft with
        helpers := draft.helpers.insert registration.package
          (((draft.classOf registration.package).reserve helper).addMethod
            (Component.helperMethod helper registration.block))
        body := draft.body ++ [helperStatement (draft.classOf registration.package).typeName helper]
        registry := draft.registry.reflect registration.recorded } := by
  rw [add, named, addCode, setClass, if_neg away]
  rfl

end Steps

theorem LaysOut.start {start : Draft} (bare : start.helpers = .empty) : start.LaysOut start [] where
  package_eq := rfl
  className_eq := rfl
  main_eq := rfl
  body_eq := by simp
  helpers_eq package := by simp [bare, Placement.helperClass?, Placement.methodsIn]
  inline_iff := by simp
  names_distinct package := by simp [Placement.methodsIn]
  names_derived := by simp
  registry_eq := rfl

/-- In a layout, the class of a helper package holds the helper methods placed so far. -/
theorem LaysOut.classOf {draft start : Draft} {placements : List Placement}
    (layout : draft.LaysOut start placements) {package : String} (other : package ≠ start.package) :
    draft.classOf package =
      .ofMethods start.className package (Placement.methodsIn package placements) := by
  rw [Draft.classOf, if_neg (by rw [layout.package_eq]; exact other), layout.helpers_eq,
    layout.className_eq, Placement.getD_helperClass?]

/-- Placing one more registration inline. -/
theorem LaysOut.add_inline {draft start : Draft} {placements : List Placement}
    (layout : draft.LaysOut start placements) {registration : Registration}
    (home : registration.package = start.package) :
    (draft.add registration).LaysOut start
      (placements ++ [⟨registration, draft.helperFor registration⟩]) := by
  have here : registration.package = draft.package := home.trans layout.package_eq.symm
  rw [add_of_home here, helperFor_of_home here]
  constructor
  · exact layout.package_eq
  · exact layout.className_eq
  · exact layout.main_eq
  · simp [append, reflect, layout.body_eq, Placement.code]
  · intro package
    rw [Placement.helperClass?, Placement.methodsIn_inline]
    exact layout.helpers_eq package
  · intro placement mem
    rcases List.mem_append.mp mem with mem | mem
    · exact layout.inline_iff placement mem
    · obtain rfl := List.mem_singleton.mp mem
      simp [home]
  · intro package
    rw [Placement.methodsIn_inline]
    exact layout.names_distinct package
  · intro placement mem helper named
    rcases List.mem_append.mp mem with mem | mem
    · exact layout.names_derived placement mem helper named
    · obtain rfl := List.mem_singleton.mp mem
      cases named
  · simp [append, reflect, layout.registry_eq, Reachability.reflect_append]

/-- A free name of a helper class differs from the names of the methods placed there. -/
theorem LaysOut.nodup_names {draft start : Draft} {placements : List Placement}
    (layout : draft.LaysOut start placements) {package : String} (other : package ≠ start.package)
    (base : String) (block : Block) :
    ((Placement.methodsIn package placements ++
      [Component.helperMethod ((draft.classOf package).freeName base) block]).map
        Method.name).Nodup := by
  have free := BootstrapClass.freeName_not_mem (draft.classOf package) base
  have reserved : (draft.classOf package).reserved =
      .ofList ((Placement.methodsIn package placements).map Method.name) := by
    rw [layout.classOf other]
    rfl
  rw [reserved, SortedSet.mem_ofList] at free
  rw [List.map_append, List.nodup_append]
  refine ⟨layout.names_distinct package, by simp, ?_⟩
  intro name mem last last_mem reused
  obtain rfl := List.mem_singleton.mp last_mem
  subst reused
  exact free mem

/-- Placing one more registration in a helper method. -/
theorem LaysOut.add_helper {draft start : Draft} {placements : List Placement}
    (layout : draft.LaysOut start placements) {registration : Registration}
    (other : registration.package ≠ start.package) :
    (draft.add registration).LaysOut start
      (placements ++ [⟨registration, draft.helperFor registration⟩]) := by
  have away : registration.package ≠ draft.package := by
    rw [layout.package_eq]
    exact other
  have named := helperFor_of_away away
  have before := layout.classOf other
  have distinct := layout.nodup_names other registration.helperBase registration.block
  rw [add_of_away away named, named]
  generalize named_eq : (draft.classOf registration.package).freeName registration.helperBase =
    helper at distinct
  constructor
  · exact layout.package_eq
  · exact layout.className_eq
  · exact layout.main_eq
  · simp [layout.body_eq, Placement.code, before, BootstrapClass.ofMethods]
  · intro package
    rw [SortedMap.get?_insert]
    split
    next same =>
      have after := BootstrapClass.addMethod_ofMethods start.className registration.package
        (Placement.methodsIn registration.package placements)
        (Component.helperMethod helper registration.block)
      rw [same, before, Placement.helperClass?, Placement.methodsIn_here, if_neg (by simp)]
      exact congrArg some after
    next differs =>
      rw [layout.helpers_eq, Placement.helperClass?, Placement.helperClass?,
        Placement.methodsIn_elsewhere differs]
  · intro placement mem
    rcases List.mem_append.mp mem with mem | mem
    · exact layout.inline_iff placement mem
    · obtain rfl := List.mem_singleton.mp mem
      simp [other]
  · intro package
    by_cases same : package = registration.package
    · rw [same, Placement.methodsIn_here]
      exact distinct
    · rw [Placement.methodsIn_elsewhere same]
      exact layout.names_distinct package
  · intro placement mem found found_eq
    rcases List.mem_append.mp mem with mem | mem
    · exact layout.names_derived placement mem found found_eq
    · obtain rfl := List.mem_singleton.mp mem
      obtain rfl := Option.some.inj found_eq
      obtain ⟨number, -, -, numbered⟩ := BootstrapClass.exists_isFirstFree
        (draft.classOf registration.package).reserved registration.helperBase 0
      exact ⟨number, named_eq.symm.trans numbered⟩
  · simp [layout.registry_eq, Reachability.reflect_append]

/-- Adding a registration extends a layout by one placement. -/
theorem LaysOut.add {draft start : Draft} {placements : List Placement}
    (layout : draft.LaysOut start placements) (registration : Registration) :
    (draft.add registration).LaysOut start
      (placements ++ [⟨registration, draft.helperFor registration⟩]) := by
  by_cases home : registration.package = start.package
  · exact layout.add_inline home
  · exact layout.add_helper home

end Draft
end Wiring
