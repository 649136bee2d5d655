import Mathlib.Data.List.Nodup
import Wiring.Catalog
import Wiring.Proofs.EntrySections
import Wiring.Proofs.HelperCalls

/-!
# The entry method of a run

The entry method holds one segment per written component, in the order of the container, between the
infrastructure section and the event listener section.  A segment is the whole registration or the
call of a helper method that holds it, and every helper method is called once.
-/

namespace Wiring

namespace Placement

/-- Segment of the entry method for a placement: the registration itself, or one statement that
calls the helper method that holds it. -/
inductive Segment (className : String) (placement : Placement) : Block → Prop
  | inline (inline : placement.helper = none) :
      Segment className placement placement.registration.block
  | delegated {helper : String} {call : Line} (named : placement.helper = some helper)
      (calls : call.CallsMethod (.qualify placement.registration.package className) helper) :
      Segment className placement [call]

theorem segment_code (className : String) (placement : Placement) :
    placement.Segment className (placement.code className) := by
  unfold code
  split
  next inline => exact .inline inline
  next helper named => exact .delegated named (Line.callsMethod_helperStatement _ helper)

theorem forall₂_segment_code (className : String) (placements : List Placement) :
    List.Forall₂ (Segment className) placements (placements.map (code className)) :=
  List.forall₂_map_right_iff.mpr
    (List.forall₂_same.mpr fun placement _ => placement.segment_code className)

end Placement

namespace Generator

/-- Whether a block is the body of the entry method: the infrastructure section where it is asked
for, one segment per placement, and the event listener section where it is asked for. -/
inductive EntryBody (generator : Generator) (container : Container)
    (placements : List Placement) : Block → Prop
  | sections {opening closing : Block} {segments : List Block}
      (infrastructure : if generator.settings.infrastructure then container.metadata.SetsUp opening
        else opening = [])
      (registrations :
        List.Forall₂ (Placement.Segment generator.settings.className) placements segments)
      (listeners :
        if generator.settings.eventListeners ∧ container.metadata.eventListeners ≠ [] then
          EventListener.Announces container.metadata.eventListeners closing
        else closing = []) :
      EntryBody generator container placements (opening ++ segments.flatten ++ closing)

/-- How the entry method and the helper classes of a result arrange the written components. -/
structure Arranges (generator : Generator) (container : Container) (package : String)
    (result : Progress) (placements : List Placement) : Prop where
  /-- Every written component has one placement of its registration, in container order. -/
  registers : List.Forall₂ (fun writer placement => placement.Registers package writer)
    (generator.writers container) placements
  /-- The written components are counted. -/
  counted : result.statistics.written = placements.length
  /-- The main class has the entry method alone, which holds one segment per placement. -/
  entry : ∃ method, result.draft.main.methods = [method] ∧ method.name = "initialize" ∧
    generator.EntryBody container placements method.body
  /-- A test execution listener is added by a statement of the entry method. -/
  listener : ∀ name implementation placement,
    (Writer.listener name implementation, placement) ∈
        (generator.writers container).zip placements →
      placement.helper = none ∧
        ∃ line, placement.registration.block = [line] ∧ line.AddsListener implementation
  /-- A helper method that a segment calls holds the registration of the component. -/
  held : ∀ placement ∈ placements, ∀ helper, placement.helper = some helper →
    ∃ cls, result.draft.helpers.get? placement.registration.package = some cls ∧
      ∃ method ∈ cls.methods,
        method.name = helper ∧ method.body = placement.registration.block
  /-- A helper class belongs to another package, bears the class name there and is not empty. -/
  helper_class : ∀ other cls, result.draft.helpers.get? other = some cls →
    other ≠ package ∧ cls.typeName = .qualify other generator.settings.className ∧
      cls.methods ≠ []
  /-- Methods of one helper class have different names. -/
  names_distinct : ∀ other cls, result.draft.helpers.get? other = some cls →
    (cls.methods.map Method.name).Nodup
  /-- Every helper method holds the registration of a component that it is placed for. -/
  owned : ∀ other cls, result.draft.helpers.get? other = some cls → ∀ method ∈ cls.methods,
    ∃ placement ∈ placements, placement.IsHelper other method.name ∧
      method.body = placement.registration.block
  /-- The entry method calls every helper method exactly once. -/
  called_once : ∀ other cls, result.draft.helpers.get? other = some cls → ∀ method ∈ cls.methods,
    Block.CallsOnce (result.draft.main.methods.flatMap Method.body) cls.typeName method.name

namespace Produces

variable {generator : Generator} {container : Container} {package : String} {result : Progress}
  {outcomes : List Outcome} {placements : List Placement}

theorem opening_isOrdinary (generator : Generator) (container : Container) :
    (generator.opening container).IsOrdinary := by
  unfold opening
  split
  · exact container.metadata.isOrdinary_infrastructureSection
  · exact Block.isOrdinary_nil

theorem mem_helpers (run : generator.Produces container package result outcomes placements)
    {other : String} {cls : BootstrapClass} (stored : result.draft.helpers.get? other = some cls) :
    Placement.methodsIn other placements ≠ [] ∧
      cls = .ofMethods generator.settings.className other
        (Placement.methodsIn other placements) := by
  rw [run.helpers_eq, Placement.helperClass?] at stored
  split at stored
  next => cases stored
  next nonempty => exact ⟨nonempty, (Option.some.inj stored).symm⟩

theorem exists_placement_of_method {other : String} {method : Method}
    (mem : method ∈ Placement.methodsIn other placements) :
    ∃ placement ∈ placements, placement.IsHelper other method.name ∧
      method = Component.helperMethod method.name placement.registration.block := by
  obtain ⟨placement, placed, found⟩ := List.mem_filterMap.mp mem
  obtain ⟨home, helper, named, rfl⟩ := Placement.methodIn?_eq_some_iff.mp found
  exact ⟨placement, placed, ⟨home, named⟩, rfl⟩

theorem isOrdinary_block (run : generator.Produces container package result outcomes placements)
    {placement : Placement} (placed : placement ∈ placements) :
    placement.registration.block.IsOrdinary := by
  obtain ⟨writer, -, registers⟩ := run.exists_registers placed
  exact registers.isOrdinary_block

/-- The entry method calls every helper method once. -/
theorem count_entryBody (run : generator.Produces container package result outcomes placements)
    {other : String} {method : Method} (mem : method ∈ Placement.methodsIn other placements) :
    (generator.entryBody container placements).count
      (Draft.helperStatement (.qualify other generator.settings.className) method.name) = 1 := by
  obtain ⟨placement, placed, ⟨-, named⟩, -⟩ := exists_placement_of_method mem
  obtain ⟨writer, -, registers⟩ := run.exists_registers placed
  obtain ⟨rest, spelled⟩ :=
    registers.exists_toList_helper named (run.names_derived placement placed _ named)
  have calls := Draft.callsHelper_helperStatement
    (.qualify other generator.settings.className) spelled
  have before := List.count_eq_zero.mpr fun found =>
    opening_isOrdinary generator container _ found calls
  have after := List.count_eq_zero.mpr fun found =>
    EventListener.isOrdinary_listenersSection (generator.listeners container) _ found calls
  have between := Placement.count_flatMap_code generator.settings.className other
    (fun placement => run.isOrdinary_block) ⟨rest, spelled⟩
  rw [Placement.countP_isHelper] at between
  rw [entryBody, List.count_append, List.count_append, before, closing, after, between,
    List.count_eq_one_of_mem (run.names_distinct other) (List.mem_map_of_mem mem)]

theorem closing_announces (generator : Generator) (container : Container) :
    if generator.settings.eventListeners ∧ container.metadata.eventListeners ≠ [] then
      EventListener.Announces container.metadata.eventListeners (generator.closing container)
    else generator.closing container = [] := by
  unfold closing listeners
  split
  next announced =>
    rw [if_pos announced.1]
    exact EventListener.announces_listenersSection announced.2
  next silent =>
    split
    next enabled =>
      have none_declared : container.metadata.eventListeners = [] :=
        by_contra fun declared => silent ⟨enabled, declared⟩
      rw [none_declared]
      rfl
    next => rfl

/-- The body of the entry method has its sections, with one segment per placement between them. -/
theorem entryBody_sections (generator : Generator) (container : Container)
    (placements : List Placement) :
    generator.EntryBody container placements (generator.entryBody container placements) := by
  rw [entryBody, List.flatMap_def]
  refine .sections ?_ (Placement.forall₂_segment_code generator.settings.className placements)
    (closing_announces generator container)
  unfold opening
  split
  · exact container.metadata.setsUp_infrastructureSection
  · rfl

theorem arranges (run : generator.Produces container package result outcomes placements) :
    generator.Arranges container package result placements := by
  have entry : result.draft.main.methods =
      [entryMethod (generator.entryBody container placements)] := by
    rw [run.main_eq]
    rfl
  constructor
  · exact run.forall₂_registers
  · rw [run.statistics_eq, Progress.written_foldl_follow, ← run.placed]
    simp [start]
  · exact ⟨_, entry, rfl, entryBody_sections generator container placements⟩
  · intro name implementation placement paired
    obtain ⟨inline, added, -⟩ := List.forall₂_zip run.forall₂_registers paired
    rw [added]
    exact ⟨inline, Writer.exists_addsListener implementation⟩
  · intro placement placed helper named
    have mem : Component.helperMethod helper placement.registration.block ∈
        Placement.methodsIn placement.registration.package placements :=
      List.mem_filterMap.mpr ⟨placement, placed,
        Placement.methodIn?_eq_some_iff.mpr ⟨rfl, helper, named, rfl⟩⟩
    refine ⟨.ofMethods generator.settings.className placement.registration.package
      (Placement.methodsIn placement.registration.package placements), ?_, _, mem, rfl, rfl⟩
    rw [run.helpers_eq, Placement.helperClass?, if_neg (List.ne_nil_of_mem mem)]
  · intro other cls stored
    obtain ⟨nonempty, rfl⟩ := run.mem_helpers stored
    refine ⟨?_, rfl, nonempty⟩
    rintro rfl
    obtain ⟨method, mem⟩ := List.exists_mem_of_ne_nil _ nonempty
    obtain ⟨placement, placed, ⟨home, named⟩, -⟩ := exists_placement_of_method mem
    rw [(run.inline_iff placement placed).mpr home] at named
    cases named
  · intro other cls stored
    obtain ⟨-, rfl⟩ := run.mem_helpers stored
    exact run.names_distinct other
  · intro other cls stored method mem
    obtain ⟨-, rfl⟩ := run.mem_helpers stored
    obtain ⟨placement, placed, isHelper, same⟩ := exists_placement_of_method mem
    exact ⟨placement, placed, isHelper, congrArg Method.body same⟩
  · intro other cls stored method mem
    obtain ⟨-, rfl⟩ := run.mem_helpers stored
    rw [entry, List.flatMap_singleton]
    exact Block.callsOnce_of_count (run.count_entryBody mem)

end Produces

/-- Nothing is lost, doubled or left dangling: the entry method of every successful run is made of
one segment per written component. -/
theorem exists_arranges_of_generate {generator : Generator} {container : Container}
    {package : String} {result : Progress}
    (run : generator.generate container package = .ok result) :
    ∃ placements, generator.Arranges container package result placements := by
  obtain ⟨outcomes, placements, produces⟩ := exists_produces run
  exact ⟨placements, produces.arranges⟩

theorem exists_arranges_sample :
    ∃ result, Sample.generator.generate Sample.container "com.app" = .ok result ∧
      ∃ placements, Sample.generator.Arranges Sample.container "com.app" result placements := by
  obtain ⟨result, run⟩ := Sample.generates
  exact ⟨result, run, exists_arranges_of_generate run⟩

end Generator
end Wiring
