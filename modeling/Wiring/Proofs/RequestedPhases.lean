import Mathlib.Data.String.Basic
import Wiring.Proofs.RoutedHints

/-!
# Requested phases

A collection of phases comes about by requests for classes and packages, by hints and by merging
such collections.  It holds for every name the latest phase that any of these requests asked, so its
descriptor splits the requested names into those of one phase and those of the other.
-/

namespace Wiring

/-- Kind of names for which phases are requested. -/
inductive PhaseTarget where
  | classes
  | packages
  deriving DecidableEq, Repr

/-- Request to initialize a class or package in a phase. -/
structure PhaseRequest where
  /-- Whether the request is for a class or a package. -/
  target : PhaseTarget
  /-- Name of the class or package. -/
  name : String
  /-- Phase asked for. -/
  phase : Phase
  deriving DecidableEq, Repr

/-- Requests of a hint, all of them for classes. -/
def Hint.phaseRequests (hint : Hint) : List PhaseRequest :=
  hint.classPhases.map fun entry => ⟨.classes, entry.1, entry.2⟩

namespace PhaseRequest

/-- Latest phase that a history requests for a name. -/
def latest? (history : List PhaseRequest) (target : PhaseTarget) (name : String) : Option Phase :=
  if ⟨target, name, .runTime⟩ ∈ history then some .runTime
  else if ⟨target, name, .buildTime⟩ ∈ history then some .buildTime
  else none

variable {history : List PhaseRequest} {target : PhaseTarget} {name : String}

theorem latest?_append (first second : List PhaseRequest) (target : PhaseTarget) (name : String) :
    latest? (first ++ second) target name =
      Option.merge Phase.later (latest? first target name) (latest? second target name) := by
  simp only [latest?, List.mem_append]
  split_ifs <;> simp_all [Phase.later]

theorem latest?_eq_runTime_iff :
    latest? history target name = some .runTime ↔ ⟨target, name, .runTime⟩ ∈ history := by
  unfold latest?
  split_ifs <;> simp_all

theorem latest?_eq_buildTime_iff :
    latest? history target name = some .buildTime ↔
      (∃ phase, ⟨target, name, phase⟩ ∈ history) ∧ ⟨target, name, .runTime⟩ ∉ history := by
  unfold latest?
  split_ifs with late early
  · simp [late]
  · simp only [true_iff]
    exact ⟨⟨.buildTime, early⟩, late⟩
  · simp only [false_iff]
    rintro ⟨⟨phase, asked⟩, -⟩
    cases phase with
    | buildTime => exact early asked
    | runTime => exact late asked

end PhaseRequest

namespace Phases

/-- Phases of classes or of packages. -/
def table (phases : Phases) : PhaseTarget → PhaseTable
  | .classes => phases.classes
  | .packages => phases.packages

/-- Whether a collection of phases comes about by a history of requests, made of it directly, by
hints or of the collections merged into it. -/
inductive Requested : Phases → List PhaseRequest → Prop
  | empty : Requested .empty []
  | addClass {phases : Phases} {history : List PhaseRequest} (requested : Requested phases history)
      (name : String) (phase : Phase) :
      Requested (phases.addClass name phase) (history ++ [⟨.classes, name, phase⟩])
  | addPackage {phases : Phases} {history : List PhaseRequest}
      (requested : Requested phases history) (name : String) (phase : Phase) :
      Requested (phases.addPackage name phase) (history ++ [⟨.packages, name, phase⟩])
  | hint {registry : Reachability} {history : List PhaseRequest}
      (requested : Requested registry.phases history) (system : TypeSystem) (hint : Hint) :
      Requested (hint.apply system registry).phases (history ++ hint.phaseRequests)
  | merge {left right : Phases} {first second : List PhaseRequest}
      (requested : Requested left first) (merged : Requested right second) :
      Requested (left.merge right) (first ++ second)

/-! ### Latest phases -/

/-- Whether a collection holds the latest phase requested for every name. -/
def Answers (phases : Phases) (history : List PhaseRequest) : Prop :=
  ∀ target name, (phases.table target).get? name = PhaseRequest.latest? history target name

variable {phases : Phases} {history : List PhaseRequest}

theorem Answers.merge {left right : Phases} {first second : List PhaseRequest}
    (answers : left.Answers first) (answers' : right.Answers second) :
    (left.merge right).Answers (first ++ second) := by
  intro target name
  rw [PhaseRequest.latest?_append, ← answers target name, ← answers' target name]
  cases target <;> exact SortedMap.get?_mergeWith ..

theorem answers_empty : empty.Answers [] := fun target name => by
  cases target <;> rfl

/-- Satisfy a request. -/
def add (phases : Phases) (request : PhaseRequest) : Phases :=
  match request.target with
  | .classes => phases.addClass request.name request.phase
  | .packages => phases.addPackage request.name request.phase

theorem table_add (phases : Phases) (request : PhaseRequest) (target : PhaseTarget) :
    (phases.add request).table target =
      if target = request.target then (phases.table target).request request.name request.phase
      else phases.table target := by
  obtain ⟨_ | _, name, phase⟩ := request <;> cases target <;> rfl

/-- A request joins the collection of that request. -/
theorem add_eq_merge (phases : Phases) (request : PhaseRequest) :
    phases.add request = phases.merge (empty.add request) := by
  obtain ⟨target, name, phase⟩ := request
  cases target with
  | classes =>
      exact congrArg (fun classes => { phases with classes })
        (phases.classes.request_eq_mergeWith name phase)
  | packages =>
      exact congrArg (fun packages => { phases with packages })
        (phases.packages.request_eq_mergeWith name phase)

theorem answers_add_empty (request : PhaseRequest) : (empty.add request).Answers [request] := by
  intro target name
  have none_before : (empty.table target).get? name = none := by cases target <;> rfl
  rw [table_add]
  obtain ⟨asked, stored, phase⟩ := request
  by_cases here : target = asked
  · subst here
    rw [if_pos rfl, PhaseTable.request, SortedMap.get?_update]
    by_cases same : name = stored
    · subst same
      cases phase <;> simp [PhaseRequest.latest?, none_before]
    · simp [PhaseRequest.latest?, none_before, same]
  · simp [PhaseRequest.latest?, none_before, here]

theorem Answers.add (answers : phases.Answers history) (request : PhaseRequest) :
    (phases.add request).Answers (history ++ [request]) := by
  rw [add_eq_merge]
  exact answers.merge (answers_add_empty request)

theorem Answers.addAll (answers : phases.Answers history) (requests : List PhaseRequest) :
    (requests.foldl Phases.add phases).Answers (history ++ requests) := by
  induction requests generalizing phases history with
  | nil => rwa [List.append_nil]
  | cons request requests ih =>
      rw [List.append_cons]
      exact ih (answers.add request)

/-- A hint satisfies its requests for classes, and changes no other phase. -/
theorem phases_apply (hint : Hint) (system : TypeSystem) (registry : Reachability) :
    (hint.apply system registry).phases =
      hint.phaseRequests.foldl Phases.add registry.phases := by
  have typed (registry : Reachability) (types : TypeHint) :
      (types.apply system registry).phases = registry.phases :=
    (types.routes_apply system registry).phases
  have proxied (registry : Reachability) (interfaces : List TypeName) :
      (registry.addProxy interfaces).phases = registry.phases := by
    unfold Reachability.addProxy
    split <;> rfl
  have phased (registry : Reachability) :
      (hint.classPhases.foldl (fun registry entry => registry.addClassPhase entry.1 entry.2)
        registry).phases = hint.phaseRequests.foldl Phases.add registry.phases := by
    rw [Hint.phaseRequests, List.foldl_map]
    exact (List.foldl_hom Reachability.phases fun registry entry => rfl).symm
  rw [Hint.apply, phased, foldl_keeps Reachability.phases, foldl_keeps Reachability.phases proxied,
    foldl_keeps Reachability.phases, foldl_keeps Reachability.phases typed]
  · exact fun registry resource => rfl
  · exact fun registry type => rfl

/-- A collection holds what its history asks. -/
theorem Requested.answers (requested : phases.Requested history) : phases.Answers history := by
  induction requested with
  | empty => exact answers_empty
  | addClass _ name phase ih => exact ih.add ⟨.classes, name, phase⟩
  | addPackage _ name phase ih => exact ih.add ⟨.packages, name, phase⟩
  | hint _ system hint ih =>
      rw [phases_apply]
      exact ih.addAll hint.phaseRequests
  | merge _ _ ih ih' => exact ih.merge ih'

end Phases

/-! ### Names by phase -/

namespace PhaseTable

theorem mem_namesIn_iff {table : PhaseTable} {name : String} {phase : Phase} :
    name ∈ table.namesIn phase ↔ table.get? name = some phase := by
  rw [namesIn, List.mem_map, ← SortedMap.mem_entries_iff]
  constructor
  · rintro ⟨⟨found, stored⟩, mem, rfl⟩
    obtain ⟨mem, same⟩ := List.mem_filter.mp mem
    exact eq_of_beq same ▸ mem
  · exact fun mem => ⟨(name, phase), List.mem_filter.mpr ⟨mem, beq_self_eq_true phase⟩, rfl⟩

theorem sorted_namesIn (table : PhaseTable) (phase : Phase) :
    (table.namesIn phase).Pairwise (· < ·) :=
  List.pairwise_map.mpr
    ((table.sorted.imp fun before => compare_lt_iff_lt.mp before).sublist List.filter_sublist)

end PhaseTable

/-- How two lists of names split the names that a history requests for a target. -/
structure PhaseRequest.Splits (history : List PhaseRequest) (target : PhaseTarget)
    (buildTime runTime : List String) : Prop where
  /-- Names requested at run time at least once. -/
  runTime_iff : ∀ name, name ∈ runTime ↔ ⟨target, name, .runTime⟩ ∈ history
  /-- Names requested, but never at run time. -/
  buildTime_iff : ∀ name, name ∈ buildTime ↔
    (∃ phase, ⟨target, name, phase⟩ ∈ history) ∧ ⟨target, name, .runTime⟩ ∉ history
  /-- No name is in both lists. -/
  disjoint : buildTime.Disjoint runTime
  /-- Every requested name is in one of the lists. -/
  complete : ∀ name phase, ⟨target, name, phase⟩ ∈ history → name ∈ buildTime ∨ name ∈ runTime
  /-- Names at build time are strictly sorted. -/
  buildTime_sorted : buildTime.Pairwise (· < ·)
  /-- Names at run time are strictly sorted. -/
  runTime_sorted : runTime.Pairwise (· < ·)

namespace Phases

variable {phases : Phases} {history : List PhaseRequest}

theorem Answers.splits (answers : phases.Answers history) (target : PhaseTarget) :
    PhaseRequest.Splits history target ((phases.table target).namesIn .buildTime)
      ((phases.table target).namesIn .runTime) where
  runTime_iff name := by
    rw [PhaseTable.mem_namesIn_iff, answers target name, PhaseRequest.latest?_eq_runTime_iff]
  buildTime_iff name := by
    rw [PhaseTable.mem_namesIn_iff, answers target name, PhaseRequest.latest?_eq_buildTime_iff]
  disjoint name early late := by
    rw [PhaseTable.mem_namesIn_iff] at early late
    cases early.symm.trans late
  complete name phase asked := by
    rw [PhaseTable.mem_namesIn_iff, PhaseTable.mem_namesIn_iff, answers target name,
      PhaseRequest.latest?_eq_runTime_iff, PhaseRequest.latest?_eq_buildTime_iff]
    exact (em _).symm.imp_left fun never => ⟨⟨phase, asked⟩, never⟩
  buildTime_sorted := PhaseTable.sorted_namesIn ..
  runTime_sorted := PhaseTable.sorted_namesIn ..

/-- The phases of one target depend on nothing but the requests for it. -/
theorem Answers.table_eq {other : Phases} {history' : List PhaseRequest} {target : PhaseTarget}
    (answers : phases.Answers history) (answers' : other.Answers history')
    (same : ∀ name phase, ⟨target, name, phase⟩ ∈ history ↔ ⟨target, name, phase⟩ ∈ history') :
    phases.table target = other.table target := by
  apply SortedMap.ext
  intro name
  rw [answers target name, answers' target name, PhaseRequest.latest?, PhaseRequest.latest?]
  simp only [same]

/-- A name requested in both phases is initialized at run time, the two phases split the requested
names, and requests for classes and for packages do not influence each other. -/
theorem Requested.splits_descriptor (requested : phases.Requested history) :
    PhaseRequest.Splits history .classes phases.descriptor.buildTimeClasses
        phases.descriptor.runtimeClasses ∧
      PhaseRequest.Splits history .packages phases.descriptor.buildTimePackages
        phases.descriptor.runtimePackages ∧
      ∀ (other : Phases) (history' : List PhaseRequest) (target : PhaseTarget),
        other.Requested history' →
          (∀ name phase, ⟨target, name, phase⟩ ∈ history ↔ ⟨target, name, phase⟩ ∈ history') →
            phases.table target = other.table target :=
  ⟨requested.answers.splits .classes, requested.answers.splits .packages,
    fun _ _ _ requested' => requested.answers.table_eq requested'.answers⟩

end Phases
namespace Sample

/-- Registry in which a class is initialized at run time. -/
def lateRegistry : Reachability := Reachability.addClassPhase .empty "com.app.Cache" .runTime

/-- Phases of the registry, to which a hint adds an earlier phase of the class, merged with phases
of a class and a package whose names are taken by the other kind. -/
def mergedPhases : Phases :=
  ((nativeHint.apply nativeTypes lateRegistry).phases.addPackage "com.app" .buildTime).merge
    ((Phases.empty.addClass "com.app" .buildTime).addPackage "com.app.Cache" .runTime)

/-- Requests of the merged phases. -/
def phaseHistory : List PhaseRequest :=
  [⟨.classes, "com.app.Cache", .runTime⟩, ⟨.classes, "com.app.Cache", .buildTime⟩,
    ⟨.packages, "com.app", .buildTime⟩, ⟨.classes, "com.app", .buildTime⟩,
    ⟨.packages, "com.app.Cache", .runTime⟩]

theorem requested_mergedPhases : mergedPhases.Requested phaseHistory := by
  have late : lateRegistry.phases.Requested [⟨.classes, "com.app.Cache", .runTime⟩] :=
    .addClass .empty "com.app.Cache" .runTime
  have swapped : ((Phases.empty.addClass "com.app" .buildTime).addPackage "com.app.Cache"
      .runTime).Requested
        [⟨.classes, "com.app", .buildTime⟩, ⟨.packages, "com.app.Cache", .runTime⟩] :=
    .addPackage (.addClass .empty "com.app" .buildTime) "com.app.Cache" .runTime
  exact .merge (.addPackage (late.hint nativeTypes nativeHint) "com.app" .buildTime) swapped

end Sample

theorem Phases.Requested.splits_descriptor_merged :
    Sample.mergedPhases.Requested Sample.phaseHistory ∧
      Sample.mergedPhases.descriptor =
        ⟨["com.app"], ["com.app"], ["com.app.Cache"], ["com.app.Cache"]⟩ ∧
      PhaseRequest.Splits Sample.phaseHistory .classes ["com.app"] ["com.app.Cache"] :=
  ⟨Sample.requested_mergedPhases, by decide +kernel,
    (Phases.Requested.splits_descriptor Sample.requested_mergedPhases).1⟩

end Wiring
