import Wiring.Proofs.CatalogOrder

/-!
# Independence of the registration order

Runs over two catalogs with the same definitions, metadata and types succeed together, and then
agree on the registry, the counts, the files and the registration of every component.  Only
statements and the numbers of helper names follow the order.
-/

namespace Wiring

/-- Permuted items are converted to permuted values. -/
theorem Except.exists_perm_of_map_eq {ε α β : Type} {convert : α → Except ε β}
    {items items' : List α} (perm : items.Perm items') {values : List β}
    (converted : items.map convert = values.map .ok) :
    ∃ values', items'.map convert = values'.map .ok ∧ values.Perm values' := by
  induction perm generalizing values with
  | nil => exact ⟨values, converted, .refl _⟩
  | cons item perm ih =>
      cases values with
      | nil => cases converted
      | cons value values =>
          simp only [List.map_cons, List.cons.injEq] at converted
          obtain ⟨values', rest, perm'⟩ := ih converted.2
          exact ⟨value :: values', by simp [converted.1, rest], perm'.cons value⟩
  | swap first second items =>
      match values, converted with
      | [], converted => cases converted
      | [_], converted => cases (List.cons.inj converted).2
      | value :: value' :: values, converted =>
          simp only [List.map_cons, List.cons.injEq] at converted
          exact ⟨value' :: value :: values, by simp [converted], .swap ..⟩
  | trans first second ih ih' =>
      obtain ⟨middle, converted', perm'⟩ := ih converted
      obtain ⟨values', converted'', perm''⟩ := ih' converted'
      exact ⟨values', converted'', perm'.trans perm''⟩

theorem Except.map_ok_injective {ε α : Type} {values values' : List α}
    (same : values.map (Except.ok (ε := ε)) = values'.map .ok) : values = values' :=
  List.map_inj_right (fun _ _ => Except.ok.inj) |>.mp same

/-- Count one outcome. -/
def Statistics.count (statistics : Statistics) : Outcome → Statistics
  | .skipped => { statistics with skipped := statistics.skipped + 1 }
  | .leftOut _ _ => { statistics with unhandled := statistics.unhandled + 1 }
  | .written _ => { statistics with written := statistics.written + 1 }

theorem Statistics.count_right_comm (statistics : Statistics) (first second : Outcome) :
    (statistics.count first).count second = (statistics.count second).count first := by
  cases first <;> cases second <;> rfl

namespace Progress

theorem statistics_foldl_follow (outcomes : List Outcome) (progress : Progress) :
    (outcomes.foldl follow progress).statistics =
      outcomes.foldl Statistics.count progress.statistics := by
  induction outcomes generalizing progress with
  | nil => rfl
  | cons outcome outcomes ih =>
      rw [List.foldl_cons, List.foldl_cons, ih]
      cases outcome <;> rfl

end Progress

/-- Two results that differ in the order of statements at most. -/
structure Progress.Agrees (left right : Progress) : Prop where
  /-- The registries are equal, options included. -/
  registry : left.draft.registry = right.draft.registry
  /-- The texts of all descriptor files are equal. -/
  texts : ∀ kind, left.snapshot.text kind = right.snapshot.text kind
  /-- The counts are equal. -/
  statistics : left.statistics = right.statistics
  /-- The source files have the same paths. -/
  paths : left.sources.map SourceFile.path = right.sources.map SourceFile.path

namespace Generator

/-- Registry before the processors run. -/
theorem registry_foldl_follow (generator : Generator) (container : Container) (package : String)
    (outcomes : List Outcome) :
    (outcomes.foldl Progress.follow (generator.start container package)).draft.registry =
      (Reachability.ofOptions generator.settings.options).reflect
        ((outcomes.filterMap (·.registration?)).flatMap (·.recorded)) := by
  have bare : (generator.start container package).draft.helpers = .empty := rfl
  obtain ⟨placements, placed, laid⟩ :=
    Progress.exists_laysOut_foldl_follow (Draft.LaysOut.start bare) outcomes
  rw [laid.registry_eq, ← placed, List.flatMap_map]
  rfl

theorem exists_merged_of_outcome {generator : Generator} {container : Container}
    {main : String} {outcomes : List Outcome}
    (decided : container.names.map (generator.outcome container main) = outcomes.map .ok) :
    ∀ name ∈ container.names, ∃ definition, container.merged name = .ok definition := by
  intro name mem
  have shown := List.mem_map_of_mem (f := generator.outcome container main) mem
  rw [decided] at shown
  obtain ⟨outcome, -, decided⟩ := List.mem_map.mp shown
  obtain ⟨definition, merged, -⟩ := Except.bind_eq_ok.mp decided.symm
  exact ⟨definition, Except.mapError_eq_ok.mp merged⟩

theorem component_of_outcome {generator : Generator} {container : Container} {main name : String}
    {registration : Registration}
    (decided : generator.outcome container main name = .ok (.written registration)) :
    registration.plan.component = name := by
  simp only [outcome, Except.bind_eq_ok] at decided
  obtain ⟨definition, -, selected, -, decided⟩ := decided
  cases selected with
  | false => cases decided
  | true =>
      simp only [Bool.not_true, Bool.false_eq_true, if_false] at decided
      cases offered : generator.writer? container name definition with
      | none => simp [offered, pure, Except.pure] at decided
      | some writer =>
          simp only [offered, Except.bind_eq_ok, Except.mapError_eq_ok, pure, Except.pure,
            Except.ok.injEq, Outcome.written.injEq] at decided
          obtain ⟨prepared, ready, rfl⟩ := decided
          rw [Writer.plan_of_prepare ready]
          exact component_plan_of_writer? offered

/-- A run over a reordered container succeeds as well. -/
theorem exists_generate_reorder {generator : Generator} {container : Container} {package : String}
    {names : List String} (perm : container.names.Perm names) {result : Progress}
    (run : generator.generate container package = .ok result) :
    ∃ result', generator.generate (container.reorder names) package = .ok result' := by
  obtain ⟨valid, outcomes, decided, processed, ran, -⟩ := generate_eq_ok_iff.mp run
  obtain ⟨outcomes', decided', perm'⟩ := Except.exists_perm_of_map_eq perm decided
  obtain ⟨registry, accepted, -⟩ := Progress.process_eq_ok_iff.mp ran
  have merged := exists_merged_of_outcome decided
  have recorded := (perm'.filterMap Outcome.registration?).flatMap_right Registration.recorded
  rw [registry_foldl_follow, Reachability.reflect_perm _ recorded,
    ← ContainerProcessor.processAll_reorder perm merged] at accepted
  refine ⟨_, generate_eq_ok_iff.mpr ⟨valid, outcomes', ?_, _,
    Progress.process_eq_ok_iff.mpr ⟨registry, ?_, rfl⟩, rfl⟩⟩
  · rw [← decided']
    exact List.map_congr_left fun name _ => generator.outcome_reorder perm package name
  · rw [registry_foldl_follow]
    exact accepted

namespace Produces

variable {generator : Generator} {container : Container} {package : String} {names : List String}
  {result result' : Progress} {outcomes outcomes' : List Outcome}
  {placements placements' : List Placement}

/-- Outcomes of a reordered run are the outcomes in another order. -/
theorem outcomes_perm (perm : container.names.Perm names)
    (run : generator.Produces container package result outcomes placements)
    (run' : generator.Produces (container.reorder names) package result' outcomes' placements') :
    outcomes.Perm outcomes' := by
  obtain ⟨permuted, decided, perm'⟩ := Except.exists_perm_of_map_eq perm run.decided
  have same : names.map (generator.outcome container package) = outcomes'.map .ok := by
    rw [← run'.decided]
    exact List.map_congr_left fun name _ => (generator.outcome_reorder perm package name).symm
  rw [Except.map_ok_injective (same.symm.trans decided)]
  exact perm'

/-- The registrations are the same up to their order. -/
theorem registrations_perm (perm : container.names.Perm names)
    (run : generator.Produces container package result outcomes placements)
    (run' : generator.Produces (container.reorder names) package result' outcomes' placements') :
    (placements.map (·.registration)).Perm (placements'.map (·.registration)) := by
  rw [run.placed, run'.placed]
  exact (outcomes_perm perm run run').filterMap _

theorem registry_reorder (perm : container.names.Perm names)
    (run : generator.Produces container package result outcomes placements)
    (run' : generator.Produces (container.reorder names) package result' outcomes' placements') :
    result.draft.registry = result'.draft.registry := by
  have registrations := registrations_perm perm run run'
  have recorded : (placements.flatMap (·.registration.recorded)).Perm
      (placements'.flatMap (·.registration.recorded)) := by
    have flat := registrations.flatMap_right Registration.recorded
    rwa [List.flatMap_map, List.flatMap_map] at flat
  have plans : result.plans.Perm result'.plans := by
    have planned := registrations.map Registration.plan
    rw [List.map_map, List.map_map] at planned
    rw [run.plans_eq, run'.plans_eq]
    exact planned
  obtain ⟨registry, accepted, registry_eq⟩ := run.registry_eq
  obtain ⟨registry', accepted', registry_eq'⟩ := run'.registry_eq
  rw [ContainerProcessor.processAll_reorder perm (exists_merged_of_outcome run.decided),
    ← Reachability.reflect_perm _ recorded, accepted] at accepted'
  cases accepted'
  rw [registry_eq, registry_eq', ComponentProcessor.processAll_perm _ _ _ plans]
  rfl

theorem statistics_reorder (perm : container.names.Perm names)
    (run : generator.Produces container package result outcomes placements)
    (run' : generator.Produces (container.reorder names) package result' outcomes' placements') :
    result.statistics = result'.statistics := by
  have counted : (generator.start container package).statistics =
      (generator.start (container.reorder names) package).statistics := by
    simp only [start, Container.reorder, perm.length_eq]
  rw [run.statistics_eq, run'.statistics_eq, Progress.statistics_foldl_follow,
    Progress.statistics_foldl_follow, counted]
  exact (outcomes_perm perm run run').foldl_eq'
    (fun first _ second _ statistics => statistics.count_right_comm first second) _

/-- A package has a helper class when it is not the main package and a registration lives there. -/
theorem mem_helper_keys (run : generator.Produces container package result outcomes placements)
    {other : String} :
    other ∈ result.draft.helpers.keys ↔
      other ≠ package ∧ other ∈ placements.map (·.registration.package) := by
  have stored : other ∈ result.draft.helpers.keys ↔
      Placement.methodsIn other placements ≠ [] := by
    have found := run.helpers_eq other
    unfold Placement.helperClass? at found
    split at found
    next empty =>
      simp [SortedMap.keys, SortedMap.mem_entries_iff, found, empty]
    next nonempty =>
      simp [SortedMap.keys, SortedMap.mem_entries_iff, found, nonempty]
  rw [stored, List.mem_map]
  constructor
  · intro nonempty
    obtain ⟨method, mem⟩ := List.exists_mem_of_ne_nil _ nonempty
    obtain ⟨placement, placed, found⟩ := List.mem_filterMap.mp mem
    obtain ⟨home, helper, named, -⟩ := Placement.methodIn?_eq_some_iff.mp found
    refine ⟨?_, placement, placed, home⟩
    rintro rfl
    rw [(run.inline_iff placement placed).mpr home] at named
    cases named
  · rintro ⟨away, placement, placed, rfl⟩
    cases named : placement.helper with
    | none => exact absurd ((run.inline_iff placement placed).mp named) away
    | some helper =>
        exact List.ne_nil_of_mem (List.mem_filterMap.mpr ⟨placement, placed,
          Placement.methodIn?_eq_some_iff.mpr ⟨rfl, helper, named, rfl⟩⟩)

theorem helper_keys_reorder (perm : container.names.Perm names)
    (run : generator.Produces container package result outcomes placements)
    (run' : generator.Produces (container.reorder names) package result' outcomes' placements') :
    result.draft.helpers.keys = result'.draft.helpers.keys := by
  have packages := (registrations_perm perm run run').map Registration.package
  rw [List.map_map, List.map_map] at packages
  apply KeyOrder.eq_of_mem_iff (fun package : String => package)
  · exact List.pairwise_map.mpr result.draft.helpers.sorted
  · exact List.pairwise_map.mpr result'.draft.helpers.sorted
  · intro other
    rw [mem_helper_keys run, mem_helper_keys run']
    exact and_congr_right fun _ => packages.mem_iff

/-- Paths of the files follow from the packages of the helper classes. -/
theorem paths_eq (run : generator.Produces container package result outcomes placements) :
    result.sources.map SourceFile.path =
      (package :: result.draft.helpers.keys).map fun package =>
        (TypeName.qualify package
          (TypeName.qualify package generator.settings.className).simpleName).pathWith ".java" := by
  have helpers : ∀ entry ∈ result.draft.helpers.entries,
      entry.2.typeName = .qualify entry.1 generator.settings.className := by
    rintro ⟨other, cls⟩ mem
    have stored := (SortedMap.mem_entries_iff.mp mem).symm.trans (run.helpers_eq other)
    unfold Placement.helperClass? at stored
    split at stored
    next => cases stored
    next =>
      cases stored
      rfl
  rw [Progress.sources, Draft.sourceFiles, List.map_cons, List.map_cons, run.main_eq,
    run.package_eq]
  congr 1
  rw [Draft.helperFiles, SortedMap.keys, List.map_map, List.map_map]
  apply List.map_congr_left
  intro entry mem
  simp only [Function.comp_apply, SourceFile.path, SourceFile.ofSpec, BootstrapClass.toSpec,
    helpers entry mem]

theorem agrees_reorder (perm : container.names.Perm names)
    (run : generator.Produces container package result outcomes placements)
    (run' : generator.Produces (container.reorder names) package result' outcomes' placements') :
    result.Agrees result' := by
  have registry := registry_reorder perm run run'
  constructor
  · exact registry
  · intro kind
    rw [Progress.snapshot, Progress.snapshot, registry]
  · exact statistics_reorder perm run run'
  · rw [run.paths_eq, run'.paths_eq, helper_keys_reorder perm run run']

/-- Every placed registration is the outcome of its component. -/
theorem outcome_of_placed (run : generator.Produces container package result outcomes placements)
    {placement : Placement} (placed : placement ∈ placements) :
    generator.outcome container package placement.registration.plan.component =
      .ok (.written placement.registration) := by
  have shown := List.mem_map_of_mem (f := (·.registration)) placed
  rw [run.placed] at shown
  obtain ⟨outcome, mem, written⟩ := List.mem_filterMap.mp shown
  have followed := List.mem_map_of_mem (f := Except.ok (ε := Failure)) mem
  rw [← run.decided] at followed
  obtain ⟨name, -, decided⟩ := List.mem_map.mp followed
  cases outcome with
  | skipped => cases written
  | leftOut name definition => cases written
  | written registration =>
      obtain rfl := Option.some.inj written
      rw [component_of_outcome decided]
      exact decided

end Produces

/-- Runs over catalogs that differ in the order of registration succeed together, and their results
agree in everything but statement order and helper names. -/
theorem agrees_of_reorders {left right : Catalog} (reorders : left.Reorders right)
    (generator : Generator) (package : String) :
    (generator.generate left.toContainer package).isOk =
        (generator.generate right.toContainer package).isOk ∧
      ∀ result result', generator.generate left.toContainer package = .ok result →
        generator.generate right.toContainer package = .ok result' →
          result.Agrees result' ∧ ∃ placements placements',
            generator.Places left.toContainer package result placements ∧
            generator.Places right.toContainer package result' placements' ∧
            (placements.map (·.registration)).Perm (placements'.map (·.registration)) ∧
            ∀ placement ∈ placements, ∀ placement' ∈ placements',
              placement.registration.plan.component = placement'.registration.plan.component →
                placement.registration = placement'.registration := by
  have perm := reorders.perm_names
  rw [reorders.toContainer_eq]
  constructor
  · rw [Bool.eq_iff_iff]
    constructor
    · intro succeeds
      obtain ⟨result, run⟩ := Except.exists_eq_ok succeeds
      obtain ⟨result', run'⟩ := exists_generate_reorder perm run
      rw [run']
      rfl
    · intro succeeds
      obtain ⟨result', run'⟩ := Except.exists_eq_ok succeeds
      have perm_back : (left.toContainer.reorder right.definitions.keys).names.Perm
          left.toContainer.names := perm.symm
      obtain ⟨result, run⟩ := exists_generate_reorder perm_back run'
      have back : (left.toContainer.reorder right.definitions.keys).reorder
          left.toContainer.names = left.toContainer := rfl
      rw [← back, run]
      rfl
  · intro result result' run run'
    obtain ⟨outcomes, placements, produces⟩ := exists_produces run
    obtain ⟨outcomes', placements', produces'⟩ := exists_produces run'
    refine ⟨produces.agrees_reorder perm produces', placements, placements', produces.places,
      produces'.places, produces.registrations_perm perm produces', ?_⟩
    intro placement placed placement' placed' same
    have decided := produces.outcome_of_placed placed
    have decided' := produces'.outcome_of_placed placed'
    rw [generator.outcome_reorder perm, ← same, decided] at decided'
    exact Outcome.written.inj (Except.ok.inj decided')

theorem agrees_sample_reverse :
    (Sample.catalog Sample.components).Reorders (Sample.catalog Sample.components.reverse) ∧
      ∃ result result',
        Sample.generator.generate (Sample.catalog Sample.components).toContainer "com.app" =
            .ok result ∧
          Sample.generator.generate (Sample.catalog Sample.components.reverse).toContainer
              "com.app" = .ok result' ∧
            result.Agrees result' := by
  have reorders : (Sample.catalog Sample.components).Reorders
      (Sample.catalog Sample.components.reverse) := ⟨by decide +kernel, rfl, rfl⟩
  obtain ⟨together, agrees⟩ := agrees_of_reorders reorders Sample.generator "com.app"
  obtain ⟨result, run⟩ := Sample.generates
  obtain ⟨result', run'⟩ := Except.exists_eq_ok (together ▸ congrArg Except.isOk run)
  exact ⟨reorders, result, result', run, run', (agrees result result' run run').1⟩

end Generator
end Wiring
