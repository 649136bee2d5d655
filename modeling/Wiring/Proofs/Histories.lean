import Wiring.Proofs.MemberTables
import Wiring.Proofs.Merging
import Wiring.Reachability.Request
import Wiring.Reachability.Snapshot

/-!
# Histories of registries

Every request merges into a registry what it makes of the empty one.  A registry is therefore the
merge of its requests: merging two registries is replaying their histories one after the other, and
a history without options counts as the set of its requests.
-/

namespace Wiring

namespace Reachability

/-- Whether a change merges into every registry what it makes of the empty one. -/
def Adds (change : Reachability → Reachability) : Prop :=
  ∀ registry, change registry = registry.merge (change .empty)

namespace Adds

theorem comp {first second : Reachability → Reachability} (adds : Adds first)
    (adds' : Adds second) : Adds fun registry => second (first registry) := fun registry =>
  calc second (first registry)
      _ = (first registry).merge (second .empty) := adds' _
      _ = (registry.merge (first .empty)).merge (second .empty) := by rw [← adds]
      _ = registry.merge ((first .empty).merge (second .empty)) := merge_assoc ..
      _ = registry.merge (second (first .empty)) := by rw [← adds']

theorem foldl {α : Type} {step : Reachability → α → Reachability}
    (each : ∀ item, Adds (step · item)) (items : List α) : Adds (items.foldl step ·) := by
  induction items with
  | nil => exact fun registry => (merge_empty registry).symm
  | cons item items ih => exact (each item).comp ih

theorem require (target : MemberSection) (name : TypeName) (entry : TypeEntry) :
    Adds (·.changeMembers target (MemberTable.require · name entry)) := fun registry => by
  cases target with
  | reflection =>
      exact congrArg (fun reflection => { registry with reflection })
        (registry.reflection.require_eq_merge name entry)
  | jni =>
      exact congrArg (fun jni => { registry with jni })
        (registry.jni.require_eq_merge name entry)

theorem addResource (entry : ResourceEntry) : Adds (·.addResource entry) := fun registry =>
  congrArg (fun resources => { registry with resources })
    (registry.resources.add_eq_merge entry)

theorem addProxy (interfaces : List TypeName) : Adds (·.addProxy interfaces) := fun registry => by
  cases interfaces with
  | nil => exact (merge_empty registry).symm
  | cons first rest =>
      exact congrArg (fun proxies => { registry with proxies })
        (registry.proxies.insert_eq_union (.ofList (first :: rest)))

theorem addClassPhase (name : String) (phase : Phase) : Adds (·.addClassPhase name phase) :=
  fun registry =>
    congrArg (fun classes => { registry with phases := { registry.phases with classes } })
      (registry.phases.classes.request_eq_mergeWith name phase)

theorem addPackagePhase (name : String) (phase : Phase) : Adds (·.addPackagePhase name phase) :=
  fun registry =>
    congrArg (fun packages => { registry with phases := { registry.phases with packages } })
      (registry.phases.packages.request_eq_mergeWith name phase)

theorem addSerializable (name : TypeName) : Adds (·.addSerializable name) := fun registry =>
  congrArg (fun serialization => { registry with serialization })
    (registry.serialization.insert_eq_union name)

theorem setOption (key value : String) : Adds (·.setOption key value) := fun registry =>
  congrArg (fun options => { registry with options })
    (registry.options.insert_eq_overrideWith key value)

theorem applyTo (hint : TypeHint) (system : TypeSystem) (name : TypeName) :
    Adds (hint.applyTo system · name) := by
  -- the class file may be kept as a resource, and then one member section has a requirement
  have kept : Adds fun registry : Reachability =>
      if hint.access.contains .resource then registry.addResource (.ofClass name)
      else registry := by
    split
    · exact addResource _
    · exact fun registry => (merge_empty registry).symm
  have native : Adds fun registry : Reachability =>
      if hint.access.contains .jni then
        { registry with jni := registry.jni.require name (hint.entry system name) }
      else { registry with reflection := registry.reflection.require name (hint.entry system name) }
      := by
    split
    · exact require .jni name _
    · exact require .reflection name _
  exact kept.comp native

theorem hint (hint : Hint) (system : TypeSystem) : Adds (hint.apply system) := by
  have types : Adds fun registry =>
      hint.types.foldl (fun registry types => types.apply system registry) registry :=
    foldl (fun types => foldl (applyTo types system) types.types) hint.types
  have phases : Adds fun registry => hint.classPhases.foldl
      (fun registry entry => registry.addClassPhase entry.1 entry.2) registry :=
    foldl (fun entry => addClassPhase entry.1 entry.2) hint.classPhases
  exact (((types.comp (foldl addResource hint.resources)).comp (foldl addProxy hint.proxies)).comp
    (foldl addSerializable hint.serializables)).comp phases

/-- Every request merges what it makes of the empty registry. -/
theorem satisfy (system : TypeSystem) (request : Request) : Adds (satisfy system · request) := by
  cases request with
  | executable target executable => exact require target _ _
  | field target field => exact require target _ _
  | type target name entry => exact require target name entry
  | resource entry => exact addResource entry
  | proxy interfaces => exact addProxy interfaces
  | classPhase name phase => exact addClassPhase name phase
  | packagePhase name phase => exact addPackagePhase name phase
  | serializable name => exact addSerializable name
  | option key value => exact setOption key value
  | hint requested => exact hint requested system

end Adds

theorem satisfy_eq_merge (system : TypeSystem) (registry : Reachability) (request : Request) :
    satisfy system registry request = registry.merge (satisfy system .empty request) :=
  Adds.satisfy system request registry

/-- Further requests merge what they make of the empty registry. -/
theorem foldl_satisfy (system : TypeSystem) (requests : List Request) (registry : Reachability) :
    requests.foldl (satisfy system) registry = registry.merge (replay system requests) :=
  Adds.foldl (Adds.satisfy system) requests registry

/-- Merging registries is replaying their histories. -/
theorem merge_replay (system : TypeSystem) (first second : List Request) :
    (replay system first).merge (replay system second) = replay system (first ++ second) :=
  calc (replay system first).merge (replay system second)
      _ = second.foldl (satisfy system) (replay system first) := (foldl_satisfy ..).symm
      _ = replay system (first ++ second) := List.foldl_append.symm

end Reachability

/-! ## Histories as sets of requests -/

/-- Requests that ask for the same thing: one request twice, or proxies of the same interfaces. -/
inductive Request.Same : Request → Request → Prop where
  | refl (request : Request) : Same request request
  | proxy {first second : List TypeName} (interfaces : ∀ name, name ∈ first ↔ name ∈ second) :
      Same (.proxy first) (.proxy second)

/-- Histories that contain the same requests, in whatever order and however often. -/
structure SameRequests (first second : List Request) : Prop where
  /-- The second history repeats what the first asks. -/
  forth : ∀ request ∈ first, ∃ other ∈ second, other.Same request
  /-- The first history repeats what the second asks. -/
  back : ∀ request ∈ second, ∃ other ∈ first, other.Same request

namespace Reachability

variable {system : TypeSystem}

theorem addProxy_eq_of_mem_iff (registry : Reachability) {first second : List TypeName}
    (interfaces : ∀ name, name ∈ first ↔ name ∈ second) :
    registry.addProxy first = registry.addProxy second := by
  have sets : SortedSet.ofList first = SortedSet.ofList second :=
    SortedSet.ext fun name => by simp [interfaces]
  have none : first.isEmpty = second.isEmpty := by
    rw [Bool.eq_iff_iff]
    simp [List.eq_nil_iff_forall_not_mem, interfaces]
  simp only [addProxy, sets, none]

theorem satisfy_eq_of_same (registry : Reachability) {request other : Request}
    (same : request.Same other) :
    satisfy system registry request = satisfy system registry other := by
  cases same with
  | refl => rfl
  | proxy interfaces => exact addProxy_eq_of_mem_iff registry interfaces

theorem options_addProxy (registry : Reachability) (interfaces : List TypeName) :
    (registry.addProxy interfaces).options = registry.options := by
  unfold addProxy
  split <;> rfl

theorem options_applyTo (hint : TypeHint) (registry : Reachability) (name : TypeName) :
    (hint.applyTo system registry name).options = registry.options := by
  unfold TypeHint.applyTo
  split <;> split <;> rfl

theorem options_hint (hint : Hint) (registry : Reachability) :
    (hint.apply system registry).options = registry.options := by
  have typed (types : TypeHint) (registry : Reachability) :
      (types.apply system registry).options = registry.options :=
    foldl_keeps options (options_applyTo types) types.types registry
  simp only [Hint.apply]
  rw [foldl_keeps options, foldl_keeps options, foldl_keeps options options_addProxy,
    foldl_keeps options, foldl_keeps options fun registry types => typed types registry]
  · exact fun registry resource => rfl
  · exact fun registry type => rfl
  · exact fun registry entry => rfl

/-- Only a request for an option sets one. -/
theorem options_satisfy {request : Request} (free : ∀ key value, request ≠ .option key value)
    (registry : Reachability) : (satisfy system registry request).options = registry.options := by
  cases request with
  | executable target _ => cases target <;> rfl
  | field target _ => cases target <;> rfl
  | type target _ _ => cases target <;> rfl
  | proxy interfaces => exact options_addProxy registry interfaces
  | option key value => exact absurd rfl (free key value)
  | hint hint => exact options_hint hint registry
  | resource | classPhase | packagePhase | serializable => rfl

variable {first second : List Request}

theorem options_replay {requests : List Request}
    (free : ∀ key value, .option key value ∉ requests) :
    (replay system requests).options = .empty := by
  refine List.foldlRecOn requests (satisfy system) (b := empty)
    (motive := fun registry => registry.options = .empty) rfl ?_
  intro registry none request mem
  rw [options_satisfy (fun key value same => free key value (same ▸ mem)), none]

/-- A request that was made before changes nothing. -/
theorem satisfy_replay_of_mem {requests : List Request} {request : Request}
    (free : ∀ key value, .option key value ∉ requests) (mem : request ∈ requests) :
    satisfy system (replay system requests) request = replay system requests := by
  obtain ⟨before, after, rfl⟩ := List.append_of_mem mem
  let made := satisfy system .empty request
  let earlier := replay system before
  let later := replay system after
  have parts : replay system (before ++ request :: after) = (earlier.merge made).merge later := by
    rw [replay, List.foldl_append, List.foldl_cons, foldl_satisfy, satisfy_eq_merge]
    rfl
  have made_free : made.options = .empty := options_satisfy
    (fun key value same => free key value (by simp [same])) .empty
  have later_free : later.options = .empty :=
    options_replay fun key value found => free key value (by simp [found])
  -- what is made again stands behind the later requests, with which it changes places
  calc satisfy system (replay system (before ++ request :: after)) request
      _ = ((earlier.merge made).merge later).merge made := by
        rw [satisfy_eq_merge, parts]
      _ = (earlier.merge made).merge (made.merge later) := by
        rw [merge_assoc, merge_comm later_free made_free]
      _ = (earlier.merge (made.merge made)).merge later := by simp only [merge_assoc]
      _ = replay system (before ++ request :: after) := by rw [merge_self, parts]

/-- Merging in requests that were all made before changes nothing. -/
theorem merge_replay_of_covered (free : ∀ key value, .option key value ∉ first)
    (covered : ∀ request ∈ second, ∃ other ∈ first, other.Same request) :
    (replay system first).merge (replay system second) = replay system first := by
  rw [← foldl_satisfy]
  refine List.foldlRecOn second (satisfy system) (motive := (· = replay system first)) rfl ?_
  rintro _ rfl request mem
  obtain ⟨other, other_mem, same⟩ := covered request mem
  rw [← satisfy_eq_of_same _ same, satisfy_replay_of_mem free other_mem]

/-- Without options, a registry and its snapshot depend only on the set of requests. -/
theorem replay_eq_of_sameRequests (system : TypeSystem)
    (first_free : ∀ key value, .option key value ∉ first)
    (second_free : ∀ key value, .option key value ∉ second) (same : SameRequests first second) :
    replay system first = replay system second ∧
      (replay system first).snapshot = (replay system second).snapshot := by
  -- each registry absorbs the other, and without options they merge in either order
  have registries : replay system first = replay system second :=
    calc replay system first
      _ = (replay system first).merge (replay system second) :=
        (merge_replay_of_covered first_free same.back).symm
      _ = (replay system second).merge (replay system first) :=
        merge_comm (options_replay first_free) (options_replay second_free)
      _ = replay system second := merge_replay_of_covered second_free same.forth
  exact ⟨registries, congrArg snapshot registries⟩

end Reachability

namespace Sample

/-- Hint that uses a class and an interface from native code and initializes the class early. -/
def nativeHint : Hint where
  trigger := none
  types := [⟨[⟨"com.app.Cache"⟩, ⟨"com.app.Store"⟩], [.autoDetect, .jni, .resource],
    [(Executable.constructorName, [])], ["size"]⟩]
  resources := [.bundle "messages"]
  proxies := [[⟨"com.app.Store"⟩]]
  serializables := [⟨"com.app.Cache"⟩]
  classPhases := [("com.app.Cache", .buildTime)]

/-- Types of the hint, the second of them an interface. -/
def nativeTypes : TypeSystem :=
  .ofList [⟨⟨"com.app.Store"⟩, .interfaceType, .publicAccess, none, [], [], [], [], []⟩]

/-- History with a phase that overrides the one of the hint. -/
def asked : List Request :=
  [.hint nativeHint, .classPhase "com.app.Cache" .runTime,
    .proxy [⟨"com.app.Store"⟩, ⟨"com.app.Cache"⟩],
    .type .reflection ⟨"com.app.Cache"⟩ (.ofLists [.publicFields] [] [])]

/-- The same requests in another order, with repetitions. -/
def askedAgain : List Request :=
  [.type .reflection ⟨"com.app.Cache"⟩ (.ofLists [.publicFields] [] []),
    .proxy [⟨"com.app.Cache"⟩, ⟨"com.app.Store"⟩, ⟨"com.app.Cache"⟩],
    .classPhase "com.app.Cache" .runTime, .hint nativeHint,
    .proxy [⟨"com.app.Store"⟩, ⟨"com.app.Cache"⟩], .hint nativeHint]

theorem sameRequests_asked : SameRequests asked askedAgain where
  forth request mem := by
    simp only [asked, List.mem_cons, List.not_mem_nil, or_false] at mem
    rcases mem with rfl | rfl | rfl | rfl <;> exact ⟨_, by simp [askedAgain], .refl _⟩
  back request mem := by
    simp only [askedAgain, List.mem_cons, List.not_mem_nil, or_false] at mem
    rcases mem with rfl | rfl | rfl | rfl | rfl | rfl
    case inr.inl =>
      exact ⟨.proxy [⟨"com.app.Store"⟩, ⟨"com.app.Cache"⟩], by simp [asked],
        .proxy fun name => by simp [or_comm]⟩
    all_goals exact ⟨_, by simp [asked], .refl _⟩

end Sample

theorem Reachability.replay_eq_of_sameRequests_sample :
    SameRequests Sample.asked Sample.askedAgain ∧
      Reachability.replay Sample.nativeTypes Sample.asked =
        Reachability.replay Sample.nativeTypes Sample.askedAgain :=
  ⟨Sample.sameRequests_asked,
    (Reachability.replay_eq_of_sameRequests Sample.nativeTypes (by simp [Sample.asked])
      (by simp [Sample.askedAgain]) Sample.sameRequests_asked).1⟩

end Wiring
