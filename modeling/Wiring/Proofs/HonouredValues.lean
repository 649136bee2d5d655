import Wiring.Proofs.HostedCode
import Wiring.Proofs.Requirements

/-!
# Honoured values

A component is written exactly when everything it declares can be honoured: its creator, setters
and lifecycle methods are resolved, every explicit argument has a parameter, and every literal
converts to the type it is meant for.  What is written then stands in the class of a package and
carries every value: the call of the creator has one expression per parameter, every property has
its setter statement and every attribute is set.
-/

namespace Wiring

namespace Except

variable {ε α β : Type}

/-- The items of a list are converted one by one. -/
theorem mapM_eq_ok_iff_forall₂ {convert : α → Except ε β} {items : List α} {values : List β} :
    items.mapM convert = .ok values ↔
      List.Forall₂ (fun item value => convert item = .ok value) items values := by
  rw [mapM_eq_ok_iff, ← List.forall₂_eq_eq_eq, List.forall₂_map_left_iff,
    List.forall₂_map_right_iff]

/-- A list is converted if every item is. -/
theorem exists_mapM_eq_ok_iff {convert : α → Except ε β} {items : List α} :
    (∃ values, items.mapM convert = .ok values) ↔
      ∀ item ∈ items, ∃ value, convert item = .ok value := by
  simp only [mapM_eq_ok_iff_forall₂]
  constructor
  · rintro ⟨values, converted⟩
    induction converted with
    | nil => exact fun _ mem => absurd mem List.not_mem_nil
    | cons first _ ih => exact List.forall_mem_cons.mpr ⟨⟨_, first⟩, ih⟩
  · intro each
    induction items with
    | nil => exact ⟨[], .nil⟩
    | cons item items ih =>
        obtain ⟨⟨value, converted⟩, others⟩ := List.forall_mem_cons.mp each
        obtain ⟨values, rest⟩ := ih others
        exact ⟨value :: values, .cons converted rest⟩

end Except

namespace Component

variable {component : Component} {creator setter : Executable} {property : PropertyValue}
  {package : String} {target : TypeName}

/-! ### Explicit values -/

/-- Text of the look-up of a component by its name and a type. -/
def lookupText (other : String) (type : TypeName) : Wording := fun typeText =>
  "context.getBean(" ++ Text.quote other ++ ", " ++ typeText type ++ ".class)"

theorem reads_lookupCode (other : String) (type : TypeName) :
    (lookupCode other type).Reads (lookupText other type) := by
  rw [Fragment.reads_iff]
  intro typeText
  unfold lookupCode lookupText
  simp [Fragment.format, Placeholder.fill, Text.quote]

/-- Whether code stands for an explicit value where a type is expected. -/
inductive IsValue (component : Component) (target : TypeName) : Value → Fragment → Prop
  /-- A reference to another component is looked up. -/
  | reference {other : String} {code : Fragment} (reads : code.Reads (lookupText other target)) :
      IsValue component target (.reference other) code
  /-- A literal is converted. -/
  | literal {text : String} {code : Fragment}
      (converted : Literal.ofText component.types text target = .ok code) :
      IsValue component target (.literal text) code

/-- Whether an explicit value, if it is a literal, converts to a type. -/
def Converts (component : Component) (target : TypeName) (value : Value) : Prop :=
  ∀ text, value = .literal text → ∃ code, Literal.ofText component.types text target = .ok code

theorem IsValue.valueCode_eq {value : Value} {code : Fragment}
    (stands : component.IsValue target value code) :
    component.valueCode target value = .ok code := by
  cases stands with
  | reference reads =>
      rw [← (reads_lookupCode _ target).eq reads]
      rfl
  | literal converted => exact converted

theorem valueCode_eq_ok_iff {value : Value} {code : Fragment} :
    component.valueCode target value = .ok code ↔ component.IsValue target value code := by
  refine ⟨fun coded => ?_, IsValue.valueCode_eq⟩
  cases value with
  | reference other =>
      rw [← Except.ok.inj coded]
      exact .reference (reads_lookupCode other target)
  | literal text => exact .literal coded

theorem exists_isValue_iff {value : Value} :
    (∃ code, component.IsValue target value code) ↔ component.Converts target value := by
  constructor
  · rintro ⟨code, reference | converted⟩ text same
    · cases same
    · cases same
      exact ⟨code, converted⟩
  · intro converts
    cases value with
    | reference other => exact ⟨_, .reference (reads_lookupCode other target)⟩
    | literal text =>
        obtain ⟨code, converted⟩ := converts text rfl
        exact ⟨code, .literal converted⟩

/-! ### Arguments -/

/-- The other components whose instances fit a type. -/
def candidates (component : Component) (type : TypeName) : List String :=
  (component.container.namesForType type).filter (· != component.name)

/-- Every argument can be written if the explicit ones convert. -/
theorem exists_argumentCode_iff {parameter : TypeName} {position : Nat} :
    (∃ code, component.argumentCode (parameter, position) = .ok code) ↔
      ∀ value, component.definition.arguments.get? position = some value →
        component.Converts parameter value := by
  unfold argumentCode
  dsimp only
  cases component.definition.arguments.get? position with
  | none => simp
  | some value => simp [Except.mapError_eq_ok, valueCode_eq_ok_iff, exists_isValue_iff]

/-! ### Setters -/

/-- Whether a line sets a property with its resolved setter in code of a package. -/
def Sets (component : Component) (package : String) (property : PropertyValue) (line : Line) :
    Prop :=
  ∃ setter target code, component.setter? property = some setter ∧ setter.parameters = [target] ∧
    component.IsValue target property.value code ∧
    line.States fun typeText =>
      settingText typeText component package setter target (code.render typeText)

theorem Sets.setsProperty {line : Line} (sets : component.Sets package property line) :
    line.setsProperty = true := by
  obtain ⟨setter, target, code, -, -, -, states⟩ := sets
  exact setsProperty_of_states states

theorem exists_argumentCodes_iff :
    (∃ arguments, component.argumentCodes creator = .ok arguments) ↔
      ∀ (position : Nat) (parameter : TypeName) (value : Value),
        creator.parameters[position]? = some parameter →
          component.definition.arguments.get? position = some value →
            component.Converts parameter value := by
  simp only [argumentCodes, Except.exists_mapM_eq_ok_iff, Prod.forall, exists_argumentCode_iff,
    List.mem_zipIdx_iff_getElem?]
  exact ⟨fun each position parameter value found => each parameter position found value,
    fun each parameter position found value => each position parameter value found⟩

theorem registration_eq_ok_iff {block : Block} :
    component.registration package creator = .ok block ↔
      ∃ arguments setters, component.argumentCodes creator = .ok arguments ∧
        component.injections.mapM (component.injectionCode package) = .ok setters ∧
        block = component.registrationCall (component.creation package creator arguments)
          setters := by
  simp only [registration, instanceCode, Except.bind_eq_ok, Except.map_eq_ok, pure, Except.pure,
    Except.ok.injEq]
  constructor
  · rintro ⟨code, ⟨arguments, argued, rfl⟩, setters, converted, rfl⟩
    exact ⟨arguments, setters, argued, converted, rfl⟩
  · rintro ⟨arguments, setters, argued, converted, rfl⟩
    exact ⟨_, ⟨arguments, argued, rfl⟩, setters, converted, rfl⟩

/-- Resolution without problems and a registration make the outcome of a write. -/
theorem write_of_registration (draft : Draft) {block : Block}
    (resolved : component.creator? = some creator) (no_problem : component.problems = [])
    (coded : component.registration (component.targetPackage draft.package) creator = .ok block) :
    component.write draft =
      ⟨component.place
        (draft.reflect (component.recordedMembers (component.targetPackage draft.package) creator))
        (component.targetPackage draft.package) block, none⟩ := by
  simp only [write, resolved, no_problem, writeWith, coded]

/-- The class of the target package hosts a registration that can be made. -/
theorem hosts_of_registration (draft : Draft) {block : Block}
    (resolved : component.creator? = some creator) (no_problem : component.problems = [])
    (coded : component.registration (component.targetPackage draft.package) creator = .ok block) :
    draft.Hosts (component.write draft).draft block (component.targetPackage draft.package) := by
  rw [write_of_registration draft resolved no_problem coded]
  exact (component.hosts_place _ _ block).of_reflect

/-- Writing succeeds exactly when a registration can be made. -/
theorem problem?_write_eq_none_iff {draft : Draft} :
    (component.write draft).problem? = none ↔
      ∃ creator, component.creator? = some creator ∧ component.problems = [] ∧
        ∃ block, component.registration (component.targetPackage draft.package) creator =
          .ok block := by
  unfold write
  split
  next creator resolved no_problem =>
    simp only [writeWith, resolved, no_problem, Option.some.injEq, exists_eq_left', true_and]
    split
    next block coded => simp [coded]
    next problem failed => simp [failed]
  next unresolved no_problem => simp [unresolved]
  next problem problems none_nil listed => simp [listed]

end Component

namespace Sample

/-- Component whose hidden constructor takes an autowired and an explicit argument, with one setter
that is called directly and one that is not. -/
def connector : Component where
  container :=
    { container with
      types := .ofList
        [⟨⟨"com.app.Connector"⟩, .classType, .publicAccess, none, [], [],
          [⟨[⟨"com.app.Server"⟩, ⟨"int"⟩], .privateAccess, []⟩],
          [⟨"setLabel", [.string], .void, .publicAccess, false, []⟩,
            ⟨"setLimit", [⟨"int"⟩], .void, .privateAccess, false, []⟩,
            ⟨"open", [], .void, .publicAccess, false, []⟩], []⟩] }
  name := "connector"
  definition :=
    { definition "com.app.Connector" .declared
        [⟨"limit", .literal "-7"⟩, ⟨"label", .reference "text"⟩] (some "open") with
      arguments := SortedMap.empty.insert 1 (.literal "80") }

/-- Draft without code of components. -/
def blank : Draft := .start "com.app" "Boot" .empty

end Sample

end Wiring
