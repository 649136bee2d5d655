import Wiring.Proofs.CreatorCalls

/-!
# Texts of registrations

A registration hands the context a name, a type and an expression that makes the instances.  The
expression stands in the call itself, or is assigned to a variable whose properties are set before
it is returned.  `Block.Supplies` says which expression a block supplies, by the texts of its lines;
attributes of the definition are set by statements of their own.
-/

namespace Wiring

/-! ### Expressions that make the instances -/

/-- Text with which the registration of a component under a type begins. -/
def registrationOpening (typeText : TypeName → String) (name : String) (type : TypeName) : String :=
  "context.registerBean(" ++ Text.quote name ++ ", " ++ typeText type ++ ".class, () ->"

/-- Whether a block registers a component under a type, with an expression that makes the
instances. -/
inductive Block.Supplies (name : String) (type : TypeName) (expression : Wording) : Block → Prop
  /-- The call is a statement. -/
  | alone {call : Line}
      (calls : call.States fun typeText =>
        registrationOpening typeText name type ++ " " ++ expression typeText ++ ")") :
      Supplies name type expression [call]
  /-- Attributes of the definition follow the expression. -/
  | attributed {call : Fragment} {rest : Block}
      (calls : call.Reads fun typeText =>
        registrationOpening typeText name type ++ " " ++ expression typeText ++
          ", (definition) -> \x7b") :
      Supplies name type expression (.code call :: rest)
  /-- The expression is assigned before properties are set. -/
  | assigned {call : Fragment} {first : Line} {rest : Block}
      (calls : call.Reads fun typeText => registrationOpening typeText name type ++ " \x7b")
      (assigns : first.States fun typeText => typeText type ++ " bean = " ++ expression typeText) :
      Supplies name type expression (.code call :: .indent :: first :: rest)

namespace Component

theorem toList_registrationOpening (typeText : TypeName → String) (name : String)
    (type : TypeName) :
    (registrationOpening typeText name type).toList =
      "context.registerBean(".toList ++ Text.quoteChars name.toList ++ ", ".toList ++
        (typeText type).toList ++ ".class, () ->".toList := by
  unfold registrationOpening
  simp only [String.toList_append, Text.quote, String.toList_ofList]

/-- A registration supplies the instance expression that it is given. -/
theorem supplies_registrationCall (component : Component) {code : Fragment} {expression : Wording}
    (reads : code.Reads expression) (setters : Block) :
    (component.registrationCall code setters).Supplies component.name component.producedType
      expression := by
  have chars := Fragment.reads_iff.mp reads
  unfold registrationCall
  simp only [Block.statement, Block.openBrace, List.cons_append, List.nil_append,
    List.append_assoc]
  split
  · split
    · refine .alone (Line.states_statement_iff.mpr fun typeText => ?_)
      simp [toList_registrationOpening, Fragment.format, Placeholder.fill, Text.quote, chars]
    · refine .attributed (Fragment.reads_iff.mpr fun typeText => ?_)
      simp [toList_registrationOpening, Fragment.format, Placeholder.fill, Text.quote, chars]
  · refine .assigned (Fragment.reads_iff.mpr fun typeText => ?_)
      (Line.states_statement_iff.mpr fun typeText => ?_)
    · simp [toList_registrationOpening, Fragment.format, Placeholder.fill, Text.quote]
    · simp [Fragment.format, Placeholder.fill, chars]

/-! ### Statements that set properties -/

/-- Text of the direct call of a setter, with the text of the value. -/
def directSetting (setter : Executable) (value : String) : String :=
  "bean." ++ setter.name ++ "(" ++ value ++ ")"

/-- Text of the reflective call of a setter that takes a type, with the text of the value. -/
def reflectiveSetting (typeText : TypeName → String) (setter : Executable) (target : TypeName)
    (value : String) : String :=
  typeText Framework.reflectionUtils ++ ".invokeMethod(" ++ typeText Framework.reflectionUtils ++
    ".findMethod(" ++ typeText setter.declaringType ++ ".class, " ++ Text.quote setter.name ++
    ", " ++ typeText target ++ ".class), bean, " ++ value ++ ")"

/-- Text of the call of a setter that takes a type, in code of a package. -/
def settingText (typeText : TypeName → String) (component : Component) (package : String)
    (setter : Executable) (target : TypeName) (value : String) : String :=
  if component.types.isAccessible setter package then directSetting setter value
  else reflectiveSetting typeText setter target value

end Component

/-- Characters of code when type names are left out. -/
def Fragment.bareChars (fragment : Fragment) : List Char := fragment.chars fun _ => ""

/-- Whether a line is a statement that sets a property of the instance. -/
def Line.setsProperty : Line → Bool
  | .statement fragment =>
      "bean.".toList.isPrefixOf fragment.bareChars ||
        ".invokeMethod(".toList.isPrefixOf fragment.bareChars
  | _ => false

namespace Component

theorem setsProperty_of_states {line : Line} {component : Component} {package : String}
    {setter : Executable} {target : TypeName} {value : Wording}
    (states : line.States fun typeText =>
      settingText typeText component package setter target (value typeText)) :
    line.setsProperty = true := by
  obtain ⟨fragment, rfl, reads⟩ := states
  rw [Line.setsProperty, Fragment.bareChars, Fragment.reads_iff.mp reads, settingText]
  split
  · simp [directSetting]
  · simp [reflectiveSetting]

end Component

/-! ### Statements that set attributes -/

namespace Component

end Component
end Wiring
