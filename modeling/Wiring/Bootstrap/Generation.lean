import Wiring.Bootstrap.Processors
import Wiring.Bootstrap.Sections
import Wiring.Bootstrap.Settings
import Wiring.Reachability.Snapshot
import Wiring.Registration.Writer

/-!
# Generation

A run turns a container into bootstrap sources and a snapshot of the registry.  Components that no
supplier recognizes are logged and left out; every other failure stops the run, and then only the
log remains.
-/

namespace Wiring

/-- Everything that shapes a run beside the container. -/
structure Generator where
  /-- Settings of the run. -/
  settings : Settings
  /-- Sources of writers, in order. -/
  suppliers : List Supplier
  /-- Choice of components. -/
  selector : Selector
  /-- Hints beside the built-in ones. -/
  hints : List Hint
  /-- Processors that run after the built-in ones. -/
  processors : Processors

namespace Generator

/-- Generator with the built-in suppliers and the selector that the settings describe. -/
def ofSettings (settings : Settings) : Generator :=
  ⟨settings, Supplier.builtIn, .ofSettings settings, [], .none⟩

end Generator

/-- Counts of a run. -/
structure Statistics where
  /-- Components the container lists. -/
  components : Nat
  /-- Components the selector skips. -/
  skipped : Nat
  /-- Components no supplier recognizes. -/
  unhandled : Nat
  /-- Components that were written. -/
  written : Nat
  deriving DecidableEq, Repr

/-- State of a run: while components are written, and as its result once the draft is finished. -/
structure Progress where
  /-- Output so far. -/
  draft : Draft
  /-- Plans of the written components. -/
  plans : List Plan
  /-- Counts so far. -/
  statistics : Statistics
  /-- Messages about components that were left out so far. -/
  log : List String
  deriving DecidableEq

/-- A run that was stopped. -/
structure Stopped where
  /-- Cause of the stop. -/
  failure : Failure
  /-- Messages up to the stop. -/
  log : List String
  deriving DecidableEq

namespace Progress

/-- Stop a run, keeping its log. -/
def stop {α : Type} (progress : Progress) (failure : Failure) : Except Stopped α :=
  .error ⟨failure, progress.log⟩

/-- Continue with a value, or stop at a failure. -/
def attempt {ε α : Type} (progress : Progress) (wrap : ε → Failure) (result : Except ε α) :
    Except Stopped α :=
  result.mapError fun cause => ⟨wrap cause, progress.log⟩

/-- Count a skipped component. -/
def skip (progress : Progress) : Progress :=
  { progress with
    statistics := { progress.statistics with skipped := progress.statistics.skipped + 1 } }

/-- Message about a component that no supplier recognizes. -/
def unhandledMessage (name : String) (definition : Definition) : String :=
  "Failed to handle component " ++ name ++ " with definition " ++ definition.describe

/-- Count and log a component that no supplier recognizes. -/
def leaveOut (progress : Progress) (name : String) (definition : Definition) : Progress :=
  { progress with
    statistics := { progress.statistics with unhandled := progress.statistics.unhandled + 1 }
    log := progress.log ++ [unhandledMessage name definition] }

/-- Write a component. -/
def write (progress : Progress) (name : String) (writer : Writer) : Except Stopped Progress :=
  let written := writer.write progress.draft
  match written.problem? with
  | some problem => progress.stop (.writeFailed name problem)
  | none =>
      .ok { progress with
        draft := written.draft
        plans := progress.plans ++ [writer.plan]
        statistics := { progress.statistics with written := progress.statistics.written + 1 } }

/-- Handle one component: select it, find its writer and write it. -/
def handle (selector : Selector) (suppliers : List Supplier) (container : Container)
    (progress : Progress) (name : String) : Except Stopped Progress := do
  let definition ← progress.attempt .container (container.merged name)
  let selected ← progress.attempt id (selector.select name definition)
  if !selected then return progress.skip
  match suppliers.findSome? (·.writer? name definition) with
  | some writer => progress.write name writer
  | none => return progress.leaveOut name definition

/-- Run processors over the registry of the draft. -/
def process (progress : Progress) (container : Container) (processors : Processors) :
    Except Stopped Progress :=
  match
    ContainerProcessor.processAll container progress.draft.registry processors.ofContainer with
  | (_, some cause) => progress.stop (.container cause)
  | (registry, none) =>
      .ok { progress with
        draft :=
          { progress.draft with
            registry :=
              ComponentProcessor.processAll container.types progress.plans registry
                processors.ofComponents } }

end Progress

/-- Entry method with a given body. -/
def entryMethod (body : Block) : Method where
  name := "initialize"
  modifiers := [.publicMember]
  annotations := [Framework.override]
  returnType := none
  parameters := [⟨Framework.genericContext, "context"⟩]
  body

/-- Draft with its entry method added to the main class. -/
def Draft.finish (draft : Draft) : Draft :=
  { draft with main := draft.main.addMethod (entryMethod draft.body) }

namespace Progress

/-- Run with its draft finished. -/
def finish (progress : Progress) : Progress := { progress with draft := progress.draft.finish }

/-- Source files, the main class first. -/
def sources (progress : Progress) : List SourceFile := progress.draft.sourceFiles

/-- Content of the registry. -/
def snapshot (progress : Progress) : Snapshot := progress.draft.registry.snapshot

end Progress

namespace Generator

/-- State before the first component. -/
def start (generator : Generator) (container : Container) (package : String) : Progress where
  draft :=
    (Draft.start package generator.settings.className
      (.ofOptions generator.settings.options)).append
      (if generator.settings.infrastructure then container.metadata.infrastructureSection else [])
  plans := []
  statistics := ⟨container.names.length, 0, 0, 0⟩
  log := []

/-- State after every component is handled. -/
def handleAll (generator : Generator) (container : Container) (package : String) :
    Except Stopped Progress :=
  container.names.foldlM
    (Progress.handle generator.selector (generator.suppliers.map (·.attach container)) container)
    (generator.start container package)

/-- Add the event listener section where it is asked for. -/
def addListeners (generator : Generator) (container : Container) (draft : Draft) : Draft :=
  if generator.settings.eventListeners then
    draft.addListeners container.metadata.eventListeners
  else
    draft

/-- Generate the bootstrap classes of a container, the main one in the given package. -/
def generate (generator : Generator) (container : Container) (package : String) :
    Except Stopped Progress :=
  match generator.settings.faultFor? package with
  | some fault => .error ⟨.settings fault, []⟩
  | none => do
      let progress ← generator.handleAll container package
      let progress ←
        progress.process container (Processors.builtIn generator.hints ++ generator.processors)
      return { progress with draft := generator.addListeners container progress.draft }.finish

end Generator
end Wiring
