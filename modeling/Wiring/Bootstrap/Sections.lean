import Wiring.Bootstrap.Draft
import Wiring.Container

/-!
# Sections of the entry method

The infrastructure section sets up the context before components are registered; the event listener
section registers annotated listener methods after them.
-/

namespace Wiring

namespace ContainerMetadata

/-- Code of the set-up of the context. -/
def infrastructureCode (metadata : ContainerMetadata) : Block :=
  Block.statement
      "context.getDefaultListableBeanFactory().setAutowireCandidateResolver(new $T())"
      [.type Framework.candidateResolver] ++
    (if metadata.activeProfiles.isEmpty then []
      else
        Block.statement "context.getEnvironment().setActiveProfiles($L)"
          [.code (.join ", " (metadata.activeProfiles.map fun profile =>
            .format "$S" [.text profile]))]) ++
    metadata.propertySources.flatMap fun source =>
      Block.statement "context.getEnvironment().getPropertySources().addLast(new $T($S, $S))"
        [.type Framework.resourcePropertySource, .text source.name, .text source.location]

/-- Infrastructure section with its comment and closing blank line. -/
def infrastructureSection (metadata : ContainerMetadata) : Block :=
  .comment "infrastructure" :: metadata.infrastructureCode ++ [.blank]

end ContainerMetadata

namespace EventListener

/-- Description of one listener method. -/
def code (listener : EventListener) : Fragment :=
  .format "$T.forBean($S, $T.class).annotatedMethod($S$L)"
    [.type Framework.eventListenerMetadata, .text listener.component,
      .type listener.componentType, .text listener.method.name,
      .code (.concat (listener.method.parameters.map fun parameter =>
        .format ", $T.class" [.type parameter]))]

/-- Lines of listener descriptions, with a comma after each but the last. -/
def lines : List EventListener → Block
  | [] => []
  | [last] => [.code last.code]
  | first :: others => .code (first.code ++ .text ",") :: lines others

/-- Event listener section; nothing without listeners. -/
def listenersSection (listeners : List EventListener) : Block :=
  if listeners.isEmpty then []
  else
    .comment "event listeners" ::
      Block.line "context.registerBean($S, $T.class, () -> new $T(context, $T.of("
        [.text Framework.eventListenerRegistrar.text, .type Framework.eventListenerRegistrar,
          .type Framework.eventListenerRegistrar, .type Framework.list] ++
      [.indent] ++ lines listeners ++ [.unindent] ++ Block.statement ")))" []

end EventListener

/-- Add the event listener section and record the listener methods. -/
def Draft.addListeners (draft : Draft) (listeners : List EventListener) : Draft :=
  (draft.append (EventListener.listenersSection listeners)).reflect
    (listeners.map EventListener.method)

end Wiring
