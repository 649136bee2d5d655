import Wiring.Catalog
import Wiring.Reachability.Request
import Wiring.Bootstrap.Generation
import Wiring.Proofs.BalancedSources
import Wiring.Proofs.EntryMethod
import Wiring.Proofs.OrderIndependence
import Wiring.Proofs.Reflection
import Wiring.Proofs.Inheritance
import Wiring.Proofs.UnambiguousImports
import Wiring.Proofs.Histories
import Wiring.Proofs.HostPackages
import Wiring.Proofs.ClassNames
import Wiring.Proofs.TriggeredHints
import Wiring.Proofs.MemberLookup
import Wiring.Proofs.ClassDescriptors
import Wiring.Proofs.DescriptorFiles
import Wiring.Proofs.NearestDefinitions
import Wiring.Proofs.ReachedMembers
import Wiring.Proofs.Assignability
import Wiring.Proofs.IntegerNumerals
import Wiring.Proofs.ScalarLiterals
import Wiring.Proofs.StringLiterals
import Wiring.Proofs.FormatStrings
import Wiring.Proofs.PrintedTypes
import Wiring.Proofs.ConstructorChoice
import Wiring.Proofs.GroupedLevels
import Wiring.Proofs.RequestedPhases
import Wiring.Proofs.RoutedHints
import Wiring.Proofs.FailedWrites
import Wiring.Proofs.CanonicalFragments
import Wiring.Proofs.MethodNames
import Wiring.Proofs.Indentation
import Wiring.Proofs.FileLines
import Wiring.Proofs.RegistrationLines
