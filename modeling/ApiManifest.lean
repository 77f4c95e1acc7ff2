import ApiManifest.CommandLine.Run
import ApiManifest.Main
import ApiManifest.Proofs.Generation
import ApiManifest.Proofs.Resolution
import ApiManifest.Proofs.Demands
import ApiManifest.Proofs.AuthenticationRules
import ApiManifest.Proofs.MeshCoverage
import ApiManifest.Proofs.RouteSelection
import ApiManifest.Proofs.OutputFormats
import ApiManifest.Proofs.DisabledOperations
import ApiManifest.Proofs.Inheritance
import ApiManifest.Proofs.SharedAuthentication
import ApiManifest.Proofs.SecurityFailures
import ApiManifest.Proofs.DescriptorListing
import ApiManifest.Proofs.SharedFailures
import ApiManifest.Proofs.MeshAgreement
import ApiManifest.Proofs.DocumentOrder
import ApiManifest.Proofs.WireTypes
import ApiManifest.Proofs.CommandRuns
import ApiManifest.Proofs.PolicyContent
import ApiManifest.Proofs.LimitNames
import ApiManifest.Proofs.LimitContent
import ApiManifest.Proofs.ParameterOverriding
import ApiManifest.Proofs.DanglingReferences
import ApiManifest.Proofs.MatchShape
import ApiManifest.Proofs.AbsolutePaths
import ApiManifest.Proofs.RelativeUrls
import ApiManifest.Proofs.AbsoluteUrls
import ApiManifest.Proofs.Ports
import ApiManifest.Proofs.Substitution
import ApiManifest.Proofs.DerivedNames
import ApiManifest.Proofs.ParameterPlaces
import ApiManifest.Proofs.Json.Documents
import ApiManifest.Proofs.FallbackNames
import ApiManifest.Proofs.OptionOrder
import ApiManifest.Proofs.GatewayLabels
