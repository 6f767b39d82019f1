import DataBind.CommandLine.World
import DataBind.Main
import DataBind.Proofs.ClauseSplitting
import DataBind.Proofs.FirstError
import DataBind.Proofs.FilterTokens
import DataBind.Proofs.FilterChains
import DataBind.Proofs.Payloads
import DataBind.Proofs.ClauseReading
import DataBind.Proofs.Acceptance
import DataBind.Proofs.RunEnds
import DataBind.Proofs.ByteOrder
import DataBind.Proofs.IdClashes
import DataBind.Proofs.NormalForm
import DataBind.Proofs.RefusedElements
import DataBind.Proofs.ViewAccount
import DataBind.Proofs.ErrorPolicies
import DataBind.Proofs.Rebinding
import DataBind.Proofs.ReadablePayloads
import DataBind.Proofs.CompiledForm
import DataBind.Proofs.JoinedDeclarations
import DataBind.Proofs.MeteredIds
import DataBind.Proofs.RegistrationLog
import DataBind.Proofs.SharedCounter
import DataBind.Proofs.SessionIds
import DataBind.Proofs.StandingClauses
import DataBind.Proofs.LegacyReading
import DataBind.Proofs.SelectedElements
import DataBind.Proofs.CommandRuns
import DataBind.Proofs.WrittenViews
import DataBind.Proofs.ElementOrder
import DataBind.Proofs.LoweredFields
import DataBind.Proofs.ClauseOrder
import DataBind.Proofs.LoweringKernel
import DataBind.Proofs.JsonReading
import DataBind.Proofs.DistinctTexts
import DataBind.Proofs.UndeclaredElements
import DataBind.Proofs.EngineBindings
import DataBind.Proofs.ViewJson
import DataBind.Proofs.CommandEffects
import DataBind.Proofs.SpecCalls
import DataBind.Proofs.LoweredOperands
import DataBind.Binding.Calls
import DataBind.Proofs.BindingsCalls
import DataBind.Proofs.ModelSelection
import DataBind.Proofs.SeparatorScan
