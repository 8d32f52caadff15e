import MountControl.Control.Session
import MountControl.Main
import MountControl.Proofs.CommandNames
import MountControl.Proofs.CommandResults
import MountControl.Proofs.ExitStatus
import MountControl.Proofs.LayeredSettings
import MountControl.Proofs.LimitedWriting
import MountControl.Proofs.PatientInvocations
import MountControl.Proofs.PlainReports
import MountControl.Proofs.ReadableReport
import MountControl.Proofs.ShortReplies
import MountControl.Proofs.TimedInvocations
import MountControl.Proofs.WholeReports
import MountControl.Proofs.GrowingTrees
import MountControl.Proofs.LogSetups
import MountControl.Proofs.ArgumentLines
import MountControl.Proofs.ArgumentOrder
import MountControl.Proofs.LimitTexts
import MountControl.Proofs.LevelFilters
import MountControl.Proofs.PackedCodes
import MountControl.Proofs.UnrelatedVariables
import MountControl.Proofs.FallibleSteps
import MountControl.Proofs.ArgumentSteps
import MountControl.Proofs.ExtraArguments
import MountControl.Proofs.SnapshotBytes
import MountControl.Proofs.NormalPaths
import MountControl.Proofs.JsonStrings
import MountControl.Proofs.JsonGrammar
import MountControl.Proofs.JsonRecords
import MountControl.Proofs.SnapshotTexts
