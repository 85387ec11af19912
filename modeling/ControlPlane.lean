import ControlPlane.LocalConfig.Command
import ControlPlane.Main
import ControlPlane.Proofs.Daemon.Restarts
import ControlPlane.Proofs.Http.AccessIsolation
import ControlPlane.Proofs.Http.ConnectionClass
import ControlPlane.Proofs.Http.EncodedNames
import ControlPlane.Proofs.Http.FailureEnvelope
import ControlPlane.Proofs.Http.Linearizable
import ControlPlane.Proofs.Http.LockTokens
import ControlPlane.Proofs.Http.TokenlessWrite
import ControlPlane.Proofs.Http.WireRoundTrip
import ControlPlane.Proofs.LocalConfig.GateSnapshot
import ControlPlane.Proofs.LocalConfig.MinimalPatch
import ControlPlane.Proofs.Service.GateRegister
import ControlPlane.Proofs.Store.ReadPaths
import ControlPlane.Proofs.Store.UpgradeEffect
import ControlPlane.Proofs.Sync.AliasRemoval
import ControlPlane.Proofs.Sync.CommandReading
import ControlPlane.Proofs.Sync.Echo
import ControlPlane.Proofs.Sync.ModeGating
import ControlPlane.Proofs.Sync.OneWrite
import ControlPlane.Proofs.Sync.Shutdown
import ControlPlane.Proofs.Sync.Spacing
