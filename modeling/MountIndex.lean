import MountIndex.Path
import MountIndex.Device
import MountIndex.Mount
import MountIndex.Duration
import MountIndex.Text.Printable
import MountIndex.Text.Quoted
import MountIndex.Text.WhiteSpace
import MountIndex.Text.Utf8
import MountIndex.Table.Entry
import MountIndex.Table.Parse
import MountIndex.Error
import MountIndex.Files
import MountIndex.Proc
import MountIndex.Store
import MountIndex.MountMap
import MountIndex.Lru
import MountIndex.Redemption
import MountIndex.Limiter
import MountIndex.Json.Float
import MountIndex.Json.Value
import MountIndex.Json.Mismatch
import MountIndex.Json.Scan
import MountIndex.Config.Basic
import MountIndex.Config.Text
import MountIndex.Config.OfValue
import MountIndex.Config.Load
import MountIndex.Resolver.Basic
import MountIndex.Resolver.Teardown
import MountIndex.Resolver.Path
import MountIndex.Resolver.Resolve
import MountIndex.Resolver.Stats
import MountIndex.Resolver.Report
import MountIndex.Maintenance
import MountIndex.Cli.Spec
import MountIndex.Cli.Value
import MountIndex.Cli.Similar
import MountIndex.Cli.Interface
import MountIndex.Cli.Scope
import MountIndex.Cli.Help
import MountIndex.Cli.Refusal
import MountIndex.Cli.Parse
import MountIndex.Cli.Invocation
import MountIndex.Cli.Output
import MountIndex.Cli.Run
import MountIndex.Main
import MountIndex.Proofs.Entries
import MountIndex.Proofs.Teardown
import MountIndex.Proofs.Retire
import MountIndex.Proofs.Sound
import MountIndex.Proofs.Lookup
import MountIndex.Proofs.Reachable
import MountIndex.Proofs.Redemption
import MountIndex.Proofs.Removal
import MountIndex.Proofs.Paths
import MountIndex.Proofs.Memo
import MountIndex.Proofs.Lifecycle
import MountIndex.Proofs.Hit
import MountIndex.Proofs.Fallback
import MountIndex.Proofs.Reconcile
import MountIndex.Proofs.Utf8
import MountIndex.Proofs.Lines
import MountIndex.Proofs.TableText
import MountIndex.Proofs.Finalize
import MountIndex.Proofs.Walk
import MountIndex.Proofs.Drain
import MountIndex.Proofs.Miss
import MountIndex.Proofs.Merge
import MountIndex.Proofs.Recency
import MountIndex.Proofs.MapRefinement
import MountIndex.Proofs.RateBound
import MountIndex.Proofs.KeySpace
import MountIndex.Proofs.DeviceNumbers
import MountIndex.Proofs.CleanPath
