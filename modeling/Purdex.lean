import Purdex.Agent.TitleMarker
import Purdex.Alive.Runs
import Purdex.Backup.Client
import Purdex.Backup.Faithful
import Purdex.Backup.Retention
import Purdex.Broker.Cleanup
import Purdex.Broker.Quarantine
import Purdex.Broker.Reader
import Purdex.Broker.Reconcile
import Purdex.Client.Once
import Purdex.Client.OneSocket
import Purdex.Client.Slots
import Purdex.Core.Paired
import Purdex.Dispatch.Echo
import Purdex.Dispatch.Sender
import Purdex.Editor.Serialized
import Purdex.Events.Broadcaster
import Purdex.Fs.Exact
import Purdex.History.Tail
import Purdex.Hooks.Check
import Purdex.Hooks.Statusline
import Purdex.InApp.Runs
import Purdex.Lifecycle.Reopen
import Purdex.Module.Descendants
import Purdex.Module.Owners
import Purdex.Module.Projection
import Purdex.Monitor.Flights
import Purdex.Monitor.Totals
import Purdex.NewTab.Drop
import Purdex.Pairing.Code
import Purdex.Panes.Accounts
import Purdex.Panes.Reconcile
import Purdex.PathCache.Runs
import Purdex.Rebuild.Batch
import Purdex.Rebuild.Provenance
import Purdex.Recent.Runs
import Purdex.Retry.Loops
import Purdex.Runtime.Canonical
import Purdex.Runtime.Exit
import Purdex.Session.Codec
import Purdex.Session.Converge
import Purdex.Session.Faithful
import Purdex.Session.Rename
import Purdex.Store.Identity
import Purdex.Stream.Exits
import Purdex.Stream.Modes
import Purdex.Stream.Spelling
import Purdex.Stream.Traffic
import Purdex.Sync.Group
import Purdex.Sync.Overwrite
import Purdex.Sync.Pairing
import Purdex.Sync.SnapshotStore
import Purdex.Terminal.Output
import Purdex.Trace.Listing
import Purdex.Trace.Retention
import Purdex.InApp.Unique
