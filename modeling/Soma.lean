import Soma.Host.Typestate
import Soma.Host.Pool.Listing
import Soma.Host.Pool.Claims
import Soma.Host.Pool.Charged
import Soma.Host.Pool.Reconcile
import Soma.Kvm.Vsock.Hostile
import Soma.Host.Pool.Fingerprint
import Soma.Netd.Reservation
import Soma.Netd.Readable
import Soma.Netd.Durable
import Soma.Netd.Isolation
import Soma.Netd.Publications
import Soma.Netd.PublishedPath
import Soma.Template.Policy
import Soma.Template.Spelling
import Soma.Guest.Listing
import Soma.Generation.Verify
import Soma.Normalize.Apply
import Soma.Kvm.Snapshot.Restores
import Soma.Guest.Record
import Soma.Guest.Secret
import Soma.Generation.TreeFormat
import Soma.Supervise
