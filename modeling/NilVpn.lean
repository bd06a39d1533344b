import NilVpn.Attest.Appraise
import NilVpn.Client.Engine
import NilVpn.Client.Trust
import NilVpn.Datapath.Delivery
import NilVpn.Datapath.LeakWindow
import NilVpn.Durable.TwoSets
import NilVpn.Ledger.FileFormat
import NilVpn.Ledger.Migration
import NilVpn.Ledger.OneResponse
import NilVpn.Ledger.Postgres
import NilVpn.Node.AmneziaRoutes
import NilVpn.Node.EndToEnd
import NilVpn.Node.Isolation
import NilVpn.Node.Restart
import NilVpn.Portal.Activation
import NilVpn.Portal.CardRail
import NilVpn.Portal.FileRefinement
import NilVpn.Portal.MintReplay
import NilVpn.Portal.PostgresRefinement
import NilVpn.Portal.Refunds
import NilVpn.SecureStore.Migration
import NilVpn.SecureStore.Reservations
import NilVpn.Transport.Mtu
import NilVpn.Transport.Onion
import NilVpn.Transport.Reality
import NilVpn.Node.Gso
import NilVpn.Node.Retry
import NilVpn.Transport.Cascade
import NilVpn.Node.PqWg
import NilVpn.Portal.RateLimit
import NilVpn.Client.Hex
import NilVpn.Crypto.Psk
import NilVpn.Datapath.Windows
import NilVpn.Node.Forward
