import Fwos.Console
import Fwos.Durable
import Fwos.Effects.Program
import Fwos.FirstBoot
import Fwos.Forwarding
import Fwos.Identity.Revocation
import Fwos.Ipv6Runtime
import Fwos.LanAddress
import Fwos.LanServices
import Fwos.Links
import Fwos.Netd.DraftHistory
import Fwos.NextHops
import Fwos.Ra.LanPrefixes
import Fwos.Ra.Withdrawals
import Fwos.Revalidate
import Fwos.RouterAdvertisement
import Fwos.Routes
import Fwos.Ui.Bootstrap
import Fwos.Ui.Coverage
import Fwos.Ui.DraftFile
import Fwos.Ui.HttpRequest
import Fwos.Ui.LanSync
import Fwos.Ui.ReconcileEcho
import Fwos.Ui.TunnelOverlay
import Fwos.Update.Health
import Fwos.Update.HealthRun
import Fwos.Update.ManualRollback
import Fwos.Update.Pending
import Fwos.Update.Reboot
import Fwos.Update.Registry
import Fwos.Update.RestoreCheck
import Fwos.WanInput
