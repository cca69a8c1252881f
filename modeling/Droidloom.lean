import Droidloom.Applications.IconText
import Droidloom.Audio.Credits
import Droidloom.Desktop.Activation
import Droidloom.Desktop.ClipDelivery
import Droidloom.Desktop.ClipTransport
import Droidloom.Desktop.Notifications
import Droidloom.Framework.WindowPolicy
import Droidloom.Gapps.Config
import Droidloom.Gapps.Derive
import Droidloom.Graphics.Coupling
import Droidloom.Graphics.Hwc3
import Droidloom.Graphics.TaskWindows
import Droidloom.Graphics.Vsync
import Droidloom.Input.EventTime
import Droidloom.Input.RecordCodec
import Droidloom.Power.Capacities
import Droidloom.Power.Holds
import Droidloom.Presenter.BufferRelease
import Droidloom.Presenter.FrameTimeline
import Droidloom.Presenter.LayerFormat
import Droidloom.Presenter.LayerGeometry
import Droidloom.Presenter.Readiness
import Droidloom.Presenter.SceneVerdict
import Droidloom.Presenter.StagedScene
import Droidloom.Source.Lock
import Droidloom.Source.MesaTree
import Droidloom.Supervisor.AddonVerify
import Droidloom.Supervisor.AppProperties
import Droidloom.Supervisor.ControlStream
import Droidloom.Supervisor.FilesystemGuard
import Droidloom.Supervisor.MountOrder
import Droidloom.Supervisor.Transaction
import Droidloom.Supervisor.TrustedSpec
import Droidloom.TaskControl.Backend
import Droidloom.TaskControl.ControlCodec
import Droidloom.Timing.GpuUsage
import Droidloom.Update.DexChecksum
