import Conductor.Capture.IndexLaw
import Conductor.Capture.OwnershipLaw
import Conductor.Capture.CameraQueueLaw
import Conductor.Capture.ArtifactWriterLaw
import Conductor.Session.LifecycleLaw
import Conductor.Session.InventoryLaw
import Conductor.Session.PublicationLaw
import Conductor.Live.TailLaw
import Conductor.Timestamps.AlignmentLaw
import Conductor.Recovery.FramesLaw
import Conductor.Audio.CheckpointLaw
import Conductor.Control.ClockSyncLaw
import Conductor.Live.JournalSealLaw
import Conductor.Persistence.CatalogLaw
import Conductor.Coordinator.LocalStateLaw
import Conductor.Coordinator.StopLaw
import Conductor.Artifact.SealLaw
import Conductor.Session.DeletionLaw
import Conductor.Session.HarvestLaw
import Conductor.Api.NetworkEventsLaw
import Conductor.Firmware.SupervisorLaw
import Conductor.Deployment.UpgradeLaw
import Conductor.Control.NetworkControlLaw
import Conductor.Persistence.StateDatabaseLaw
import Conductor.Api.EventPumpLaw
import Conductor.Coordinator.SafeSwapLaw
import Conductor.Camera.V4l2Law
import Conductor.Coordinator.FocusLaw
import Conductor.Session.SessionIdLaw
import Conductor.Artifact.RangesLaw
import Conductor.Artifact.TransfersLaw
import Conductor.Capture.CadenceLaw
import Conductor.Audio.SegmentsLaw
import Conductor.Audio.ReportLaw
import Conductor.Api.SessionCursorLaw
import Conductor.Recovery.MetadataReaderLaw
import Conductor.Control.WifiScanLaw
import Conductor.Control.NetworkForgetLaw
import Conductor.Firmware.ControlServerLaw
import Conductor.Imu.CollectorLaw
import Conductor.Deployment.RuntimeArchiveLaw
import Conductor.Control.NetworkHealthLaw
import Conductor.Control.NetworkApplyLaw
import Conductor.Capture.ScatterWriteLaw
import Conductor.Api.EventRestart
import Conductor.Persistence.RestoreLaw
import Conductor.Api.HttpCapacityLaw
import Conductor.Stereo.TakeLaw
