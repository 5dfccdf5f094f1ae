import PlanarDrive.Main
import PlanarDrive.Journal.Table
import PlanarDrive.Proofs.SafeCreep
import PlanarDrive.Proofs.CallLimit
import PlanarDrive.Proofs.HistoryChain
import PlanarDrive.Proofs.SampleTimes
import PlanarDrive.Proofs.RunArchive
import PlanarDrive.Proofs.TornJournal
import PlanarDrive.Proofs.BlindMotion
import PlanarDrive.Proofs.MissionRecords
import PlanarDrive.Proofs.Odometry
import PlanarDrive.Proofs.RunReport
import PlanarDrive.Proofs.HitDistance
import PlanarDrive.Proofs.NearestHit
import PlanarDrive.Proofs.BeamFan
import PlanarDrive.Proofs.PlaneSymmetry
import PlanarDrive.Proofs.ArcError
import PlanarDrive.Proofs.CreepLength
import PlanarDrive.Proofs.PathLength
import PlanarDrive.Proofs.Frames
import PlanarDrive.Proofs.StoppedPlans
import PlanarDrive.Proofs.Verdicts
import PlanarDrive.Proofs.Standings
import PlanarDrive.Proofs.ShownHeading
import PlanarDrive.Proofs.MatchedDocuments
import PlanarDrive.Proofs.SettingKeys
import PlanarDrive.Proofs.BlankSections
import PlanarDrive.Proofs.TwinRuns
