import Barrage.Main
import Barrage.Format.Event
import Barrage.Format.Recording
import Barrage.Format.State
import Barrage.Json.Printer
import Barrage.Proofs.TimerQueue.Firing
import Barrage.Proofs.TimerQueue.Timetable
import Barrage.Proofs.Fight.Run
import Barrage.Proofs.Input.Recording
import Barrage.Proofs.Input.Compression
import Barrage.Proofs.Input.Storage
import Barrage.Proofs.Input.Playback
import Barrage.Proofs.Input.Debounce
import Barrage.Proofs.Input.Blocks
import Barrage.Proofs.Input.History
import Barrage.Proofs.Fight.Replay
import Barrage.Proofs.Fight.Aside
import Barrage.Proofs.Fight.Pause
import Barrage.Proofs.Fight.Integrity
import Barrage.Proofs.Fight.Stages
import Barrage.Proofs.TimerQueue.Following
import Barrage.Proofs.TimerQueue.Single
import Barrage.Proofs.Fight.Windows
import Barrage.Proofs.Fight.Lives
import Barrage.Proofs.Fight.Arrivals
import Barrage.Proofs.Level
import Barrage.Proofs.World.Volley
import Barrage.Proofs.Routine.Course
import Barrage.Proofs.Enemy.Schedule
import Barrage.Proofs.Fight.Energy
import Barrage.Proofs.Fight.Turns
import Barrage.Proofs.Fight.Lifecycle
import Barrage.Proofs.Fight.Ledger
import Barrage.Proofs.Fight.Hits
import Barrage.Proofs.Fight.Fingerprint
import Barrage.Proofs.Fight.Bounds
import Barrage.Proofs.Fight.Seed
import Barrage.Proofs.TimerQueue.Sums
import Barrage.Proofs.Routine.Expansion
import Barrage.Proofs.Fight.Faults
import Barrage.Proofs.Fight.Order
import Barrage.Proofs.World.Handles
import Barrage.Proofs.Fight.Playfield
import Barrage.Proofs.Fight.Confinement
import Barrage.Proofs.Input.Delay
import Barrage.Proofs.Input.PauseKey
import Barrage.Proofs.Routine.ShotTable
import Barrage.Proofs.Prng
import Barrage.Proofs.Prng.Seeds
import Barrage.Proofs.Routine.Clock
import Barrage.Proofs.Routine.Ongoing
import Barrage.Proofs.Routine.LastFrame
import Barrage.Proofs.Player.Cadence
import Barrage.Proofs.World.Clamping
import Barrage.Proofs.World.Overlap
import Barrage.Proofs.World.Spawning
import Barrage.Proofs.Format.OtherKinds
import Barrage.Proofs.Loading
import Barrage.Proofs.Format.RoundTrip
