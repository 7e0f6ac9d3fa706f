import Chip8.Changes
import Chip8.Delivery
import Chip8.Error.Structure
import Chip8.Host.Frame.Fidelity
import Chip8.Main
import Chip8.Proofs.Frame
import Chip8.Proofs.CallDiscipline
import Chip8.Proofs.Truncation
import Chip8.Proofs.FailedStep
import Chip8.Proofs.ScreenParity
import Chip8.Proofs.Sprite
import Chip8.Proofs.CatchUp
import Chip8.Proofs.Language
import Chip8.Proofs.Session
import Chip8.Proofs.Pace
import Chip8.Proofs.Provenance
import Chip8.Proofs.Reception
import Chip8.Proofs.Schedule
import Chip8.Proofs.PausedTime
import Chip8.Proofs.SessionOutcome
import Chip8.Proofs.Checked
import Chip8.Proofs.CheckedLayout
import Chip8.Proofs.CheckedHandlers
import Chip8.Proofs.CheckedRun
import Chip8.Proofs.Surroundings
import Chip8.Proofs.RandomReplay
import Chip8.Proofs.KeyInfluence
import Chip8.Proofs.TimerLaw
import Chip8.Proofs.FaithfulLog
import Chip8.Proofs.ControlFlow
import Chip8.Proofs.Drawings
import Chip8.Proofs.FlagArithmetic
import Chip8.Proofs.Footprint
import Chip8.Proofs.KeyWait
import Chip8.Proofs.BlockLayout
import Chip8.Proofs.RegisterBlocks
import Chip8.Proofs.Reaction
import Chip8.Proofs.Numeral
import Chip8.Proofs.Wording
import Chip8.Proofs.RoundTrip
