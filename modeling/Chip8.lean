import Chip8.Main
import Chip8.Machine.Assign
import Chip8.Machine.Run
import Chip8.Machine.View
import Chip8.Proofs.Decoding
import Chip8.Proofs.CallStack
import Chip8.Proofs.Drawing
import Chip8.Proofs.Execution
import Chip8.Proofs.Transition
import Chip8.Proofs.Bounds
import Chip8.Proofs.Runs
import Chip8.Proofs.Conditions
import Chip8.Proofs.Calls
import Chip8.Proofs.Sprites
import Chip8.Proofs.Mnemonics
import Chip8.Proofs.Activities
import Chip8.Proofs.Images
import Chip8.Proofs.Redraw
import Chip8.Proofs.Standstill
import Chip8.Proofs.Inputs
import Chip8.Proofs.Restarts
import Chip8.Proofs.Tones
import Chip8.Proofs.Stores
import Chip8.Proofs.Timers
import Chip8.Proofs.Pauses
import Chip8.Proofs.WriteSets
import Chip8.Proofs.Overlays
import Chip8.Proofs.KeyWaits
import Chip8.Proofs.Synonyms
import Chip8.Proofs.IndexSums
import Chip8.Proofs.Carries
import Chip8.Proofs.Acceptance
import Chip8.Proofs.Wraparound
import Chip8.Proofs.Nesting
import Chip8.Proofs.JsonTexts
import Chip8.Proofs.Routes
import Chip8.Proofs.Messages
import Chip8.Proofs.Configurations
import Chip8.Proofs.RegisterTransfers
import Chip8.Proofs.Batches
import Chip8.Proofs.ChangeReports
import Chip8.Proofs.FailureCaptions
import Chip8.Proofs.Layers
import Chip8.Proofs.Rendering
import Chip8.Proofs.Rotations
import Chip8.Proofs.Loads
import Chip8.Proofs.Files
import Chip8.Proofs.WrittenListings
import Chip8.Proofs.SquareWaves
import Chip8.Proofs.ListingOutcomes
