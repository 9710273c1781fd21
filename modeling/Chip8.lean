import Chip8.Bench
import Chip8.FileTree
import Chip8.Main
import Chip8.Proofs.Calls
import Chip8.Proofs.Grouping
import Chip8.Proofs.LowBits
import Chip8.Proofs.Restart
import Chip8.Proofs.Shown
import Chip8.Proofs.Shutdown
import Chip8.Proofs.Timers
import Chip8.Proofs.HeldKeys
import Chip8.Proofs.Closing
import Chip8.Proofs.Logging
import Chip8.Proofs.RestartShown
import Chip8.Proofs.Loading
import Chip8.Proofs.RandomSource
import Chip8.Proofs.Keyless
import Chip8.Proofs.Launch
import Chip8.Proofs.Drawing
import Chip8.Proofs.Footprint
import Chip8.Proofs.Rendering
import Chip8.Proofs.Decoding
import Chip8.Proofs.ControlFlow
import Chip8.Proofs.Flags
import Chip8.Proofs.Transfer
import Chip8.Proofs.Tones
import Chip8.Proofs.Torus
import Chip8.Proofs.Watchers
import Chip8.Proofs.Writes
