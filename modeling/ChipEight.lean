import ChipEight.Main
import ChipEight.Proofs.Alignment
import ChipEight.Proofs.Arithmetic
import ChipEight.Proofs.Beeps
import ChipEight.Proofs.Calls
import ChipEight.Proofs.Decoding
import ChipEight.Proofs.Diagnostics
import ChipEight.Proofs.Epoch
import ChipEight.Proofs.Flow
import ChipEight.Proofs.KeyWait
import ChipEight.Proofs.LastWrite
import ChipEight.Proofs.Noninterference
import ChipEight.Proofs.Pace
import ChipEight.Proofs.Picture
import ChipEight.Proofs.Renewal
import ChipEight.Proofs.SavedRegisters
import ChipEight.Proofs.Sessions
import ChipEight.Proofs.Sprites
import ChipEight.Proofs.WellFormed
import ChipEight.Proofs.Stores
import ChipEight.Proofs.Overlays
import ChipEight.Proofs.Collision
import ChipEight.Proofs.Polling
import ChipEight.Proofs.Keystrokes
import ChipEight.Proofs.Frames
import ChipEight.Proofs.Loading
import ChipEight.Proofs.AssemblyText
import ChipEight.Proofs.TableOrder
import ChipEight.Proofs.CrashDump
import ChipEight.Proofs.BoundedList
