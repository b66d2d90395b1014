import ChipEight.Address
import ChipEight.CommandLine.Grammar
import ChipEight.CommandLine.Options
import ChipEight.Emulator
import ChipEight.Fault
import ChipEight.Grid
import ChipEight.Instruction.Decoder
import ChipEight.Instruction.Form
import ChipEight.Instruction.Mnemonic
import ChipEight.Instruction.Template
import ChipEight.Machine.Access
import ChipEight.Machine.CallStack
import ChipEight.Machine.Font
import ChipEight.Machine.Keypad
import ChipEight.Machine.Memory
import ChipEight.Machine.Perform
import ChipEight.Machine.Registers
import ChipEight.Machine.Screen
import ChipEight.Machine.State
import ChipEight.Machine.Timer
import ChipEight.Main
import ChipEight.Nibble
import ChipEight.Proofs.Abandoned
import ChipEight.Proofs.Access
import ChipEight.Proofs.Actions
import ChipEight.Proofs.Alongside
import ChipEight.Proofs.Arithmetic
import ChipEight.Proofs.Assembly
import ChipEight.Proofs.Backing
import ChipEight.Proofs.Calls
import ChipEight.Proofs.Chain
import ChipEight.Proofs.Commuting
import ChipEight.Proofs.Components
import ChipEight.Proofs.Counter
import ChipEight.Proofs.Counting
import ChipEight.Proofs.Crashes
import ChipEight.Proofs.Cycle
import ChipEight.Proofs.Decoding
import ChipEight.Proofs.Digits
import ChipEight.Proofs.Displays
import ChipEight.Proofs.Drawing
import ChipEight.Proofs.Effect
import ChipEight.Proofs.Encoding
import ChipEight.Proofs.Endings
import ChipEight.Proofs.Execution
import ChipEight.Proofs.Failure
import ChipEight.Proofs.Footprint
import ChipEight.Proofs.Glyphs
import ChipEight.Proofs.HeldKeys
import ChipEight.Proofs.Histories
import ChipEight.Proofs.Hooks
import ChipEight.Proofs.Identities
import ChipEight.Proofs.Images
import ChipEight.Proofs.Invariant
import ChipEight.Proofs.KeyWaits
import ChipEight.Proofs.Keys
import ChipEight.Proofs.Layout
import ChipEight.Proofs.Ledger
import ChipEight.Proofs.Loading
import ChipEight.Proofs.Nesting
import ChipEight.Proofs.Notices
import ChipEight.Proofs.Numerals
import ChipEight.Proofs.Offsets
import ChipEight.Proofs.Outstanding
import ChipEight.Proofs.Painting
import ChipEight.Proofs.Parts
import ChipEight.Proofs.Perform
import ChipEight.Proofs.Pixels
import ChipEight.Proofs.Plotting
import ChipEight.Proofs.Redrawing
import ChipEight.Proofs.Repetition
import ChipEight.Proofs.Report
import ChipEight.Proofs.Runs
import ChipEight.Proofs.Shown
import ChipEight.Proofs.Silence
import ChipEight.Proofs.Specificity
import ChipEight.Proofs.Sprites
import ChipEight.Proofs.Stack
import ChipEight.Proofs.Started
import ChipEight.Proofs.Stopping
import ChipEight.Proofs.Surroundings
import ChipEight.Proofs.Timing
import ChipEight.Proofs.TraceLines
import ChipEight.Proofs.Transfers
import ChipEight.Proofs.Unobserved
import ChipEight.Proofs.Waiting
import ChipEight.Session.Cycle
import ChipEight.Session.Events
import ChipEight.Session.Host
import ChipEight.Session.Loading
import ChipEight.Session.State
import ChipEight.Session.Transcript
import ChipEight.Settings
import ChipEight.Text.Integer
import ChipEight.Text.Numeral
import ChipEight.Text.Printable
import ChipEight.Text.Quoted
import ChipEight.Text.UpperCase
import ChipEight.Window.Keyboard
import ChipEight.Window.Opening
import ChipEight.Window.Surface
import ChipEight.Word
