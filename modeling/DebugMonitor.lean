import DebugMonitor.Log.Registry
import DebugMonitor.Cpu.TableBase
import DebugMonitor.Monitor.Session
import DebugMonitor.Proofs.Word.Bits
import DebugMonitor.Proofs.Paging.Agreement
import DebugMonitor.Proofs.Paging.Edit
import DebugMonitor.Proofs.Paging.Resolution
import DebugMonitor.Proofs.Paging.Architecture
import DebugMonitor.Proofs.Command.Reading
import DebugMonitor.Proofs.Monitor.Conduct
import DebugMonitor.Proofs.Monitor.Unlimited
import DebugMonitor.Proofs.Monitor.Editing
import DebugMonitor.Proofs.Session.Conduct
import DebugMonitor.Proofs.Session.Translation
import DebugMonitor.Proofs.Command.Refusal
import DebugMonitor.Proofs.Monitor.Output
import DebugMonitor.Proofs.Monitor.Refusal
import DebugMonitor.Proofs.Log.Installation
import DebugMonitor.Proofs.Monitor.Transcript
import DebugMonitor.Proofs.Session.Stepping
import DebugMonitor.Proofs.Monitor.Truncation
import DebugMonitor.Proofs.Monitor.Serving
import DebugMonitor.Proofs.Monitor.Interruption
import DebugMonitor.Proofs.Monitor.Unwinding
import DebugMonitor.Proofs.Monitor.Faultless
import DebugMonitor.Proofs.Monitor.Dumping
import DebugMonitor.Proofs.Monitor.Backtrace
import DebugMonitor.Proofs.Text.Digits
import DebugMonitor.Proofs.Text.Lines
import DebugMonitor.Proofs.Monitor.Showing
import DebugMonitor.Proofs.Monitor.Relisting
import DebugMonitor.Proofs.Monitor.DumpRows
import DebugMonitor.Proofs.Text.Numerals
import DebugMonitor.Proofs.Command.Splitting
import DebugMonitor.Proofs.Monitor.Composition
import DebugMonitor.Proofs.Monitor.Consumption
import DebugMonitor.Proofs.Monitor.Visiting
import DebugMonitor.Proofs.Monitor.Repeating
import DebugMonitor.Proofs.Monitor.Naming
import DebugMonitor.Proofs.Page.Cursor
import DebugMonitor.Proofs.Paging.Footprint
import DebugMonitor.Proofs.Paging.Block
import DebugMonitor.Proofs.Symbol.Lookup
import DebugMonitor.Proofs.Monitor.BlockRows
import DebugMonitor.Proofs.Monitor.KernelStacks
import DebugMonitor.Proofs.Word.Layout
import DebugMonitor.Proofs.Paging.Format
import DebugMonitor.Proofs.Cpu.Flags
import DebugMonitor.Proofs.Cpu.Listing
import DebugMonitor.Proofs.Session.Greeting
import DebugMonitor.Proofs.Cpu.Listing
