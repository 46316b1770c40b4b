import DebugMonitor.Address

/-!
# Signals to the hardware

The few instructions by which the monitor acts on the machine outside of memory: writes to I/O
addresses, masking interrupts, and dropping a cached mapping. What an operation does is the list of
its signals, in order.

Powering off tries the I/O address of one chip set and then that of another; a machine that knows
neither goes on running. Text for the host is written byte by byte to the address of its console.
-/

namespace DebugMonitor

inductive Signal where
  | outb (address : UInt16) (value : UInt8)
  | outw (address : UInt16) (value : UInt16)
  /-- Interrupts are masked. -/
  | cli
  /-- The cached mapping of a page is dropped. -/
  | invlpg (va : VirtualAddress)
deriving DecidableEq, Repr

namespace Signal

/-- Where the keyboard controller takes its commands. -/
def controllerAddress : UInt16 := 0x64

/-- The controller command that pulses the reset line of the processor. -/
def pulseReset : UInt8 := 0xfe

/-- The power-off requests, in the order they are tried: an address and the word written to it. -/
def powerOffRequests : List (UInt16 × UInt16) :=
  [(0xb004, 0x2000), (0x604, 0x2000)]

/-- Interrupts are masked first, so nothing runs between the requests. -/
def powerOff : List Signal :=
  cli :: powerOffRequests.map fun request => outw request.1 request.2

def reset : List Signal :=
  [outb controllerAddress pulseReset]

/-- The address whose bytes appear on the host's console. -/
def hostConsole : UInt16 := 0x402

/-- Writes a text to the host's console, as the bytes of its UTF-8 form. -/
def hostText (text : String) : List Signal :=
  text.toUTF8.toList.map (outb hostConsole)

end Signal

end DebugMonitor
