import DebugMonitor.Monitor.Action
import DebugMonitor.Command.Request

/-!
# Mappings of a range

Two commands visit the pages of a span in ascending order, look up the leaf that maps each, and
print one row for it. `showMappings` only looks. `setPermission` first replaces the two permission
bits of the leaf and drops the cached mapping of the page, so a page whose row was begun has
been edited and flushed, whatever happens to the terminal.
-/

namespace DebugMonitor

/-- Replaces the two permission bits of an entry. -/
def Command.Permission.apply (p : Command.Permission) (e : Paging.Entry) : Paging.Entry :=
  (e.set .user p.user).set .writable p.writable

/-- What is shown of a page: the physical address and the entry it is mapped by, if it is mapped. -/
structure MappingRow where
  page : VirtualAddress
  mapping : Option (PhysicalAddress × Paging.Entry)
deriving DecidableEq, Repr

namespace MappingRow

def ofLeaf (page : VirtualAddress) (leaf : Paging.Leaf) : Except Fault MappingRow := do
  return ⟨page, some (← leaf.resolve page, leaf.entry)⟩

def ofLeaf? (page : VirtualAddress) : Option Paging.Leaf → Except Fault MappingRow
  | some leaf => ofLeaf page leaf
  | none => .ok ⟨page, none⟩

/-- The permission columns of an entry; every mapping can be read. -/
def columns (e : Paging.Entry) : String :=
  let flag (on : Bool) (letter : String) := if on then letter else "-"
  flag (e.get .user) "U" ++ "R" ++ flag (e.get .writable) "W" ++ flag (e.get .present) "P"

def render (row : MappingRow) : Except Fault String := do
  let stop ← row.page.add PageSize.size4K.bytes
  let bounds := s!"{row.page}-{stop}  "
  match row.mapping with
  | some (pa, e) => return bounds ++ s!"{pa}  " ++ columns e
  | none => return bounds ++ "Not mapped"

end MappingRow

namespace Action

/-- Visits the pages that a cursor has still to come, in order. -/
def forPages {size : PageSize} (visit : VirtualAddress → Action Unit) (p : Pages size) :
    Action Unit :=
  match _ : p.next? with
  | .error f => throw (.fault f)
  | .ok none => pure ()
  | .ok (some (page, rest)) => do
    visit page
    forPages visit rest
termination_by p.stop.word.toNat - p.next.word.toNat
decreasing_by exact Pages.lt_of_next?_eq_some ‹_›

theorem forPages_of_next?_eq_none {size : PageSize} {visit : VirtualAddress → Action Unit}
    {p : Pages size} (h : p.next? = .ok none) : forPages visit p = pure () := by
  rw [forPages]
  split <;> simp_all

theorem forPages_of_next?_eq_some {size : PageSize} {visit : VirtualAddress → Action Unit}
    {p rest : Pages size} {page : VirtualAddress} (h : p.next? = .ok (some (page, rest))) :
    forPages visit p = (do visit page; forPages visit rest) := by
  rw [forPages]
  split <;> simp_all

def showPage (page : VirtualAddress) : Action Unit := do
  let row ← ofExcept (MappingRow.ofLeaf? page (← lookup page))
  let text ← ofExcept row.render
  note .trace text
  printLine text

def showMappings (span : PageSpan .size4K) : Action Unit :=
  forPages showPage span.pages

def setPagePermission (permission : Command.Permission) (page : VirtualAddress) : Action Unit := do
  match ← lookup page with
  | some leaf =>
    let leaf := { leaf with entry := permission.apply leaf.entry }
    store leaf
    let row ← ofExcept (MappingRow.ofLeaf page leaf)
    perform (.flush page)
    let text ← ofExcept row.render
    note .info s!"setperm {text}"
    printLine text
  | none =>
    note .warn s!"setperm: {page} not mapped, skipped"
    printLine s!"{page}: not mapped, skipped"

def setPermission (permission : Command.Permission) (span : PageSpan .size4K) : Action Unit :=
  forPages (setPagePermission permission) span.pages

end Action

end DebugMonitor
