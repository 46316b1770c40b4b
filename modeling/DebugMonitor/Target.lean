import DebugMonitor.Paging.Walk
import DebugMonitor.Image
import DebugMonitor.Symbol.Table

/-!
# The target

The machine under inspection, as far as the monitor looks at it: the address space whose mappings it
shows and edits, the bytes it reads, the frame pointer it unwinds from, and what is known about the
kernel image. Physical memory is visible at the direct map; all other virtual addresses read as
`stray` says.

A machine that inspects itself has no other way to its page tables than the direct map, which cannot
show every physical address. A walk that has to read a table it does not show is a fault.
-/

namespace DebugMonitor

/-- How the page tables of a target are reached. -/
inductive TableAccess where
  /-- At their physical addresses, wherever they lie. -/
  | physical
  /-- Through the direct map. -/
  | directMap
deriving DecidableEq, Repr

structure Target where
  space : Paging.AddressSpace := ⟨⟨#[]⟩, .zero⟩
  tableAccess : TableAccess := .physical
  /-- The bytes outside the direct map. -/
  stray : UInt64 → UInt8 := fun _ => 0
  framePointer : UInt64 := 0
  /-- The user environment that was running, if one was. -/
  environment : Option UInt32 := none
  image : Image := {}
  symbols : SymbolTable := {}

/-- Reaches the table at a physical address, if there is a way to it. -/
def TableAccess.reach (access : TableAccess) (table : PhysicalAddress) : Except Fault Unit :=
  match access with
  | physical => .ok ()
  | directMap => (AddressMap.directMap table).map fun _ => ()

namespace Target

/-- Walks the tables for `va`; a table on the route that cannot be reached is a fault. -/
def walk (t : Target) (va : VirtualAddress) :
    Except Fault (Except Paging.Gap Paging.Leaf) := do
  (t.space.route va).forM fun table => t.tableAccess.reach table.2
  return t.space.walk va

private theorem forM_eq_ok_iff {α : Type} {visit : α → Except Fault Unit} {xs : List α} :
    xs.forM visit = .ok () ↔ ∀ x ∈ xs, visit x = .ok () := by
  induction xs with
  | nil => simp [List.forM, pure, Except.pure]
  | cons x xs ih =>
    rw [List.forall_mem_cons, ← ih]
    cases h : visit x <;> simp [List.forM, h, bind, Except.bind]

/-- A walk is answered exactly when all tables on its route are reached, and then as in memory. -/
theorem walk_eq_ok_iff {t : Target} {va : VirtualAddress}
    {result : Except Paging.Gap Paging.Leaf} :
    t.walk va = .ok result ↔
      (∀ table ∈ t.space.route va, t.tableAccess.reach table.2 = .ok ()) ∧
        t.space.walk va = result := by
  rw [← forM_eq_ok_iff, walk]
  cases (t.space.route va).forM fun table => t.tableAccess.reach table.2 <;>
    simp [bind, Except.bind, pure, Except.pure]

theorem walk_of_physical {t : Target} (h : t.tableAccess = .physical) (va : VirtualAddress) :
    t.walk va = .ok (t.space.walk va) :=
  walk_eq_ok_iff.2 ⟨fun _ _ => by rw [h]; rfl, rfl⟩

/-- The distance of an address from the start of the direct map, if memory is visible there. -/
def directOffset? (t : Target) (va : VirtualAddress) : Option Nat :=
  let base := AddressMap.directMapBase.word.toNat
  if base ≤ va.word.toNat ∧ va.word.toNat < base + t.space.memory.byteCount then
    some (va.word.toNat - base)
  else
    none

def byte (t : Target) (va : VirtualAddress) : UInt8 :=
  match t.directOffset? va with
  | some a => t.space.memory.byte a
  | none => t.stray va.word

/-- Eight consecutive bytes, the first one least significant; addresses wrap around. -/
def word (t : Target) (va : VirtualAddress) : UInt64 :=
  (List.range 8).foldl
    (fun w i => w ||| (t.byte ⟨va.word + UInt64.ofNat i⟩).toUInt64 <<< UInt64.ofNat (8 * i)) 0

end Target

end DebugMonitor
