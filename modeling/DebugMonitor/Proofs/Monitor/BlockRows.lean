import DebugMonitor.Proofs.Monitor.Visiting
import DebugMonitor.Proofs.Paging.Block

/-!
# Rows of a large page

A listing shows a large page in rows of 4 KiB. All of them come from one leaf, which maps its block in one
piece (`pageRow_of_sameBlock`): so from each row to the next the physical address grows by the size of a
row, and the permission columns stay the same.
-/

namespace DebugMonitor

open Paging Command

variable {space : AddressSpace} {va page next : VirtualAddress} {leaf : Leaf}

/-- The row of a page that ends in front of `stop`, by what it shows. -/
def mappedRow (page stop : VirtualAddress) (pa : PhysicalAddress) (columns : String) : String :=
  s!"{page}-{stop}  {pa}  {columns}"

/-- The row of a page in the block of a leaf. -/
theorem pageRow_of_sameBlock (h : space.walk va = .ok leaf) (same : SameBlock leaf.size va page) :
    pageRow space page = mappedRow page (behindPage page) (leaf.place page)
      (permissionColumns (Word.testBit leaf.entry.bits 2) (Word.testBit leaf.entry.bits 1)) := by
  have walked := AddressSpace.walk_eq_of_sameBlock h same
  have present := (AddressSpace.walk_eq_ok walked).2
  rw [pageRow_of_walk_eq_ok walked, MappingRow.text_some, MappingRow.columns_eq present]
  rfl

/-- Pages one behind the other in a block lie one behind the other in physical memory. -/
theorem Paging.Leaf.toNat_place_of_succ (same : SameBlock leaf.size page next)
    (succ : next.word.toNat = page.word.toNat + 0x1000) :
    (leaf.place next).word.toNat = (leaf.place page).word.toNat + 0x1000 := by
  have parts := Nat.div_add_mod page.word.toNat leaf.size.bytes.toNat
  have parts' := Nat.div_add_mod next.word.toNat leaf.size.bytes.toNat
  rw [same] at parts
  rw [leaf.toNat_place, leaf.toNat_place]
  omega

namespace Monitor

variable {m : Monitor}

/-- A leaf maps its whole block of addresses uniformly, and a listing shows it so. Every address of the
block is mapped by the same entry and in the same size; the block lies in one piece and in order behind
the frame of the leaf, which is a multiple of the size. A listing has a row for each page in reach, as far
as the terminal takes them. The rows of two pages of the block that follow each other have the same
permission columns, those of the entry, and physical addresses that are one page apart. -/
theorem runCommand_showMappings_uniform (mapped : m.target.space.walk va = .ok leaf) :
    (∃ base, m.target.space.MapsBlock va leaf base) ∧
    ∀ (text : String) (span : PageSpan .size4K), Asks text (.showMappings span) →
      ∃ (pages : List VirtualAddress) (rows : List String),
        m.target.InReach span.toList pages ∧ rows.length = pages.length ∧
        (m.after (runCommand text)).terminal = m.terminal.afterShowing (Text.unlines rows) ∧
        ∀ (i : Nat) (page next : VirtualAddress), pages[i]? = some page → pages[i + 1]? = some next →
          SameBlock leaf.size va page → SameBlock leaf.size va next →
          ∃ (pa further : PhysicalAddress) (stop : VirtualAddress) (columns : String),
            next.word.toNat = page.word.toNat + 0x1000 ∧
            stop.word.toNat = next.word.toNat + 0x1000 ∧
            columns =
              permissionColumns (Word.testBit leaf.entry.bits 2) (Word.testBit leaf.entry.bits 1) ∧
            rows[i]? = some (mappedRow page next pa columns) ∧
            rows[i + 1]? = some (mappedRow next stop further columns) ∧
            m.target.space.resolve page = .ok (some pa) ∧
            m.target.space.resolve next = .ok (some further) ∧
            further.word.toNat = pa.word.toNat + 0x1000 := by
  refine ⟨⟨_, AddressSpace.mapsBlock mapped⟩, fun text span asks => ?_⟩
  obtain ⟨pages, inReach, ends⟩ := Action.visits_showPage.exists_after_eq (m := m) asks
    (Action.execute_showMappings span) (fun _ => PageSpan.toNat_add_bytes_lt_of_mem)
  refine ⟨pages, pages.map (pageRow m.target.space), inReach, List.length_map .., ?_, ?_⟩
  · obtain ⟨_, _, after, -⟩ := ends m.terminal
    exact congrArg Monitor.terminal after
  intro i page next here there same same'
  have listed := inReach.getElem?_eq_some there
  have succ : next.word.toNat = page.word.toNat + 0x1000 :=
    PageSpan.toNat_of_getElem?_succ (inReach.getElem?_eq_some here) listed
  have behind : behindPage page = next := by
    have fits : page.word.toNat + PageSize.size4K.bytes.toNat < UInt64.size :=
      succ ▸ next.word.toNat_lt_size
    exact congrArg Address.mk (UInt64.toNat_inj.1 ((Word.toNat_add_of_lt fits).trans succ.symm))
  have room := PageSpan.toNat_add_bytes_lt_of_mem (List.mem_of_getElem? listed)
  refine ⟨leaf.place page, leaf.place next, behindPage next, _, succ, Word.toNat_add_of_lt room, rfl,
    ?_, ?_, AddressSpace.resolve_of_walk_eq_ok (AddressSpace.walk_eq_of_sameBlock mapped same),
    AddressSpace.resolve_of_walk_eq_ok (AddressSpace.walk_eq_of_sameBlock mapped same'),
    Leaf.toNat_place_of_succ (same.symm.trans same') succ⟩
  · rw [List.getElem?_map, here, Option.map_some, pageRow_of_sameBlock mapped same, behind]
  · rw [List.getElem?_map, there, Option.map_some, pageRow_of_sameBlock mapped same']

/-- A machine with one word of memory, which is its root table and an entry for a page of 1 GiB at
once. -/
def hugePage : Monitor :=
  { target := { space := ⟨⟨#[0x81]⟩, .zero⟩ } }

/-- The first two rows of that page. -/
theorem runCommand_showMappings_uniform_hugePage :
    ∃ (pa further : PhysicalAddress) (columns : String),
      (hugePage.after (runCommand "showmappings 0 0x2000")).terminal.shown = "" ++ Text.unlines
        [mappedRow ⟨0⟩ ⟨0x1000⟩ pa columns, mappedRow ⟨0x1000⟩ ⟨0x2000⟩ further columns] ∧
      further.word.toNat = pa.word.toNat + 0x1000 := by
  have mapped : hugePage.target.space.walk ⟨0⟩ = .ok ⟨0, ⟨0x81⟩, .size1G⟩ := rfl
  have asks : Asks "showmappings 0 0x2000" (.showMappings firstPages) := by decide +kernel
  obtain ⟨-, listing⟩ := runCommand_showMappings_uniform mapped
  obtain ⟨pages, rows, inReach, length, shown, each⟩ := listing _ firstPages asks
  obtain rfl : pages = firstPages.toList :=
    inReach.eq_of_forall fun page _ => Target.reaches_of_physical rfl page
  obtain ⟨pa, further, stop, columns, -, behind, -, first, second, -, -, apart⟩ :=
    each 0 ⟨0⟩ ⟨0x1000⟩ rfl rfl rfl rfl
  obtain rfl : stop = ⟨0x2000⟩ := congrArg Address.mk (UInt64.toNat_inj.1 behind)
  obtain ⟨a, b, rfl⟩ := List.length_eq_two.1 length
  cases first
  cases second
  exact ⟨pa, further, columns, congrArg Terminal.shown shown, apart⟩

end Monitor

end DebugMonitor
