import DebugMonitor.Proofs.Monitor.Dumping
import DebugMonitor.Proofs.Text.Lines

/-!
# The rows of a dump

The bytes of a run are shown in rows of sixteen, counted from its start; only the last row may be
shorter. `View.rows` cuts the run into its rows, and `ShowsRow` says what a line tells of a row: where it
begins, and its bytes, which can be read back from the line. `dumpRows_eq_ok` follows the loop over the
rows; `dumpRows_eq_of_le` is its step.

Both views look at the same memory. What the physical view shows of a run, the virtual view shows of the
run at the same distance from the start of the direct map, row by row.
-/

namespace DebugMonitor

open Command

namespace Command.View

/-- The virtual address at which the addresses of a view begin. -/
def base : View → Nat
  | .virtual => 0
  | .physical => AddressMap.directMapBase.word.toNat

/-- The bytes between two addresses in rows of sixteen, counted from the first address. -/
def rows (view : View) (t : Target) (start stop : Nat) : List (List UInt8) :=
  (List.range ((stop - start + 15) / 16)).map fun i =>
    view.bytes t (start + 16 * i) (min stop (start + 16 * i + 16))

variable {view : View} {t : Target} {start stop : Nat}

theorem base_add_le_iff {n : Nat} :
    view.base + n ≤ UInt64.size ↔ n ≤ view.size := by
  cases view with
  | virtual => simp only [base, size, Nat.zero_add]
  | physical =>
    have bound := AddressMap.directMapBase.word.toNat_lt_size
    simp only [base, size, AddressMap.directMapSize]
    omega

theorem toNat_place {addr : UInt64} (h : view.base + addr.toNat < UInt64.size) :
    (view.place addr).word.toNat = view.base + addr.toNat := by
  cases view with
  | virtual => exact (Nat.zero_add _).symm
  | physical => exact Word.toNat_add_of_lt h

theorem toNat_place_ofNat {i : Nat} (h : view.base + start + i < UInt64.size) :
    (view.place (UInt64.ofNat (start + i))).word.toNat = view.base + start + i := by
  have value : (UInt64.ofNat (start + i)).toNat = start + i :=
    UInt64.toNat_ofNat_of_lt' (by omega)
  rw [toNat_place (by omega), value, Nat.add_assoc]

/-- The bytes of a run lie one behind the other. -/
theorem exists_getElem?_places {i : Nat} (inside : view.base + stop ≤ UInt64.size)
    (h : i < stop - start) :
    ∃ place, (view.places start stop)[i]? = some place ∧
      place.word.toNat = view.base + start + i := by
  refine ⟨view.place (UInt64.ofNat (start + i)), ?_, toNat_place_ofNat (by omega)⟩
  simp only [places, List.getElem?_map, List.getElem?_range' h, Nat.one_mul, Option.map_some]

/-- A run of a view is a run of the virtual one. -/
theorem places_virtual (inside : view.base + stop ≤ UInt64.size) :
    View.virtual.places (view.base + start) (view.base + stop) = view.places start stop := by
  have count : view.base + stop - (view.base + start) = stop - start := Nat.add_sub_add_left ..
  simp only [places, count, List.range'_eq_map_range, List.map_map]
  refine List.map_congr_left fun i below => ?_
  have near : view.base + start + i < UInt64.size := by
    have := List.mem_range.1 below
    omega
  have here : (UInt64.ofNat (view.base + start + i)).toNat = view.base + start + i :=
    UInt64.toNat_ofNat_of_lt' near
  exact congrArg Address.mk (UInt64.toNat_inj.1 (here.trans (toNat_place_ofNat near).symm))

@[simp] theorem rows_of_le (h : stop ≤ start) : view.rows t start stop = [] := by
  have none : (stop - start + 15) / 16 = 0 := by omega
  rw [rows, none]
  rfl

/-- The first row of a run, and the rows behind it. -/
theorem rows_of_lt {next : Nat} (h : start < stop) (hnext : next = min stop (start + 16)) :
    view.rows t start stop = view.bytes t start next :: view.rows t next stop := by
  have count : (stop - start + 15) / 16 = (stop - next + 15) / 16 + 1 := by omega
  rw [rows, count, List.range_succ_eq_map, List.map_cons, List.map_map, hnext]
  refine congrArg _ (List.map_congr_left fun i below => ?_)
  have more := List.mem_range.1 below
  -- There is a row behind the first one, so the first one is full.
  have full : min stop (start + 16) = start + 16 := by omega
  have shift : start + 16 * (i + 1) = start + 16 + 16 * i := by omega
  simp only [Function.comp_apply, Nat.succ_eq_add_one, full, shift]

/-- The rows hold the bytes of the run in order. -/
@[simp] theorem flatten_rows (start stop : Nat) :
    (view.rows t start stop).flatten = view.bytes t start stop := by
  induction count : stop - start using Nat.strongRecOn generalizing start with
  | ind n ih =>
    rcases Nat.lt_or_ge start stop with below | beyond
    · rw [rows_of_lt below rfl, List.flatten_cons, ih _ (by omega) _ rfl,
        bytes_append t (by omega) (by omega)]
    · simp [beyond]

theorem length_rows : (view.rows t start stop).length = (stop - start + 15) / 16 := by
  rw [rows, List.length_map, List.length_range]

/-- All rows but the last are full. -/
theorem length_row {i : Nat} {row : List UInt8} (h : (view.rows t start stop)[i]? = some row) :
    0 < row.length ∧ row.length ≤ 16 ∧
      (i + 1 < (view.rows t start stop).length → row.length = 16) := by
  have inside := (List.getElem?_eq_some_iff.1 h).1
  rw [length_rows] at inside ⊢
  simp only [rows, List.getElem?_map, List.getElem?_range inside, Option.map_some,
    Option.some.injEq] at h
  have count := view.length_bytes t (start + 16 * i) (min stop (start + 16 * i + 16))
  rw [h] at count
  omega

/-- A run has the rows of the run of the virtual view that holds the same bytes. -/
theorem rows_virtual (inside : view.base + stop ≤ UInt64.size) :
    View.virtual.rows t (view.base + start) (view.base + stop) = view.rows t start stop := by
  have count : view.base + stop - (view.base + start) = stop - start := Nat.add_sub_add_left ..
  rw [rows, rows, count]
  refine List.map_congr_left fun i _ => ?_
  have first : view.base + start + 16 * i = view.base + (start + 16 * i) := Nat.add_assoc ..
  have last : min (view.base + stop) (view.base + start + 16 * i + 16) =
      view.base + min stop (start + 16 * i + 16) := by omega
  rw [last, first, bytes, bytes, places_virtual (by omega)]

end Command.View

/-! ### Lines -/

/-- What a line tells of a row of bytes: the address of the row, and the bytes, two digits each, which
can be read back from the line. -/
structure ShowsRow (addr : UInt64) (row : List UInt8) (line : String) : Prop where
  text : line = "0x" ++ Text.hexPadded 16 addr ++ ":" ++
    String.join (row.map fun b => " " ++ Text.hexPadded 2 b.toUInt64)
  isLine : Text.IsLine line
  digits : ∀ word ∈ (Text.words line.toList).tail, word.length = 2
  bytes : (Text.words line.toList).tail.mapM (Text.digits? 16) = some (row.map UInt8.toNat)

theorem isLine_cells (row : List UInt8) : Text.IsLine (cells row) := by
  induction row with
  | nil => simp [Text.IsLine]
  | cons b row ih =>
    rw [cells_cons]
    exact (Text.IsLine.append (by decide) (Text.isLine_hexPadded 2 _)).append ih

/-- The bytes are set apart from what stands in front of them. -/
theorem isBlank_of_mem_head?_cells (row : List UInt8) :
    ∀ c ∈ (cells row).toList.head?, Text.isBlank c = true := by
  cases row with
  | nil => simp
  | cons b row => simp [Text.isBlank]

/-- The words of the bytes of a row. -/
@[simp] theorem words_cells (row : List UInt8) :
    Text.words (cells row).toList = row.map fun b => (Text.hexPadded 2 b.toUInt64).toList := by
  induction row with
  | nil => simp
  | cons b row ih =>
    have space : " ".toList = [' '] := rfl
    rw [cells_cons, String.toList_append, String.toList_append, space, List.append_assoc,
      List.singleton_append, Text.words_blank_cons rfl,
      Text.words_append (Text.toList_hexPadded_ne_nil 2 _)
        (fun _ => Text.isBlank_of_mem_hexPadded) (isBlank_of_mem_head?_cells row), ih, List.map_cons]

theorem words_dumpLine (addr : UInt64) (row : List UInt8) :
    Text.words (dumpLine addr row).toList =
      ("0x" ++ Text.hexPadded 16 addr ++ ":").toList :: Text.words (cells row).toList := by
  have solid : ∀ c ∈ ("0x" ++ Text.hexPadded 16 addr ++ ":").toList, Text.isBlank c = false := by
    have sign : ∀ c ∈ "0x".toList, Text.isBlank c = false := by simp [Text.isBlank]
    have colon : ∀ c ∈ ":".toList, Text.isBlank c = false := by simp [Text.isBlank]
    simp only [String.toList_append, List.forall_mem_append]
    exact ⟨⟨sign, fun _ => Text.isBlank_of_mem_hexPadded⟩, colon⟩
  have nonempty : ("0x" ++ Text.hexPadded 16 addr ++ ":").toList ≠ [] := by simp
  rw [dumpLine, String.toList_append,
    Text.words_append nonempty solid (isBlank_of_mem_head?_cells row)]

/-- The lines of a dump that begins at an address. -/
def dumpLines (start : UInt64) (rows : List (List UInt8)) : List String :=
  rows.mapIdx fun i row => dumpLine (start + UInt64.ofNat (16 * i)) row

@[simp] theorem dumpLines_nil (start : UInt64) : dumpLines start [] = [] := List.mapIdx_nil

@[simp] theorem dumpLines_cons (start : UInt64) (row : List UInt8) (rows : List (List UInt8)) :
    dumpLines start (row :: rows) = dumpLine start row :: dumpLines (start + 16) rows := by
  have first : start + UInt64.ofNat (16 * 0) = start := UInt64.add_zero start
  have shift (i : Nat) : start + UInt64.ofNat (16 * (i + 1)) =
      start + 16 + UInt64.ofNat (16 * i) := by
    rw [Nat.mul_succ, UInt64.ofNat_add, UInt64.add_comm (UInt64.ofNat _), UInt64.add_assoc]
    rfl
  simp only [dumpLines, List.mapIdx_cons, first, shift]

theorem showsRow_dumpLine (addr : UInt64) (row : List UInt8) :
    ShowsRow addr row (dumpLine addr row) where
  text := rfl
  isLine := ((Text.IsLine.append (by decide) (Text.isLine_hexPadded 16 addr)).append
    (by decide)).append (isLine_cells row)
  digits := by simp [words_dumpLine, Text.length_hexPadded_two]
  bytes := by
    rw [words_dumpLine, List.tail_cons, words_cells]
    induction row with
    | nil => rfl
    | cons b row ih =>
      simp [ih]

namespace Monitor

variable {view : View} {m : Monitor}

/-- The monitor after the rows of a run were read and shown. -/
def dumpedRows (m : Monitor) (view : View) (row : UInt64) (stop : Nat) : Monitor :=
  (m.recordAll (view.reads row.toNat stop)).say
    (Text.unlines (dumpLines row (view.rows m.target row.toNat stop)))

theorem dumpedRows_of_le {row : UInt64} {stop : Nat} (h : stop ≤ row.toNat) :
    m.dumpedRows view row stop = m := by
  simp [dumpedRows, h]

/-- The first row of a run is followed by the rows behind it. -/
theorem dumpedRows_dumpedRow {row next : UInt64} {stop : Nat} (below : row.toNat < stop)
    (hnext : next.toNat = min stop (row.toNat + 16)) :
    (m.dumpedRow view row next.toNat).dumpedRows view next stop = m.dumpedRows view row stop := by
  have marks : view.reads row.toNat stop =
      view.reads row.toNat next.toNat ++ view.reads next.toNat stop :=
    (View.reads_append (by omega) (by omega)).symm
  have rows : view.rows m.target row.toNat stop =
      view.bytes m.target row.toNat next.toNat :: view.rows m.target next.toNat stop :=
    View.rows_of_lt below hnext
  have lines : dumpLines (row + 16) (view.rows m.target next.toNat stop) =
      dumpLines next (view.rows m.target next.toNat stop) := by
    rcases Nat.lt_or_ge next.toNat stop with more | last
    · have bound := next.toNat_lt_size
      have full : next.toNat = row.toNat + 16 := by omega
      have sum : (row + 16).toNat = row.toNat + 16 := Word.toNat_add_of_lt (full ▸ bound)
      rw [UInt64.toNat_inj.1 (full.trans sum.symm)]
    · simp [last]
  rw [dumpedRows, dumpedRows, dumpedRow, marks, rows, dumpLines_cons, lines, Text.unlines_cons,
    ← recordAll_recordAll]
  exact say_say ((m.recordAll _).recordAll _) _ _

end Monitor

namespace Action

variable {view : View} {row stop : UInt64} {m : Monitor}

/-- The rows of a run are read and shown one after another. -/
theorem dumpRows_eq_ok (unlimited : m.Unlimited) (shown : stop.toNat ≤ view.size) :
    dumpRows view row stop m = .ok () (m.dumpedRows view row stop.toNat) := by
  induction left : stop.toNat - row.toNat using Nat.strongRecOn generalizing row m with
  | ind n ih =>
    rcases Nat.lt_or_ge row.toNat stop.toNat with below | beyond
    · have next : (rowStop row stop).toNat = min stop.toNat (row.toNat + 16) := toNat_rowStop
      have inside : (rowStop row stop).toNat ≤ view.size := by omega
      have first := dumpRows_eq_of_le unlimited (UInt64.lt_iff_toNat_lt.2 below) inside
      have rest : dumpRows view (rowStop row stop) stop
          (m.dumpedRow view row (rowStop row stop).toNat) = _ := ih _ (by omega) unlimited rfl
      rw [first, rest, Monitor.dumpedRows_dumpedRow below next]
    · rw [dumpRows_of_le (UInt64.le_iff_toNat_le.2 beyond), Monitor.dumpedRows_of_le beyond]
      rfl

end Action

namespace Monitor

variable {text : String} {view : View} {bytes : ByteSpan} {m : Monitor}

/-- A line dumps rows of bytes that begin at an address. It shows one line for each row, in order, on
every terminal that takes them; it reads the bytes at the places, and nothing else changes but the
journal. -/
def Dumps (m : Monitor) (text : String) (start : Nat) (rows : List (List UInt8))
    (places : List VirtualAddress) : Prop :=
  ∃ lines : List String, lines.length = rows.length ∧
    (∀ i row, rows[i]? = some row → ∃ addr line, addr.toNat = start + 16 * i ∧
      lines[i]? = some line ∧ ShowsRow addr row line) ∧
    ∀ t, m.terminal.write (Text.unlines lines) = (true, t) →
      ∃ journal, m.runCommand text = .ok .proceed
        { (m.recordAll (places.map .readByte)).withTerminal t with journal }

theorem dumps_rows (asks : Asks text (.dump view bytes)) (shown : bytes.stop.toNat ≤ view.size) :
    m.Dumps text bytes.start.toNat (view.rows m.target bytes.start.toNat bytes.stop.toNat)
      (view.places bytes.start.toNat bytes.stop.toNat) := by
  refine ⟨dumpLines bytes.start (view.rows m.target bytes.start.toNat bytes.stop.toNat),
    List.length_mapIdx, ?_, ?_⟩
  · intro i row here
    have inside := (List.getElem?_eq_some_iff.1 here).1
    rw [View.length_rows] at inside
    have bound := bytes.stop.toNat_lt_size
    have value : (UInt64.ofNat (16 * i)).toNat = 16 * i := UInt64.toNat_ofNat_of_lt' (by omega)
    refine ⟨bytes.start + UInt64.ofNat (16 * i), _, ?_, ?_, showsRow_dumpLine _ row⟩
    · rw [Word.toNat_add_of_lt (by omega), value]
    · rw [dumpLines, List.getElem?_mapIdx, here]
      rfl
  · intro t taken
    rw [← View.reads_eq_map]
    refine exists_runCommand_eq_of_taken asks (fun journal => ⟨journal, ?_⟩) taken
    exact Action.run_bind _
      (Action.dumpRows_eq_ok (m := { m.withTerminal {} with journal }) rfl shown)

/-- What a dump does. The bytes of the run lie one behind the other, from its start to its end, in the
memory that the view shows. Each of them is read once, in ascending order, and they are shown in rows of
sixteen, of which the last one may be shorter. A dump through the virtual view of the place where another
view begins, and as far on, reads the same places and shows the same rows. -/
theorem runCommand_dump (asks : Asks text (.dump view bytes))
    (inside : view.base + bytes.stop.toNat ≤ UInt64.size) :
    ∃ (places : List VirtualAddress) (rows : List (List UInt8)),
      places.length = bytes.stop.toNat - bytes.start.toNat ∧
      (∀ i < places.length, ∃ place, places[i]? = some place ∧
        place.word.toNat = view.base + bytes.start.toNat + i) ∧
      rows.flatten = places.map m.target.byte ∧
      rows.length = (bytes.stop.toNat - bytes.start.toNat + 15) / 16 ∧
      (∀ i row, rows[i]? = some row →
        0 < row.length ∧ row.length ≤ 16 ∧ (i + 1 < rows.length → row.length = 16)) ∧
      m.Dumps text bytes.start.toNat rows places ∧
      ∀ text' (bytes' : ByteSpan), Asks text' (.dump .virtual bytes') →
        bytes'.start.toNat = view.base + bytes.start.toNat →
        bytes'.stop.toNat = view.base + bytes.stop.toNat →
        m.Dumps text' bytes'.start.toNat rows places := by
  refine ⟨view.places bytes.start.toNat bytes.stop.toNat,
    view.rows m.target bytes.start.toNat bytes.stop.toNat, view.length_places _ _, ?_,
    View.flatten_rows _ _, View.length_rows, fun _ _ => View.length_row,
    dumps_rows asks (View.base_add_le_iff.1 inside), ?_⟩
  · intro i below
    exact View.exists_getElem?_places inside (view.length_places _ _ ▸ below)
  · intro text' bytes' asks' start stop
    rw [← View.rows_virtual inside, ← View.places_virtual inside, ← start, ← stop]
    exact dumps_rows asks' (Nat.le_of_lt bytes'.stop.toNat_lt_size)

/-- A machine without memory, whose bytes are the lowest ones of their addresses. -/
def counting : Monitor :=
  { target := { stray := UInt64.toUInt8 } }

/-- Twenty bytes are shown in two rows there, and both views read the same places. -/
theorem runCommand_dump_counting :
    ∃ (rows : List (List UInt8)) (m₁ m₂ : Monitor), rows.map List.length = [16, 4] ∧
      counting.runCommand "dump P 4 0x18" = .ok .proceed m₁ ∧
      counting.runCommand "dump V 0xffff888000000004 0xffff888000000018" = .ok .proceed m₂ ∧
      m₁.trace.toList = m₂.trace.toList ∧ m₁.trace.toList.length = 20 := by
  have asks : Asks "dump P 4 0x18" (.dump .physical ⟨4, 0x18, by decide⟩) := by decide +kernel
  have asks' : Asks "dump V 0xffff888000000004 0xffff888000000018"
      (.dump .virtual ⟨0xffff888000000004, 0xffff888000000018, by decide⟩) := by decide +kernel
  obtain ⟨places, rows, count, -, bytes, height, widths, ⟨_, -, -, run⟩, same⟩ :=
    runCommand_dump (m := counting) asks (by decide)
  obtain ⟨_, -, -, run'⟩ := same _ _ asks' rfl rfl
  obtain ⟨_, ran⟩ := run _ (Terminal.write_of_limit_eq_none rfl)
  obtain ⟨_, ran'⟩ := run' _ (Terminal.write_of_limit_eq_none rfl)
  refine ⟨rows, _, _, ?_, ran, ran', rfl, ?_⟩
  · obtain ⟨first, last, rfl⟩ := List.length_eq_two.1 height
    have full : first.length = 16 := (widths 0 first rfl).2.2 Nat.one_lt_two
    have all : first.length + last.length = 20 := by
      have lengths := congrArg List.length bytes
      simpa [count] using lengths
    have rest : last.length = 4 := by omega
    rw [List.map_cons, List.map_cons, full, rest, List.map_nil]
  · have marks := toList_trace_recordAll counting (places.map .readByte)
    calc (counting.recordAll (places.map .readByte)).trace.toList.length
      _ = (places.map Effect.readByte).length := by rw [marks]; rfl
      _ = 20 := by rw [List.length_map, count]; rfl

end Monitor

end DebugMonitor
