import DebugMonitor.Proofs.Command.Reading
import DebugMonitor.Proofs.Monitor.Transcript
import DebugMonitor.Proofs.Monitor.Unlimited

/-!
# What a dump reads

A view shows the addresses below its size: all of them in the virtual view, those of the direct map in
the physical one. A dump reads the bytes of its run one after another, and a run that leaves the view
faults at the first byte outside. Nothing is done about that beforehand, so what comes before is read
and shown.

On a terminal without a limit the monitor after a run of bytes and after a row is known exactly, `dumped`
and `dumpedRow`. `dumpBytes_succ` is the step for one byte and `dumpRows_eq_of_le` the one for a row.
-/

namespace DebugMonitor

open Command

namespace Command.View

/-- The number of addresses that a view can show. -/
def size : View → Nat
  | .virtual => UInt64.size
  | .physical => AddressMap.directMapSize

/-- Where a view finds the byte at an address. -/
def place (view : View) (addr : UInt64) : VirtualAddress :=
  match view with
  | .virtual => ⟨addr⟩
  | .physical => ⟨AddressMap.directMapBase.word + addr⟩

/-- The marks of reading the bytes between two addresses. -/
def reads (view : View) (start stop : Nat) : List Effect :=
  (List.range' start (stop - start)).map fun a => .readByte (view.place (UInt64.ofNat a))

/-- Where a view finds the bytes between two addresses. -/
def places (view : View) (start stop : Nat) : List VirtualAddress :=
  (List.range' start (stop - start)).map fun a => view.place (UInt64.ofNat a)

/-- The bytes that a view shows between two addresses. -/
def bytes (view : View) (t : Target) (start stop : Nat) : List UInt8 :=
  (view.places start stop).map t.byte

variable {view : View} {start mid stop : Nat}

theorem reads_eq_map (view : View) (start stop : Nat) :
    view.reads start stop = (view.places start stop).map .readByte :=
  List.map_map.symm

@[simp] theorem length_places (view : View) (start stop : Nat) :
    (view.places start stop).length = stop - start := by
  simp only [places, List.length_map, List.length_range']

@[simp] theorem places_of_le (h : stop ≤ start) : view.places start stop = [] := by
  rw [places, Nat.sub_eq_zero_of_le h]
  rfl

theorem places_append (h : start ≤ mid) (h' : mid ≤ stop) :
    view.places start mid ++ view.places mid stop = view.places start stop := by
  have upTo : mid = start + (mid - start) := by omega
  have whole : stop - start = mid - start + (stop - mid) := by omega
  rw [places, places, places, whole, ← List.map_append, ← List.range'_append_1, ← upTo]

theorem places_succ (view : View) (addr : UInt64) :
    view.places addr.toNat (addr.toNat + 1) = [view.place addr] := by
  rw [places, Nat.add_sub_cancel_left, List.range'_one, List.map_singleton, UInt64.ofNat_toNat]

@[simp] theorem reads_of_le (h : stop ≤ start) : view.reads start stop = [] := by
  simp [reads_eq_map, h]

theorem reads_append (h : start ≤ mid) (h' : mid ≤ stop) :
    view.reads start mid ++ view.reads mid stop = view.reads start stop := by
  simp only [reads_eq_map, ← places_append h h', List.map_append]

@[simp] theorem bytes_of_le (t : Target) (h : stop ≤ start) : view.bytes t start stop = [] := by
  simp [bytes, h]

theorem bytes_append (t : Target) (h : start ≤ mid) (h' : mid ≤ stop) :
    view.bytes t start mid ++ view.bytes t mid stop = view.bytes t start stop := by
  simp only [bytes, ← places_append h h', List.map_append]

@[simp] theorem length_bytes (view : View) (t : Target) (start stop : Nat) :
    (view.bytes t start stop).length = stop - start := by
  simp [bytes]

end Command.View

/-- Bytes as they are shown, each after a space. -/
def cells (bytes : List UInt8) : String :=
  String.join (bytes.map fun b => " " ++ Text.hexPadded 2 b.toUInt64)

/-- The line that shows a row of bytes, led by its address. -/
def dumpLine (addr : UInt64) (row : List UInt8) : String :=
  "0x" ++ Text.hexPadded 16 addr ++ ":" ++ cells row

@[simp] theorem cells_nil : cells [] = "" := String.join_nil

@[simp] theorem cells_cons (b : UInt8) (bytes : List UInt8) :
    cells (b :: bytes) = " " ++ Text.hexPadded 2 b.toUInt64 ++ cells bytes :=
  String.join_cons

@[simp] theorem cells_append (bytes bytes' : List UInt8) :
    cells (bytes ++ bytes') = cells bytes ++ cells bytes' := by
  rw [cells, List.map_append, String.join_append, cells, cells]

namespace Monitor

variable {view : View} {start mid stop : Nat} {m : Monitor}

/-- The monitor after the bytes between two addresses were read and shown. -/
def dumped (m : Monitor) (view : View) (start stop : Nat) : Monitor :=
  (m.recordAll (view.reads start stop)).say (cells (view.bytes m.target start stop))

/-- The monitor after a row of bytes was read and shown. -/
def dumpedRow (m : Monitor) (view : View) (row : UInt64) (stop : Nat) : Monitor :=
  (m.recordAll (view.reads row.toNat stop)).say
    (dumpLine row (view.bytes m.target row.toNat stop) ++ "\n")

@[simp] theorem dumped_of_le (h : stop ≤ start) : m.dumped view start stop = m := by
  simp [dumped, h]

theorem dumped_dumped (h : start ≤ mid) (h' : mid ≤ stop) :
    (m.dumped view start mid).dumped view mid stop = m.dumped view start stop := by
  rw [dumped, dumped, dumped, ← View.reads_append h h', ← View.bytes_append _ h h', cells_append,
    ← recordAll_recordAll, ← say_say]
  rfl

end Monitor

namespace Action

variable {view : View} {addr row stop : UInt64} {m : Monitor}

theorem readIn_of_lt (shown : addr.toNat < view.size) (m : Monitor) :
    readIn view addr m =
      .ok (m.target.byte (view.place addr)) (m.record (.readByte (view.place addr))) := by
  cases view with
  | virtual => rfl
  | physical =>
    have mapped : AddressMap.directMap ⟨addr⟩ = .ok (View.physical.place addr) :=
      AddressMap.directMap_of_lt shown
    rw [readIn, mapped]
    rfl

theorem readIn_of_le (beyond : view.size ≤ addr.toNat) (m : Monitor) :
    readIn view addr m = .error (.fault .addOverflow) m := by
  cases view with
  | virtual => exact absurd addr.toNat_lt_size (Nat.not_lt.2 beyond)
  | physical =>
    have unmapped : AddressMap.directMap ⟨addr⟩ = .error .addOverflow :=
      AddressMap.directMap_of_le beyond
    rw [readIn, unmapped]
    rfl

/-- One byte of a run is read and shown. -/
theorem dumpBytes_succ (unlimited : m.Unlimited) (below : addr < stop)
    (shown : addr.toNat < view.size) :
    dumpBytes view addr stop m =
      dumpBytes view (addr + 1) stop (m.dumped view addr.toNat (addr.toNat + 1)) := by
  have reads : view.reads addr.toNat (addr.toNat + 1) = [.readByte (view.place addr)] := by
    simp [View.reads_eq_map, View.places_succ]
  have text : cells (view.bytes m.target addr.toNat (addr.toNat + 1)) =
      " " ++ Text.hexPadded 2 (m.target.byte (view.place addr)).toUInt64 := by
    simp [View.bytes, View.places_succ]
  rw [dumpBytes_of_lt below, Monitor.dumped, reads, text]
  exact (run_bind _ (readIn_of_lt shown m)).trans (run_bind _ (run_print (by exact unlimited) _))

/-- On a terminal without a limit a dump reads the bytes that the view shows and goes on behind
them. -/
theorem dumpBytes_eq (mid : UInt64) (unlimited : m.Unlimited) (upTo : addr.toNat ≤ mid.toNat)
    (inside : mid.toNat ≤ stop.toNat) (shown : mid.toNat ≤ view.size) :
    dumpBytes view addr stop m =
      dumpBytes view mid stop (m.dumped view addr.toNat mid.toNat) := by
  induction count : mid.toNat - addr.toNat generalizing addr m with
  | zero =>
    have same : addr = mid := UInt64.toNat_inj.1 (by omega)
    rw [same, Monitor.dumped_of_le (Nat.le_refl _)]
  | succ n ih =>
    have below : addr < stop := UInt64.lt_iff_toNat_lt.2 (by omega)
    have next := Word.toNat_add_one_of_lt below
    have upTo₁ : (addr + 1).toNat ≤ mid.toNat := by omega
    have count₁ : mid.toNat - (addr + 1).toNat = n := by omega
    have rest := ih (m := m.dumped view addr.toNat (addr.toNat + 1)) unlimited upTo₁ count₁
    rw [dumpBytes_succ unlimited below (by omega), rest, next,
      Monitor.dumped_dumped (by omega) (by omega)]

/-- A run of bytes inside the view is read and shown to its end. -/
theorem dumpBytes_eq_ok (unlimited : m.Unlimited) (upTo : addr ≤ stop)
    (shown : stop.toNat ≤ view.size) :
    dumpBytes view addr stop m = .ok () (m.dumped view addr.toNat stop.toNat) := by
  rw [dumpBytes_eq stop unlimited (UInt64.le_iff_toNat_le.1 upTo) (Nat.le_refl _) shown,
    dumpBytes_of_le (UInt64.le_refl stop)]
  rfl

/-- A run of bytes that leaves the view faults at the first byte outside. -/
theorem exists_dumpBytes_eq_error (unlimited : m.Unlimited) (below : addr < stop)
    (leaves : view.size < stop.toNat) :
    ∃ t : Terminal, dumpBytes view addr stop m =
      .error (.fault .addOverflow)
        ((m.recordAll (view.reads addr.toNat view.size)).withTerminal t) := by
  rcases Nat.lt_or_ge addr.toNat view.size with shown | beyond
  · have bound := stop.toNat_lt_size
    have size : (UInt64.ofNat view.size).toNat = view.size :=
      UInt64.toNat_ofNat_of_lt' (Nat.lt_trans leaves bound)
    have run := dumpBytes_eq (UInt64.ofNat view.size) unlimited
      (Nat.le_of_lt (size ▸ shown)) (Nat.le_of_lt (size ▸ leaves)) (Nat.le_of_eq size)
    have before : UInt64.ofNat view.size < stop := by
      rwa [UInt64.lt_iff_toNat_lt, size]
    rw [dumpBytes_of_lt before, size] at run
    exact ⟨_, run.trans (run_bind_of_error _ (readIn_of_le (Nat.le_of_eq size.symm) _))⟩
  · refine ⟨m.terminal, ?_⟩
    rw [View.reads_of_le beyond, Monitor.recordAll_nil, dumpBytes_of_lt below]
    exact run_bind_of_error _ (readIn_of_le beyond m)

/-- A row inside the view is read and shown, and the dump goes on behind it. -/
theorem dumpRows_eq_of_le (unlimited : m.Unlimited) (below : row < stop)
    (shown : (rowStop row stop).toNat ≤ view.size) :
    dumpRows view row stop m =
      dumpRows view (rowStop row stop) stop
        (m.dumpedRow view row (rowStop row stop).toNat) := by
  have upTo : row ≤ rowStop row stop := by
    have := UInt64.lt_iff_toNat_lt.1 below
    rw [UInt64.le_iff_toNat_le, toNat_rowStop]
    omega
  let led := m.say ("0x" ++ Text.hexPadded 16 row ++ ":")
  have read : dumpBytes view row (rowStop row stop) led =
      .ok () (led.dumped view row.toNat (rowStop row stop).toNat) :=
    dumpBytes_eq_ok unlimited upTo shown
  have text : ((led.dumped view row.toNat (rowStop row stop).toNat).say "\n") =
      m.dumpedRow view row (rowStop row stop).toNat := by
    rw [Monitor.dumpedRow, dumpLine, ← Monitor.say_say, ← Monitor.say_say]
    rfl
  rw [dumpRows_of_lt below, ← text]
  exact (run_bind _ (run_print unlimited _)).trans <| (run_bind _ read).trans <|
    run_bind _ (run_print (by exact unlimited) _)

/-- A row that leaves the view faults. -/
theorem exists_dumpRows_eq_error (unlimited : m.Unlimited) (below : row < stop)
    (leaves : view.size < (rowStop row stop).toNat) :
    ∃ t : Terminal, dumpRows view row stop m =
      .error (.fault .addOverflow)
        ((m.recordAll (view.reads row.toNat view.size)).withTerminal t) := by
  have nonempty : row < rowStop row stop := by
    have := UInt64.lt_iff_toNat_lt.1 below
    rw [UInt64.lt_iff_toNat_lt, toNat_rowStop]
    omega
  obtain ⟨t, read⟩ := exists_dumpBytes_eq_error
    (m := m.say ("0x" ++ Text.hexPadded 16 row ++ ":")) unlimited nonempty leaves
  rw [dumpRows_of_lt below]
  exact ⟨t, (run_bind _ (run_print unlimited _)).trans (run_bind_of_error _ read)⟩

/-- A dump reads to the end of its run or of the view, whichever comes first, and it comes to its end
if its run does not leave the view. -/
theorem exists_dumpRows_eq (view : View) {row : UInt64} {m : Monitor} (unlimited : m.Unlimited)
    (below : row < stop) :
    ∃ m' t, m' = (m.recordAll (view.reads row.toNat (min stop.toNat view.size))).withTerminal t ∧
      dumpRows view row stop m =
        if stop.toNat ≤ view.size then .ok () m' else .error (.fault .addOverflow) m' := by
  have start := UInt64.lt_iff_toNat_lt.1 below
  have next : (rowStop row stop).toNat = min stop.toNat (row.toNat + 16) := toNat_rowStop
  rcases Nat.lt_or_ge view.size (rowStop row stop).toNat with leaves | shown
  · obtain ⟨t, faults⟩ := exists_dumpRows_eq_error unlimited below leaves
    have outside : view.size < stop.toNat := by omega
    refine ⟨_, t, rfl, ?_⟩
    rw [if_neg (Nat.not_le.2 outside), Nat.min_eq_right (Nat.le_of_lt outside)]
    exact faults
  · have first := dumpRows_eq_of_le unlimited below shown
    rcases Nat.lt_or_ge (rowStop row stop).toNat stop.toNat with more | last
    · obtain ⟨m₂, t₂, rfl, rest⟩ := exists_dumpRows_eq view
        (m := m.dumpedRow view row (rowStop row stop).toNat) unlimited
        (UInt64.lt_iff_toNat_lt.2 more)
      have reads : view.reads row.toNat (min stop.toNat view.size) =
          view.reads row.toNat (rowStop row stop).toNat ++
            view.reads (rowStop row stop).toNat (min stop.toNat view.size) :=
        (View.reads_append (by omega) (by omega)).symm
      refine ⟨_, t₂, ?_, first.trans rest⟩
      rw [reads, ← Monitor.recordAll_recordAll]
      rfl
    · have whole : rowStop row stop = stop := UInt64.toNat_inj.1 (by omega)
      rw [whole] at shown first
      rw [dumpRows_of_le (UInt64.le_refl stop)] at first
      refine ⟨_, (m.dumpedRow view row stop.toNat).terminal, rfl, ?_⟩
      rw [if_pos shown, Nat.min_eq_left shown]
      exact first
termination_by stop.toNat - row.toNat
decreasing_by
  omega

end Action

namespace Monitor

variable {text : String} {bytes : ByteSpan} {m : Monitor}

/-- A dump on a terminal without a limit is answered if its run does not leave the view. Either way it
reads every byte of its run that the view shows. -/
theorem exists_runCommand_dump_eq {view : View} (asks : Asks text (.dump view bytes))
    (unlimited : m.Unlimited) :
    ∃ m', m.runCommand text =
        (if bytes.stop.toNat ≤ view.size then .ok .proceed m' else .error .addOverflow m') ∧
      m'.target = m.target ∧
      m'.trace.toList =
        m.trace.toList ++ view.reads bytes.start.toNat (min bytes.stop.toNat view.size) := by
  obtain ⟨journal, read⟩ := Action.exists_interpret_eq_execute asks m
  obtain ⟨m', t, same, run⟩ := Action.exists_dumpRows_eq view (m := { m with journal })
    unlimited bytes.start_lt_stop
  refine ⟨m', ?_, ?_, ?_⟩
  · have interpreted : Action.interpret text m =
        (Action.dumpRows view bytes.start bytes.stop >>= fun _ => pure Flow.proceed)
          { m with journal } := read
    rw [runCommand, interpreted]
    by_cases shown : bytes.stop.toNat ≤ view.size
    · rw [if_pos shown] at run ⊢
      rw [Action.run_bind _ run]
      rfl
    · rw [if_neg shown] at run ⊢
      rw [Action.run_bind_of_error _ run]
  · rw [same]
    rfl
  · rw [same]
    exact toList_trace_recordAll _ _

/-- A dump of physical memory is answered on every terminal if its run ends in the direct map. If it
does not, it faults at the first byte outside, on a terminal that takes what comes before. -/
theorem runCommand_dump_physical (asks : Asks text (.dump .physical bytes)) :
    (bytes.stop.toNat ≤ AddressMap.directMapSize → ∃ m', m.runCommand text = .ok .proceed m') ∧
      (m.Unlimited → ∃ m', m.runCommand text =
          (if bytes.stop.toNat ≤ AddressMap.directMapSize then .ok .proceed m'
            else .error .addOverflow m') ∧
        m'.target = m.target ∧
        m'.trace.toList = m.trace.toList ++ View.physical.reads bytes.start.toNat
          (min bytes.stop.toNat AddressMap.directMapSize)) := by
  refine ⟨?_, exists_runCommand_dump_eq asks⟩
  intro inside
  obtain ⟨m', run, -⟩ := exists_runCommand_dump_eq (m := m.withTerminal {}) asks rfl
  have shown : bytes.stop.toNat ≤ View.physical.size := inside
  rw [if_pos shown] at run
  exact exists_runCommand_eq_proceed run

/-- The last row of the direct map is dumped, on a terminal that fails in it. -/
theorem runCommand_dump_physical_lastRow :
    ∃ m', ({ terminal := { limit := some ⟨30, false⟩ } } : Monitor).runCommand
      "dump P 0x777ffffffff0 0x778000000000" = .ok .proceed m' := by
  have asks : Asks "dump P 0x777ffffffff0 0x778000000000"
      (.dump .physical ⟨0x777ffffffff0, 0x778000000000, by decide⟩) := by decide +kernel
  exact (runCommand_dump_physical asks).1 (by decide)

/-- A run across the end of the direct map faults after its first half was read. -/
theorem dump_faults_behind_directMap :
    Asks "dump P 0x777ffffffff8 0x778000000008"
        (.dump .physical ⟨0x777ffffffff8, 0x778000000008, by decide⟩) ∧
      ∃ m', ({} : Monitor).runCommand "dump P 0x777ffffffff8 0x778000000008" =
          .error .addOverflow m' ∧
        m'.trace.toList.length = 8 := by
  have asks : Asks "dump P 0x777ffffffff8 0x778000000008"
      (.dump .physical ⟨0x777ffffffff8, 0x778000000008, by decide⟩) := by decide +kernel
  obtain ⟨m', run, -, reads⟩ := exists_runCommand_dump_eq (m := {}) asks rfl
  refine ⟨asks, m', run, ?_⟩
  rw [reads]
  rfl

end Monitor

end DebugMonitor
