import DebugMonitor.Proofs.Monitor.Backtrace
import DebugMonitor.Proofs.Monitor.Visiting
import DebugMonitor.Proofs.Symbol.Lookup

/-!
# The places that a backtrace names

Each frame of a backtrace is followed by the place that its return address lies in. `Names` says which
text that is: where a function of the table holds the address, the text has its file, the line, its name
and the distance from its start, which is below its size; otherwise the place is unknown.

`names_place` is the text for one address; `runCommand_backtrace_names` puts the backtrace together from
the places of its frames.
-/

namespace DebugMonitor

open Command

namespace SymbolTable

/-- What may be shown as the place of an address. -/
inductive Names (t : SymbolTable) (addr : UInt64) : String → Prop where
  | inside (s : Symbol) (offset : Nat) :
      s ∈ t.symbols → s.Holds addr →
      s.start.toNat + offset = addr.toNat → offset < s.stop.toNat - s.start.toNat →
      Names t addr s!"{s.file}:{s.scanLines addr}: {s.function}+{offset}"
  | outside : (∀ s ∈ t.symbols, ¬ s.Holds addr) → Names t addr "<unknown>:0: <unknown>+0"

theorem names_place {t : SymbolTable} (ordered : t.Ordered) (addr : UInt64) :
    t.Names addr (t.place addr) := by
  rw [place]
  cases found : t.resolve addr with
  | none =>
    refine .outside fun s member holds => ?_
    have resolved := (resolve_eq_some_iff ordered).2 ⟨s, member, holds, rfl⟩
    rw [found] at resolved
    cases resolved
  | some l =>
    obtain ⟨s, member, holds, rfl⟩ := (resolve_eq_some_iff ordered).1 found
    obtain ⟨distance, within⟩ := holds.toNat_sub
    exact .inside s _ member holds distance within

end SymbolTable

namespace Monitor

/-- Symbols are found as if all functions and lines were looked through, and a backtrace shows what was
found. In a table whose functions and lines are in order at most one function holds an address; the
search comes to this function, and to the last line at or below the address. So every frame of a
backtrace is shown with the place of its return address, at an offset that lies within the function, or
as unknown where no function holds the address, on every terminal as far as it takes them. -/
theorem runCommand_backtrace_names {t : SymbolTable} (ordered : t.Ordered) :
    (∀ addr, t.resolve addr = t.scan addr) ∧
    (∀ addr l, t.resolve addr = some l ↔ ∃ s ∈ t.symbols, s.Holds addr ∧
      l = ⟨s.file, s.scanLines addr, s.function, s.start⟩) ∧
    (∀ (addr : UInt64) (i j : Nat) (s s' : Symbol), t.symbols[i]? = some s → s.Holds addr →
      t.symbols[j]? = some s' → s'.Holds addr → i = j) ∧
    ∀ (m : Monitor) (text : String), m.target.symbols = t → Asks text .backtrace →
      ∃ (k : Nat) (place : Nat → String),
        m.target.StopsAt m.options k ∧ (∀ i < k, ¬ m.target.StopsAt m.options i) ∧
        (∀ i, t.Names (m.target.frameAt (m.target.chain i)).returnAddress (place i)) ∧
        ∃ m', m.runCommand text = .ok .proceed m' ∧
          m'.terminal = m.terminal.afterShowing
            ("Stack backtrace:\n" ++ m.target.linesWith place k ++ m.target.stopLine m.options k) := by
  refine ⟨SymbolTable.resolve_eq_scan ordered, fun _ _ => SymbolTable.resolve_eq_some_iff ordered,
    fun _ _ _ _ _ hs holds hs' holds' => ordered.unique hs holds hs' holds', ?_⟩
  rintro m text rfl asks
  obtain ⟨k, stops, goes⟩ := m.target.exists_stopsAt m.options
  refine ⟨k, fun i => m.target.symbols.place (m.target.frameAt (m.target.chain i)).returnAddress,
    stops, goes, fun i => SymbolTable.names_place ordered _, ?_⟩
  refine exists_runCommand_eq_afterShowing asks nofun fun journal => ?_
  have run := Action.backtrace_eq_ok (m := { m.withTerminal {} with journal }) rfl stops goes
  exact ⟨_, Action.run_bind _ run, String.empty_append⟩

/-- Two functions with a gap between them. The first has two entries for one address, the second has no
lines. -/
def twoFunctions : SymbolTable where
  symbols := #[
    ⟨0x1000, 0x1040, "kernel_main", "kernel/main",
      #[(0x1000, 10), (0x1010, 11), (0x1010, 12), (0x1030, 15)]⟩,
    ⟨0x1100, 0x1180, "monitor_entry", "kernel/trap", #[]⟩]

/-- A machine in the first of them: the frame at `0x2000` returns to `0x1014` and has no caller. -/
def inFunction : Monitor :=
  { target :=
      { framePointer := 0x2000
        symbols := twoFunctions
        stray := fun a => if a = 0x2008 then 0x14 else if a = 0x2009 then 0x10 else 0 } }

theorem runCommand_backtrace_names_inFunction :
    twoFunctions.resolve 0x1014 = some ⟨"kernel/main", 12, "kernel_main", 0x1000⟩ ∧
    twoFunctions.resolve 0x1040 = none ∧
    ∃ (m' : Monitor) (place : String), inFunction.runCommand "backtrace" = .ok .proceed m' ∧
      twoFunctions.Names 0x1014 place ∧
      m'.terminal.shown = "Stack backtrace:\n" ++
        ((inFunction.target.frameAt 0x2000).wordsLine ++ "         " ++ place ++ "\n") := by
  have ordered : twoFunctions.Ordered :=
    ⟨by decide, by simp [twoFunctions], by simp [twoFunctions, Symbol.LinesOrdered]⟩
  have asks : Asks "backtrace" .backtrace := by decide +kernel
  obtain ⟨scanned, -, -, run⟩ := runCommand_backtrace_names ordered
  refine ⟨(scanned _).trans rfl, (scanned _).trans rfl, ?_⟩
  obtain ⟨k, place, stops, goes, names, m', ran, shown⟩ := run inFunction _ rfl asks
  have first : ¬ inFunction.target.StopsAt inFunction.options 0 := by decide
  have second : inFunction.target.StopsAt inFunction.options 1 := by decide
  have one : k = 1 := by
    rcases Nat.lt_trichotomy k 1 with below | same | above
    · obtain rfl := Nat.lt_one_iff.1 below
      exact absurd stops first
    · exact same
    · exact absurd second (goes 1 above)
  subst one
  have returns : (inFunction.target.frameAt 0x2000).returnAddress = 0x1014 := by decide
  have ends : inFunction.target.stopLine inFunction.options 1 = "" := by decide
  refine ⟨m', place 0, ran, returns ▸ names 0, ?_⟩
  rw [shown]
  change "" ++ ("Stack backtrace:\n" ++ inFunction.target.linesWith place 1 ++ _) = _
  rw [ends, String.append_empty, String.empty_append]
  have single (line : String) : String.join [line] = line := by
    rw [String.join_cons, String.join_nil, String.append_empty]
  exact congrArg ("Stack backtrace:\n" ++ ·) (single _)

end Monitor

end DebugMonitor
