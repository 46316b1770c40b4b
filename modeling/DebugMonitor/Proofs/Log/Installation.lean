import Mathlib.Data.List.Induction
import DebugMonitor.Log.Registry

/-!
# Histories of installing and writing

A history is a list of attempts to install a logger and of records to be written. A caller of
`Registry.install` would expect the first attempt to decide everything, since the later ones are
refused: `promise` is the answer to an event on that reading. In fact a refused attempt has already
replaced the logger in its slot. `state_after` says which filters are in force after a history: the
first one as the overall bound, and the latest one in the slot.

So a record is written when both filters admit it, and `run_eq_promises_iff` says exactly for which
histories all promises are kept.
-/

namespace DebugMonitor.Log

inductive Event where
  | install (filter : Filter)
  | write (record : Record)

inductive Answer where
  | attempt (result : Except AlreadyInstalled Unit)
  | signals (signals : List Signal)

/-- The filters of the attempts in a history, in order. -/
def attempts (history : List Event) : List Filter :=
  history.filterMap fun
    | .install filter => some filter
    | .write _ => none

namespace Registry

/-- What an event is answered, and the registry after it. -/
def handle (r : Registry) : Event → Answer × Registry
  | .install filter => (.attempt (r.install filter).1, (r.install filter).2)
  | .write record => (.signals (r.write record), r)

/-- The registry after a history. -/
def after (r : Registry) : List Event → Registry
  | [] => r
  | event :: rest => (r.handle event).2.after rest

/-- The answers to the events of a history. -/
def run (r : Registry) : List Event → List Answer
  | [] => []
  | event :: rest => (r.handle event).1 :: (r.handle event).2.run rest

end Registry

/-- The answer to an event after a history in which the first attempt decides. -/
def promise (before : List Event) : Event → Answer
  | .install _ => .attempt (if attempts before = [] then .ok () else .error {})
  | .write record => .signals <|
    match (attempts before).head? with
    | some first => if first.admits record.level then Signal.hostText record.render else []
    | none => []

/-- The promised answers to events that follow a history. -/
def promisesFrom (before : List Event) : List Event → List Answer
  | [] => []
  | event :: rest => promise before event :: promisesFrom (before ++ [event]) rest

/-- The promised answers to a whole history. -/
def promises (history : List Event) : List Answer :=
  promisesFrom [] history

/-- The latest attempt of a history admits the record if the first one does. -/
def Keeps (before : List Event) (record : Record) : Prop :=
  ∀ first latest, (attempts before).head? = some first → (attempts before).getLast? = some latest →
    first.admits record.level = true → latest.admits record.level = true

theorem Answer.signals_inj {a b : List Signal} : Answer.signals a = .signals b ↔ a = b :=
  ⟨fun h => by cases h; rfl, congrArg _⟩

variable {before rest : List Event} {event : Event} {record : Record}

theorem Registry.after_append (r : Registry) :
    r.after (before ++ rest) = (r.after before).after rest := by
  induction before generalizing r with
  | nil => rfl
  | cons event before ih => exact ih _

@[simp] theorem attempts_append : attempts (before ++ rest) = attempts before ++ attempts rest :=
  List.filterMap_append

/-- After an attempt the slot holds its filter; the first attempt also sets the bound. -/
theorem Registry.state_after (history : List Event) :
    ({} : Registry).after history =
      ⟨(attempts history).getLast?.map HostLogger.mk, (attempts history).head?.getD none⟩ := by
  induction history using List.reverseRecOn with
  | nil => rfl
  | append_singleton before event ih =>
    rw [after_append, ih, attempts_append]
    cases event with
    | write record =>
      have silent : attempts [.write record] = [] := rfl
      rw [silent, List.append_nil]
      rfl
    | install filter =>
      cases attempts before with
      | nil => rfl
      | cons first others =>
        change (install _ filter).2 = (⟨(first :: others ++ [filter]).getLast?.map _, _⟩ : Registry)
        rw [List.getLast?_append, List.getLast?_cons]
        rfl

/-- An attempt succeeds exactly if it is the first one. -/
theorem Registry.answer_install (before : List Event) (filter : Filter) :
    ((({} : Registry).after before).handle (.install filter)).1 =
      promise before (.install filter) := by
  rw [state_after, promise]
  cases attempts before with
  | nil => rfl
  | cons first others =>
    rw [if_neg (List.cons_ne_nil _ _)]
    change Answer.attempt (install _ filter).1 = _
    rw [List.getLast?_cons]
    rfl

/-- A record is written exactly if the first and the latest attempt admit it. -/
theorem Registry.write_after (before : List Event) (record : Record) :
    (({} : Registry).after before).write record =
      match (attempts before).head?, (attempts before).getLast? with
      | some first, some latest =>
        if first.admits record.level && latest.admits record.level then
          Signal.hostText record.render
        else []
      | _, _ => [] := by
  rw [state_after, write_eq, isEnabled]
  cases attempts before with
  | nil => rfl
  | cons first others =>
    rw [List.head?_cons, List.getLast?_cons]
    rfl

/-! ### Kept and broken promises -/

private theorem length_le_length_loop (bytes : ByteArray) (i : Nat) (acc : List UInt8) :
    acc.length ≤ (ByteArray.toList.loop bytes i acc).length := by
  fun_induction ByteArray.toList.loop bytes i acc with
  | case1 i acc _ ih =>
    rw [List.length_cons] at ih
    exact Nat.le_of_succ_le ih
  | case2 i acc _ => exact Nat.le_of_eq List.length_reverse.symm

/-- The line of a record is never empty, so leaving it out can be observed. -/
theorem hostText_render_ne_nil (record : Record) : Signal.hostText record.render ≠ [] := by
  have bracket : record.render = "[" ++ (record.level.label ++ ("] " ++ (record.target ++
      (": " ++ (record.text ++ "\n"))))) := by
    simp only [Record.render, String.append_assoc]
    rfl
  have size : 0 < record.render.toUTF8.size := by
    rw [bracket]
    change 0 < ("[" ++ _ : String).toByteArray.size
    rw [String.toByteArray_append, ByteArray.size_append]
    exact Nat.add_pos_left (by decide) _
  intro empty
  have bytes := List.map_eq_nil_iff.1 empty
  rw [ByteArray.toList, ByteArray.toList.loop, if_pos size] at bytes
  have first := length_le_length_loop record.render.toUTF8 (0 + 1) [record.render.toUTF8.get! 0]
  rw [bytes] at first
  exact Nat.not_succ_le_zero 0 first

/-- The promise about a record is kept exactly if the latest attempt admits what the first does. -/
theorem Registry.answer_write_eq_promise_iff :
    ((({} : Registry).after before).handle (.write record)).1 = promise before (.write record) ↔
      Keeps before record := by
  change Answer.signals ((after {} before).write record) = _ ↔ _
  have line := hostText_render_ne_nil record
  rw [write_after, promise, Keeps, Answer.signals_inj]
  cases attempts before with
  | nil =>
    constructor
    · intro _ first latest absurd
      cases absurd
    · intro _
      rfl
  | cons first others =>
    rw [List.head?_cons, List.getLast?_cons]
    generalize others.getLast?.getD first = latest
    dsimp only
    constructor
    · rintro same _ _ ⟨rfl⟩ ⟨rfl⟩ admitted
      rw [admitted, Bool.true_and, if_pos rfl] at same
      apply Classical.byContradiction
      intro refused
      rw [if_neg refused] at same
      exact line same.symm
    · intro keeps
      have kept := keeps first latest rfl rfl
      cases hfirst : first.admits record.level with
      | false => rfl
      | true => rw [kept hfirst, Bool.true_and]

/-- Every event of a history is answered as promised exactly if every record is. -/
theorem run_eq_promisesFrom_iff (before rest : List Event) :
    (({} : Registry).after before).run rest = promisesFrom before rest ↔
      ∀ passed record later, rest = passed ++ .write record :: later →
        Keeps (before ++ passed) record := by
  induction rest generalizing before with
  | nil =>
    constructor
    · intro _ passed record later absurd
      cases passed <;> cases absurd
    · intro _
      rfl
  | cons event rest ih =>
    have next : ((({} : Registry).after before).handle event).2 =
        ({} : Registry).after (before ++ [event]) := by
      rw [Registry.after_append]
      rfl
    rw [Registry.run, promisesFrom, List.cons.injEq, next, ih (before ++ [event])]
    constructor
    · rintro ⟨now, afterwards⟩ passed record later split
      cases passed with
      | nil =>
        cases split
        rw [List.append_nil]
        exact Registry.answer_write_eq_promise_iff.1 now
      | cons _ passed =>
        cases split
        rw [List.append_cons]
        exact afterwards passed record later rfl
    · intro all
      constructor
      · cases event with
        | install filter => exact Registry.answer_install before filter
        | write record =>
          have kept := all [] record rest rfl
          rw [List.append_nil] at kept
          exact Registry.answer_write_eq_promise_iff.2 kept
      · rintro passed record later rfl
        rw [← List.append_cons]
        exact all (event :: passed) record later rfl

/-- The answers to a history are those that the first attempt promises exactly if at every record
the latest attempt admits it or the first one does not. -/
theorem run_eq_promises_iff (history : List Event) :
    ({} : Registry).run history = promises history ↔
      ∀ before record later, history = before ++ .write record :: later → Keeps before record :=
  run_eq_promisesFrom_iff [] history

/-- A refused attempt silences a record that the installed logger was to write. -/
theorem run_ne_promises_of_late_install :
    ({} : Registry).run [.install (some .info), .install (some .error),
        .write ⟨⟨.info, "m"⟩, "t"⟩] ≠
      promises [.install (some .info), .install (some .error), .write ⟨⟨.info, "m"⟩, "t"⟩] := by
  intro same
  have kept := (run_eq_promisesFrom_iff [] _).1 same
    [.install (some .info), .install (some .error)] ⟨⟨.info, "m"⟩, "t"⟩ [] rfl
  exact absurd (kept (some .info) (some .error) rfl rfl rfl) (by decide)

end DebugMonitor.Log
