import DebugMonitor.Proofs.Command.Reading

/-!
# Refused lines

`refusal?` says which lines are refused and how, as a function of the words and of whether a context
is at hand, in the order in which the words are checked: their number, the name of the command, the
number of its arguments, and then the arguments from left to right. `Request.ofText_reads` shows that
reading a line refuses these lines and no others, except that it is left to carrying out a command
to find that there is no context.
-/

namespace DebugMonitor.Command

/-- The bounds that one or two tokens give; without the second the range has a fixed width. -/
def bounds? (width : UInt64) (start : String) (stop? : Option String) :
    Option (UInt64 × UInt64) := do
  let a ← (Text.readNumber start).toOption
  let b ← match stop? with
    | some stop => (Text.readNumber stop).toOption
    | none => Word.add? a width
  return (a, b)

/-- The tokens bound a nonempty range of whole 4 KiB pages. -/
def boundsPages (start : String) (stop? : Option String) : Bool :=
  (bounds? PageSize.size4K.bytes start stop?).any fun (a, b) =>
    a.toNat % 4096 = 0 ∧ b.toNat % 4096 = 0 ∧ a < b

/-- The tokens bound a nonempty range of bytes. -/
def boundsBytes (start : String) (stop? : Option String) : Bool :=
  (bounds? bytesPerRow start stop?).any fun (a, b) => a < b

/-- The token is `U` or `-`, followed by `W` or `-`. -/
def isPermission (token : String) : Bool :=
  ["UW", "U-", "-W", "--"].contains token

def isView (token : String) : Bool :=
  token == "V" || token == "P"

/-- The message by which the arguments of a command are refused, if they are. -/
def argumentRefusal? (hasContext : Bool) : Verb → List String → Option String
  | .showMappings, start :: rest =>
    if boundsPages start rest[0]? then none else some "Invalid address!"
  | .setPermission, permission :: start :: rest =>
    if isPermission permission then
      if boundsPages start rest[0]? then none else some "Invalid address!"
    else some "Invalid permission!"
  | .dump, view :: start :: rest =>
    if isView view then
      if boundsBytes start rest[0]? then none else some "Invalid address!"
    else some "Invalid address type!"
  | .showMappings, _ => some "Usage: showmappings START [END]"
  | .setPermission, _ => some "Usage: setperm PERM START [END]"
  | .dump, _ => some "Usage: dump TYPE START [END]"
  | .resume, _ => if hasContext then none else some "No trapframe found."
  | .step, _ => if hasContext then none else some "No trapframe found."
  | _, _ => none

/-- The message by which a line of these words is refused, if it is. -/
def refusal? (hasContext : Bool) (words : List String) : Option String :=
  if 15 < words.length then some "Too many arguments (max 16)"
  else match words with
    | [] => none
    | name :: arguments =>
      match Verb.ofName? name with
      | none => some ("Unknown command '" ++ name ++ "'")
      | some verb => argumentRefusal? hasContext verb arguments

/-! ### Arguments -/

/-- A token passes a check and is read, or fails it and is refused with a message. -/
def Checked {α : Type} (passes : Bool) (message : String) (read : Except Diagnostic α) : Prop :=
  if passes then ∃ a, read = .ok a else ∃ d, read = .error d ∧ d.message = message

section

variable {ε ε' α : Type} {x : Except ε α} {f : ε → ε'}

@[simp] private theorem mapError_ok (a : α) : (Except.ok a).mapError f = .ok a := rfl

@[simp] private theorem mapError_error (e : ε) :
    (Except.error e : Except ε α).mapError f = .error (f e) := rfl

private theorem mapError_eq_ok_iff {a : α} : x.mapError f = .ok a ↔ x = .ok a := by
  cases x with
  | error e =>
    constructor
    · intro h
      cases h
    · intro h
      cases h
  | ok b =>
    simp

end

/-- A span is read exactly from tokens that bound it. -/
theorem readSpan_eq_ok_iff {start : String} {stop? : Option String} {span : PageSpan .size4K} :
    readSpan start stop? = .ok span ↔
      bounds? PageSize.size4K.bytes start stop? = some (span.start.word, span.stop.word) := by
  have address {a : UInt64} {va : VirtualAddress} : va = ⟨a⟩ ↔ a = va.word := by
    cases va
    simp [eq_comm]
  unfold readSpan bounds? readBound
  cases Text.readNumber start with
  | error e => simp [Except.toOption, bind, Except.bind]
  | ok a =>
    cases stop? with
    | some stop =>
      dsimp only [mapError_ok, Except.toOption, bind, Except.bind, Option.bind]
      cases Text.readNumber stop with
      | error e => simp
      | ok b =>
        change (PageSpan.ofBounds .size4K ⟨a⟩ ⟨b⟩).mapError _ = .ok span ↔ some (a, b) = _
        rw [mapError_eq_ok_iff, PageSpan.ofBounds_eq_ok_iff, Option.some.injEq, Prod.mk.injEq,
          address, address]
    | none =>
      dsimp only [PageSpan.single, Address.add?, mapError_ok, Except.toOption, bind,
        Except.bind, Option.bind, pure, Except.pure]
      cases Word.add? a PageSize.size4K.bytes with
      | none => simp
      | some b =>
        change (PageSpan.ofBounds .size4K ⟨a⟩ ⟨b⟩).mapError _ = .ok span ↔ some (a, b) = _
        rw [mapError_eq_ok_iff, PageSpan.ofBounds_eq_ok_iff, Option.some.injEq, Prod.mk.injEq,
          address, address]

/-- A run of bytes is read exactly from tokens that bound it. -/
theorem readBytes_eq_ok_iff {start : String} {stop? : Option String} {bytes : ByteSpan} :
    readBytes start stop? = .ok bytes ↔
      bounds? bytesPerRow start stop? = some (bytes.start, bytes.stop) := by
  have checked (a b : UInt64) : (if h : a < b then .ok ⟨a, b, h⟩
      else .error (.invalidAddress .noBytes) : Except Diagnostic ByteSpan) = .ok bytes ↔
      some (a, b) = some (bytes.start, bytes.stop) := by
    rw [Option.some.injEq, Prod.mk.injEq]
    split
    · rename_i below
      cases bytes
      simp
    · rename_i empty
      constructor
      · intro h
        cases h
      · rintro ⟨rfl, rfl⟩
        exact absurd bytes.start_lt_stop empty
  unfold readBytes bounds? readBound
  cases Text.readNumber start with
  | error e => simp [Except.toOption, bind, Except.bind]
  | ok a =>
    cases stop? with
    | some stop =>
      dsimp only [mapError_ok, Except.toOption, bind, Except.bind, Option.bind]
      cases Text.readNumber stop with
      | error e => simp
      | ok b => exact checked a b
    | none =>
      dsimp only [mapError_ok, Except.toOption, bind, Except.bind, Option.bind]
      cases Word.add? a bytesPerRow with
      | none => simp [throw, throwThe, MonadExceptOf.throw]
      | some b => exact checked a b

/-- The diagnostic says that the bounds of a range are bad. -/
def Diagnostic.IsInvalidAddress (d : Diagnostic) : Prop :=
  ∃ cause, d = .invalidAddress cause

private theorem error_of_bind {ε α β : Type} {P : ε → Prop} {x : Except ε α} {f : α → Except ε β}
    (first : ∀ e, x = .error e → P e) (rest : ∀ a e, f a = .error e → P e) (e : ε)
    (h : (x >>= f) = .error e) : P e := by
  cases x with
  | error e' =>
    cases h
    exact first e rfl
  | ok a => exact rest a e h

private theorem readBound_eq_error (token : String) (d : Diagnostic)
    (h : readBound token = .error d) : d.IsInvalidAddress := by
  rw [readBound] at h
  cases hread : Text.readNumber token with
  | error e =>
    rw [hread] at h
    cases h
    exact ⟨_, rfl⟩
  | ok w =>
    rw [hread] at h
    cases h

private theorem readSpan_eq_error {start : String} {stop? : Option String} (d : Diagnostic)
    (h : readSpan start stop? = .error d) : d.IsInvalidAddress := by
  have judged (read : Except SpanError (PageSpan .size4K)) (d : Diagnostic)
      (h : read.mapError (fun e => .invalidAddress (.badSpan e)) = .error d) :
      d.IsInvalidAddress := by
    cases read with
    | error e =>
      cases h
      exact ⟨_, rfl⟩
    | ok span => cases h
  refine error_of_bind (readBound_eq_error start) ?_ d h
  intro a
  cases stop? with
  | some stop =>
    apply error_of_bind (readBound_eq_error stop)
    intro b
    exact judged (PageSpan.ofBounds .size4K ⟨a⟩ ⟨b⟩)
  | none =>
    dsimp only
    generalize PageSpan.single .size4K ⟨a⟩ = read
    exact judged read

private theorem readBytes_eq_error {start : String} {stop? : Option String} (d : Diagnostic)
    (h : readBytes start stop? = .error d) : d.IsInvalidAddress := by
  have judged (a b : UInt64) (d : Diagnostic) (h : (if h : a < b then .ok ⟨a, b, h⟩
      else .error (.invalidAddress .noBytes) : Except Diagnostic ByteSpan) = .error d) :
      d.IsInvalidAddress := by
    split at h
    · cases h
    · cases h
      exact ⟨_, rfl⟩
  refine error_of_bind (readBound_eq_error start) ?_ d h
  intro a
  cases stop? with
  | some stop =>
    apply error_of_bind (readBound_eq_error stop)
    intro b
    exact judged a b
  | none =>
    dsimp only
    cases Word.add? a bytesPerRow with
    | none =>
      intro d h
      cases h
      exact ⟨_, rfl⟩
    | some b => exact judged a b

/-- Tokens that bound no span of pages are refused, and all for the same reason. -/
theorem readSpan_spec (start : String) (stop? : Option String) :
    Checked (boundsPages start stop?) "Invalid address!" (readSpan start stop?) := by
  have accepted : boundsPages start stop? = true ↔ ∃ span, readSpan start stop? = .ok span := by
    simp only [readSpan_eq_ok_iff, boundsPages, Option.any_eq_true, decide_eq_true_eq]
    constructor
    · rintro ⟨⟨a, b⟩, bounds, start_aligned, stop_aligned, below⟩
      exact ⟨⟨⟨a⟩, ⟨b⟩, Address.isAligned_iff_dvd.2 (Nat.dvd_of_mod_eq_zero start_aligned),
        Address.isAligned_iff_dvd.2 (Nat.dvd_of_mod_eq_zero stop_aligned), below⟩, bounds⟩
    · rintro ⟨span, bounds⟩
      exact ⟨_, bounds, Nat.mod_eq_zero_of_dvd (Address.isAligned_iff_dvd.1 span.start_aligned),
        Nat.mod_eq_zero_of_dvd (Address.isAligned_iff_dvd.1 span.stop_aligned),
        span.start_lt_stop⟩
  rw [Checked]
  split
  · rename_i bounded
    exact accepted.1 bounded
  · rename_i unbounded
    cases read : readSpan start stop? with
    | ok span => exact absurd (accepted.2 ⟨span, read⟩) unbounded
    | error d =>
      obtain ⟨cause, rfl⟩ := readSpan_eq_error d read
      exact ⟨_, rfl, rfl⟩

/-- Tokens that bound no run of bytes are refused, and all for the same reason. -/
theorem readBytes_spec (start : String) (stop? : Option String) :
    Checked (boundsBytes start stop?) "Invalid address!" (readBytes start stop?) := by
  have accepted : boundsBytes start stop? = true ↔ ∃ bytes, readBytes start stop? = .ok bytes := by
    simp only [readBytes_eq_ok_iff, boundsBytes, Option.any_eq_true, decide_eq_true_eq]
    constructor
    · rintro ⟨⟨a, b⟩, bounds, below⟩
      exact ⟨⟨a, b, below⟩, bounds⟩
    · rintro ⟨bytes, bounds⟩
      exact ⟨_, bounds, bytes.start_lt_stop⟩
  rw [Checked]
  split
  · rename_i bounded
    exact accepted.1 bounded
  · rename_i unbounded
    cases read : readBytes start stop? with
    | ok bytes => exact absurd (accepted.2 ⟨bytes, read⟩) unbounded
    | error d =>
      obtain ⟨cause, rfl⟩ := readBytes_eq_error d read
      exact ⟨_, rfl, rfl⟩

theorem Permission.ofToken_spec (token : String) :
    Checked (isPermission token) "Invalid permission!" (Permission.ofToken token) := by
  rw [Checked]
  split
  · rename_i permitted
    simp only [isPermission, List.contains_iff_mem, List.mem_cons, List.not_mem_nil,
      or_false] at permitted
    rcases permitted with rfl | rfl | rfl | rfl <;> exact ⟨_, rfl⟩
  · rename_i other
    rw [Permission.ofToken]
    split
    · rename_i u w letters
      rw [if_neg]
      · exact ⟨_, rfl, rfl⟩
      rintro ⟨user, writable⟩
      apply other
      rw [← String.ofList_toList (s := token), letters]
      rcases user with rfl | rfl <;> rcases writable with rfl | rfl <;> rfl
    · exact ⟨_, rfl, rfl⟩

theorem View.ofToken_spec (token : String) :
    Checked (isView token) "Invalid address type!" (View.ofToken token) := by
  rw [Checked]
  split
  · rename_i known
    simp only [isView, Bool.or_eq_true, beq_iff_eq] at known
    rcases known with rfl | rfl <;> exact ⟨_, rfl⟩
  · rename_i other
    simp only [isView, Bool.or_eq_true, beq_iff_eq, not_or] at other
    rw [View.ofToken, if_neg other.1, if_neg other.2]
    exact ⟨_, rfl, rfl⟩

/-! ### Lines -/

/-- How the message of a refusal, if there is one, and the result of reading a line belong
together. -/
inductive Reads (hasContext : Bool) :
    Option String → Except Diagnostic (Option Request) → Prop where
  | refused (d : Diagnostic) : Reads hasContext (some d.message) (.error d)
  | noContext (on : Bool) : hasContext = false →
      Reads hasContext (some Diagnostic.noContext.message) (.ok (some (.resume on)))
  | blank : Reads hasContext none (.ok none)
  | accepted (request : Request) : (∀ on, request = .resume on → hasContext = true) →
      Reads hasContext none (.ok (some request))

variable {hasContext : Bool}

private theorem Reads.of_message {message : String} (d : Diagnostic) (h : d.message = message) :
    Reads hasContext (some message) (.error d) := by
  rw [← h]
  exact .refused d

private theorem Reads.of_ne_resume {request : Request} (stays : ∀ on, request ≠ .resume on) :
    Reads hasContext none (.ok (some request)) :=
  .accepted request fun on same => absurd same (stays on)

private theorem Reads.resume (hasContext on : Bool) :
    Reads hasContext (if hasContext then none else some "No trapframe found.")
      (.ok (some (.resume on))) := by
  cases hasContext with
  | true => exact .accepted _ fun _ _ => rfl
  | false => exact .noContext on rfl

/-- A check comes before what is read after it. -/
private theorem Reads.bind {α : Type} {passes : Bool} {message : String} {next? : Option String}
    {read : Except Diagnostic α} {f : α → Except Diagnostic Request}
    (check : Checked passes message read) (rest : ∀ a, Reads hasContext next? ((f a).map some)) :
    Reads hasContext (if passes then next? else some message) ((read >>= f).map some) := by
  rw [Checked] at check
  split at check
  · obtain ⟨a, rfl⟩ := check
    rw [if_pos ‹_›]
    exact rest a
  · obtain ⟨d, rfl, hd⟩ := check
    rw [if_neg ‹_›]
    exact .of_message d hd

theorem Request.ofLine_reads (verb : Verb) {line : Line} {name : String}
    {arguments : List String} (words : ∀ i, line.get? i = (name :: arguments)[i]?) :
    Reads hasContext (argumentRefusal? hasContext verb arguments)
      ((Request.ofLine verb line).map some) := by
  have get (i : Nat) : line.get? (i + 1) = arguments[i]? := by
    rw [words, List.getElem?_cons_succ]
  cases verb with
  | showMappings =>
    simp only [Request.ofLine, get]
    cases arguments with
    | nil => exact .of_message _ rfl
    | cons start rest =>
      apply Reads.bind (readSpan_spec start rest[0]?)
      intro span
      exact .of_ne_resume fun on same => by cases same
  | setPermission =>
    simp only [Request.ofLine, get]
    rcases arguments with _ | ⟨permission, _ | ⟨start, rest⟩⟩
    · exact .of_message _ rfl
    · exact .of_message _ rfl
    · apply Reads.bind (Permission.ofToken_spec permission)
      intro p
      apply Reads.bind (readSpan_spec start rest[0]?)
      intro span
      exact .of_ne_resume fun on same => by cases same
  | dump =>
    simp only [Request.ofLine, get]
    rcases arguments with _ | ⟨view, _ | ⟨start, rest⟩⟩
    · exact .of_message _ rfl
    · exact .of_message _ rfl
    · apply Reads.bind (View.ofToken_spec view)
      intro v
      apply Reads.bind (readBytes_spec start rest[0]?)
      intro bytes
      exact .of_ne_resume fun on same => by cases same
  | resume => exact .resume hasContext false
  | step => exact .resume hasContext true
  | help | kernelInfo | backtrace | shutdown | restart =>
    exact .of_ne_resume fun on same => by cases same

/-- Reading a text refuses it as `refusal?` says. -/
theorem Request.ofText_reads (hasContext : Bool) (text : String) :
    Reads hasContext (refusal? hasContext (Line.wordsOf text)) (Request.ofText text) := by
  unfold refusal? Request.ofText
  by_cases many : 15 < (Line.wordsOf text).length
  · rw [Line.ofString_eq_error many, if_pos many]
    exact .of_message _ (by decide)
  · obtain ⟨line, read⟩ := Line.exists_ofString_eq_ok (Nat.not_lt.1 many)
    have words := Line.get?_of_ofString read
    have first := Line.name?_of_ofString read
    rw [read, if_neg many]
    dsimp only
    cases hwords : Line.wordsOf text with
    | nil =>
      rw [first, hwords]
      exact .blank
    | cons name arguments =>
      rw [hwords] at words
      rw [first, hwords, List.head?_cons]
      dsimp only
      cases Verb.ofName? name with
      | none => exact .of_message _ rfl
      | some verb => exact Request.ofLine_reads verb words

end DebugMonitor.Command
