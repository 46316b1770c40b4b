import DebugMonitor.Proofs.Paging.Edit
import DebugMonitor.Proofs.Session.Conduct

/-!
# Sessions and the translation of addresses

The only move that changes memory replaces the two permission bits of a leaf, and it is made only
for a line that sets permissions; so is dropping a cached mapping. All other bits of memory keep
their values through every session, and since a walk reads no others, every address is mapped by the
same slot with the same size, and to the same physical address, in every state of a session.
-/

namespace DebugMonitor

open Command Paging

namespace Monitor

/-- The address of a page whose cached mapping is dropped by the effect. -/
def flushed? : Effect → Option VirtualAddress
  | .flush va => some va
  | _ => none

/-- The pages flushed so far, in order. -/
def flushes (m : Monitor) : List VirtualAddress :=
  m.trace.toList.filterMap flushed?

/-- The target is the same up to permission bits in memory. -/
structure TranslatesAs (m m' : Monitor) : Prop where
  target : m'.target = { m.target with space := m'.target.space }
  agree : m.target.space.Agree m'.target.space
  byteCount : m'.target.space.memory.byteCount = m.target.space.memory.byteCount

/-- The target is the same, and no page was flushed. -/
def Untouched (m m' : Monitor) : Prop :=
  m'.target = m.target ∧ m'.flushes = m.flushes

theorem flushes_record {m : Monitor} {e : Effect} (h : flushed? e = none) :
    (m.record e).flushes = m.flushes := by
  rw [flushes, record, Array.toList_push, List.filterMap_append]
  simp only [List.filterMap_cons, h, List.filterMap_nil, List.append_nil]
  rfl

/-- Whatever the lines are, the target translates as before. -/
theorem preserves_translatesAs (lines : List String) :
    Session.Preserves lines TranslatesAs where
  refl m := ⟨rfl, .refl _, rfl⟩
  trans {a b c} h₁ h₂ := by
    refine ⟨?_, h₁.agree.trans h₂.agree, h₂.byteCount.trans h₁.byteCount⟩
    rw [h₂.target, h₁.target]
  move m move allowed := by
    cases move with
    | store leaf =>
      obtain ⟨text, -, request, -, stores⟩ := allowed.exists_request id id
      obtain ⟨p, span, -, page, -, found, walk, rfl⟩ := stores
      exact ⟨rfl, AddressSpace.agree_store_apply p walk, Memory.byteCount_setWord⟩
    | write _ | ask _ | note _ | perform _ | context _ | greeted => exact ⟨rfl, .refl _, rfl⟩
  terminal m terminal := ⟨rfl, .refl _, rfl⟩
  context m context := ⟨rfl, .refl _, rfl⟩

/-- Lines that do not start with the word for setting permissions leave the target alone. -/
theorem preserves_untouched {lines : List String}
    (others : ∀ text ∈ lines, (Line.wordsOf text).head? ≠ some "setperm") :
    Session.Preserves lines Untouched where
  refl m := ⟨rfl, rfl⟩
  trans h₁ h₂ := ⟨h₂.1.trans h₁.1, h₂.2.trans h₁.2⟩
  move m move allowed := by
    cases move with
    | store leaf =>
      obtain ⟨text, member, request, asks, p, span, rfl, -⟩ := allowed.exists_request id id
      exact absurd asks.head? (others text member)
    | perform e =>
      obtain ⟨text, member, request, asks, performs⟩ := allowed.exists_request id id
      refine ⟨rfl, flushes_record ?_⟩
      cases e with
      | flush va =>
        cases request with
        | setPermission p span => exact absurd asks.head? (others text member)
        | help | kernelInfo | backtrace | shutdown | restart | showMappings | dump | resume =>
          exact absurd performs id
      | lookup | readByte | readWord | powerOff | reset => rfl
    | write _ | ask _ | note _ | context _ | greeted => exact ⟨rfl, rfl⟩
  terminal m terminal := ⟨rfl, rfl⟩
  context m context := ⟨rfl, rfl⟩

/-- A line that does not start with the word for setting permissions leaves the target alone,
however it ends. -/
theorem runCommand_untouched {text : String} (other : (Line.wordsOf text).head? ≠ some "setperm")
    (m : Monitor) : m.Untouched (m.after (runCommand text)) := by
  have others : ∀ line ∈ [text], (Line.wordsOf line).head? ≠ some "setperm" := by
    intro line member
    rwa [List.mem_singleton.1 member]
  apply (preserves_untouched others).of_leads
  apply (runCommand_leads text m).mono
  intro m move allowed
  exact .inr allowed

end Monitor

namespace Session

/-- What every session preserves, from any state and with any calls: memory up to the permission
bits, the slot and the size of every leaf, and where every address lies. Memory changes and pages
are flushed only by lines that set permissions. -/
theorem performAll_translates (s : Session) (calls : List Call) :
    ∃ space, (s.performAll calls).monitor.target = { s.monitor.target with space } ∧
      space.root = s.monitor.target.space.root ∧
      space.memory.byteCount = s.monitor.target.space.memory.byteCount ∧
      (∀ slot i, i ≠ 1 → i ≠ 2 → Word.testBit (space.memory.word slot) i =
        Word.testBit (s.monitor.target.space.memory.word slot) i) ∧
      (∀ va, (space.walk va).map (fun leaf => (leaf.slot, leaf.size)) =
        (s.monitor.target.space.walk va).map fun leaf => (leaf.slot, leaf.size)) ∧
      (∀ va, space.resolve va = s.monitor.target.space.resolve va) ∧
      ((∀ call ∈ calls, ∀ text ∈ call.lines, (Line.wordsOf text).head? ≠ some "setperm") →
        s.monitor.Untouched (s.performAll calls).monitor) ∧
      (∀ (m : Monitor) (text : String), (Line.wordsOf text).head? ≠ some "setperm" →
        m.Untouched (m.after (Monitor.runCommand text))) := by
  have sub : ∀ call ∈ calls, call.lines ⊆ calls.flatMap Call.lines :=
    fun call called text member => List.mem_flatMap.2 ⟨call, called, member⟩
  have kept := performAll_preserves (Monitor.preserves_translatesAs _) s sub
  refine ⟨_, kept.target, kept.agree.root, kept.byteCount, ?_, ?_, kept.agree.resolve_eq, ?_,
    fun m text other => Monitor.runCommand_untouched other m⟩
  · intro slot i writable user
    exact (kept.agree.memory slot i user writable).symm
  · intro va
    rw [kept.agree.walk_eq]
    cases s.monitor.target.space.walk va <;> rfl
  · intro others
    refine performAll_preserves (Monitor.preserves_untouched ?_) s sub
    intro text member
    obtain ⟨call, called, text_mem⟩ := List.mem_flatMap.1 member
    exact others call called text text_mem

end Session

end DebugMonitor
