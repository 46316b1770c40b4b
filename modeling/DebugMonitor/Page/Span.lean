import DebugMonitor.Address

/-!
# Spans of pages

A `PageSpan` is a nonempty run of whole pages of one size. Its bounds are aligned and in order by
construction; `ofBounds` and `single` are the only ways to obtain one from arbitrary addresses, and
they say which condition fails first. The last page of the address space belongs to no span, since
the address after it does not exist.

`Pages` walks a span. Its `next?` answers the page at the cursor together with the cursor after it,
so a span of any length is visited without ever being laid out as a list.
-/

namespace DebugMonitor

/-- Why two addresses do not bound a span of pages. -/
inductive SpanError where
  | unaligned (address : VirtualAddress) (size : PageSize)
  | empty (start stop : VirtualAddress)
  /-- The page at `start` ends outside the address space. -/
  | overflow (start : VirtualAddress)
deriving DecidableEq, Repr

def SpanError.message : SpanError → String
  | unaligned address size => s!"address {address} is not aligned to a {size} page"
  | empty start stop => s!"range [{start}, {stop}) is empty"
  | overflow start => s!"range starting at {start} overflows the address space"

/-- The pages from `start` up to, and without, `stop`. -/
structure PageSpan (size : PageSize) where
  start : VirtualAddress
  stop : VirtualAddress
  start_aligned : start.IsAligned size
  stop_aligned : stop.IsAligned size
  start_lt_stop : start < stop
deriving DecidableEq

/-- A cursor on a span: the next page to visit and the end. -/
structure Pages (size : PageSize) where
  next : VirtualAddress
  stop : VirtualAddress

variable {size : PageSize}

namespace PageSpan

def ofBounds (size : PageSize) (start stop : VirtualAddress) :
    Except SpanError (PageSpan size) :=
  if h₁ : start.IsAligned size then
    if h₂ : stop.IsAligned size then
      if h₃ : start < stop then
        .ok ⟨start, stop, h₁, h₂, h₃⟩
      else
        .error (.empty start stop)
    else
      .error (.unaligned stop size)
  else
    .error (.unaligned start size)

/-- The span of the one page at `start`. -/
def single (size : PageSize) (start : VirtualAddress) : Except SpanError (PageSpan size) :=
  match start.add? size.bytes with
  | some stop => ofBounds size start stop
  | none => .error (.overflow start)

def pageCount (s : PageSpan size) : Except Fault UInt64 :=
  (s.stop.sub s.start).map (· / size.bytes)

def pages (s : PageSpan size) : Pages size :=
  ⟨s.start, s.stop⟩

end PageSpan

namespace Pages

/-- The next page and the cursor behind it, or `none` at the end. -/
def next? (p : Pages size) : Except Fault (Option (VirtualAddress × Pages size)) :=
  if p.next < p.stop then
    (p.next.add size.bytes).map fun behind => some (p.next, ⟨behind, p.stop⟩)
  else
    .ok none

/-- The number of pages that are still to come. -/
def remaining (p : Pages size) : Except Fault UInt64 :=
  (p.stop.sub (if p.next ≤ p.stop then p.next else p.stop)).map (· / size.bytes)

/-- The least and the greatest number of pages that may still come. Both are known. -/
def sizeHint (p : Pages size) : Except Fault (UInt64 × Option UInt64) :=
  p.remaining.map fun count => (count, some count)

end Pages

theorem PageSpan.ofBounds_eq_ok_iff {start stop : VirtualAddress} {s : PageSpan size} :
    ofBounds size start stop = .ok s ↔ s.start = start ∧ s.stop = stop := by
  cases s with
  | mk b e h₁ h₂ h₃ =>
    simp only [ofBounds]
    split
    · split
      · split
        · simp [eq_comm]
        · simp only [reduceCtorEq, false_iff]
          rintro ⟨rfl, rfl⟩
          contradiction
      · simp only [reduceCtorEq, false_iff]
        rintro ⟨rfl, rfl⟩
        contradiction
    · simp only [reduceCtorEq, false_iff]
      rintro ⟨rfl, rfl⟩
      contradiction

theorem Pages.next?_eq_none_iff {p : Pages size} : p.next? = .ok none ↔ p.stop ≤ p.next := by
  rw [Address.le_iff, ← Nat.not_lt, ← Address.lt_iff]
  unfold next?
  split
  · cases h : p.next.add size.bytes <;> simp_all [Except.map]
  · simp_all

theorem Pages.next?_eq_some_iff {p q : Pages size} {page : VirtualAddress} :
    p.next? = .ok (some (page, q)) ↔
      p.next < p.stop ∧ page = p.next ∧ q.stop = p.stop ∧
        q.next.word.toNat = p.next.word.toNat + size.bytes.toNat := by
  rw [← Address.add_eq_ok_iff]
  cases q with
  | mk next stop =>
    rw [next?]
    split
    · rename_i hlt
      cases h : p.next.add size.bytes with
      | error f => simp [Except.map]
      | ok behind =>
        simp only [Except.map, Except.ok.injEq, Option.some.injEq, Prod.mk.injEq, Pages.mk.injEq,
          hlt, true_and]
        grind
    · simp_all

/-- Each step leaves less to visit. -/
theorem Pages.lt_of_next?_eq_some {p q : Pages size} {page : VirtualAddress}
    (h : p.next? = .ok (some (page, q))) :
    q.stop.word.toNat - q.next.word.toNat < p.stop.word.toNat - p.next.word.toNat := by
  obtain ⟨hlt, -, hstop, hnext⟩ := next?_eq_some_iff.1 h
  have := size.toNat_bytes_pos
  rw [Address.lt_iff] at hlt
  rw [hstop]
  omega

end DebugMonitor
