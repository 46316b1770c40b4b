import DebugMonitor.Proofs.Page.Listing
import Mathlib.Algebra.Group.Nat.Defs

/-!
# Bounds of a span, and its cursor call by call

`ofBounds` and `single` answer a span or the first condition that fails; the lemmas here say which, in
terms of natural numbers. The cursor of a span is then called any number of times: `calls` records what
each call answers and the hint that is given before it. As the bounds are multiples of the page size, no
step overshoots the end, not even at the top of the address space, so `calls_eq_ok` holds of any number of
calls: they answer the pages of the list one by one and then nothing, and each hint is the number of pages
that are left.
-/

namespace DebugMonitor

variable {size : PageSize} {start stop : VirtualAddress}

namespace PageSpan

/-- Bounds are accepted when both are multiples of the page size and in order. -/
theorem exists_ofBounds_eq_ok_iff :
    (∃ span, ofBounds size start stop = .ok span ∧ span.start = start ∧ span.stop = stop) ↔
      size.bytes.toNat ∣ start.word.toNat ∧ size.bytes.toNat ∣ stop.word.toNat ∧
        start.word.toNat < stop.word.toNat := by
  rw [← Address.isAligned_iff_dvd, ← Address.isAligned_iff_dvd, ← Address.lt_iff]
  constructor
  · rintro ⟨span, -, rfl, rfl⟩
    exact ⟨span.start_aligned, span.stop_aligned, span.start_lt_stop⟩
  · rintro ⟨first, last, order⟩
    exact ⟨⟨start, stop, first, last, order⟩, ofBounds_eq_ok_iff.2 ⟨rfl, rfl⟩, rfl, rfl⟩

/-- The start is looked at first, then the end, then their order. -/
theorem ofBounds_eq_error_iff {e : SpanError} :
    ofBounds size start stop = .error e ↔
      ¬ size.bytes.toNat ∣ start.word.toNat ∧ e = .unaligned start size ∨
      size.bytes.toNat ∣ start.word.toNat ∧ ¬ size.bytes.toNat ∣ stop.word.toNat ∧
        e = .unaligned stop size ∨
      size.bytes.toNat ∣ start.word.toNat ∧ size.bytes.toNat ∣ stop.word.toNat ∧
        stop.word.toNat ≤ start.word.toNat ∧ e = .empty start stop := by
  rw [← Address.isAligned_iff_dvd, ← Address.isAligned_iff_dvd, ← Nat.not_lt, ← Address.lt_iff,
    ofBounds]
  by_cases first : start.IsAligned size
  · by_cases last : stop.IsAligned size
    · by_cases order : start < stop
      · simp [first, last, order]
      · simp [first, last, order, eq_comm]
    · simp [first, last, eq_comm]
  · simp [first, eq_comm]

theorem single_of_lt (fits : start.word.toNat + size.bytes.toNat < UInt64.size) :
    single size start = ofBounds size start ⟨start.word + size.bytes⟩ := by
  have behind : start.add? size.bytes = some ⟨start.word + size.bytes⟩ :=
    Address.add?_eq_some_iff.2 (Word.toNat_add_of_lt fits)
  rw [single, behind]

theorem single_of_le (beyond : UInt64.size ≤ start.word.toNat + size.bytes.toNat) :
    single size start = .error (.overflow start) := by
  rw [single]
  cases behind : start.add? size.bytes with
  | none => rfl
  | some stop =>
    have sum := Address.add?_eq_some_iff.1 behind
    have bound := stop.word.toNat_lt_size
    omega

/-- A page is a span of its own when it starts at a multiple of its size and its end has an address. -/
theorem exists_single_eq_ok_iff :
    (∃ span, single size start = .ok span ∧ span.start = start ∧
        span.stop.word.toNat = start.word.toNat + size.bytes.toNat) ↔
      size.bytes.toNat ∣ start.word.toNat ∧
        start.word.toNat + size.bytes.toNat < UInt64.size := by
  have pos := size.toNat_bytes_pos
  constructor
  · rintro ⟨span, -, rfl, stop⟩
    exact ⟨Address.isAligned_iff_dvd.1 span.start_aligned, stop ▸ span.stop.word.toNat_lt_size⟩
  · rintro ⟨aligned, fits⟩
    have sum := Word.toNat_add_of_lt fits
    obtain ⟨span, made, first, last⟩ := exists_ofBounds_eq_ok_iff.2
      ⟨aligned, sum ▸ Nat.dvd_add aligned (Nat.dvd_refl _), by rw [sum]; omega⟩
    refine ⟨span, (single_of_lt fits).trans made, first, ?_⟩
    rw [last]
    exact sum

/-- The end of a single page is looked at before its start. -/
theorem single_eq_error_iff {e : SpanError} :
    single size start = .error e ↔
      UInt64.size ≤ start.word.toNat + size.bytes.toNat ∧ e = .overflow start ∨
      start.word.toNat + size.bytes.toNat < UInt64.size ∧
        ¬ size.bytes.toNat ∣ start.word.toNat ∧ e = .unaligned start size := by
  rcases Nat.lt_or_ge (start.word.toNat + size.bytes.toNat) UInt64.size with fits | beyond
  · have sum := Word.toNat_add_of_lt fits
    have pos := size.toNat_bytes_pos
    have last : size.bytes.toNat ∣ (start.word + size.bytes).toNat ↔
        size.bytes.toNat ∣ start.word.toNat := by
      rw [sum]
      exact Nat.dvd_add_left (Nat.dvd_refl _)
    rw [single_of_lt fits, ofBounds_eq_error_iff, last, sum]
    simp only [fits, Nat.not_le.2 fits, true_and, false_and, false_or]
    constructor
    · rintro (refused | ⟨aligned, unaligned, -⟩ | ⟨-, -, order, -⟩)
      · exact refused
      · exact absurd aligned unaligned
      · omega
    · exact .inl
  · rw [single_of_le beyond]
    simp only [beyond, Nat.not_lt.2 beyond, true_and, false_and, or_false, Except.error.injEq,
      eq_comm]

end PageSpan

namespace Pages

/-- What a number of calls answer, one after the other, each with the hint before it. A cursor at its end
stays there. -/
def calls : Nat → Pages size → Except Fault (List ((UInt64 × Option UInt64) × Option VirtualAddress))
  | 0, _ => .ok []
  | n + 1, p => do
    let hint ← p.sizeHint
    match ← p.next? with
    | some (page, rest) => return (hint, some page) :: (← calls n rest)
    | none => return (hint, none) :: (← calls n p)

variable {p : Pages size}

/-- The number of pages that are still to come is the length of the list. -/
theorem remaining_eq (p : Pages size) : p.remaining = .ok (UInt64.ofNat p.toList.length) := by
  have count (a b : UInt64) (le : b ≤ a) :
      UInt64.ofNat ((a.toNat - b.toNat) / size.bytes.toNat) = (a - b) / size.bytes := by
    apply UInt64.toNat_inj.1
    have bound := a.toNat_lt_size
    have small := Nat.div_le_self (a.toNat - b.toNat) size.bytes.toNat
    rw [UInt64.toNat_ofNat_of_lt' (by omega), UInt64.toNat_div, UInt64.toNat_sub_of_le _ _ le]
  rw [length_toList, remaining]
  by_cases inside : p.next ≤ p.stop
  · rw [if_pos inside, count _ _ inside, Address.sub, Word.sub, if_pos (by exact inside)]
    rfl
  · have beyond : p.stop.word.toNat - p.next.word.toNat = 0 := by
      rw [Address.le_iff] at inside
      omega
    rw [if_neg inside, beyond, Nat.zero_div, Address.sub, Word.sub, if_pos (UInt64.le_refl _),
      UInt64.sub_self]
    cases size <;> rfl

/-- What call `i` answers when these pages are to come: the page at this place, if there is one, and
before it the number of pages that are left. -/
def answer (pages : List VirtualAddress) (i : Nat) :
    (UInt64 × Option UInt64) × Option VirtualAddress :=
  let left := UInt64.ofNat (pages.length - i)
  ((left, some left), pages[i]?)

@[simp] theorem answer_cons_succ (page : VirtualAddress) (pages : List VirtualAddress) (i : Nat) :
    answer (page :: pages) (i + 1) = answer pages i := by
  rw [answer, answer, List.length_cons, Nat.add_sub_add_right, List.getElem?_cons_succ]

@[simp] theorem answer_nil (i : Nat) : answer [] i = ((0, some 0), none) := by
  rw [answer, List.length_nil, Nat.zero_sub, List.getElem?_nil]
  rfl

theorem sizeHint_eq (p : Pages size) : p.sizeHint = .ok (answer p.toList 0).1 := by
  rw [sizeHint, remaining_eq]
  rfl

/-- The calls answer the pages of the list one by one and then nothing, each with the number of pages that
are left, and none of them faults. -/
theorem calls_eq_ok (aligned : p.IsAligned) (n : Nat) :
    p.calls n = .ok ((List.range n).map (answer p.toList)) := by
  induction n generalizing p with
  | zero => rfl
  | succ n ih =>
    rw [List.range_succ_eq_map, List.map_cons, List.map_map]
    rcases Nat.lt_or_ge p.next.word.toNat p.stop.word.toNat with more | past
    · obtain ⟨rest, next, aligned', list⟩ := exists_next?_of_lt aligned (Address.lt_iff.2 more)
      have first : answer p.toList 0 = ((answer p.toList 0).1, some p.next) := by
        rw [list]
        rfl
      have others : answer p.toList ∘ Nat.succ = answer rest.toList := by
        funext i
        rw [list]
        exact answer_cons_succ _ _ _
      rw [first, others]
      simp only [calls, sizeHint_eq, next, ih aligned', bind, Except.bind, pure, Except.pure]
    · -- The cursor stays where it is, so the rest of the calls answer the same.
      have list : p.toList = [] := toList_of_le (Address.le_iff.2 past)
      have next : p.next? = .ok none := next?_eq_none_iff.2 (Address.le_iff.2 past)
      have others : answer p.toList ∘ Nat.succ = answer p.toList := by
        funext i
        simp only [list, Function.comp_apply, answer_nil]
      rw [others]
      simp only [calls, sizeHint_eq, next, ih aligned, bind, Except.bind, pure, Except.pure]
      rw [list]
      rfl

end Pages

namespace PageSpan

theorem pageCount_eq (span : PageSpan size) : span.pageCount = .ok (UInt64.ofNat span.toList.length) := by
  have inside : span.start ≤ span.stop :=
    Address.le_iff.2 (Nat.le_of_lt (Address.lt_iff.1 span.start_lt_stop))
  have remaining := span.pages.remaining_eq
  rw [Pages.remaining, if_pos (by exact inside)] at remaining
  exact remaining

/-- A span is as long as its pages together. -/
theorem toNat_bytes_mul_length (span : PageSpan size) :
    size.bytes.toNat * span.toList.length = span.stop.word.toNat - span.start.word.toNat := by
  rw [length_toList]
  exact Nat.mul_div_cancel' (Nat.dvd_sub (Address.isAligned_iff_dvd.1 span.stop_aligned)
    (Address.isAligned_iff_dvd.1 span.start_aligned))

/-- Which bounds make a span, and what its cursor answers. Two addresses bound a span when both are
multiples of the page size and in order, and a single page does when it is aligned and its end has an
address; otherwise the first condition that fails is named. The cursor of every span answers its pages in
ascending order, each once, and then nothing for as long as it is called; before every call its hint is
the number of pages that are left. Nothing overflows on the way. -/
theorem accepts_and_visits (size : PageSize) (start stop : VirtualAddress) :
    ((∃ span, ofBounds size start stop = .ok span ∧ span.start = start ∧ span.stop = stop) ↔
      size.bytes.toNat ∣ start.word.toNat ∧ size.bytes.toNat ∣ stop.word.toNat ∧
        start.word.toNat < stop.word.toNat) ∧
    (∀ e, ofBounds size start stop = .error e ↔
      ¬ size.bytes.toNat ∣ start.word.toNat ∧ e = .unaligned start size ∨
      size.bytes.toNat ∣ start.word.toNat ∧ ¬ size.bytes.toNat ∣ stop.word.toNat ∧
        e = .unaligned stop size ∨
      size.bytes.toNat ∣ start.word.toNat ∧ size.bytes.toNat ∣ stop.word.toNat ∧
        stop.word.toNat ≤ start.word.toNat ∧ e = .empty start stop) ∧
    ((∃ span, single size start = .ok span ∧ span.start = start ∧
        span.stop.word.toNat = start.word.toNat + size.bytes.toNat) ↔
      size.bytes.toNat ∣ start.word.toNat ∧
        start.word.toNat + size.bytes.toNat < UInt64.size) ∧
    (∀ e, single size start = .error e ↔
      UInt64.size ≤ start.word.toNat + size.bytes.toNat ∧ e = .overflow start ∨
      start.word.toNat + size.bytes.toNat < UInt64.size ∧
        ¬ size.bytes.toNat ∣ start.word.toNat ∧ e = .unaligned start size) ∧
    ∀ span : PageSpan size, ∃ (count : UInt64) (pages : List VirtualAddress),
      span.pageCount = .ok count ∧
      size.bytes.toNat * count.toNat = span.stop.word.toNat - span.start.word.toNat ∧
      pages.length = count.toNat ∧ pages.Pairwise (· < ·) ∧
      (∀ i < count.toNat, ∃ page, pages[i]? = some page ∧
        page.word.toNat = span.start.word.toNat + size.bytes.toNat * i) ∧
      ∀ n, ∃ answers, span.pages.calls n = .ok answers ∧ answers.length = n ∧
        ∀ i < n, ∃ left : UInt64, left.toNat = count.toNat - i ∧
          answers[i]? = some ((left, some left), pages[i]?) := by
  refine ⟨exists_ofBounds_eq_ok_iff, fun _ => ofBounds_eq_error_iff, exists_single_eq_ok_iff,
    fun _ => single_eq_error_iff, fun span => ?_⟩
  have whole := span.toNat_bytes_mul_length
  have few : span.toList.length < UInt64.size := by
    have pos := size.toNat_bytes_pos
    have bound := span.stop.word.toNat_lt_size
    have most := Nat.le_mul_of_pos_left span.toList.length pos
    omega
  have count : (UInt64.ofNat span.toList.length).toNat = span.toList.length :=
    UInt64.toNat_ofNat_of_lt' few
  refine ⟨UInt64.ofNat span.toList.length, span.toList, span.pageCount_eq, ?_⟩
  rw [count]
  refine ⟨whole, rfl, pairwise_toList, fun i inside => ?_, fun n => ?_⟩
  · obtain ⟨page, -, there, place⟩ := exists_getElem?_toList inside
    exact ⟨page, there, place⟩
  · refine ⟨_, Pages.calls_eq_ok span.isAligned_pages n, by rw [List.length_map, List.length_range], ?_⟩
    intro i inside
    refine ⟨UInt64.ofNat (span.toList.length - i), UInt64.toNat_ofNat_of_lt' (by omega), ?_⟩
    rw [List.getElem?_map, List.getElem?_range inside]
    rfl

/-- The highest page of 2 MiB that is part of a span: its cursor answers it and then stays at the end. -/
theorem accepts_and_visits_highest :
    ∃ span : PageSpan .size2M,
      ofBounds .size2M ⟨0xffffffffffc00000⟩ ⟨0xffffffffffe00000⟩ = .ok span ∧
      span.pages.calls 2 = .ok
        [((1, some 1), some ⟨0xffffffffffc00000⟩), ((0, some 0), none)] := by
  obtain ⟨bounds, -, -, -, visits⟩ :=
    accepts_and_visits .size2M ⟨0xffffffffffc00000⟩ ⟨0xffffffffffe00000⟩
  obtain ⟨span, made, first, last⟩ := bounds.2 (by decide)
  obtain ⟨count, pages, -, whole, length, -, each, called⟩ := visits span
  rw [first, last] at whole
  have one : count.toNat = 1 := Nat.eq_of_mul_eq_mul_left (by decide) whole
  rw [one] at each length
  obtain ⟨page, rfl⟩ := List.length_eq_one_iff.1 length
  obtain ⟨_, here, place⟩ := each 0 Nat.zero_lt_one
  cases here
  rw [first] at place
  have start : page = ⟨0xffffffffffc00000⟩ := congrArg Address.mk (UInt64.toNat_inj.1 place)
  obtain ⟨answers, ran, two, given⟩ := called 2
  obtain ⟨a, b, rfl⟩ := List.length_eq_two.1 two
  obtain ⟨left₀, many₀, call₀⟩ := given 0 Nat.zero_lt_two
  obtain ⟨left₁, many₁, call₁⟩ := given 1 Nat.one_lt_two
  rw [one] at many₀ many₁
  obtain rfl : left₀ = 1 := UInt64.toNat_inj.1 many₀
  obtain rfl : left₁ = 0 := UInt64.toNat_inj.1 many₁
  cases call₀
  cases call₁
  rw [start] at ran
  exact ⟨span, made, ran⟩

end PageSpan

end DebugMonitor
