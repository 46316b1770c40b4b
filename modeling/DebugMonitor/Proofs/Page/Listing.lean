import DebugMonitor.Page.Span
import Mathlib.Data.List.Sort

/-!
# The pages of a span

A span is a set of pages: the aligned addresses from its start up to its end. `toList` lists them in
ascending order, each once. The cursor of a span visits the list from the front: while pages are
left, its next page is the head and the cursor behind it lists the tail.

A page of a span splits the list into the pages `before` it, the page itself and the pages `behind`
it. The pages before it and the page itself are a span again, the one `through` that page.
-/

namespace DebugMonitor

variable {size : PageSize}

/-- A page belongs to a span when it starts within its bounds. -/
instance : Membership VirtualAddress (PageSpan size) where
  mem span page := page.IsAligned size ∧ span.start ≤ page ∧ page < span.stop

namespace Pages

/-- The pages that a cursor has still to come. -/
def toList (p : Pages size) : List VirtualAddress :=
  (List.range ((p.stop.word.toNat - p.next.word.toNat) / size.bytes.toNat)).map fun i =>
    ⟨UInt64.ofNat (p.next.word.toNat + i * size.bytes.toNat)⟩

/-- A cursor whose bounds are both starts of pages. -/
def IsAligned (p : Pages size) : Prop :=
  p.next.IsAligned size ∧ p.stop.IsAligned size

variable {p : Pages size}

theorem length_toList (p : Pages size) :
    p.toList.length = (p.stop.word.toNat - p.next.word.toNat) / size.bytes.toNat := by
  rw [toList, List.length_map, List.length_range]

theorem toList_of_le (h : p.stop ≤ p.next) : p.toList = [] := by
  rw [Address.le_iff] at h
  rw [toList, Nat.sub_eq_zero_of_le h, Nat.zero_div]
  rfl

/-- An aligned cursor before its end has room for a whole page. -/
theorem IsAligned.room (aligned : p.IsAligned) (h : p.next < p.stop) :
    p.next.word.toNat + size.bytes.toNat ≤ p.stop.word.toNat := by
  obtain ⟨i, hi⟩ := Address.isAligned_iff_dvd.1 aligned.1
  obtain ⟨j, hj⟩ := Address.isAligned_iff_dvd.1 aligned.2
  rw [Address.lt_iff, hi, hj] at h
  rw [hi, hj, ← Nat.mul_succ]
  exact Nat.mul_le_mul_left _ (Nat.lt_of_mul_lt_mul_left h)

/-- Before its end an aligned cursor answers the head of its list and stands on the tail. -/
theorem exists_next?_of_lt (aligned : p.IsAligned) (h : p.next < p.stop) :
    ∃ rest, p.next? = .ok (some (p.next, rest)) ∧ rest.IsAligned ∧
      p.toList = p.next :: rest.toList := by
  have room := aligned.room h
  have fits : p.next.word.toNat + size.bytes.toNat < UInt64.size :=
    Nat.lt_of_le_of_lt room p.stop.word.toNat_lt_size
  have behind := Word.toNat_add_of_lt fits
  have pos := size.toNat_bytes_pos
  refine ⟨⟨⟨p.next.word + size.bytes⟩, p.stop⟩, ?_, ?_, ?_⟩
  · exact next?_eq_some_iff.2 ⟨h, rfl, rfl, behind⟩
  · refine ⟨Address.isAligned_iff_dvd.2 ?_, aligned.2⟩
    rw [behind]
    exact Nat.dvd_add (Address.isAligned_iff_dvd.1 aligned.1) (Nat.dvd_refl _)
  · have count : (p.stop.word.toNat - p.next.word.toNat) / size.bytes.toNat =
        (p.stop.word.toNat - (p.next.word.toNat + size.bytes.toNat)) / size.bytes.toNat + 1 := by
      rw [← Nat.sub_sub, ← Nat.add_div_right _ pos, Nat.sub_add_cancel]
      omega
    simp only [toList, count, behind, List.range_succ_eq_map, List.map_cons, List.map_map,
      Nat.zero_mul, Nat.add_zero, UInt64.ofNat_toNat, List.cons.injEq, true_and]
    apply List.map_congr_left
    intro i _
    simp only [Function.comp_apply, Nat.succ_mul]
    rw [Nat.add_comm (i * _), Nat.add_assoc]

end Pages

namespace PageSpan

/-- The pages of a span in ascending order. -/
def toList (span : PageSpan size) : List VirtualAddress :=
  span.pages.toList

variable {span : PageSpan size} {page : VirtualAddress}

theorem isAligned_pages (span : PageSpan size) : span.pages.IsAligned :=
  ⟨span.start_aligned, span.stop_aligned⟩

/-- The last byte of a page of a span has an address after it. -/
theorem toNat_add_bytes_le (h : page ∈ span) :
    page.word.toNat + size.bytes.toNat ≤ span.stop.word.toNat := by
  obtain ⟨aligned, -, below⟩ := h
  exact Pages.IsAligned.room (p := ⟨page, span.stop⟩) ⟨aligned, span.stop_aligned⟩ below

theorem toNat_add_bytes_lt (h : page ∈ span) :
    page.word.toNat + size.bytes.toNat < UInt64.size :=
  Nat.lt_of_le_of_lt (toNat_add_bytes_le h) span.stop.word.toNat_lt_size

theorem toNat_start_add {i : Nat}
    (h : i < (span.stop.word.toNat - span.start.word.toNat) / size.bytes.toNat) :
    (UInt64.ofNat (span.start.word.toNat + i * size.bytes.toNat)).toNat =
      span.start.word.toNat + i * size.bytes.toNat ∧
    span.start.word.toNat + i * size.bytes.toNat < span.stop.word.toNat := by
  have pos := size.toNat_bytes_pos
  have below : i * size.bytes.toNat < span.stop.word.toNat - span.start.word.toNat := by
    have whole := (Nat.le_div_iff_mul_le pos).1 (Nat.succ_le_of_lt h)
    rw [Nat.succ_mul] at whole
    omega
  have bound := span.stop.word.toNat_lt_size
  refine ⟨?_, by omega⟩
  rw [UInt64.toNat_ofNat', Nat.mod_eq_of_lt]
  have : UInt64.size = 2 ^ 64 := rfl
  omega

theorem length_toList (span : PageSpan size) :
    span.toList.length =
      (span.stop.word.toNat - span.start.word.toNat) / size.bytes.toNat :=
  span.pages.length_toList

/-- The list holds the pages of the span and nothing else. -/
theorem mem_toList_iff : page ∈ span.toList ↔ page ∈ span := by
  have pos := size.toNat_bytes_pos
  have start := Address.isAligned_iff_dvd.1 span.start_aligned
  constructor
  · intro member
    obtain ⟨i, hi, rfl⟩ := List.mem_map.1 member
    obtain ⟨value, below⟩ := toNat_start_add (List.mem_range.1 hi)
    refine ⟨Address.isAligned_iff_dvd.2 ?_, Address.le_iff.2 ?_, Address.lt_iff.2 ?_⟩
    all_goals
      dsimp only [PageSpan.pages]
      rw [value]
    · exact Nat.dvd_add start (Nat.dvd_mul_left _ i)
    · exact Nat.le_add_right ..
    · exact below
  · rintro ⟨aligned, above, below⟩
    rw [Address.le_iff] at above
    rw [Address.lt_iff] at below
    obtain ⟨i, hi⟩ := Nat.dvd_sub (Address.isAligned_iff_dvd.1 aligned) start
    have value : page.word.toNat = span.start.word.toNat + i * size.bytes.toNat := by
      rw [Nat.mul_comm, ← hi]
      omega
    refine List.mem_map.2 ⟨i, List.mem_range.2 ?_, ?_⟩
    · have member : page ∈ span := ⟨aligned, Address.le_iff.2 above, Address.lt_iff.2 below⟩
      have room := toNat_add_bytes_le member
      rw [value] at room
      apply (Nat.le_div_iff_mul_le pos).2
      rw [Nat.succ_mul]
      change i * size.bytes.toNat + size.bytes.toNat ≤
        span.stop.word.toNat - span.start.word.toNat
      omega
    · change Address.mk (UInt64.ofNat (span.start.word.toNat + i * size.bytes.toNat)) = page
      rw [← value, UInt64.ofNat_toNat]

theorem toNat_add_bytes_lt_of_mem (h : page ∈ span.toList) :
    page.word.toNat + size.bytes.toNat < UInt64.size :=
  toNat_add_bytes_lt (mem_toList_iff.1 h)

/-- The page at each place of the list lies as many pages behind the start of the span. -/
theorem exists_getElem?_toList {i : Nat} (h : i < span.toList.length) :
    ∃ page ∈ span, span.toList[i]? = some page ∧
      page.word.toNat = span.start.word.toNat + size.bytes.toNat * i := by
  refine ⟨span.toList[i], mem_toList_iff.1 (List.getElem_mem h), List.getElem?_eq_getElem h, ?_⟩
  have place : span.toList[i] =
      ⟨UInt64.ofNat (span.start.word.toNat + i * size.bytes.toNat)⟩ := by
    simp only [toList, Pages.toList, List.getElem_map, List.getElem_range]
    rfl
  rw [place, (toNat_start_add (length_toList span ▸ h)).1, Nat.mul_comm]

/-- Neighbours in the list are pages one behind the other. -/
theorem toNat_of_getElem?_succ {i : Nat} {page next : VirtualAddress}
    (here : span.toList[i]? = some page) (there : span.toList[i + 1]? = some next) :
    next.word.toNat = page.word.toNat + size.bytes.toNat := by
  have inside := (List.getElem?_eq_some_iff.1 there).1
  obtain ⟨_, -, here', place⟩ := exists_getElem?_toList (Nat.lt_of_succ_lt inside)
  obtain ⟨_, -, there', place'⟩ := exists_getElem?_toList inside
  cases here.symm.trans here'
  cases there.symm.trans there'
  rw [place, place', Nat.mul_succ, Nat.add_assoc]

/-- The pages are listed in strictly ascending order. -/
theorem pairwise_toList : span.toList.Pairwise (· < ·) := by
  have pos := size.toNat_bytes_pos
  refine List.pairwise_map.2 (List.pairwise_lt_range.imp_of_mem ?_)
  intro i j hi hj hlt
  rw [Address.lt_iff]
  change (UInt64.ofNat (span.start.word.toNat + i * size.bytes.toNat)).toNat <
    (UInt64.ofNat (span.start.word.toNat + j * size.bytes.toNat)).toNat
  rw [(toNat_start_add (List.mem_range.1 hi)).1, (toNat_start_add (List.mem_range.1 hj)).1]
  exact Nat.add_lt_add_left (Nat.mul_lt_mul_of_pos_right hlt pos) _

/-! ### Splitting at a page -/

instance : Std.Irrefl (α := VirtualAddress) (· < ·) where
  irrefl _ h := Nat.lt_irrefl _ (Address.lt_iff.1 h)

instance : Std.Antisymm (α := VirtualAddress) (· < ·) where
  antisymm _ _ h h' := absurd (Address.lt_iff.1 h') (Nat.lt_asymm (Address.lt_iff.1 h))

/-- An ascending list that holds the pages of a span is the list of the span. -/
theorem eq_toList {pages : List VirtualAddress} (sorted : pages.Pairwise (· < ·))
    (members : ∀ page, page ∈ pages ↔ page ∈ span) : pages = span.toList :=
  sorted.eq_of_mem_iff pairwise_toList fun page => (members page).trans mem_toList_iff.symm

/-- An ascending list is split at each of its pages. -/
theorem filter_append_filter {pages : List VirtualAddress} (sorted : pages.Pairwise (· < ·))
    (h : page ∈ pages) : pages.filter (· < page) ++ page :: pages.filter (page < ·) = pages := by
  have split : (pages.filter (· < page) ++ page :: pages.filter (page < ·)).Pairwise (· < ·) := by
    rw [List.pairwise_append, List.pairwise_cons]
    refine ⟨sorted.filter _, ⟨?_, sorted.filter _⟩, ?_⟩
    · intro last hlast
      exact of_decide_eq_true (List.mem_filter.1 hlast).2
    · intro first hfirst last hlast
      have below : first < page := of_decide_eq_true (List.mem_filter.1 hfirst).2
      rcases List.mem_cons.1 hlast with rfl | hlast
      · exact below
      · exact Address.lt_trans below (of_decide_eq_true (List.mem_filter.1 hlast).2)
  apply split.eq_of_mem_iff sorted
  intro other
  simp only [List.mem_append, List.mem_cons, List.mem_filter, decide_eq_true_iff]
  constructor
  · rintro (⟨inside, -⟩ | rfl | ⟨inside, -⟩)
    · exact inside
    · exact h
    · exact inside
  · intro inside
    rcases Nat.lt_trichotomy other.word.toNat page.word.toNat with below | same | above
    · exact .inl ⟨inside, Address.lt_iff.2 below⟩
    · exact .inr (.inl (congrArg Address.mk (UInt64.toNat_inj.1 same)))
    · exact .inr (.inr ⟨inside, Address.lt_iff.2 above⟩)

/-- The pages of the span in front of a page. -/
def before (span : PageSpan size) (page : VirtualAddress) : List VirtualAddress :=
  span.toList.filter (· < page)

/-- The pages of the span behind a page. -/
def behind (span : PageSpan size) (page : VirtualAddress) : List VirtualAddress :=
  span.toList.filter (page < ·)

/-- The span that ends with one of the pages. -/
def through (span : PageSpan size) (page : VirtualAddress) (h : page ∈ span) : PageSpan size where
  start := span.start
  stop := ⟨page.word + size.bytes⟩
  start_aligned := span.start_aligned
  stop_aligned := by
    rw [Address.isAligned_iff_dvd, Word.toNat_add_of_lt (toNat_add_bytes_lt h)]
    exact Nat.dvd_add (Address.isAligned_iff_dvd.1 h.1) (Nat.dvd_refl _)
  start_lt_stop := by
    have above := Address.le_iff.1 h.2.1
    have pos := size.toNat_bytes_pos
    rw [Address.lt_iff, Word.toNat_add_of_lt (toNat_add_bytes_lt h)]
    omega

variable {other : VirtualAddress}

theorem mem_before_iff : other ∈ span.before page ↔ other ∈ span ∧ other < page := by
  rw [before, List.mem_filter, mem_toList_iff, decide_eq_true_iff]

theorem mem_through_iff (member : page ∈ span) :
    other ∈ span.through page member ↔ other ∈ span ∧ other ≤ page := by
  have inside := toNat_add_bytes_le member
  have stop : (span.through page member).stop.word.toNat = page.word.toNat + size.bytes.toNat :=
    Word.toNat_add_of_lt (toNat_add_bytes_lt member)
  have pos := size.toNat_bytes_pos
  rw [Address.le_iff]
  constructor
  · rintro ⟨aligned, above, below⟩
    -- Both are starts of pages, so the other one does not lie inside the page.
    have inner : other ∈ span.through page member := ⟨aligned, above, below⟩
    have room := toNat_add_bytes_le inner
    rw [stop] at room
    refine ⟨⟨aligned, above, ?_⟩, by omega⟩
    rw [Address.lt_iff]
    omega
  · rintro ⟨⟨aligned, above, -⟩, upTo⟩
    refine ⟨aligned, above, ?_⟩
    rw [Address.lt_iff, stop]
    omega

theorem toList_through (member : page ∈ span) :
    (span.through page member).toList = span.before page ++ [page] := by
  symm
  apply eq_toList
  · rw [List.pairwise_append]
    refine ⟨pairwise_toList.filter _, List.pairwise_singleton _ _, ?_⟩
    intro first hfirst last hlast
    rw [List.mem_singleton.1 hlast]
    exact (mem_before_iff.1 hfirst).2
  · intro other
    rw [List.mem_append, List.mem_singleton, mem_before_iff, mem_through_iff member]
    constructor
    · rintro (⟨inside, below⟩ | rfl)
      · exact ⟨inside, Address.le_iff.2 (Nat.le_of_lt (Address.lt_iff.1 below))⟩
      · exact ⟨member, Address.le_iff.2 (Nat.le_refl _)⟩
    · rintro ⟨inside, upTo⟩
      rcases Address.lt_or_eq_of_le upTo with below | same
      · exact .inl ⟨inside, below⟩
      · exact .inr same

/-- The span of a single page. -/
def only (span : PageSpan size) (page : VirtualAddress) (h : page ∈ span) : PageSpan size :=
  { span.through page h with
    start := page
    start_aligned := h.1
    start_lt_stop := by
      have stop : (span.through page h).stop.word.toNat = page.word.toNat + size.bytes.toNat :=
        Word.toNat_add_of_lt (toNat_add_bytes_lt h)
      have pos := size.toNat_bytes_pos
      rw [Address.lt_iff, stop]
      omega }

theorem mem_only_iff (member : page ∈ span) : other ∈ span.only page member ↔ other = page := by
  constructor
  · rintro ⟨aligned, above, below⟩
    have inner : other ∈ span.through page member :=
      ⟨aligned, Address.le_trans member.2.1 above, below⟩
    have upTo := ((mem_through_iff member).1 inner).2
    exact congrArg Address.mk (UInt64.le_antisymm upTo above)
  · rintro rfl
    exact ⟨member.1, Address.le_iff.2 (Nat.le_refl _), (span.only other member).start_lt_stop⟩

theorem toList_only (member : page ∈ span) : (span.only page member).toList = [page] := by
  symm
  apply eq_toList (List.pairwise_singleton _ _)
  intro other
  rw [List.mem_singleton, mem_only_iff member]

/-- The list of a span is split at each of its pages. -/
theorem toList_eq_append (member : page ∈ span) :
    span.toList = span.before page ++ page :: span.behind page :=
  (filter_append_filter pairwise_toList (mem_toList_iff.2 member)).symm

/-- The pages in front of a page begin with those in front of an earlier one. -/
theorem exists_before_eq_append (member : other ∈ span) (below : other < page) :
    ∃ rest, span.before page = span.before other ++ other :: rest := by
  have inside : other ∈ span.before page := mem_before_iff.2 ⟨member, below⟩
  have first : (span.before page).filter (· < other) = span.before other := by
    rw [before, before, List.filter_filter]
    apply List.filter_congr
    intro q _
    rw [Bool.eq_iff_iff, Bool.and_eq_true, decide_eq_true_iff, decide_eq_true_iff]
    exact ⟨fun h => h.1, fun h => ⟨h, Address.lt_trans h below⟩⟩
  rw [← first]
  exact ⟨_, (filter_append_filter (pairwise_toList.filter _) inside).symm⟩

end PageSpan

end DebugMonitor
