import DebugMonitor.Symbol.Table
import Mathlib.Data.List.Basic

/-!
# Looking up an address

A table whose functions lie one behind the other can be searched by bisection. `Ordered` says that it is
such a table, and `resolve_eq_scan` that the search then answers what a look at every function and every
line would: `scan` takes the first function that holds the address, and the last line at or below it.

The two bisections are the same argument. Where the elements with a property come first, the partition
point counts them (`filter_eq_take_partitionPoint`), so the element in front of it is the last of them
(`getLast?_filter_eq`). For an address this is the function that starts last at or below it, and by
`Ordered.getLast?_begun` no other function can hold the address.
-/

namespace DebugMonitor

section

variable {α : Type} {p : α → Bool} {xs : Array α} {i : Nat} {x : α}

/-- Where all elements with a property come before those without it, an element has the property if
and only if it lies in front of the partition point. -/
theorem lt_partitionPoint_iff (first : xs.toList.Pairwise fun a b => p b = true → p a = true)
    (there : xs[i]? = some x) : i < partitionPoint p xs ↔ p x = true := by
  have turns : TurnsOnce fun i => xs[i]?.any p := by
    intro i j le later
    obtain ⟨y, hy, py⟩ := (Option.any_eq_true p _).1 later
    obtain ⟨inside, rfl⟩ := Array.getElem?_eq_some_iff.1 hy
    change xs[i]?.any p = true
    rw [Array.getElem?_eq_getElem (Nat.lt_of_le_of_lt le inside), Option.any_some]
    rcases Nat.lt_or_eq_of_le le with lt | rfl
    · exact List.pairwise_iff_getElem.1 first i j _ _ lt py
    · exact py
  have beyond : ∀ j, xs.size ≤ j → xs[j]?.any p = false := by
    intro j outside
    rw [Array.getElem?_eq_none outside, Option.any_none]
  constructor
  · intro lt
    have held : xs[i]?.any p = true := holds_of_lt_bisect turns beyond lt
    rwa [there, Option.any_some] at held
  · intro px
    apply Nat.lt_of_not_le
    intro le
    have failed : xs[i]?.any p = false := not_holds_of_bisect_le turns beyond le
    rw [there, Option.any_some, px] at failed
    cases failed

/-- The elements with the property are those in front of the partition point. -/
theorem filter_eq_take_partitionPoint
    (first : xs.toList.Pairwise fun a b => p b = true → p a = true) :
    xs.toList.filter p = xs.toList.take (partitionPoint p xs) := by
  have front : (xs.toList.take (partitionPoint p xs)).filter p =
      xs.toList.take (partitionPoint p xs) := by
    rw [List.filter_eq_self]
    intro x member
    obtain ⟨i, lt, rfl⟩ := List.mem_take_iff_getElem.1 member
    have inside : i < xs.size := (Nat.lt_min.1 lt).2
    exact (lt_partitionPoint_iff first (Array.getElem?_eq_getElem inside)).1 (Nat.lt_min.1 lt).1
  have rest : (xs.toList.drop (partitionPoint p xs)).filter p = [] := by
    rw [List.filter_eq_nil_iff]
    intro x member px
    obtain ⟨i, inside, rfl⟩ := List.mem_drop_iff_getElem.1 member
    have there : xs[partitionPoint p xs + i]? = some xs.toList[partitionPoint p xs + i] := by
      rw [← Array.getElem?_toList]
      exact List.getElem?_eq_getElem _
    have lt := (lt_partitionPoint_iff first there).2 px
    omega
  calc xs.toList.filter p
    _ = (xs.toList.take (partitionPoint p xs) ++ xs.toList.drop (partitionPoint p xs)).filter p := by
      rw [List.take_append_drop]
    _ = xs.toList.take (partitionPoint p xs) := by
      rw [List.filter_append, front, rest, List.append_nil]

/-- The last element with the property is the one in front of the partition point. -/
theorem getLast?_filter_eq (first : xs.toList.Pairwise fun a b => p b = true → p a = true) :
    (xs.toList.filter p).getLast? = match partitionPoint p xs with
      | 0 => none
      | i + 1 => xs[i]? := by
  have bound := partitionPoint_le_size p xs
  rw [filter_eq_take_partitionPoint first]
  cases point : partitionPoint p xs with
  | zero => rfl
  | succ i =>
    rw [point] at bound
    have inside : i < xs.toList.length := bound
    rw [List.take_succ_eq_append_getElem inside, List.getLast?_append, List.getLast?_singleton]
    exact (Array.getElem?_eq_getElem bound).symm

end

namespace Symbol

/-- The address lies in the code of the function. -/
def Holds (s : Symbol) (addr : UInt64) : Prop :=
  s.start ≤ addr ∧ addr < s.stop

instance (s : Symbol) (addr : UInt64) : Decidable (s.Holds addr) :=
  inferInstanceAs (Decidable (_ ∧ _))

/-- The distance from the start of a function does not wrap around and lies within the function. -/
theorem Holds.toNat_sub {s : Symbol} {addr : UInt64} (holds : s.Holds addr) :
    s.start.toNat + (addr - s.start).toNat = addr.toNat ∧
      (addr - s.start).toNat < s.stop.toNat - s.start.toNat := by
  have starts := UInt64.le_iff_toNat_le.1 holds.1
  have stops := UInt64.lt_iff_toNat_lt.1 holds.2
  rw [UInt64.toNat_sub_of_le _ _ holds.1]
  omega

/-- The lines of a function in ascending order of their addresses. -/
def LinesOrdered (s : Symbol) : Prop :=
  s.lines.toList.Pairwise fun a b => a.1 ≤ b.1

/-- The line of the last pair at or below the address, or 0 if there is none. -/
def scanLines (s : Symbol) (addr : UInt64) : Nat :=
  ((s.lines.toList.filter fun line => line.1 ≤ addr).getLast?.map Prod.snd).getD 0

/-- What is known about an address that the function holds. -/
def locate (s : Symbol) (addr : UInt64) : Location where
  file := s.file
  line := s.scanLines addr
  function := s.function
  functionStart := s.start

theorem lineOf_eq_scanLines {s : Symbol} (ordered : s.LinesOrdered) (addr : UInt64) :
    s.lineOf addr = s.scanLines addr := by
  have first : s.lines.toList.Pairwise fun a b =>
      decide (b.1 ≤ addr) = true → decide (a.1 ≤ addr) = true := by
    refine ordered.imp fun le below => ?_
    exact decide_eq_true (UInt64.le_trans le (of_decide_eq_true below))
  rw [scanLines, getLast?_filter_eq first, lineOf]
  cases partitionPoint (fun line => decide (line.1 ≤ addr)) s.lines <;> rfl

end Symbol

namespace SymbolTable

/-- The functions of the table lie one behind the other, with or without gaps, and some of them may be
empty. -/
structure Ordered (t : SymbolTable) : Prop where
  start_le_stop : ∀ s ∈ t.symbols.toList, s.start ≤ s.stop
  stop_le_start : t.symbols.toList.IsChain fun s s' => s.stop ≤ s'.start
  lines : ∀ s ∈ t.symbols.toList, s.LinesOrdered

/-- The answer of a look at all functions, one after the other. -/
def scan (t : SymbolTable) (addr : UInt64) : Option Location :=
  (t.symbols.toList.find? fun s => s.Holds addr).map fun s => s.locate addr

/-- The functions that start at or below an address. -/
def begun (t : SymbolTable) (addr : UInt64) : List Symbol :=
  t.symbols.toList.filter fun s => s.start ≤ addr

/-- A function ends before every later one begins. -/
theorem pairwise_of_isChain {symbols : List Symbol} (whole : ∀ s ∈ symbols, s.start ≤ s.stop)
    (chain : symbols.IsChain fun s s' => s.stop ≤ s'.start) :
    symbols.Pairwise fun s s' => s.stop ≤ s'.start := by
  induction symbols with
  | nil => exact .nil
  | cons s rest ih =>
    rw [List.forall_mem_cons] at whole
    have later := ih whole.2 chain.of_cons
    refine List.pairwise_cons.2 ⟨?_, later⟩
    cases rest with
    | nil => exact List.forall_mem_nil _
    | cons next rest =>
      have adjacent : s.stop ≤ next.start := (List.isChain_cons_cons.1 chain).1
      have through : s.stop ≤ next.stop :=
        UInt64.le_trans adjacent (whole.2 next List.mem_cons_self)
      refine List.forall_mem_cons.2 ⟨adjacent, fun other member => ?_⟩
      exact UInt64.le_trans through ((List.pairwise_cons.1 later).1 other member)

variable {t : SymbolTable} {addr : UInt64} {i j : Nat} {s s' : Symbol}

theorem Ordered.stop_le_start_of_lt (ordered : t.Ordered) (hs : t.symbols[i]? = some s)
    (hs' : t.symbols[j]? = some s') (lt : i < j) : s.stop ≤ s'.start := by
  obtain ⟨_, rfl⟩ := Array.getElem?_eq_some_iff.1 hs
  obtain ⟨_, rfl⟩ := Array.getElem?_eq_some_iff.1 hs'
  have pairs := pairwise_of_isChain ordered.start_le_stop ordered.stop_le_start
  exact List.pairwise_iff_getElem.1 pairs i j _ _ lt

/-- No two functions hold the same address. -/
theorem Ordered.unique (ordered : t.Ordered) (hs : t.symbols[i]? = some s) (holds : s.Holds addr)
    (hs' : t.symbols[j]? = some s') (holds' : s'.Holds addr) : i = j := by
  rcases Nat.lt_trichotomy i j with lt | same | gt
  · have apart := UInt64.le_trans (ordered.stop_le_start_of_lt hs hs' lt) holds'.1
    exact absurd holds.2 (UInt64.not_lt.2 apart)
  · exact same
  · have apart := UInt64.le_trans (ordered.stop_le_start_of_lt hs' hs gt) holds.1
    exact absurd holds'.2 (UInt64.not_lt.2 apart)

theorem Ordered.eq_of_holds (ordered : t.Ordered) (member : s ∈ t.symbols) (holds : s.Holds addr)
    (member' : s' ∈ t.symbols) (holds' : s'.Holds addr) : s = s' := by
  obtain ⟨i, hs⟩ := Array.mem_iff_getElem?.1 member
  obtain ⟨j, hs'⟩ := Array.mem_iff_getElem?.1 member'
  obtain rfl := ordered.unique hs holds hs' holds'
  exact Option.some.inj (hs.symm.trans hs')

/-- The functions that start at or below an address come first. -/
theorem Ordered.pairwise_start_le (ordered : t.Ordered) (addr : UInt64) :
    t.symbols.toList.Pairwise fun s s' =>
      decide (s'.start ≤ addr) = true → decide (s.start ≤ addr) = true := by
  have pairs := pairwise_of_isChain ordered.start_le_stop ordered.stop_le_start
  refine pairs.imp_of_mem fun {s s'} member _ le below => ?_
  have order : s.start ≤ s'.start := UInt64.le_trans (ordered.start_le_stop s member) le
  exact decide_eq_true (UInt64.le_trans order (of_decide_eq_true below))

/-- A function that holds an address is the last that starts at or below it. -/
theorem Ordered.getLast?_begun (ordered : t.Ordered) (member : s ∈ t.symbols) (holds : s.Holds addr) :
    (t.begun addr).getLast? = some s := by
  have starts : s ∈ t.begun addr :=
    List.mem_filter.2 ⟨Array.mem_toList_iff.2 member, decide_eq_true holds.1⟩
  have pairs : (t.begun addr).Pairwise fun s s' => s.stop ≤ s'.start :=
    (pairwise_of_isChain ordered.start_le_stop ordered.stop_le_start).filter _
  have below : ∀ s' ∈ t.begun addr, s'.start ≤ addr :=
    fun s' member' => of_decide_eq_true (List.mem_filter.1 member').2
  obtain ⟨earlier, later, split⟩ := List.append_of_mem starts
  rw [split] at pairs below ⊢
  cases later with
  | nil =>
    rw [List.getLast?_append, List.getLast?_singleton]
    rfl
  | cons next rest =>
    -- The next one would start behind the end of the function, and so behind the address.
    have apart := (List.pairwise_cons.1 (List.pairwise_append.1 pairs).2.1).1 next List.mem_cons_self
    have reaches := below next (List.mem_append_right _ (List.mem_cons_of_mem _ List.mem_cons_self))
    exact absurd holds.2 (UInt64.not_lt.2 (UInt64.le_trans apart reaches))

theorem resolve_eq_bind (ordered : t.Ordered) (addr : UInt64) :
    t.resolve addr = (t.begun addr).getLast?.bind fun s =>
      if addr < s.stop then some ⟨s.file, s.lineOf addr, s.function, s.start⟩ else none := by
  rw [begun, getLast?_filter_eq (ordered.pairwise_start_le addr), resolve]
  cases partitionPoint (fun s => decide (s.start ≤ addr)) t.symbols <;> rfl

/-- The search comes to a function if and only if the function holds the address. -/
theorem resolve_eq_some_iff (ordered : t.Ordered) {l : Location} :
    t.resolve addr = some l ↔ ∃ s ∈ t.symbols, s.Holds addr ∧ l = s.locate addr := by
  have line (s : Symbol) (member : s ∈ t.symbols) : s.lineOf addr = s.scanLines addr :=
    Symbol.lineOf_eq_scanLines (ordered.lines s (Array.mem_toList_iff.2 member)) addr
  rw [resolve_eq_bind ordered, Option.bind_eq_some_iff]
  constructor
  · rintro ⟨s, last, located⟩
    obtain ⟨member, starts⟩ := List.mem_filter.1 (List.mem_of_getLast? last)
    rw [Array.mem_toList_iff] at member
    rw [Option.ite_none_right_eq_some, line s member] at located
    obtain ⟨inside, found⟩ := located
    exact ⟨s, member, ⟨of_decide_eq_true starts, inside⟩, (Option.some.inj found).symm⟩
  · rintro ⟨s, member, holds, rfl⟩
    refine ⟨s, ordered.getLast?_begun member holds, ?_⟩
    rw [if_pos holds.2, line s member]
    rfl

theorem scan_eq_some_iff (ordered : t.Ordered) {l : Location} :
    t.scan addr = some l ↔ ∃ s ∈ t.symbols, s.Holds addr ∧ l = s.locate addr := by
  rw [scan, Option.map_eq_some_iff]
  constructor
  · rintro ⟨s, found, rfl⟩
    have holds := List.find?_some (p := fun s : Symbol => decide (s.Holds addr)) found
    exact ⟨s, Array.mem_toList_iff.1 (List.mem_of_find?_eq_some found), of_decide_eq_true holds, rfl⟩
  · rintro ⟨s, member, holds, rfl⟩
    have isSome : (t.symbols.toList.find? fun s => s.Holds addr).isSome :=
      List.find?_isSome.2 ⟨s, Array.mem_toList_iff.2 member, decide_eq_true holds⟩
    obtain ⟨s', found⟩ := Option.isSome_iff_exists.1 isSome
    have holds' := List.find?_some (p := fun s : Symbol => decide (s.Holds addr)) found
    have member' := Array.mem_toList_iff.1 (List.mem_of_find?_eq_some found)
    obtain rfl := ordered.eq_of_holds member holds member' (of_decide_eq_true holds')
    exact ⟨s, found, rfl⟩

/-- The search answers what a look at every function and every line would. -/
theorem resolve_eq_scan (ordered : t.Ordered) (addr : UInt64) : t.resolve addr = t.scan addr :=
  Option.ext fun _ => (resolve_eq_some_iff ordered).trans (scan_eq_some_iff ordered).symm

end SymbolTable

end DebugMonitor
