import DebugMonitor.Command.Line
import DebugMonitor.Proofs.Text.Words

/-!
# Splitting a line at its blanks

`IsRun` says that two places of a list bound a maximal run of elements that do not separate, and
`MaximalRuns` that some lists are all such runs, in order. A line splits into the maximal runs of its
characters, and so do the bytes of its UTF-8 form: a blank is one byte, and this byte is part of no other
character. So the spans that a scan of the bytes finds begin and end between characters, and what stands
in them are the words of the text: `map_slice?_spans`.

The proofs go through `Splits`, which peels a separator or a run off the front of a list.
-/

namespace DebugMonitor

namespace Text

variable {α β : Type} {sep : α → Bool} {sep' : β → Bool} {xs ys run : List α} {runs : List (List α)}
variable {a b : Nat}

/-- The places from `a` up to, and without, `b` hold a maximal run of elements that do not separate. -/
structure IsRun (sep : α → Bool) (xs : List α) (a b : Nat) : Prop where
  nonempty : a < b
  within : b ≤ xs.length
  inside : ∀ i x, a ≤ i → i < b → xs[i]? = some x → sep x = false
  starts : ∀ x, 0 < a → xs[a - 1]? = some x → sep x = true
  stops : ∀ x, xs[b]? = some x → sep x = true

/-- The spans are the places of all maximal runs, from left to right. -/
structure IsSpans (sep : α → Bool) (xs : List α) (spans : List (Nat × Nat)) : Prop where
  ordered : spans.Pairwise fun s t => s.2 < t.1
  mem_iff : ∀ a b, (a, b) ∈ spans ↔ IsRun sep xs a b

/-- The lists are the maximal runs of elements that do not separate, from left to right. -/
def MaximalRuns (sep : α → Bool) (xs : List α) (runs : List (List α)) : Prop :=
  ∃ spans, IsSpans sep xs spans ∧ runs = spans.map fun s => xs.extract s.1 s.2

/-- The list is cut into its runs from the front. -/
inductive Splits (sep : α → Bool) : List α → List (List α) → Prop where
  | nil : Splits sep [] []
  | skip {x : α} {xs : List α} {runs : List (List α)} :
      sep x = true → Splits sep xs runs → Splits sep (x :: xs) runs
  | run {run xs : List α} {runs : List (List α)} :
      run ≠ [] → (∀ x ∈ run, sep x = false) → (∀ x ∈ xs.head?, sep x = true) →
      Splits sep xs runs → Splits sep (run ++ xs) (run :: runs)

/-! ### Runs behind a first part -/

theorem getElem?_length_add (ys xs : List α) (i : Nat) : (ys ++ xs)[ys.length + i]? = xs[i]? := by
  rw [List.getElem?_append_right (Nat.le_add_right ..), Nat.add_sub_cancel_left]

/-- No run starts at a separator. -/
theorem IsRun.pos (h : IsRun sep xs a b) (first : ∀ x ∈ xs.head?, sep x = true) : 0 < a := by
  refine Nat.pos_of_ne_zero ?_
  rintro rfl
  have bound := Nat.lt_of_lt_of_le h.nonempty h.within
  have here : xs[0]? = some xs[0] := List.getElem?_eq_getElem bound
  have separates := first xs[0] (by rw [List.head?_eq_getElem?, here]; rfl)
  rw [h.inside 0 _ (Nat.le_refl _) h.nonempty here] at separates
  cases separates

/-- Where a separator stands at the seam of two parts, the runs of the second part are runs of the
whole. -/
theorem isRun_append_iff
    (seam : (∀ y ∈ ys.getLast?, sep y = true) ∨ ∀ x ∈ xs.head?, sep x = true) :
    IsRun sep (ys ++ xs) (ys.length + a) (ys.length + b) ↔ IsRun sep xs a b := by
  constructor
  · intro h
    refine ⟨Nat.lt_of_add_lt_add_left h.nonempty, ?_, ?_, ?_, ?_⟩
    · exact Nat.le_of_add_le_add_left (List.length_append ▸ h.within)
    · intro i x from_a to_b here
      exact h.inside (ys.length + i) x (Nat.add_le_add_left from_a _) (Nat.add_lt_add_left to_b _)
        ((getElem?_length_add ys xs i).trans here)
    · intro x pos here
      refine h.starts x (Nat.add_pos_right _ pos) ?_
      rw [Nat.add_sub_assoc pos, getElem?_length_add, here]
    · intro x here
      exact h.stops x ((getElem?_length_add ys xs b).trans here)
  · intro h
    refine ⟨Nat.add_lt_add_left h.nonempty _, ?_, ?_, ?_, ?_⟩
    · rw [List.length_append]
      exact Nat.add_le_add_left h.within _
    · intro i x from_a to_b here
      obtain ⟨j, rfl⟩ := Nat.exists_eq_add_of_le (Nat.le_trans (Nat.le_add_right ..) from_a)
      rw [getElem?_length_add] at here
      exact h.inside j x (Nat.le_of_add_le_add_left from_a) (Nat.lt_of_add_lt_add_left to_b) here
    · intro x pos here
      obtain rfl | inner := Nat.eq_zero_or_pos a
      · obtain last | first := seam
        · rw [Nat.add_zero, List.getElem?_append_left (Nat.sub_lt pos Nat.one_pos)] at here
          exact last x (by rw [List.getLast?_eq_getElem?]; exact here)
        · exact absurd (h.pos first) (Nat.lt_irrefl 0)
      · rw [Nat.add_sub_assoc inner, getElem?_length_add] at here
        exact h.starts x inner here
    · intro x here
      exact h.stops x ((getElem?_length_add ys xs b).symm.trans here)

/-- The spans of the second of two parts, as places of the whole. -/
def shift (n : Nat) (s : Nat × Nat) : Nat × Nat :=
  (n + s.1, n + s.2)

theorem extract_shift (ys xs : List α) (s : Nat × Nat) :
    (ys ++ xs).extract (shift ys.length s).1 (shift ys.length s).2 = xs.extract s.1 s.2 := by
  simp only [shift, List.extract, List.drop_length_add_append, Nat.add_sub_add_left]

theorem pairwise_map_shift {n : Nat} {spans : List (Nat × Nat)}
    (ordered : spans.Pairwise fun s t => s.2 < t.1) :
    (spans.map (shift n)).Pairwise fun s t => s.2 < t.1 :=
  List.pairwise_map.2 (ordered.imp fun before => Nat.add_lt_add_left before n)

/-- The spans behind a first part are the runs that start behind it. -/
theorem mem_map_shift_iff {spans : List (Nat × Nat)} (mem : ∀ a b, (a, b) ∈ spans ↔ IsRun sep xs a b)
    (seam : (∀ y ∈ ys.getLast?, sep y = true) ∨ ∀ x ∈ xs.head?, sep x = true) :
    (a, b) ∈ spans.map (shift ys.length) ↔ ys.length ≤ a ∧ IsRun sep (ys ++ xs) a b := by
  rw [List.mem_map]
  constructor
  · rintro ⟨⟨a', b'⟩, member, same⟩
    cases same
    exact ⟨Nat.le_add_right .., (isRun_append_iff seam).2 ((mem a' b').1 member)⟩
  · rintro ⟨behind, isRun⟩
    obtain ⟨a', rfl⟩ := Nat.exists_eq_add_of_le behind
    obtain ⟨b', rfl⟩ := Nat.exists_eq_add_of_le (Nat.le_trans behind (Nat.le_of_lt isRun.nonempty))
    exact ⟨(a', b'), (mem a' b').2 ((isRun_append_iff seam).1 isRun), rfl⟩

/-- Of the runs of a list that starts with a run, this is the only one that starts within it. -/
theorem isRun_of_lt_length_iff (some : run ≠ []) (word : ∀ x ∈ run, sep x = false)
    (behind : ∀ x ∈ xs.head?, sep x = true) :
    a < run.length ∧ IsRun sep (run ++ xs) a b ↔ a = 0 ∧ b = run.length := by
  have length : (run ++ xs).length = run.length + xs.length := List.length_append
  have plain {i : Nat} (h : i < run.length) : ∃ x, (run ++ xs)[i]? = Option.some x ∧ sep x = false :=
    ⟨run[i], by rw [List.getElem?_append_left h, List.getElem?_eq_getElem h],
      word _ (List.getElem_mem h)⟩
  have next {x : α} (here : (run ++ xs)[run.length]? = Option.some x) : sep x = true := by
    rw [← Nat.add_zero run.length, getElem?_length_add, ← List.head?_eq_getElem?] at here
    exact behind x here
  constructor
  · rintro ⟨early, isRun⟩
    have first : a = 0 := by
      refine Nat.eq_zero_of_not_pos fun later => ?_
      obtain ⟨x, here, no⟩ := plain (i := a - 1) (by omega)
      rw [isRun.starts x later here] at no
      cases no
    refine ⟨first, ?_⟩
    obtain before | last | beyond := Nat.lt_trichotomy b run.length
    · obtain ⟨x, here, no⟩ := plain before
      rw [isRun.stops x here] at no
      cases no
    · exact last
    · have here := List.getElem?_eq_getElem (Nat.lt_of_lt_of_le beyond isRun.within)
      have no := isRun.inside run.length _ (Nat.le_of_lt early) beyond here
      rw [next here] at no
      cases no
  · rintro ⟨rfl, rfl⟩
    have pos := List.length_pos_iff.2 some
    refine ⟨pos, pos, by omega, fun i x _ inside here => ?_, fun _ h => absurd h (Nat.lt_irrefl 0),
      fun x => next⟩
    obtain ⟨y, there, no⟩ := plain inside
    cases here.symm.trans there
    exact no

/-- What is cut from the front are all maximal runs. -/
theorem Splits.maximalRuns (h : Splits sep xs runs) : MaximalRuns sep xs runs := by
  induction h with
  | nil =>
    refine ⟨[], ⟨.nil, fun a b => ⟨nofun, fun isRun => ?_⟩⟩, rfl⟩
    exact absurd (Nat.lt_of_lt_of_le isRun.nonempty isRun.within) (Nat.not_lt_zero a)
  | @skip x xs runs separates _ ih =>
    obtain ⟨spans, ⟨ordered, mem⟩, rfl⟩ := ih
    have seam : ∀ y ∈ [x].getLast?, sep y = true := by
      rintro y ⟨⟩
      exact separates
    refine ⟨spans.map (shift [x].length), ⟨pairwise_map_shift ordered, fun a b => ?_⟩, ?_⟩
    · rw [mem_map_shift_iff mem (.inl seam)]
      refine ⟨And.right, fun isRun => ⟨isRun.pos ?_, isRun⟩⟩
      rintro y ⟨⟩
      exact separates
    · rw [List.map_map]
      exact List.map_congr_left fun s _ => (extract_shift [x] xs s).symm
  | @run run xs runs some word behind _ ih =>
    obtain ⟨spans, ⟨ordered, mem⟩, rfl⟩ := ih
    refine ⟨(0, run.length) :: spans.map (shift run.length), ⟨?_, fun a b => ?_⟩, ?_⟩
    · refine List.pairwise_cons.2 ⟨?_, pairwise_map_shift ordered⟩
      intro t member
      obtain ⟨s, inside, rfl⟩ := List.mem_map.1 member
      exact Nat.lt_add_of_pos_right (((mem s.1 s.2).1 inside).pos behind)
    · rw [List.mem_cons, Prod.mk.injEq, ← isRun_of_lt_length_iff some word behind,
        mem_map_shift_iff mem (.inr behind), ← or_and_right]
      exact and_iff_right (Nat.lt_or_ge a run.length)
    · rw [List.map_cons, List.map_map]
      have first : (run ++ xs).extract 0 run.length = run := List.take_left
      have rest := List.map_congr_left fun s (_ : s ∈ spans) => (extract_shift run xs s).symm
      exact List.cons_eq_cons.2 ⟨first.symm, rest⟩

/-! ### The words of a text -/

/-- A text that does not start with a blank starts with a word. -/
theorem exists_word_append {c : Char} (cs : List Char) (h : isBlank c = false) :
    ∃ word rest, c :: cs = word ++ rest ∧ word ≠ [] ∧ (∀ x ∈ word, isBlank x = false) ∧
      ∀ x ∈ rest.head?, isBlank x = true := by
  refine ⟨(c :: cs).takeWhile (!isBlank ·), (c :: cs).dropWhile (!isBlank ·),
    List.takeWhile_append_dropWhile.symm, ?_, ?_, ?_⟩
  · rw [List.takeWhile_cons_of_pos (by simp [h])]
    exact List.cons_ne_nil _ _
  · intro x member
    simpa using List.all_eq_true.1 List.all_takeWhile x member
  · intro x first
    have stop := List.head?_dropWhile_not (!isBlank ·) (c :: cs)
    rw [first] at stop
    simpa using stop

/-- A text is cut into its words. -/
theorem splits_words (cs : List Char) : Splits isBlank cs (words cs) := by
  induction count : cs.length using Nat.strongRecOn generalizing cs with
  | ind n ih =>
    cases cs with
    | nil => exact .nil
    | cons c cs =>
      rw [← count] at ih
      cases hc : isBlank c with
      | true =>
        rw [words_blank_cons hc]
        exact .skip hc (ih cs.length (Nat.lt_succ_self _) cs rfl)
      | false =>
        obtain ⟨word, rest, whole, some, plain, behind⟩ := exists_word_append cs hc
        rw [whole] at ih ⊢
        rw [words_append some plain behind]
        have shorter : rest.length < (word ++ rest).length := by
          rw [List.length_append]
          exact Nat.lt_add_of_pos_left (List.length_pos_iff.2 some)
        exact .run some plain behind (ih rest.length shorter rest rfl)

/-- Cutting goes on in a finer list when each element is replaced by elements of its kind, a separator
by one and any other by at least one. -/
theorem Splits.flatMap {f : α → List β} (h : Splits sep xs runs)
    (one : ∀ x, sep x = true → ∃ y, f x = [y] ∧ sep' y = true)
    (other : ∀ x, sep x = false → f x ≠ [] ∧ ∀ y ∈ f x, sep' y = false) :
    Splits sep' (xs.flatMap f) (runs.map (·.flatMap f)) := by
  induction h with
  | nil => exact .nil
  | @skip x xs runs separates _ ih =>
    obtain ⟨y, image, separates'⟩ := one x separates
    rw [List.flatMap_cons, image]
    exact .skip separates' ih
  | @run run xs runs some word behind _ ih =>
    rw [List.flatMap_append, List.map_cons]
    refine .run ?_ ?_ ?_ ih
    · obtain ⟨x, rest, rfl⟩ := List.exists_cons_of_ne_nil some
      rw [List.flatMap_cons]
      exact List.append_ne_nil_of_left_ne_nil (other x (word x List.mem_cons_self)).1 _
    · intro y member
      obtain ⟨x, inRun, image⟩ := List.mem_flatMap.1 member
      exact (other x (word x inRun)).2 y image
    · cases xs with
      | nil => nofun
      | cons x rest =>
        obtain ⟨y, image, separates⟩ := one x (behind x rfl)
        rw [List.flatMap_cons, image]
        rintro _ ⟨⟩
        exact separates

theorem utf8_eq_flatMap (text : String) : utf8 text = text.toList.flatMap String.utf8EncodeChar := by
  have bytes : (String.ofList text.toList).toByteArray = text.toList.utf8Encode :=
    String.toByteArray_ofList
  rw [String.ofList_toList] at bytes
  rw [utf8, String.toUTF8_eq_toByteArray, bytes]
  exact List.toList_data_toByteArray

/-- A space, a tab, a carriage return or a newline, as a byte. -/
def isBlankByte (b : UInt8) : Bool :=
  b == 0x20 || b == 0x09 || b == 0x0d || b == 0x0a

theorem isBlankByte_ofNat_of_le {n : Nat} (low : 128 ≤ n) (high : n < 256) :
    isBlankByte (UInt8.ofNat n) = false := by
  have value : (UInt8.ofNat n).toNat = n := UInt8.toNat_ofNat_of_lt' high
  refine Bool.eq_false_iff.2 fun blank => ?_
  simp only [isBlankByte, Bool.or_eq_true, beq_iff_eq] at blank
  obtain ((same | same) | same) | same := blank
  all_goals
    rw [same] at value
    exact absurd value (Nat.ne_of_lt (Nat.lt_of_lt_of_le (by decide) low))

theorem utf8EncodeChar_of_isBlank {c : Char} (h : isBlank c = true) :
    ∃ b, String.utf8EncodeChar c = [b] ∧ isBlankByte b = true := by
  simp only [isBlank, Bool.or_eq_true, beq_iff_eq] at h
  obtain ((rfl | rfl) | rfl) | rfl := h <;> exact ⟨_, rfl, rfl⟩

/-- A blank has no part in any other character. -/
theorem isBlankByte_of_mem_utf8EncodeChar {c : Char} (h : isBlank c = false) :
    ∀ b ∈ String.utf8EncodeChar c, isBlankByte b = false := by
  have ascii : ∀ n : Fin 128, isBlankByte (UInt8.ofNat n) = isBlank (Char.ofNat n) := by decide
  intro b member
  simp only [String.utf8EncodeChar] at member
  split at member
  · rename_i low
    rw [List.mem_singleton] at member
    have char : Char.ofNat c.val.toNat = c := c.ofNat_toNat
    rw [member, ascii ⟨c.val.toNat, Nat.lt_succ_of_le low⟩, char, h]
  -- Each byte of a longer form is at least 128.
  · split at member
    · simp only [List.mem_cons, List.not_mem_nil, or_false] at member
      obtain rfl | rfl := member <;> exact isBlankByte_ofNat_of_le (by omega) (by omega)
    · split at member
      · simp only [List.mem_cons, List.not_mem_nil, or_false] at member
        obtain rfl | rfl | rfl := member <;> exact isBlankByte_ofNat_of_le (by omega) (by omega)
      · simp only [List.mem_cons, List.not_mem_nil, or_false] at member
        obtain rfl | rfl | rfl | rfl := member <;>
          exact isBlankByte_ofNat_of_le (by omega) (by omega)

theorem isSeparator_eq_isBlankByte (b : UInt8) : isSeparator b = isBlankByte b := by
  simp only [isSeparator, separators, isBlankByte, List.contains_cons, List.contains_nil]
  ac_rfl

/-! ### The words in their spans -/

theorem utf8_ofList (cs : List Char) :
    utf8 (String.ofList cs) = cs.flatMap String.utf8EncodeChar := by
  rw [utf8_eq_flatMap, String.toList_ofList]

theorem utf8_ofList_append (cs ds : List Char) :
    utf8 (String.ofList (cs ++ ds)) = utf8 (String.ofList cs) ++ utf8 (String.ofList ds) := by
  simp only [utf8_ofList, List.flatMap_append]

theorem pos?_of_isValid {text : String} {place : String.Pos.Raw} (h : place.IsValid text) :
    text.pos? place = some (text.pos place h) := by
  have inside : String.Pos.Raw.isValidForSlice text.toSlice place = true :=
    String.Pos.Raw.isValidForSlice_eq_true_iff.2 h.toSlice
  rw [String.pos?, String.Slice.pos?, dif_pos inside]
  rfl

/-- A part of a text is found in its span. -/
theorem slice?_append (before word behind : String) :
    slice? (before ++ word ++ behind)
      ((utf8 before).length, (utf8 before).length + (utf8 word).length) = some word := by
  have start : String.Pos.Raw.IsValid (before ++ word ++ behind) ⟨(utf8 before).length⟩ :=
    String.Pos.Raw.isValid_iff_exists_append.2
      ⟨before, word ++ behind, String.append_assoc .., rfl⟩
  have stop : String.Pos.Raw.IsValid (before ++ word ++ behind)
      ⟨(utf8 before).length + (utf8 word).length⟩ :=
    String.Pos.Raw.isValid_iff_exists_append.2
      ⟨before ++ word, behind, rfl, congrArg String.Pos.Raw.mk String.utf8ByteSize_append.symm⟩
  have ordered : (before ++ word ++ behind).pos _ start ≤ (before ++ word ++ behind).pos _ stop :=
    Nat.le_add_right (utf8 before).length (utf8 word).length
  have bytes : (before ++ word ++ behind).toByteArray =
      before.toByteArray ++ (word.toByteArray ++ behind.toByteArray) := by
    rw [String.append_assoc, String.toByteArray_append, String.toByteArray_append]
  rw [slice?, pos?_of_isValid start, pos?_of_isValid stop]
  refine (if_pos ordered).trans (congrArg some (String.toByteArray_inj.1 ?_))
  rw [String.toByteArray_extract, String.offset_pos, String.offset_pos, bytes]
  exact (ByteArray.extract_append_size_add (i := 0)).trans (ByteArray.extract_append_eq_left rfl)

/-- What stands in the spans behind a first part of a text are the words of the rest. -/
theorem map_slice?_spansFrom {cs : List Char} {words : List (List Char)}
    (h : Splits isBlank cs words) (before : List Char) :
    (spansFrom none (utf8 (String.ofList before)).length (utf8 (String.ofList cs))).map
        (slice? (String.ofList (before ++ cs))) =
      words.map fun word => some (String.ofList word) := by
  induction h generalizing before with
  | nil => rfl
  | @skip c cs words blank _ ih =>
    obtain ⟨b, image, separates⟩ := utf8EncodeChar_of_isBlank blank
    have byte : utf8 (String.ofList [c]) = [b] := by
      rw [utf8_ofList, List.flatMap_singleton, image]
    have behind := ih (before ++ [c])
    rw [utf8_ofList_append, byte, List.length_append, List.append_assoc] at behind
    rw [← isSeparator_eq_isBlankByte] at separates
    rw [← List.singleton_append, utf8_ofList_append, byte]
    exact (congrArg (List.map _) (spansFrom_separator separates)).trans behind
  | @run word cs words nonempty plain follows _ ih =>
    have some : utf8 (String.ofList word) ≠ [] := by
      obtain ⟨c, rest, rfl⟩ := List.exists_cons_of_ne_nil nonempty
      rw [utf8_ofList, List.flatMap_cons]
      exact List.append_ne_nil_of_left_ne_nil String.utf8EncodeChar_ne_nil _
    have solid : ∀ b ∈ utf8 (String.ofList word), isSeparator b = false := by
      intro b member
      rw [utf8_ofList] at member
      obtain ⟨c, inWord, image⟩ := List.mem_flatMap.1 member
      rw [isSeparator_eq_isBlankByte]
      exact isBlankByte_of_mem_utf8EncodeChar (plain c inWord) b image
    have ends : ∀ b ∈ (utf8 (String.ofList cs)).head?, isSeparator b = true := by
      cases cs with
      | nil => nofun
      | cons c rest =>
        obtain ⟨b, image, separates⟩ := utf8EncodeChar_of_isBlank (follows c rfl)
        rw [utf8_ofList, List.flatMap_cons, image]
        rintro _ ⟨⟩
        exact (isSeparator_eq_isBlankByte b).trans separates
    have behind := ih (before ++ word)
    rw [utf8_ofList_append, List.length_append, List.append_assoc] at behind
    have here := slice?_append (String.ofList before) (String.ofList word) (String.ofList cs)
    rw [← String.ofList_append, ← String.ofList_append, List.append_assoc] at here
    rw [utf8_ofList_append, spansFrom_run some solid ends, List.map_cons, List.map_cons, here, behind]

end Text

namespace Command.Line

open Text (MaximalRuns isBlank isBlankByte utf8 splits_words utf8_eq_flatMap utf8EncodeChar_of_isBlank
  isBlankByte_of_mem_utf8EncodeChar)

/-- The words of a text, as strings. -/
def wordsOf (text : String) : List String :=
  (Text.words text.toList).map String.ofList

variable {text : String} {line : Line}

/-- What stands in the spans of a text are its words. -/
theorem map_slice?_spans (text : String) :
    (Text.spans text).map (Text.slice? text) = (wordsOf text).map some := by
  have all := Text.map_slice?_spansFrom (splits_words text.toList) []
  rw [List.nil_append, String.ofList_toList] at all
  rw [wordsOf, List.map_map]
  exact all

theorem length_spans (text : String) : (Text.spans text).length = (wordsOf text).length := by
  have all := congrArg List.length (map_slice?_spans text)
  rwa [List.length_map, List.length_map] at all

theorem eq_of_ofString (read : ofString text = .ok line) :
    line.text = text ∧ line.spans = Text.spans text := by
  rw [ofString] at read
  split at read
  · cases read
    exact ⟨rfl, rfl⟩
  · cases read

theorem length_of_ofString (read : ofString text = .ok line) :
    line.length = (wordsOf text).length := by
  rw [length, (eq_of_ofString read).2, length_spans]

/-- A line that is read has the words of its text. -/
theorem get?_of_ofString (read : ofString text = .ok line) (i : Nat) :
    line.get? i = (wordsOf text)[i]? := by
  obtain ⟨same, spans⟩ := eq_of_ofString read
  have here := congrArg (·[i]?.bind id) (map_slice?_spans text)
  simp only [List.getElem?_map, Option.bind_map] at here
  rw [get?, same, spans]
  exact here.trans (Option.bind_fun_some _)

theorem name?_of_ofString (read : ofString text = .ok line) : line.name? = (wordsOf text).head? := by
  rw [name?, get?_of_ofString read, List.head?_eq_getElem?]

theorem words_of_ofString (read : ofString text = .ok line) : line.words = wordsOf text := by
  have each : (List.range line.length).map line.get? = (wordsOf text).map some := by
    refine List.ext_getElem ?_ fun i _ inside => ?_
    · rw [List.length_map, List.length_map, List.length_range, length_of_ofString read]
    · rw [List.length_map] at inside
      rw [List.getElem_map, List.getElem_map, List.getElem_range, get?_of_ofString read,
        List.getElem?_eq_getElem inside]
  have whole := congrArg (List.filterMap id) each
  rw [List.filterMap_map, List.filterMap_map] at whole
  exact whole.trans List.filterMap_some

/-- Up to fifteen words make a line. -/
theorem exists_ofString_eq_ok (few : (wordsOf text).length ≤ 15) :
    ∃ line, ofString text = .ok line := by
  rw [← length_spans] at few
  exact ⟨_, dif_pos (Nat.lt_succ_of_le few)⟩

theorem ofString_eq_error (many : 15 < (wordsOf text).length) :
    ofString text = .error (.tooManyArguments 16) := by
  rw [← length_spans] at many
  exact dif_neg (Nat.not_lt.2 many)

/-- How a line is cut. Its words are the maximal runs of characters that are not blank, and their bytes
are the maximal runs of bytes in its UTF-8 form. Up to fifteen words make a line that has each of them at
its place and nothing behind; a line of more words is refused. -/
theorem ofString_spec (text : String) :
    ∃ words : List String, MaximalRuns isBlank text.toList (words.map String.toList) ∧
      MaximalRuns isBlankByte (utf8 text) (words.map utf8) ∧
      if words.length ≤ 15 then
        ∃ line, ofString text = .ok line ∧ line.length = words.length ∧
          (∀ i, line.get? i = words[i]?) ∧ line.name? = words.head? ∧ line.words = words
      else ofString text = .error (.tooManyArguments 16) := by
  have splits := splits_words text.toList
  have chars : (wordsOf text).map String.toList = Text.words text.toList := by
    simp [wordsOf, Function.comp_def]
  have bytes : (wordsOf text).map utf8 =
      (Text.words text.toList).map (·.flatMap String.utf8EncodeChar) := by
    rw [← chars, List.map_map]
    exact List.map_congr_left fun word _ => utf8_eq_flatMap word
  refine ⟨wordsOf text, ?_, ?_, ?_⟩
  · rw [chars]
    exact splits.maximalRuns
  · rw [bytes, utf8_eq_flatMap]
    refine (splits.flatMap (fun c => utf8EncodeChar_of_isBlank) fun c plain => ?_).maximalRuns
    exact ⟨String.utf8EncodeChar_ne_nil, isBlankByte_of_mem_utf8EncodeChar plain⟩
  · split
    · rename_i few
      obtain ⟨line, read⟩ := exists_ofString_eq_ok few
      exact ⟨line, read, length_of_ofString read, get?_of_ofString read, name?_of_ofString read,
        words_of_ofString read⟩
    · rename_i many
      exact ofString_eq_error (Nat.not_le.1 many)

end Command.Line

end DebugMonitor
