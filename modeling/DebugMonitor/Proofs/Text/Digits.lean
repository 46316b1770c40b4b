import DebugMonitor.Address
import DebugMonitor.Text.Numeral
import DebugMonitor.Proofs.Text.Words

/-!
# Hexadecimal text as digits

What the monitor prints of a word in hexadecimal are digits, and reading them gives the word back, with
any number of zeros in front. Since no digit is a blank, such a text is a word of any line it stands in.
-/

namespace DebugMonitor

namespace Text

theorem digit?_digitChar {d : Nat} (h : d < 16) : digit? 16 d.digitChar = some d := by
  have all : ∀ d : Fin 16, digit? 16 (Nat.digitChar d) = some d.val := by decide
  exact all ⟨d, h⟩

/-- The digits of a number read back as the number. -/
@[simp] theorem digitsFrom?_toDigits (n : Nat) : digitsFrom? 16 0 (Nat.toDigits 16 n) = some n := by
  induction n using Nat.strongRecOn with
  | ind n ih =>
    rcases Nat.lt_or_ge n 16 with small | large
    · simp [Nat.toDigits_of_lt_base small, digitsFrom?, digit?_digitChar small]
    · have last : n % 16 < 16 := Nat.mod_lt _ (by decide)
      have rest := ih (n / 16) (by omega)
      rw [Nat.toDigits_of_base_le (by decide) large, digitsFrom?_append, rest]
      simp only [Option.bind_some, digitsFrom?, digit?_digitChar last]
      exact congrArg some (Nat.div_add_mod' n 16)

/-- A text that reads as a number holds nothing but digits. -/
theorem isSome_digit?_of_digitsFrom? {radix n value : Nat} {cs : List Char}
    (read : digitsFrom? radix n cs = some value) : ∀ c ∈ cs, (digit? radix c).isSome := by
  induction cs generalizing n with
  | nil => simp
  | cons c cs ih =>
    obtain ⟨d, hd, rest⟩ := Option.bind_eq_some_iff.1 read
    exact List.forall_mem_cons.2 ⟨by simp [hd], ih rest⟩

@[simp] theorem digitsFrom?_hexPadded (width : Nat) (w : UInt64) :
    digitsFrom? 16 0 (hexPadded width w).toList = some w.toNat := by
  rw [toList_hexPadded, List.leftpad, digitsFrom?_replicate_zero (by decide), digitsFrom?_toDigits]

theorem toList_hexPadded_ne_nil (width : Nat) (w : UInt64) : (hexPadded width w).toList ≠ [] := by
  simp [toList_hexPadded, List.leftpad, Nat.toDigits_ne_nil]

/-- What is printed of a word in hexadecimal reads back as the word. -/
@[simp] theorem digits?_hexPadded (width : Nat) (w : UInt64) :
    digits? 16 (hexPadded width w).toList = some w.toNat := by
  have read := digitsFrom?_hexPadded width w
  obtain ⟨c, cs, whole⟩ := List.exists_cons_of_ne_nil (toList_hexPadded_ne_nil width w)
  rw [whole] at read ⊢
  exact read

theorem isBlank_of_isSome_digit? {c : Char} (h : (digit? 16 c).isSome) : isBlank c = false := by
  refine Bool.eq_false_iff.2 fun blank => ?_
  simp only [isBlank, Bool.or_eq_true, beq_iff_eq] at blank
  obtain ((rfl | rfl) | rfl) | rfl := blank <;> exact absurd h (by decide)

theorem isBlank_of_mem_hexPadded {width : Nat} {w : UInt64} {c : Char}
    (h : c ∈ (hexPadded width w).toList) : isBlank c = false :=
  isBlank_of_isSome_digit? (isSome_digit?_of_digitsFrom? (digitsFrom?_hexPadded width w) c h)

/-- A byte is printed with two digits. -/
@[simp] theorem length_hexPadded_two (b : UInt8) : (hexPadded 2 b.toUInt64).toList.length = 2 := by
  have digits : (Nat.toDigits 16 b.toUInt64.toNat).length ≤ 2 :=
    (Nat.length_toDigits_le_iff (by decide) (by decide)).2 (by simpa using b.toNat_lt)
  rw [toList_hexPadded, List.length_leftpad]
  omega

end Text

namespace Address

variable {space : Space} {c : Char}

theorem toList_toString (a : Address space) :
    (toString a).toList = '0' :: 'x' :: (Text.hexPadded 16 a.word).toList :=
  String.toList_append

/-- What is printed of an address reads back as its word. -/
@[simp] theorem readNumber_toString (a : Address space) :
    Text.readNumber (toString a) = .ok a.word := by
  rw [Text.readNumber_eq_ok_iff, toList_toString]
  exact Text.digits?_hexPadded 16 a.word

theorem toList_toString_ne_nil (a : Address space) : (toString a).toList ≠ [] := by
  rw [toList_toString]
  exact List.cons_ne_nil _ _

/-- The characters of a printed address are digits and the letter that tells their base. -/
theorem eq_or_isSome_digit?_of_mem_toString {a : Address space} (h : c ∈ (toString a).toList) :
    c = 'x' ∨ (Text.digit? 16 c).isSome := by
  rw [toList_toString, List.mem_cons, List.mem_cons] at h
  obtain rfl | rfl | digit := h
  · exact .inr (by decide)
  · exact .inl rfl
  · have read := Text.digitsFrom?_hexPadded 16 a.word
    exact .inr (Text.isSome_digit?_of_digitsFrom? read c digit)

theorem isBlank_of_mem_toString {a : Address space} (h : c ∈ (toString a).toList) :
    Text.isBlank c = false := by
  obtain rfl | digit := eq_or_isSome_digit?_of_mem_toString h
  · rfl
  · exact Text.isBlank_of_isSome_digit? digit

theorem ne_hyphen_of_mem_toString {a : Address space} (h : c ∈ (toString a).toList) : c ≠ '-' := by
  rintro rfl
  obtain letter | digit := eq_or_isSome_digit?_of_mem_toString h
  · cases letter
  · exact absurd digit (by decide)

end Address

end DebugMonitor
