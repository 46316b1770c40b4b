import DebugMonitor.Proofs.Text.Digits
import Mathlib.Data.List.Forall2
import Mathlib.Data.Nat.Digits.Defs

/-!
# The grammar of numerals

A numeral has one of three forms, and `Numeral` has a rule for each: hexadecimal digits behind `0x` or
`0X`, octal digits behind `0`, or decimal digits. The forms exclude one another, because no octal digit
is a letter and a decimal numeral of several digits does not start with zero. The value of a numeral is
the positional value of its digits, of which there is at least one.

`numeral?_eq_some_iff` says that reading follows this grammar, and `readNumber_spec` that a token is read
as a word exactly if it is a numeral whose value fits one.
-/

namespace DebugMonitor.Text

/-- The character stands for the digit `d` of a radix. The digits above nine are letters of either
case. -/
def IsDigit (radix d : Nat) (c : Char) : Prop :=
  d < radix ∧ (c = d.digitChar ∨ c = d.digitChar.toUpper)

/-- The characters are digits, at least one, and the positional value of these digits is `n`. -/
def Spells (radix : Nat) (cs : List Char) (n : Nat) : Prop :=
  ∃ ds : List Nat, ds ≠ [] ∧ List.Forall₂ (IsDigit radix) ds cs ∧ n = Nat.ofDigits radix ds.reverse

/-- The characters are a numeral of value `n`. -/
inductive Numeral : List Char → Nat → Prop where
  | hexadecimal {x : Char} {cs : List Char} {n : Nat} :
      x = 'x' ∨ x = 'X' → Spells 16 cs n → Numeral ('0' :: x :: cs) n
  | octal {cs : List Char} {n : Nat} : Spells 8 cs n → Numeral ('0' :: cs) n
  | decimal {cs : List Char} {n : Nat} :
      Spells 10 cs n → cs.head? ≠ some '0' ∨ cs = ['0'] → Numeral cs n

section

variable {radix d n : Nat} {c : Char} {cs : List Char}

/-- A smaller radix has fewer digits, and those of the same values. -/
theorem digit?_eq_some_iff_of_le (h : radix ≤ 16) :
    digit? radix c = some d ↔ d < radix ∧ digit? 16 c = some d := by
  simp only [digit?, Option.filter_eq_some_iff, decide_eq_true_eq]
  constructor
  · rintro ⟨value, small⟩
    exact ⟨small, value, Nat.lt_of_lt_of_le small h⟩
  · rintro ⟨small, value, -⟩
    exact ⟨value, small⟩

/-- All digits are characters of ASCII. -/
theorem toNat_lt_of_digit? (value : digit? radix c = some d) : c.toNat < 128 := by
  have below {a : Char} (h : c ≤ a) (ascii : a.toNat < 128) : c.toNat < 128 :=
    Nat.lt_of_le_of_lt (UInt32.le_iff_toNat_le.1 h) ascii
  obtain ⟨value, -⟩ := Option.filter_eq_some_iff.1 value
  split at value
  · exact below ‹_ ∧ _›.2 (by decide)
  · split at value
    · exact below ‹_ ∧ _›.2 (by decide)
    · split at value
      · exact below ‹_ ∧ _›.2 (by decide)
      · cases value

theorem digit?_eq_some_iff (h : radix ≤ 16) : digit? radix c = some d ↔ IsDigit radix d c := by
  have read : ∀ n : Fin 128, ∀ d ∈ digit? 16 (Char.ofNat n),
      Char.ofNat n = d.digitChar ∨ Char.ofNat n = d.digitChar.toUpper := by decide
  have written : ∀ d : Fin 16, digit? 16 (Nat.digitChar d).toUpper = some d.val := by decide
  rw [digit?_eq_some_iff_of_le h, IsDigit]
  refine and_congr_right fun small => ⟨fun value => ?_, ?_⟩
  · have char : Char.ofNat c.toNat = c := c.ofNat_toNat
    have cases := read ⟨c.toNat, toNat_lt_of_digit? value⟩ d
    dsimp only at cases
    rw [char] at cases
    exact cases value
  · rintro (rfl | rfl)
    · exact digit?_digitChar (Nat.lt_of_lt_of_le small h)
    · exact written ⟨d, Nat.lt_of_lt_of_le small h⟩

/-- A leading digit counts once more in the radix than the number in front of it. -/
theorem ofDigits_reverse_cons (m : Nat) (ds : List Nat) :
    Nat.ofDigits radix ((d :: ds).reverse ++ [m]) =
      Nat.ofDigits radix (ds.reverse ++ [m * radix + d]) := by
  have behind (tail : List Nat) : Nat.ofDigits radix (ds.reverse ++ tail) =
      Nat.ofDigits radix ds.reverse + radix ^ ds.reverse.length * Nat.ofDigits radix tail :=
    Nat.ofDigits_append
  have pair : Nat.ofDigits radix [d, m] = m * radix + d := by
    rw [Nat.ofDigits_cons, Nat.ofDigits_singleton, Nat.mul_comm, Nat.add_comm]
  rw [List.reverse_cons, List.append_assoc, List.singleton_append, behind, behind, pair,
    Nat.ofDigits_singleton]

/-- Reading goes on from the number `m` that was read before. -/
theorem digitsFrom?_eq_some_iff (h : radix ≤ 16) {m : Nat} :
    digitsFrom? radix m cs = some n ↔
      ∃ ds, List.Forall₂ (IsDigit radix) ds cs ∧ n = Nat.ofDigits radix (ds.reverse ++ [m]) := by
  induction cs generalizing m with
  | nil => simp [digitsFrom?, List.forall₂_nil_right_iff, eq_comm]
  | cons c cs ih =>
    simp only [digitsFrom?, Option.bind_eq_some_iff, digit?_eq_some_iff h, ih]
    constructor
    · rintro ⟨d, isDigit, ds, rest, rfl⟩
      exact ⟨d :: ds, .cons isDigit rest, (ofDigits_reverse_cons m ds).symm⟩
    · rintro ⟨_, _ | ⟨isDigit, rest⟩, rfl⟩
      exact ⟨_, isDigit, _, rest, ofDigits_reverse_cons m _⟩

theorem digits?_eq_some_iff (h : radix ≤ 16) : digits? radix cs = some n ↔ Spells radix cs n := by
  cases cs with
  | nil => simp [digits?, Spells, List.forall₂_nil_right_iff]
  | cons c cs =>
    rw [digits?, digitsFrom?_eq_some_iff h, Spells]
    refine exists_congr fun ds => ?_
    have zero : Nat.ofDigits radix (ds.reverse ++ [0]) = Nat.ofDigits radix ds.reverse :=
      Nat.ofDigits_append_zero _
    rw [zero]
    constructor
    · rintro ⟨digits, rfl⟩
      refine ⟨?_, digits, rfl⟩
      rintro rfl
      cases digits
    · exact And.right

end

theorem Spells.ne_nil {radix n : Nat} {cs : List Char} (h : Spells radix cs n) : cs ≠ [] := by
  obtain ⟨ds, some, digits, -⟩ := h
  rintro rfl
  exact some (List.forall₂_nil_right_iff.1 digits)

/-- Reading a numeral follows the grammar. -/
theorem numeral?_eq_some_iff {cs : List Char} {n : Nat} : numeral? cs = some n ↔ Numeral cs n := by
  constructor
  · intro read
    unfold numeral? at read
    split at read
    · exact .hexadecimal (.inl rfl) ((digits?_eq_some_iff (by decide)).1 read)
    · exact .hexadecimal (.inr rfl) ((digits?_eq_some_iff (by decide)).1 read)
    · exact .octal ((digits?_eq_some_iff (by decide)).1 read)
    · rename_i _ _ longer
      refine .decimal ((digits?_eq_some_iff (by decide)).1 read) ?_
      by_cases zero : cs.head? = some '0'
      · obtain ⟨rest, rfl⟩ := List.head?_eq_some_iff.1 zero
        cases rest with
        | nil => exact .inr rfl
        | cons c rest => exact absurd rfl (longer c rest)
      · exact .inl zero
  · intro numeral
    unfold numeral?
    cases numeral with
    | hexadecimal letter spelled =>
      obtain rfl | rfl := letter
      · exact (digits?_eq_some_iff (by decide)).2 spelled
      · exact (digits?_eq_some_iff (by decide)).2 spelled
    | octal spelled =>
      obtain ⟨c, rest, rfl⟩ := List.exists_cons_of_ne_nil spelled.ne_nil
      have read := (digits?_eq_some_iff (by decide)).2 spelled
      have digit : (digit? 8 c).isSome := isSome_digit?_of_digitsFrom? read c List.mem_cons_self
      split
      · rename_i same
        cases same
        exact absurd digit (by decide)
      · rename_i same
        cases same
        exact absurd digit (by decide)
      · rename_i same
        cases same
        exact read
      · rename_i _ _ longer
        exact absurd rfl (longer c rest)
    | decimal spelled first =>
      have short (c : Char) (rest : List Char) : cs ≠ '0' :: c :: rest := by
        rintro rfl
        obtain other | single := first
        · exact other rfl
        · cases single
      split
      · exact absurd rfl (short _ _)
      · exact absurd rfl (short _ _)
      · exact absurd rfl (short _ _)
      · exact (digits?_eq_some_iff (by decide)).2 spelled

/-- A token is read as a word exactly if it is a numeral of its value. Every other token is refused, and
the refusal carries the token as it was typed. -/
theorem readNumber_spec (token : String) :
    (∀ w, readNumber token = .ok w ↔ Numeral token.toList w.toNat) ∧
      ∀ e, readNumber token = .error e ↔
        e.token = token ∧ ∀ n < UInt64.size, ¬ Numeral token.toList n := by
  have accepted (w : UInt64) : readNumber token = .ok w ↔ Numeral token.toList w.toNat :=
    readNumber_eq_ok_iff.trans numeral?_eq_some_iff
  refine ⟨accepted, fun e => ⟨fun refused => ?_, ?_⟩⟩
  · refine ⟨token_of_readNumber_eq_error refused, fun n small numeral => ?_⟩
    have value : (UInt64.ofNat n).toNat = n := UInt64.toNat_ofNat_of_lt' small
    rw [← value, ← accepted, refused] at numeral
    cases numeral
  · rintro ⟨same, none⟩
    cases read : readNumber token with
    | ok w => exact absurd ((accepted w).1 read) (none _ w.toNat_lt_size)
    | error e' =>
      have carried : e' = e :=
        congrArg NotANumber.mk ((token_of_readNumber_eq_error read).trans same.symm)
      rw [carried]

end DebugMonitor.Text
