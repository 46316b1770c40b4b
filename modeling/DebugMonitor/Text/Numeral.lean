/-!
# Numerals typed by an operator

A numeral is hexadecimal after `0x` or `0X`, octal after a leading `0` that is not the whole token,
and decimal otherwise. The digit part may not be empty, holds digits of the radix and nothing else,
and its value must fit 64 bits. There are no signs and no separators, and any number of leading
zeros is allowed. Digits are those of ASCII.
-/

namespace DebugMonitor.Text

/-- The token is not a numeral, or its value needs more than 64 bits. -/
structure NotANumber where
  token : String
deriving DecidableEq, Repr

def NotANumber.message (e : NotANumber) : String :=
  s!"'{e.token}' is not a number"

/-- The value of a digit in radix `radix`, where letters of either case continue after nine. -/
def digit? (radix : Nat) (c : Char) : Option Nat :=
  let value? :=
    if '0' ≤ c ∧ c ≤ '9' then some (c.toNat - '0'.toNat)
    else if 'a' ≤ c ∧ c ≤ 'f' then some (c.toNat - 'a'.toNat + 10)
    else if 'A' ≤ c ∧ c ≤ 'F' then some (c.toNat - 'A'.toNat + 10)
    else none
  value?.filter (· < radix)

/-- The value of a run of digits that continues a number of value `n`. -/
def digitsFrom? (radix : Nat) (n : Nat) : List Char → Option Nat
  | [] => some n
  | c :: cs => (digit? radix c).bind fun d => digitsFrom? radix (n * radix + d) cs

/-- The value of a nonempty run of digits. -/
def digits? (radix : Nat) : List Char → Option Nat
  | [] => none
  | c :: cs => digitsFrom? radix 0 (c :: cs)

/-- The value of a numeral, of any size. -/
def numeral? : List Char → Option Nat
  | '0' :: 'x' :: ds => digits? 16 ds
  | '0' :: 'X' :: ds => digits? 16 ds
  | '0' :: c :: ds => digits? 8 (c :: ds)
  | ds => digits? 10 ds

/-- Reads a numeral whose value fits a word. -/
def readNumber (token : String) : Except NotANumber UInt64 :=
  match numeral? token.toList with
  | some n => if n < UInt64.size then .ok (UInt64.ofNat n) else .error ⟨token⟩
  | none => .error ⟨token⟩

theorem readNumber_eq_ok_iff {token : String} {w : UInt64} :
    readNumber token = .ok w ↔ numeral? token.toList = some w.toNat := by
  rw [readNumber]
  cases h : numeral? token.toList with
  | none => simp
  | some n =>
    by_cases hn : n < UInt64.size
    · simp only [hn, if_true, Except.ok.injEq, Option.some.injEq, ← UInt64.toNat_inj,
        UInt64.toNat_ofNat', Nat.mod_eq_of_lt hn]
    · have := w.toNat_lt_size
      simp only [hn, if_false, reduceCtorEq, Option.some.injEq, false_iff]
      omega

/-- A refusal carries the token as it was typed. -/
theorem token_of_readNumber_eq_error {token : String} {e : NotANumber}
    (h : readNumber token = .error e) : e.token = token := by
  rw [readNumber] at h
  split at h
  · split at h
    · cases h
    · cases h; rfl
  · cases h; rfl

theorem digitsFrom?_append {radix n : Nat} {cs ds : List Char} :
    digitsFrom? radix n (cs ++ ds) =
      (digitsFrom? radix n cs).bind fun m => digitsFrom? radix m ds := by
  induction cs generalizing n with
  | nil => rfl
  | cons c cs ih =>
    cases h : digit? radix c with
    | none => simp [digitsFrom?, h]
    | some d => simp [digitsFrom?, h, ih]

/-- Leading zeros do not change a value. -/
theorem digitsFrom?_replicate_zero {radix k : Nat} (h : 0 < radix) {cs : List Char} :
    digitsFrom? radix 0 (List.replicate k '0' ++ cs) = digitsFrom? radix 0 cs := by
  have hz : digit? radix '0' = some 0 := by simp [digit?, Option.filter, h]
  induction k with
  | zero => rfl
  | succ k ih => simp [List.replicate_succ, digitsFrom?, hz, ih]

end DebugMonitor.Text
