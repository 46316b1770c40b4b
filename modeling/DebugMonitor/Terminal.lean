/-!
# The operator's terminal

The terminal shows text character by character, and it may stop taking any: a limit counts the
characters that are still accepted, and the write that finds none left fails, its remaining
characters lost. After such a failure the limit stays at zero, or is lifted if it was set for
`once`; then the next of the `later` limits comes into force, so a terminal may fail any number of
times, at any characters. Writing nothing always succeeds. The prompts shown are kept apart from the
text.

`write_append` says that a text may be written in pieces or at once, as long as writing stops at the
first failure.
-/

namespace DebugMonitor

/-- How many characters a terminal still takes, and whether one failure lifts the limit. -/
structure Terminal.Limit where
  left : Nat
  once : Bool
deriving DecidableEq, Repr

structure Terminal where
  shown : String := ""
  prompts : Array String := #[]
  limit : Option Terminal.Limit := none
  /-- The limits that come into force one after another, each when the one before is lifted. -/
  later : List Terminal.Limit := []
deriving DecidableEq, Repr

namespace Terminal

/-- Shows a text as far as the limit allows, and tells whether all of it was shown. -/
def write (t : Terminal) (text : String) : Bool × Terminal :=
  match t.limit with
  | none => (true, { t with shown := t.shown ++ text })
  | some limit =>
    if text.length ≤ limit.left then
      (true, { t with
        shown := t.shown ++ text
        limit := some { limit with left := limit.left - text.length } })
    else
      let t := { t with shown := t.shown ++ String.ofList (text.toList.take limit.left) }
      (false, if limit.once then { t with limit := t.later.head?, later := t.later.tail }
        else { t with limit := some { limit with left := 0 } })

/-- Shows a prompt. -/
def ask (t : Terminal) (prompt : String) : Terminal :=
  { t with prompts := t.prompts.push prompt }

@[simp] theorem write_of_limit_eq_none {t : Terminal} {text : String} (h : t.limit = none) :
    t.write text = (true, { t with shown := t.shown ++ text }) := by
  simp [write, h]

/-- Writing a text is writing its first part and, if that succeeds, its second part. -/
theorem write_append (t : Terminal) (a b : String) :
    t.write (a ++ b) = if (t.write a).1 then (t.write a).2.write b else t.write a := by
  obtain ⟨shown, prompts, limit, later⟩ := t
  cases limit with
  | none => simp [write, String.append_assoc]
  | some limit =>
    obtain ⟨left, once⟩ := limit
    by_cases ha : a.length ≤ left
    · by_cases hb : b.length ≤ left - a.length
      · have hab : a.length + b.length ≤ left := by omega
        simp [write, ha, hb, hab, String.append_assoc, Nat.sub_sub]
      · have hab : ¬ a.length + b.length ≤ left := by omega
        have htake : (a.toList ++ b.toList).take left = a.toList ++ b.toList.take (left - a.length) := by
          rw [List.take_append, List.take_of_length_le (by rwa [String.length_toList]),
            String.length_toList]
        simp [write, ha, hb, hab, htake, String.append_assoc]
    · have hab : ¬ a.length + b.length ≤ left := by omega
      have htake : (a.toList ++ b.toList).take left = a.toList.take left := by
        rw [List.take_append_of_le_length (by rw [String.length_toList]; omega)]
      simp [write, ha, hab, htake]

end Terminal

end DebugMonitor
