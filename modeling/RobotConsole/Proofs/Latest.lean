import Mathlib.Data.List.DropRight

/-!
The last items of a list.  Histories and buffers keep as many of them as they have room for.
-/

namespace RobotConsole

variable {α : Type}

theorem length_rtake (items : List α) (n : Nat) : (items.rtake n).length = min n items.length := by
  rw [List.rtake, List.length_drop]
  omega

theorem getLast?_rtake {n : Nat} (hn : 0 < n) (items : List α) :
    (items.rtake n).getLast? = items.getLast? := by
  rw [List.rtake, List.getLast?_drop]
  split
  · next hle =>
    have hnil : items = [] := List.length_eq_zero_iff.1 (by omega)
    rw [hnil, List.getLast?_nil]
  · rfl

theorem rtake_append_of_lt {n : Nat} {items : List α} (h : items.length < n) (item : α) :
    (items ++ [item]).rtake n = items ++ [item] := by
  rw [List.rtake, List.length_append, List.length_singleton,
    Nat.sub_eq_zero_of_le (Nat.succ_le_of_lt h), List.drop_zero]

/-- Where there is no room, the oldest item goes. -/
theorem rtake_append_of_full {n : Nat} (hn : 0 < n) {items : List α} (h : items.length = n)
    (item : α) : (items ++ [item]).rtake n = items.tail ++ [item] := by
  have hne : items ≠ [] := List.ne_nil_of_length_pos (by omega)
  rw [List.rtake, List.length_append, List.length_singleton, h, Nat.add_sub_cancel_left,
    List.drop_one, List.tail_append_of_ne_nil hne]

/-- An item that had no room before has none afterwards. -/
theorem rtake_append_rtake (items : List α) (item : α) (n : Nat) :
    (items.rtake n ++ [item]).rtake n = (items ++ [item]).rtake n := by
  cases n with
  | zero => simp [List.rtake]
  | succ n =>
    have hrtake : (items.rtake (n + 1)).rtake n = items.rtake n := by
      simp only [List.rtake, List.drop_drop, List.length_drop]
      congr 1
      omega
    rw [List.rtake_concat_succ, List.rtake_concat_succ, hrtake]

end RobotConsole
