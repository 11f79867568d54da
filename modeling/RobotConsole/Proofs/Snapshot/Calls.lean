import RobotConsole.Proofs.Latest
import RobotConsole.Proofs.Snapshot.Newest

/-!
Calls that run one after another, on a buffer that memory has room for.  A publish call leaves the
last values that have room, and a read hands out the last of those that wait.
-/

namespace RobotConsole.SnapshotBuffer

variable {α : Type}

theorem new?_eq_some_iff {capacity place : Nat} {b : SnapshotBuffer α} :
    new? capacity place = some b ↔ max capacity 1 * place ≤ Memory.limit ∧ empty capacity = b := by
  simp [new?, fits, Memory.fits]

theorem isSome_new?_iff {capacity place : Nat} :
    (new? capacity place : Option (SnapshotBuffer α)).isSome ↔
      max capacity 1 * place ≤ Memory.limit := by
  simp [Option.isSome_iff_exists, new?_eq_some_iff]

/-- Of the values that wait and the new one, as many of the last as there is room for. -/
theorem publish_eq {b : SnapshotBuffer α} (h : b.queue.length ≤ b.capacity) (value : α) :
    b.publish value = { b with queue := (b.queue ++ [value]).rtake b.capacity } := by
  rcases Nat.lt_or_eq_of_le h with hlt | hfull
  · rw [publish, publishWithin_of_lt hlt, rtake_append_of_lt hlt]
  · rw [publish_of_full hfull, rtake_append_of_full b.capacity_pos hfull]

theorem length_publish_le {b : SnapshotBuffer α} (h : b.queue.length ≤ b.capacity) (value : α) :
    (b.publish value).queue.length ≤ (b.publish value).capacity := by
  rw [publish_eq h]
  exact (length_rtake _ _).trans_le (Nat.min_le_left _ _)

/-- The value published last is never the one to make room. -/
theorem getLast?_publish {b : SnapshotBuffer α} (h : b.queue.length ≤ b.capacity) (value : α) :
    (b.publish value).queue.getLast? = some value := by
  rw [publish_eq h]
  exact (getLast?_rtake b.capacity_pos _).trans List.getLast?_concat

theorem latest_eq (b : SnapshotBuffer α) :
    b.latest = (b.queue.getLast?, { b with queue := [] }) := by
  rw [latest, drain_eq_getLast?, Option.toList_none, List.nil_append]

end RobotConsole.SnapshotBuffer
