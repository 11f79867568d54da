import RobotConsole.Proofs.Latest
import RobotConsole.Trail.History

/-!
A history of capacity `n` holds the last `n` of the items pushed to it.  `holding n pushed` is that
history, and pushing to it is appending to `pushed`.  So after any pushes and clears a history that
memory has room for holds the last of the items pushed since the last clear.
-/

namespace RobotConsole.History

variable {α : Type}

/-- The history of capacity `n` after these items. -/
def holding (n : Nat) (pushed : List α) : History α := ⟨pushed.rtake n, n⟩

theorem rtake_min_length (n : Nat) (items : List α) :
    items.rtake (min n items.length) = items.rtake n := by
  simp only [List.rtake]
  congr 1
  omega

theorem new_eq_holding (n : Nat) : (new n : History α) = holding (max n 1) [] := by
  simp [new, holding]

/-- The test for a full history asks for equality; it serves while there are no more items than the
capacity allows. -/
theorem push_eq {h : History α} (hpos : 0 < h.capacity) (hroom : h.items.length ≤ h.capacity)
    (item : α) : h.push item = { h with items := (h.items ++ [item]).rtake h.capacity } := by
  rw [push]
  rcases Nat.lt_or_eq_of_le hroom with hlt | hfull
  · rw [if_neg hlt.ne, rtake_append_of_lt hlt]
  · rw [if_pos hfull, rtake_append_of_full hpos hfull]

theorem length_push {h : History α} (hroom : h.items.length ≤ h.capacity) (hone : 1 ≤ h.capacity)
    (item : α) : (h.push item).items.length = min (h.items.length + 1) h.capacity := by
  rw [push_eq hone hroom, length_rtake, List.length_append, List.length_singleton, Nat.min_comm]

theorem push_holding {n : Nat} (hn : 0 < n) (pushed : List α) (item : α) :
    (holding n pushed).push item = holding n (pushed ++ [item]) := by
  have hroom : (holding n pushed).items.length ≤ n :=
    (length_rtake pushed n).trans_le (Nat.min_le_left _ _)
  rw [push_eq hn hroom]
  simp only [holding, rtake_append_rtake]

theorem clear_holding (n : Nat) (pushed : List α) : (holding n pushed).clear = holding n [] := by
  rw [clear, holding, holding, List.rtake_nil]

inductive Call (α : Type) where
  | push (item : α)
  | clear

def Call.item? : Call α → Option α
  | .push item => some item
  | .clear => none

/-- The items pushed since the last clear, oldest first. -/
def sinceClear (calls : List (Call α)) : List α :=
  (calls.rtakeWhile fun c => c.item?.isSome).filterMap Call.item?

def act (h : History α) : Call α → History α
  | .push item => h.push item
  | .clear => h.clear

/-- A new history after these calls; `none` where memory has no room for it. -/
def run (octets n : Nat) (calls : List (Call α)) : Option (History α) :=
  if fits n octets then some (calls.foldl act (new n)) else none

/-- What a history of capacity `n` has to show for these calls. -/
structure Retains (n : Nat) (calls : List (Call α)) (h : History α) : Prop where
  capacity : h.capacity = max n 1
  /-- No push needs more room than was set aside at first. -/
  bound : h.size ≤ max n 1
  items : h.items = (sinceClear calls).rtake (min (max n 1) (sinceClear calls).length)
  newest : h.newest? = (sinceClear calls).getLast?
  noNewest : h.newest? = none ↔ (sinceClear calls).length = 0
  empty : h.isEmpty = true ↔ (sinceClear calls).length = 0

theorem sinceClear_push (calls : List (Call α)) (item : α) :
    sinceClear (calls ++ [.push item]) = sinceClear calls ++ [item] := by
  rw [sinceClear, List.rtakeWhile_concat_pos _ _ _ rfl, List.filterMap_append]
  rfl

theorem sinceClear_clear (calls : List (Call α)) : sinceClear (calls ++ [.clear]) = [] := by
  rw [sinceClear, List.rtakeWhile_concat_neg _ _ _ Bool.false_ne_true]
  rfl

theorem act_holding {n : Nat} (hn : 0 < n) (calls : List (Call α)) (c : Call α) :
    act (holding n (sinceClear calls)) c = holding n (sinceClear (calls ++ [c])) := by
  cases c with
  | push item =>
    rw [sinceClear_push]
    exact push_holding hn (sinceClear calls) item
  | clear =>
    rw [sinceClear_clear]
    exact clear_holding n (sinceClear calls)

theorem foldl_act_new (n : Nat) (calls : List (Call α)) :
    calls.foldl act (new n) = holding (max n 1) (sinceClear calls) := by
  induction calls using List.reverseRecOn with
  | nil => exact new_eq_holding n
  | append_singleton calls c ih =>
    rw [List.foldl_append, ih]
    exact act_holding (by omega) calls c

theorem retains_holding (n : Nat) (calls : List (Call α)) :
    Retains n calls (holding (max n 1) (sinceClear calls)) := by
  have hpos : 0 < max n 1 := by omega
  have hlength : (holding (max n 1) (sinceClear calls)).items.length =
      min (max n 1) (sinceClear calls).length := length_rtake _ _
  have hnewest : (holding (max n 1) (sinceClear calls)).newest? = (sinceClear calls).getLast? :=
    getLast?_rtake hpos _
  exact {
    capacity := rfl
    bound := by rw [size, hlength]; exact Nat.min_le_left _ _
    items := (rtake_min_length _ _).symm
    newest := hnewest
    noNewest := by rw [hnewest, List.getLast?_eq_none_iff, List.length_eq_zero_iff]
    empty := by rw [isEmpty, List.isEmpty_iff_length_eq_zero, hlength]; omega }

/-- A history is made exactly where its items have room in memory.  Whatever is pushed to it, and
whenever it is cleared, it then holds the last of the items pushed since the last clear, as many as
its capacity, and its capacity stays as it is. -/
theorem retains_of_run (octets n : Nat) (calls : List (Call α)) :
    ((run octets n calls).isSome ↔ max n 1 * octets ≤ Memory.limit) ∧
    ∀ h, run octets n calls = some h → Retains n calls h := by
  constructor
  · rw [run, fits, Memory.fits]
    split
    · next hroom => exact iff_of_true rfl (of_decide_eq_true hroom)
    · next hroom => exact iff_of_false Bool.false_ne_true (mt decide_eq_true hroom)
  · intro h hrun
    obtain ⟨-, hmade⟩ := Option.ite_none_right_eq_some.1 hrun
    rw [← Option.some.inj hmade, foldl_act_new]
    exact retains_holding n calls

/-- What came before the clear is gone, and the history is full afterwards as before. -/
theorem retains_of_run_of_cleared :
    let calls : List (Call Nat) := [.push 1, .push 2, .push 3, .clear, .push 4, .push 5, .push 6]
    run 8 2 calls = some ⟨[5, 6], 2⟩ ∧ Retains 2 calls ⟨[5, 6], 2⟩ := by
  intro calls
  have hrun : run 8 2 calls = some ⟨[5, 6], 2⟩ := by decide
  exact ⟨hrun, (retains_of_run 8 2 calls).2 _ hrun⟩

/-- A history that memory has no room for is not made. -/
theorem creation_breaks_off_beyond_memory :
    ¬ ∀ (octets n : Nat) (calls : List (Call Nat)),
      ∃ h, run octets n calls = some h ∧ Retains n calls h := by
  intro h
  obtain ⟨made, hrun, -⟩ := h 8 (2 ^ 60) [.push 1]
  have hnone : run 8 (2 ^ 60) [(.push 1 : Call Nat)] = none := by decide
  rw [hnone] at hrun
  cases hrun

end RobotConsole.History
