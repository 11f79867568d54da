import Mathlib.Data.List.Basic
import Mathlib.Logic.Function.Iterate
import RobotConsole.Proofs.Trail.Ends

/-!
Sets of graphics that are resized again and again, while observers replace one another.  The log of the
calls says what a set holds: each graphic was built by the latest resize that grew the set past its
place, and whatever the set did in between has left it there.  A resize takes from its supply what is
missing and no more, and tells the observer of that moment, once the set has its new size.
-/

namespace RobotConsole.GraphicsSet

variable {γ ω σ : Type}

def Resized.built (r : Resized γ ω σ) : List (Nat × γ) :=
  r.events.filterMap fun
    | .built index graphic => some (index, graphic)
    | _ => none

inductive Call (γ ω σ : Type) where
  | resize (target : Nat) (supply : Supply σ γ)
  | observe (observer : ω)

namespace Call

def outcome (s : GraphicsSet γ ω) (state : σ) : Call γ ω σ → Resized γ ω σ
  | .resize target supply => s.resize target supply state
  | .observe observer => ⟨s.observe observer, state, []⟩

def target? : Call γ ω σ → Option Nat
  | .resize target _ => some target
  | .observe _ => none

/-- Whether there is room for what a call asks for; a graphic has so many octets. -/
def hasRoom (octets : Nat) (c : Call γ ω σ) : Bool := c.target?.all fun target => fits target octets

end Call

structure Entry (γ ω σ : Type) where
  call : Call γ ω σ
  before : σ
  outcome : Resized γ ω σ

/-- A set, the state that its supplies share, and the log of the calls, the latest first. -/
structure Course (γ ω σ : Type) where
  set : GraphicsSet γ ω
  state : σ
  log : List (Entry γ ω σ)

namespace Course

def start (state : σ) : Course γ ω σ := ⟨.empty, state, []⟩

/-- The course after a call; `none` where there is no room. -/
def act (octets : Nat) (p : Course γ ω σ) (c : Call γ ω σ) : Option (Course γ ω σ) :=
  let r := c.outcome p.set p.state
  if c.hasRoom octets then some ⟨r.set, r.state, ⟨c, p.state, r⟩ :: p.log⟩ else none

def run (octets : Nat) (p : Course γ ω σ) (calls : List (Call γ ω σ)) : Option (Course γ ω σ) :=
  calls.foldlM (act octets) p

theorem act_eq_some_iff {octets : Nat} {p q : Course γ ω σ} {c : Call γ ω σ} :
    p.act octets c = some q ↔ c.hasRoom octets = true ∧
      (⟨(c.outcome p.set p.state).set, (c.outcome p.set p.state).state,
        ⟨c, p.state, c.outcome p.set p.state⟩ :: p.log⟩ : Course γ ω σ) = q := by
  simp only [act, Option.ite_none_right_eq_some, Option.some.injEq]

end Course

def lastTarget : List (Entry γ ω σ) → Nat
  | [] => 0
  | ⟨.resize target _, _, _⟩ :: _ => target
  | ⟨.observe _, _, _⟩ :: older => lastTarget older

def registered : List (Entry γ ω σ) → Option ω
  | [] => none
  | ⟨.resize _ _, _, _⟩ :: older => registered older
  | ⟨.observe observer, _, _⟩ :: _ => some observer

/-- What the latest resize that built a graphic at an index built there. -/
def standing? (log : List (Entry γ ω σ)) (index : Nat) : Option γ :=
  log.findSome? fun e => e.outcome.built.lookup index

def stateAfter (start : σ) : List (Entry γ ω σ) → σ
  | [] => start
  | e :: _ => e.outcome.state

/-- The state of a supply after so many graphics. -/
def drawn (supply : Supply σ γ) (state : σ) (n : Nat) : σ := (fun state => (supply state).2)^[n] state

def nextGraphic (supply : Supply σ γ) (state : σ) (n : Nat) : γ := (supply (drawn supply state n)).1

structure Entry.Resizes (e : Entry γ ω σ) (older : List (Entry γ ω σ)) (target : Nat)
    (supply : Supply σ γ) : Prop where
  /-- The supply gives the graphics that are missing, in the order of their indices. -/
  built : e.outcome.built = (List.range (target - lastTarget older)).map fun k =>
    (lastTarget older + k, nextGraphic supply e.before k)
  /-- It is asked for no others. -/
  state : e.outcome.state = drawn supply e.before (target - lastTarget older)
  /-- The observer of that moment is told once, if the size is a new one, and nobody else is told. -/
  told : e.outcome.notified = if target = lastTarget older then [] else (registered older).toList
  /-- What is told is told after all changes. -/
  afterwards : ∃ changes, e.outcome.events = changes ++ e.outcome.notified.map .notified ∧
    ∀ observer, .notified observer ∉ changes

def Entry.Follows (e : Entry γ ω σ) (older : List (Entry γ ω σ)) : Prop :=
  match e.call with
  | .resize target supply => e.Resizes older target supply
  | .observe _ => e.outcome.events = [] ∧ e.outcome.state = e.before

structure Accounts (start : σ) (p : Course γ ω σ) : Prop where
  size : p.set.size = lastTarget p.log
  /-- Each graphic is what the latest resize that built one in its place has built. -/
  graphics : ∀ index, p.set.get? index =
    if index < lastTarget p.log then standing? p.log index else none
  observer : p.set.observer = registered p.log
  state : p.state = stateAfter start p.log
  entries : ∀ newer e older, p.log = newer ++ e :: older →
    e.before = stateAfter start older ∧ e.Follows older

section Resize

variable (s : GraphicsSet γ ω) (target : Nat) (supply : Supply σ γ) (state : σ)

theorem take_eq (n : Nat) : take supply n state =
    ((List.range n).map (nextGraphic supply state), drawn supply state n) := by
  induction n generalizing state with
  | zero => rfl
  | succ n ih =>
    simp only [take, ih, List.range_succ_eq_map, List.map_cons, List.map_map]
    rfl

theorem mapIdx_built (n : Nat) (f : Nat → γ) :
    (((List.range n).map f).mapIdx fun i graphic => ResizeEvent.built (s.size + i) graphic) =
      (List.range n).map fun k => (.built (s.size + k) (f k) : ResizeEvent γ ω) := by
  apply List.ext_getElem
  · simp only [List.length_mapIdx, List.length_map]
  · intro i _ _
    simp only [List.getElem_mapIdx, List.getElem_map, List.getElem_range]

theorem resize_of_lt (h : s.size < target) : s.resize target supply state =
    ⟨{ s with elements := s.elements ++
        (List.range (target - s.size)).map (nextGraphic supply state) },
      drawn supply state (target - s.size),
      ((List.range (target - s.size)).map fun k =>
        .built (s.size + k) (nextGraphic supply state k)) ++ s.observer.toList.map .notified⟩ := by
  rw [resize, if_neg h.ne', if_pos h, take_eq]
  simp only [mapIdx_built]

theorem resize_of_gt (h : target < s.size) : s.resize target supply state =
    ⟨{ s with elements := s.elements.take target }, state,
      .truncated target :: s.observer.toList.map .notified⟩ := by
  rw [resize, if_neg h.ne, if_neg h.asymm]

theorem resize_of_eq (h : target = s.size) : s.resize target supply state = ⟨s, state, []⟩ := by
  rw [resize, if_pos h]

theorem built_resize : (s.resize target supply state).built =
    (List.range (target - s.size)).map fun k => (s.size + k, nextGraphic supply state k) := by
  rcases Nat.lt_trichotomy s.size target with hgrows | hsame | hshrinks
  · rw [s.resize_of_lt target supply state hgrows, Resized.built, List.filterMap_append]
    simp [List.filterMap_map]
  · rw [s.resize_of_eq target supply state hsame.symm, hsame, Nat.sub_self]
    rfl
  · rw [s.resize_of_gt target supply state hshrinks, Nat.sub_eq_zero_of_le hshrinks.le, Resized.built,
      List.filterMap_cons]
    simp [List.filterMap_map]

theorem state_resize : (s.resize target supply state).state =
    drawn supply state (target - s.size) := by
  rcases Nat.lt_trichotomy s.size target with hgrows | hsame | hshrinks
  · rw [s.resize_of_lt target supply state hgrows]
  · rw [s.resize_of_eq target supply state hsame.symm, hsame, Nat.sub_self]
    rfl
  · rw [s.resize_of_gt target supply state hshrinks, Nat.sub_eq_zero_of_le hshrinks.le]
    rfl

theorem get?_resize (index : Nat) : (s.resize target supply state).set.get? index =
    if index < target then
      if index < s.size then s.get? index else some (nextGraphic supply state (index - s.size))
    else none := by
  rcases Nat.lt_trichotomy s.size target with hgrows | hsame | hshrinks
  · rw [s.resize_of_lt target supply state hgrows]
    unfold get? size at *
    rw [List.getElem?_append, List.getElem?_map]
    grind
  · rw [s.resize_of_eq target supply state hsame.symm]
    unfold get? size at *
    grind
  · rw [s.resize_of_gt target supply state hshrinks]
    unfold get? size at *
    grind

/-- Nothing changes once the observer is told. -/
theorem exists_changes_resize : ∃ changes, (s.resize target supply state).events =
    changes ++ (s.resize target supply state).notified.map .notified ∧
      ∀ observer, .notified observer ∉ changes := by
  rcases Nat.lt_trichotomy s.size target with hgrows | hsame | hshrinks
  · rw [notified_resize, if_neg hgrows.ne', s.resize_of_lt target supply state hgrows]
    refine ⟨_, rfl, fun observer hmem => ?_⟩
    simp at hmem
  · rw [notified_resize, if_pos hsame.symm, s.resize_of_eq target supply state hsame.symm]
    exact ⟨[], rfl, fun observer => List.not_mem_nil⟩
  · rw [notified_resize, if_neg hshrinks.ne, s.resize_of_gt target supply state hshrinks]
    refine ⟨[.truncated target], rfl, fun observer hmem => ?_⟩
    simp at hmem

end Resize

theorem lookup_range (f : Nat → γ) (first n index : Nat) :
    ((List.range n).map fun k => (first + k, f k)).lookup index =
      if first ≤ index ∧ index < first + n then some (f (index - first)) else none := by
  induction n with
  | zero =>
    rw [if_neg (by omega)]
    rfl
  | succ n ih =>
    rw [List.range_succ, List.map_append, List.lookup_append, ih]
    grind

/-- A graphic stands where the latest resize past its place built it. -/
theorem standing?_cons (e : Entry γ ω σ) (log : List (Entry γ ω σ)) (index : Nat) :
    standing? (e :: log) index = (e.outcome.built.lookup index).or (standing? log index) := by
  rw [standing?, List.findSome?_cons]
  cases e.outcome.built.lookup index <;> rfl

theorem accounts_start (start : σ) : Accounts start (.start start : Course γ ω σ) where
  size := rfl
  graphics _ := by simp [Course.start, empty, get?, lastTarget]
  observer := rfl
  state := rfl
  entries newer e older h := by simp [Course.start] at h

theorem follows_outcome {start : σ} {p : Course γ ω σ} (h : Accounts start p) (c : Call γ ω σ) :
    Entry.Follows ⟨c, p.state, c.outcome p.set p.state⟩ p.log := by
  cases c with
  | resize target supply =>
    exact {
      built := by rw [← h.size]; exact p.set.built_resize target supply p.state
      state := by rw [← h.size]; exact p.set.state_resize target supply p.state
      told := by rw [← h.size, ← h.observer]; exact p.set.notified_resize target supply p.state
      afterwards := p.set.exists_changes_resize target supply p.state }
  | observe observer => exact ⟨rfl, rfl⟩

theorem accounts_act {start : σ} {octets : Nat} {p q : Course γ ω σ} {c : Call γ ω σ}
    (h : Accounts start p) (hact : p.act octets c = some q) : Accounts start q := by
  obtain ⟨-, rfl⟩ := Course.act_eq_some_iff.1 hact
  have hentries : ∀ newer e older,
      ⟨c, p.state, c.outcome p.set p.state⟩ :: p.log = newer ++ e :: older →
        e.before = stateAfter start older ∧ e.Follows older := by
    intro newer e older hlog
    cases newer with
    | nil =>
      rw [List.nil_append, List.cons.injEq] at hlog
      obtain ⟨rfl, rfl⟩ := hlog
      exact ⟨h.state, follows_outcome h c⟩
    | cons _ newer =>
      rw [List.cons_append, List.cons.injEq] at hlog
      exact h.entries newer e older hlog.2
  cases c with
  | resize target supply =>
    exact {
      size := p.set.size_resize target supply p.state
      graphics := fun index => by
        have hsize : p.set.size + (target - p.set.size) = max p.set.size target := by omega
        have hbefore := h.graphics index
        rw [← h.size] at hbefore
        rw [standing?_cons]
        simp only [Call.outcome, lastTarget]
        rw [get?_resize, built_resize, lookup_range, hbefore, hsize]
        grind
      observer := (p.set.observer_resize target supply p.state).trans h.observer
      state := rfl
      entries := hentries }
  | observe observer =>
    exact {
      size := h.size
      graphics := h.graphics
      observer := rfl
      state := rfl
      entries := hentries }

theorem accounts_run {start : σ} {octets : Nat} {p q : Course γ ω σ} (h : Accounts start p)
    (calls : List (Call γ ω σ)) (hrun : p.run octets calls = some q) : Accounts start q := by
  induction calls generalizing p with
  | nil =>
    rw [← Option.some.inj hrun]
    exact h
  | cons c calls ih =>
    obtain ⟨middle, hact, hrest⟩ := Option.bind_eq_some_iff.1 hrun
    exact ih (accounts_act h hact) hrest

theorem calls_run {octets : Nat} {p q : Course γ ω σ} (calls : List (Call γ ω σ))
    (hrun : p.run octets calls = some q) :
    q.log.map Entry.call = calls.reverse ++ p.log.map Entry.call := by
  induction calls generalizing p with
  | nil =>
    rw [← Option.some.inj hrun]
    rfl
  | cons c calls ih =>
    obtain ⟨middle, hact, hrest⟩ := Option.bind_eq_some_iff.1 hrun
    rw [ih hrest, ← (Course.act_eq_some_iff.1 hact).2, List.map_cons, List.reverse_cons,
      List.append_assoc]
    rfl

theorem isSome_run_iff (octets : Nat) (p : Course γ ω σ) (calls : List (Call γ ω σ)) :
    (p.run octets calls).isSome ↔ ∀ c ∈ calls, c.hasRoom octets := by
  induction calls generalizing p with
  | nil => simp [Course.run]
  | cons c calls ih =>
    rw [List.forall_mem_cons, Course.run, List.foldlM_cons]
    by_cases hroom : c.hasRoom octets
    · rw [Course.act, if_pos hroom]
      exact (ih _).trans (and_iff_right hroom).symm
    · rw [Course.act, if_neg hroom]
      simp [hroom]

/-- A graphic below every size that is asked for stays as it is. -/
theorem get?_run {octets : Nat} {p q : Course γ ω σ} {index : Nat} (calls : List (Call γ ω σ))
    (hrun : p.run octets calls = some q) (hindex : index < p.set.size)
    (h : ∀ target ∈ calls.filterMap Call.target?, index < target) :
    q.set.get? index = p.set.get? index := by
  induction calls generalizing p with
  | nil => rw [← Option.some.inj hrun]
  | cons c calls ih =>
    obtain ⟨middle, hact, hrest⟩ := Option.bind_eq_some_iff.1 hrun
    obtain ⟨-, rfl⟩ := Course.act_eq_some_iff.1 hact
    cases c with
    | resize target supply =>
      simp only [List.filterMap_cons, Call.target?, List.forall_mem_cons] at h
      have hsize : index < (p.set.resize target supply p.state).set.size :=
        h.1.trans_eq (p.set.size_resize target supply p.state).symm
      rw [ih hrest hsize h.2]
      exact (p.set.get?_resize target supply p.state index).trans
        ((if_pos h.1).trans (if_pos hindex))
    | observe observer =>
      simp only [List.filterMap_cons, Call.target?] at h
      exact (ih hrest hindex h :)

/-- So it is for every sequence of calls that memory has room for. -/
theorem accounts_of_run (octets : Nat) (start : σ) (calls : List (Call γ ω σ)) :
    (((Course.start start).run octets calls).isSome ↔
      ∀ target ∈ calls.filterMap Call.target?, target * octets ≤ Memory.limit) ∧
    ∀ p : Course γ ω σ, (Course.start start).run octets calls = some p →
      p.log.map Entry.call = calls.reverse ∧ Accounts start p ∧
      ∀ later q, p.run octets later = some q → ∀ index < p.set.size,
        (∀ target ∈ later.filterMap Call.target?, index < target) →
        q.set.get? index = p.set.get? index := by
  constructor
  · rw [isSome_run_iff]
    simp only [List.mem_filterMap, Call.hasRoom, Option.all_eq_true, fits, Memory.fits,
      decide_eq_true_eq]
    constructor
    · rintro h target ⟨c, hc, htarget⟩
      exact h c hc target htarget
    · exact fun h c hc target htarget => h target ⟨c, hc, htarget⟩
  · intro p hrun
    have hcalls := (calls_run calls hrun).trans (List.append_nil _)
    exact ⟨hcalls, accounts_run (accounts_start start) calls hrun,
      fun later q hlater index hindex h => get?_run later hlater hindex h⟩

/-- What was cut off is built anew, and the observer that was replaced is not told. -/
example : ((Course.start 1).run 8 [.resize 2 fun n => (n, n + 1), .observe 'a',
      .resize 1 fun n => (n, n + 1), .observe 'b', .resize 3 fun n => (n, n + 1)]).map
      (fun p => (p.set.elements, p.log.map fun e => e.outcome.notified)) =
    some ([1, 3, 4], [['b'], [], ['a'], [], []]) := by decide

/-- A set that memory cannot hold: the resize breaks off. -/
theorem growth_breaks_off_beyond_memory :
    ¬ ∀ (octets : Nat) (calls : List (Call Nat Nat Nat)),
      ∃ p, (Course.start 1).run octets calls = some p ∧ p.set.size = lastTarget p.log := by
  intro h
  obtain ⟨p, hrun, -⟩ := h 8 [.resize (2 ^ 60) fun n => (n, n + 1)]
  have hnone := isSome_run_iff 8 (Course.start 1)
    [(.resize (2 ^ 60) fun n => (n, n + 1) : Call Nat Nat Nat)]
  rw [hrun] at hnone
  simp [Call.hasRoom, Call.target?, fits, Memory.fits, Memory.limit] at hnone

end RobotConsole.GraphicsSet
