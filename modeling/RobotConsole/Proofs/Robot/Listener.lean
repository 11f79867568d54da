import RobotConsole.Robot.Listener

/-!
What a listener delivers.  All datagrams are received into one buffer.  Past the end of a shorter
datagram it still holds what earlier ones left there, but it keeps its length, and only the octets that
were received last are decoded.  So each datagram is decoded as if it had come alone.
-/

namespace RobotConsole.Listener

variable {α : Type} {decode : List UInt8 → Option α} {buffer datagram : List UInt8}

def blank : List UInt8 := List.replicate bufferSize 0

def filled (buffer : List UInt8) (datagrams : List (List UInt8)) : List UInt8 :=
  datagrams.foldl (fun buffer d => (receive buffer d).1) buffer

/-- What is decoded of a datagram that is received into a buffer. -/
def received (buffer datagram : List UInt8) : List UInt8 :=
  (receive buffer datagram).1.take (receive buffer datagram).2

theorem length_receive (buffer datagram : List UInt8) :
    (receive buffer datagram).1.length = buffer.length := by
  rw [receive, List.length_append, List.length_take, List.length_drop]
  omega

theorem length_filled (buffer : List UInt8) (datagrams : List (List UInt8)) :
    (filled buffer datagrams).length = buffer.length := by
  induction datagrams generalizing buffer with
  | nil => rfl
  | cons d ds ih => rw [filled, List.foldl_cons, ← filled, ih, length_receive]

/-- Whatever the buffer held, a datagram is decoded up to the buffer's length and no further. -/
theorem received_eq_take (buffer datagram : List UInt8) :
    received buffer datagram = datagram.take buffer.length := by
  have hlength : (datagram.take buffer.length).length = min datagram.length buffer.length := by
    rw [List.length_take, Nat.min_comm]
  rw [received, receive, ← hlength, List.take_left]

theorem received_eq (h : datagram.length ≤ buffer.length) : received buffer datagram = datagram := by
  rw [received_eq_take, List.take_of_length_le h]

theorem listen_cons (buffer d : List UInt8) (ds : List (List UInt8)) :
    listen decode buffer (d :: ds) =
      (decode (received buffer d)).toList ++ listen decode (receive buffer d).1 ds := by
  simp only [listen, received]
  split
  · next hdecode => rw [hdecode, Option.toList_some, List.singleton_append]
  · next hdecode => rw [hdecode, Option.toList_none, List.nil_append]

/-- From any buffer that holds the longest of them, datagrams are decoded one by one. -/
theorem listen_eq_filterMap {datagrams : List (List UInt8)}
    (h : ∀ d ∈ datagrams, d.length ≤ buffer.length) :
    listen decode buffer datagrams = datagrams.filterMap decode := by
  induction datagrams generalizing buffer with
  | nil => rfl
  | cons d ds ih =>
    obtain ⟨hd, hds⟩ := List.forall_mem_cons.1 h
    have hrest : listen decode (receive buffer d).1 ds = ds.filterMap decode :=
      ih fun d' hd' => length_receive buffer d ▸ hds d' hd'
    rw [listen_cons, received_eq hd, hrest, List.filterMap_cons]
    cases decode d <;> rfl

theorem length_filled_blank (datagrams : List (List UInt8)) :
    (filled blank datagrams).length = bufferSize := by
  rw [length_filled, blank, List.length_replicate]

/-- What is delivered are the messages of the datagrams that decode, each by itself.  No datagram sees
anything of those before it, those that follow are decoded as by a new listener, and one that does not
decode might as well not have come. -/
theorem delivers_each_alone {datagrams : List (List UInt8)}
    (h : ∀ d ∈ datagrams, d.length ≤ bufferSize) :
    deliver none decode datagrams = .ok (datagrams.filterMap decode) ∧
    ∀ before d after, datagrams = before ++ d :: after →
      received (filled blank before) d = d ∧
      listen decode (filled blank (before ++ [d])) after = listen decode blank after ∧
      (decode d = none →
        deliver none decode datagrams = deliver none decode (before ++ after)) := by
  have halone : ∀ ds : List (List UInt8), (∀ d ∈ ds, d.length ≤ bufferSize) → ∀ before,
      listen decode (filled blank before) ds = ds.filterMap decode := by
    intro ds hds before
    refine listen_eq_filterMap fun d hd => ?_
    rw [length_filled_blank]
    exact hds d hd
  have hdeliver : ∀ ds : List (List UInt8), (∀ d ∈ ds, d.length ≤ bufferSize) →
      deliver none decode ds = .ok (ds.filterMap decode) := fun ds hds =>
    congrArg Except.ok (halone ds hds [])
  refine ⟨hdeliver datagrams h, ?_⟩
  rintro before d after rfl
  obtain ⟨hbefore, hd, hafter⟩ : (∀ d ∈ before, d.length ≤ bufferSize) ∧ d.length ≤ bufferSize ∧
      ∀ d ∈ after, d.length ≤ bufferSize := by
    simpa only [List.forall_mem_append, List.forall_mem_cons] using h
  refine ⟨received_eq ?_, ?_, fun hnone => ?_⟩
  · rwa [length_filled_blank]
  · rw [halone after hafter, ← halone after hafter []]
    rfl
  · rw [hdeliver _ h, hdeliver _ (List.forall_mem_append.2 ⟨hbefore, hafter⟩), List.filterMap_append,
      List.filterMap_append, List.filterMap_cons, hnone]

/-- The second datagram breaks off where the first one left the end of a status in the buffer, and the
third is empty. -/
theorem delivers_each_alone_of_cut_off :
    let text (s : String) : List UInt8 := Json.toOctets s.toList
    deliver none RobotStatus.decode?
        [text "[7, 1, 2, 24, 0.5, 3, true]  ", text "[8, 1, 2, 24, 0.5, 3, tr", [],
          text "[9,4,2,24,0.5,3,false]"] =
      .ok [⟨7, 1, 2, 24, 0.5, 3, true⟩, ⟨9, 4, 2, 24, 0.5, 3, false⟩] := by
  intro text
  rw [(delivers_each_alone (by decide +kernel)).1]
  exact congrArg Except.ok (by decide +kernel)

end RobotConsole.Listener
