import RobotConsole.Proofs.Session.Reading

/-!
What the failures of sends change in a session: at each attempt the confirmation or the message of
the failure, and nothing else.
-/

namespace RobotConsole

/-- A notice without what it says of whether a send arrived. -/
def Notice.aside : Notice → Option Notice
  | .sent _ => none
  | .notSent _ => none
  | n => some n

def Surroundings.failing (s : Surroundings) (f : (line : Nat) → Primitive → Option SendFailure) :
    Surroundings := { s with sendFailure := f }

namespace Session

/-- Two transcripts that differ at most in what they say of whether sends arrived. -/
structure Alike (t t' : Transcript) : Prop where
  attempts : t'.attempts = t.attempts
  ending : t'.ending = t.ending
  notices : t'.notices.map Notice.aside = t.notices.map Notice.aside

theorem Alike.refl (t : Transcript) : Alike t t := ⟨rfl, rfl, rfl⟩

variable {s : Surroundings} (f : (line : Nat) → Primitive → Option SendFailure)

structure AlikeResponses (r r' : Response) : Prop where
  attempt : r'.attempt = r.attempt
  next : r'.next = r.next
  notices : r'.notices.map Notice.aside = r.notices.map Notice.aside

theorem Alike.after {t t' : Transcript} {r r' : Response} (h : Alike t t')
    (hr : AlikeResponses r r') : Alike (t.after r) (t'.after r') where
  attempts := by rw [Transcript.after, Transcript.after, hr.attempt, h.attempts]
  ending := h.ending
  notices := by
    simp only [Transcript.after, List.map_append, List.map_cons, hr.notices, h.notices]

theorem respond_failing (taken : Nat) (text : String) :
    AlikeResponses (respond s taken text) (respond (s.failing f) taken text) := by
  rw [respond_eq, respond_eq]
  cases Deed.ofLine text with
  | attempt p message =>
    refine ⟨rfl, rfl, ?_⟩
    simp only [Deed.response, send]
    cases (s.failing f).sendFailure taken p <;> cases s.sendFailure taken p <;> rfl
  | tables d n => cases d <;> exact ⟨rfl, rfl, rfl⟩
  | watch d => cases d <;> exact ⟨rfl, rfl, rfl⟩
  | _ => exact ⟨rfl, rfl, rfl⟩

theorem alike_runFrom (taken : Nat) (lines : List String) :
    Alike (runFrom s taken lines) (runFrom (s.failing f) taken lines) := by
  fun_induction runFrom s taken lines with
  | case1 => exact Alike.refl _
  | case2 taken text rest r hnext =>
    have hr := respond_failing (s := s) f taken text
    rw [runFrom_breaksOff rest (hr.next.trans hnext)]
    exact (Alike.refl _).after hr
  | case3 taken text r rest hnext =>
    have hr := respond_failing (s := s) f taken text
    rw [runFrom_leave rest (hr.next.trans hnext)]
    exact (Alike.refl _).after hr
  | case4 taken text r rest hnext ih =>
    have hr := respond_failing (s := s) f taken text
    rw [runFrom_nextLine rest (hr.next.trans hnext)]
    exact ih.after hr
  | case5 taken text r hnext =>
    have hr := respond_failing (s := s) f taken text
    rw [runFrom_skipLine_nil (hr.next.trans hnext)]
    exact (Alike.refl _).after hr
  | case6 taken text r swallowed rest hnext ih =>
    have hr := respond_failing (s := s) f taken text
    rw [runFrom_skipLine_cons swallowed rest (hr.next.trans hnext)]
    exact ih.after hr

/-- Whether sends arrive changes nothing in a session but what it says of that. -/
theorem alike_run (s : Surroundings) (f : (line : Nat) → Primitive → Option SendFailure)
    (lines : List String) : Alike (run s lines) (run (s.failing f) lines) := by
  have h := alike_runFrom (s := s) f 0 lines
  refine ⟨h.attempts, h.ending, ?_⟩
  simp only [run, List.map_cons, h.notices]

end Session
end RobotConsole
