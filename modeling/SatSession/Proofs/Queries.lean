import SatSession.Proofs.Safety

set_option autoImplicit false

namespace SatSession

open Replay

def Operation.IsQuery : Operation → Prop
  | .failedAssumption _ | .failedAssumptions | .satisfiableSubset false | .report _ _
  | .varCount | .clauseCount | .lastStatus | .elapsedIsZero => True
  | _ => False

namespace Session

variable {α : Type} {S : Cnf.Solver} {limit : Nat} {s t : Session Replay.State}

-- The same clauses and assumptions; but an engine may have learned that it is inconsistent.
structure Untouched (s t : Session Replay.State) : Prop where
  formula : t.engine.formula = s.engine.formula
  assumptions : t.engine.assumptions = s.engine.assumptions
  released : t.released = s.released
  inconsistent : s.engine.inconsistent = true → t.engine.inconsistent = true

theorem Untouched.refl (s : Session Replay.State) : Untouched s s := ⟨rfl, rfl, rfl, id⟩

theorem Untouched.unlocked (untouched : Untouched s t) (p : Bool) (n : Nat) :
    Untouched s { t with poisoned := p, timedCalls := n } :=
  ⟨untouched.formula, untouched.assumptions, untouched.released, untouched.inconsistent⟩

theorem Untouched.exclusive {x : Op Replay.State α} (untouched : Untouched s (x s).2)
    (timed : Bool) : Untouched s (exclusive timed x s).2 := by
  cases poisoned : s.poisoned
  · obtain ⟨n, same⟩ := exclusive_sound poisoned timed x
    rw [same]
    exact untouched.unlocked _ n
  · rw [exclusive_poisoned poisoned]
    exact Untouched.refl s

theorem Untouched.shared {x : Op Replay.State α} (untouched : Untouched s (x s).2) :
    Untouched s (shared x s).2 := by
  unfold Session.shared
  split
  · exact Untouched.refl s
  · exact untouched

theorem untouched_query {f : Op Replay.State α} (held : s.released = false)
    (answers : ∃ a, f s = (.ok a, s)) : Untouched s ((ready >>= fun _ => f) s).2 := by
  obtain ⟨a, answer⟩ := answers
  rw [Step.bind_ok (ready_held held), answer]
  exact Untouched.refl s

theorem untouched_runSubset (sound : Sound S limit s) (held : s.released = false) :
    Untouched s (runSubset (Replay.engine S) false s).2 := by
  cases consistent : s.engine.inconsistent with
  | true =>
    rw [runSubset_inconsistent S held consistent]
    exact Untouched.refl s
  | false =>
    rcases runSubset_cases S sound.engine.toFit held consistent false with
      ⟨_, run⟩ | ⟨failed, messages, _, run⟩ | ⟨model, subset, messages, _, _, run⟩
    · rw [run]
      exact ⟨rfl, rfl, rfl, id⟩
    · rw [run]
      exact ⟨rfl, rfl, rfl, fun _ => rfl⟩
    · rw [run]
      exact ⟨rfl, rfl, rfl, id⟩

theorem untouched_writeReport (sound : Sound S limit s) (k : ReportKind) (d : Destination) :
    Untouched s (writeReport (Replay.engine S) k d s).2 := by
  obtain ⟨messages, left⟩ := produce_leaves sound k
  have produced : Untouched s (produce (Replay.engine S) k s).2 := by
    rw [left]
    exact ⟨rfl, rfl, rfl, id⟩
  cases poisoned : s.poisoned
  · obtain ⟨n, same⟩ := writeReport_sound poisoned (Replay.engine S) k d
    rw [same]
    exact produced.unlocked _ n
  · rw [writeReport_poisoned poisoned]
    exact Untouched.refl s

end Session

namespace Client

open Session

variable {S : Cnf.Solver} {limit : Nat} {c : Client Replay.State}

theorem perform_query (sound : Sound S limit c.session) (held : c.session.released = false)
    {o : Operation} (query : o.IsQuery) :
    Untouched c.session (c.perform (Replay.engine S) o).2.session := by
  cases o with
  | failedAssumption l =>
    have asked := untouched_query held (failedAssumption_known sound l)
    exact answer_session c _ _ ▸ asked.shared
  | failedAssumptions =>
    obtain ⟨failed, known⟩ := runFailedAssumptions_known sound held
    have asked : Untouched c.session (runFailedAssumptions (Replay.engine S) c.session).2 := by
      rw [known]
      exact Untouched.refl _
    exact answer_session c _ _ ▸ asked.exclusive false
  | satisfiableSubset next =>
    cases next with
    | true => exact query.elim
    | false => exact answer_session c _ _ ▸ (untouched_runSubset sound held).exclusive false
  | report k d =>
    exact report_session _ c k d ▸ untouched_writeReport sound k d
  | varCount =>
    have asked := untouched_query (f := call (Replay.engine S).varCount) held ⟨_, rfl⟩
    exact answer_session c _ _ ▸ asked.shared
  | clauseCount =>
    have asked := untouched_query (f := call (Replay.engine S).clauseCount) held ⟨_, rfl⟩
    exact answer_session c _ _ ▸ asked.shared
  | lastStatus =>
    have known : (do pure (← Step.get).state.status : Op Replay.State (Option Status)) c.session =
      (.ok c.session.state.status, c.session) := rfl
    exact answer_session c _ _ ▸ (untouched_query held ⟨_, known⟩).shared
  | elapsedIsZero =>
    have known : (do pure ((← Step.get).timedCalls == 0) : Op Replay.State Bool) c.session =
      (.ok (c.session.timedCalls == 0), c.session) := rfl
    exact answer_session c _ _ ▸ (untouched_query held ⟨_, known⟩).shared
  | _ => exact query.elim

end Client

end SatSession
