import SatSession.Session

set_option autoImplicit false

namespace SatSession

inductive Operation where
  | addClauses (clauses : List (List Int))
  | addFormula (formula : Formula)
  | addClause (clause : Clause)
  | blockSolution (solution : Assignment)
  | solve
  -- One step of the iterator with this number; iterators start when first used.
  | advance (iterator : Nat)
  | assume (lit : Lit)
  | failedAssumption (lit : Lit)
  | failedAssumptions
  | satisfiableSubset (next : Bool)
  | report (kind : ReportKind) (destination : Destination)
  | varCount
  | clauseCount
  | lastStatus
  | elapsedIsZero
  | delete

inductive Reply where
  | done
  | solved (status : Status) (solution : Option Assignment)
  | item (solution : Option Assignment)
  | flag (value : Bool)
  | literals (lits : List Lit)
  | count (n : Nat)
  | status (last : Option Status)
deriving DecidableEq

structure Answer where
  result : Outcome Error Reply
  delivered : Bytes := []
deriving DecidableEq

structure Client (σ : Type) where
  session : Session σ
  ended : List Nat

namespace Client

variable {σ α : Type}

def withSession (c : Client σ) (s : Session σ) : Client σ := { c with session := s }

def answer (c : Client σ) (x : Session.Op σ α) (reply : α → Reply) : Answer × Client σ :=
  match x c.session with
  | (.ok a, s) => (⟨.ok (reply a), []⟩, c.withSession s)
  | (.error e, s) => (⟨.error e, []⟩, c.withSession s)
  | (.panic p, s) => (⟨.panic p, []⟩, c.withSession s)

def advance (E : Engine σ) (c : Client σ) (i : Nat) : Answer × Client σ :=
  if i ∈ c.ended then (⟨.ok (.item none), []⟩, c)
  else
    match Session.nextSolution E c.session with
    | (.ok (some a), s) => (⟨.ok (.item (some a)), []⟩, c.withSession s)
    | (.ok none, s) => (⟨.ok (.item none), []⟩, ⟨s, i :: c.ended⟩)
    | (.error e, s) => (⟨.error e, []⟩, ⟨s, i :: c.ended⟩)
    | (.panic p, s) => (⟨.panic p, []⟩, c.withSession s)

def perform (E : Engine σ) (c : Client σ) : Operation → Answer × Client σ
  | .addClauses cs => c.answer (Session.addClauses E cs) fun _ => .done
  | .addFormula f => c.answer (Session.addFormula E f) fun _ => .done
  | .addClause k => c.answer (Session.addClause E k) fun _ => .done
  | .blockSolution a => c.answer (Session.blockSolution E a) fun _ => .done
  | .solve => c.answer (Session.solve E) fun (st, a) => .solved st a
  | .advance i => c.advance E i
  | .assume l => c.answer (Session.assume E l) fun _ => .done
  | .failedAssumption l => c.answer (Session.failedAssumption E l) .flag
  | .failedAssumptions => c.answer (Session.failedAssumptions E) .literals
  | .satisfiableSubset next => c.answer (Session.satisfiableSubset E next) .literals
  | .report k d =>
      match Session.writeReport E k d c.session with
      | ((.ok _, d), s) => (⟨.ok .done, d.received⟩, c.withSession s)
      | ((.error e, d), s) => (⟨.error e, d.received⟩, c.withSession s)
      | ((.panic p, d), s) => (⟨.panic p, d.received⟩, c.withSession s)
  | .varCount => c.answer (Session.varCount E) .count
  | .clauseCount => c.answer (Session.clauseCount E) .count
  | .lastStatus => c.answer Session.lastStatus .status
  | .elapsedIsZero => c.answer Session.elapsedIsZero .flag
  | .delete => (⟨.ok (.flag (Session.delete E c.session).1), []⟩,
      c.withSession (Session.delete E c.session).2)

def run (E : Engine σ) (c : Client σ) : List Operation → List Answer × Client σ
  | [] => ([], c)
  | o :: os =>
      let (a, c) := c.perform E o
      let (as, c) := c.run E os
      (a :: as, c)

-- The answers to the operations on a session that is created for them, and the engine after them;
-- only an error if the engine refuses an option.
def history (E : Engine σ) (options : Config) (e : σ) (os : List Operation) :
    Outcome Error (List Answer) × σ :=
  match Session.create E options e with
  | (.ok s, _) => (.ok (run E ⟨s, []⟩ os).1, (run E ⟨s, []⟩ os).2.session.engine)
  | (.error x, e) => (.error x, e)
  | (.panic p, e) => (.panic p, e)

theorem answer_ok {c : Client σ} {x : Session.Op σ α} {a : α} {t : Session σ}
    (done : x c.session = (.ok a, t)) (reply : α → Reply) :
    c.answer x reply = (⟨.ok (reply a), []⟩, ⟨t, c.ended⟩) := by
  simp only [answer, done, withSession]

theorem answer_error {c : Client σ} {x : Session.Op σ α} {e : Error} {t : Session σ}
    (failed : x c.session = (.error e, t)) (reply : α → Reply) :
    c.answer x reply = (⟨.error e, []⟩, ⟨t, c.ended⟩) := by
  simp only [answer, failed, withSession]

theorem answered {c : Client σ} {x : Session.Op σ α} {reply : α → Reply} {r : Reply}
    (replied : (c.answer x reply).1.result = .ok r) :
    ∃ a, (x c.session).1 = .ok a ∧ reply a = r := by
  unfold answer at replied
  rcases result : x c.session with ⟨a | e | p, s⟩ <;> rw [result] at replied <;> cases replied
  exact ⟨a, rfl, rfl⟩

theorem answer_session (c : Client σ) (x : Session.Op σ α) (reply : α → Reply) :
    (c.answer x reply).2.session = (x c.session).2 := by
  unfold answer
  rcases x c.session with ⟨a | e | p, s⟩ <;> rfl

theorem advance_session (E : Engine σ) (c : Client σ) (i : Nat) :
    (c.advance E i).2.session =
      if i ∈ c.ended then c.session else (Session.nextSolution E c.session).2 := by
  unfold advance
  by_cases ended : i ∈ c.ended
  · simp only [if_pos ended]
  · simp only [if_neg ended]
    rcases Session.nextSolution E c.session with ⟨(a | a) | e | p, s⟩ <;> rfl

theorem report_session (E : Engine σ) (c : Client σ) (k : ReportKind) (d : Destination) :
    (c.perform E (.report k d)).2.session = (Session.writeReport E k d c.session).2 := by
  simp only [perform]
  rcases Session.writeReport E k d c.session with ⟨⟨a | e | p, d'⟩, s⟩ <;> rfl

theorem perform_report {E : Engine σ} {c : Client σ} {k : ReportKind} {d : Destination} {r : Report}
    {s : Session σ} (sound : c.session.poisoned = false)
    (produced : Session.produce E k c.session = (.ok r, s)) :
    (c.perform E (.report k d)).1 =
      match Transfer.redirect r d with
      | (.ok _, d) => ⟨.ok .done, d.received⟩
      | (.error e, d) => ⟨.error e, d.received⟩
      | (.panic p, d) => ⟨.panic p, d.received⟩ := by
  simp only [perform, Session.writeReport, sound, Bool.false_eq_true, if_false, Session.runReport,
    produced]
  rcases Transfer.redirect r d with ⟨a | e | p, d'⟩ <;> rfl

theorem perform_report_refused {E : Engine σ} {c : Client σ} {k : ReportKind} {d : Destination}
    {e : Error} {s : Session σ} (sound : c.session.poisoned = false)
    (refused : Session.produce E k c.session = (.error e, s)) :
    (c.perform E (.report k d)).1 = ⟨.error e, d.received⟩ := by
  simp only [perform, Session.writeReport, sound, Bool.false_eq_true, if_false, Session.runReport,
    refused]

end Client

end SatSession
