import TestPlan.Text.Symbol

/-!
# Messages and runs

Diagnostics are data. A `Run` pairs the messages that a computation reports, in order, with its outcome;
a run that fails keeps what it reported up to then. Running one computation after another appends their
messages and stops at the first failure. Runs are a lawful monad, so a sequence of runs may be regrouped.
-/

namespace TestPlan

/-- How serious a message is. -/
inductive Severity
  | info
  | warning
  | error
  deriving DecidableEq

/-- A line of diagnostics. -/
structure Message where
  severity : Severity
  text : Text
  deriving DecidableEq

/-- A computation that reports messages and ends with a result or a failure. -/
@[ext]
structure Run (ε α : Type) where
  log : List Message
  outcome : Except ε α

namespace Run
variable {ε α β : Type}

/-- The run that reports nothing and ends with this result. -/
def done (a : α) : Run ε α := ⟨[], .ok a⟩

/-- The run that reports nothing and fails. -/
def fail (e : ε) : Run ε α := ⟨[], .error e⟩

/-- Run one computation and then, with its result, another. -/
def andThen (first : Run ε α) (next : α → Run ε β) : Run ε β :=
  match first.outcome with
  | .ok a => ⟨first.log ++ (next a).log, (next a).outcome⟩
  | .error e => ⟨first.log, .error e⟩

/-- Computations that report run one after the other, up to the first that fails. -/
instance : Monad (Run ε) where
  pure := done
  bind := andThen

/-- A mere result reports nothing. -/
@[simp] theorem log_pure (a : α) : (pure a : Run ε α).log = [] := rfl

/-- A mere result comes out as it is. -/
@[simp] theorem outcome_pure (a : α) : (pure a : Run ε α).outcome = .ok a := rfl

/-- After a result the next run follows, and its messages come after the earlier ones. -/
theorem bind_of_ok {first : Run ε α} {a : α} (h : first.outcome = .ok a) (next : α → Run ε β) :
    first >>= next = ⟨first.log ++ (next a).log, (next a).outcome⟩ := by
  change first.andThen next = _
  simp only [andThen, h]

/-- After a failure nothing follows. -/
theorem bind_of_error {first : Run ε α} {e : ε} (h : first.outcome = .error e)
    (next : α → Run ε β) : first >>= next = ⟨first.log, .error e⟩ := by
  change first.andThen next = _
  simp only [andThen, h]

/-- Running one after the other is associative, and mere results are neutral. -/
instance : LawfulMonad (Run ε) := LawfulMonad.mk' (Run ε)
  (by
    intro α run
    change run.andThen (fun a => done a) = run
    cases h : run.outcome <;> ext1 <;> simp [andThen, done, h])
  (by
    intro α β a next
    change (done a).andThen next = next a
    simp [andThen, done])
  (by
    intro α β γ run next last
    change (run.andThen next).andThen last = run.andThen fun a => (next a).andThen last
    cases h : run.outcome with
    | error e => simp [andThen, h]
    | ok a => cases h' : (next a).outcome <;> simp [andThen, h, h'])

/-- A failure ends a computation. When it is caught, the messages before it stay. -/
instance : MonadExceptOf ε (Run ε) where
  throw := fail
  tryCatch run handle :=
    match run.outcome with
    | .ok _ => run
    | .error e => ⟨run.log ++ (handle e).log, (handle e).outcome⟩

/-- Report one message. -/
def report (severity : Severity) (text : Text) : Run ε Unit := ⟨[⟨severity, text⟩], .ok ()⟩

/-- Report that something was left out or replaced. -/
def warn (text : Text) : Run ε Unit := report .warning text

/-- Report a failure that the program survives. -/
def reportError (text : Text) : Run ε Unit := report .error text

/-- A computation without messages as a run. -/
def ofExcept (outcome : Except ε α) : Run ε α := ⟨[], outcome⟩

/-- Run a computation for every item in turn and collect the results. -/
def collect (run : α → Run ε β) : List α → Run ε (List β)
  | [] => done []
  | a :: rest => (run a).andThen fun b => (collect run rest).andThen fun bs => done (b :: bs)

/-- Run a computation for every item in turn and put the resulting lists together. -/
def gather (run : α → Run ε (List β)) : List α → Run ε (List β)
  | [] => done []
  | a :: rest => (run a).andThen fun bs => (gather run rest).andThen fun more => done (bs ++ more)

end Run
end TestPlan
