/-! A traced computation logs what it does and may fail; what was logged before a failure stays logged. -/
namespace LoadSweep

inductive Severity where
  | debug
  | info
  | warn
  | error
  deriving DecidableEq, Repr

def Severity.name : Severity → String
  | debug => "DEBUG"
  | info => "INFO"
  | warn => "WARN"
  | error => "ERROR"

structure LogRecord where
  severity : Severity
  message : String
  deriving DecidableEq, Repr

def LogRecord.text (r : LogRecord) : String := s!"{r.severity.name} {r.message}"

structure Traced (ε α : Type) where
  log : List LogRecord
  outcome : Except ε α

namespace Traced

variable {ε α β : Type}

def of (outcome : Except ε α) : Traced ε α := ⟨[], outcome⟩

/-- Goes on with the result of a computation, unless it failed. -/
def bind (t : Traced ε α) (f : α → Traced ε β) : Traced ε β :=
  match t.outcome with
  | .error e => ⟨t.log, .error e⟩
  | .ok a => ⟨t.log ++ (f a).log, (f a).outcome⟩

instance : Monad (Traced ε) where
  pure a := of (.ok a)
  bind := bind

instance : MonadLift (Except ε) (Traced ε) where
  monadLift := of

def logged (severity : Severity) (message : String) : Traced ε Unit := ⟨[⟨severity, message⟩], .ok ()⟩

theorem outcome_pure (a : α) : (pure a : Traced ε α).outcome = .ok a := rfl

theorem outcome_bind (t : Traced ε α) (f : α → Traced ε β) :
    (t >>= f).outcome = t.outcome >>= fun a => (f a).outcome := by
  change (bind t f).outcome = _
  unfold bind
  cases t.outcome <;> rfl

end Traced
end LoadSweep
