import Converge.Collaborator
/-!
# Retrying

A policy says how often an action is attempted, how long to pause between attempts, and after
which kinds of error another attempt is worth while.  `RetryPolicy.retry` runs an action under a
policy and ends with the result of its last attempt.
-/

namespace Converge

/-- When and how often to try again. -/
structure RetryPolicy where
  /-- Attempts in all, the first one included; zero counts as one. -/
  maxAttempts : Nat
  /-- The time between attempts. -/
  pause : Duration
  /-- The kinds of error after which another attempt is made. -/
  retryable : List ErrorKind
  deriving DecidableEq

namespace RetryPolicy

/-- Attempts made unless it is said otherwise. -/
def defaultMaxAttempts : Nat := 5

/-- The time between attempts unless it is said otherwise. -/
def defaultPause : Duration := .ofSeconds 60

/-- Tries again only while the lock of the infrastructure's state is held. -/
def stateLock (maxAttempts : Nat) (pause : Duration) : RetryPolicy :=
  ⟨maxAttempts, pause, [.infraStateLocked]⟩

/-- The policy unless it is said otherwise. -/
def standard : RetryPolicy :=
  stateLock defaultMaxAttempts defaultPause

/-- Tries once. -/
def once : RetryPolicy :=
  ⟨1, .zero, []⟩

/-- Whether an error of this kind is followed by another attempt. -/
def isRetryable (policy : RetryPolicy) (kind : ErrorKind) : Bool :=
  policy.retryable.contains kind

variable {m : Type → Type} [Monad m] {α : Type}

/-- Attempts an action and, after a retryable error, pauses and attempts it up to `more` times
again. -/
def attempt (policy : RetryPolicy) (clock : Clock m) (action : ExceptT Error m α) :
    Nat → ExceptT Error m α
  | 0 => action
  | more + 1 =>
    tryCatch action fun e => do
      if policy.isRetryable e.kind then
        if policy.pause ≠ .zero then clock.sleep policy.pause
        policy.attempt clock action more
      else throw e

/-- Runs an action until it succeeds, fails with an error that is not retryable, or has been
attempted as often as the policy allows. -/
def retry (policy : RetryPolicy) (clock : Clock m) (action : ExceptT Error m α) :
    ExceptT Error m α :=
  policy.attempt clock action (policy.maxAttempts - 1)

end RetryPolicy

end Converge
