import CapabilityBroker.CircuitBreaker
/-!
# Histories of a breaker

Everything that a breaker is asked and told, as inputs, the breaker after
a history of them, and how it received the calls. Nothing is asked of the
callers: reports may come without a call, late, or twice.
-/

namespace CapabilityBroker

namespace CircuitBreaker

/-- What a breaker is asked and told. -/
inductive Input where
  /-- A call comes. -/
  | call
  | success
  | failure
  /-- A trial is given up. -/
  | release
  /-- The circuit is closed by hand. -/
  | reset
  deriving DecidableEq, Repr

/-- The breaker after an input. -/
def apply (b : CircuitBreaker) (now : Nat) : Input → CircuitBreaker
  | .call => (b.receive now).1
  | .success => b.recordSuccess now
  | .failure => b.recordFailure now
  | .release => b.releaseTrial
  | .reset => b.reset now

/-- The breaker after a history of inputs, each with its instant. -/
def run (b : CircuitBreaker) (inputs : List (Nat × Input)) : CircuitBreaker :=
  inputs.foldl (fun b e => b.apply e.1 e.2) b

/-- How the calls of a history are received, each with its instant. -/
def receptions (b : CircuitBreaker) : List (Nat × Input) → List (Nat × Reception)
  | [] => []
  | (now, .call) :: later => (now, (b.receive now).2) :: (b.receive now).1.receptions later
  | (now, i) :: later => (b.apply now i).receptions later

/-- The inputs of a history, each with the state of the circuit that it
meets. -/
def met (b : CircuitBreaker) : List (Nat × Input) → List (Circuit × Input)
  | [] => []
  | e :: later => (b.circuit, e.2) :: (b.apply e.1 e.2).met later

/-- A history that goes on. -/
theorem run_append (b : CircuitBreaker) (as bs : List (Nat × Input)) :
    b.run (as ++ bs) = (b.run as).run bs := by
  simp [run]

theorem met_append (b : CircuitBreaker) (as bs : List (Nat × Input)) :
    b.met (as ++ bs) = b.met as ++ (b.run as).met bs := by
  induction as generalizing b with
  | nil => rfl
  | cons a as ih =>
    simp only [List.cons_append, met, ih]
    rfl

end CircuitBreaker

end CapabilityBroker
