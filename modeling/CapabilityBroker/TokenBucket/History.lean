import CapabilityBroker.TokenBucket
/-!
# Histories of a token bucket

The three queries that a bucket answers, the bucket after a history of
them, and the answers. Every query, also one that only reads, mints the
tokens that are due.
-/

namespace CapabilityBroker

namespace TokenBucket

/-- What a bucket is asked. -/
inductive Query where
  /-- To spend a token. -/
  | consume
  /-- How many tokens there are. -/
  | available
  /-- How long it is until there is a token. -/
  | timeUntilNext
  deriving DecidableEq, Repr

/-- What it answers. -/
inductive Answer where
  /-- Whether a token was spent. -/
  | consumed (passes : Bool)
  | available (tokens : Nat)
  | timeUntilNext (wait : Nat)
  deriving DecidableEq, Repr

/-- Whether an answer lets a request pass. -/
def Answer.admits : Answer → Bool
  | consumed passes => passes
  | _ => false

variable {α : Type} [Scalar α]

/-- The bucket after a query, and its answer. -/
def ask (b : TokenBucket α) (now : Nat) : Query → TokenBucket α × Answer
  | .consume =>
    let (b, passes) := b.consume now
    (b, .consumed passes)
  | .available =>
    let (b, tokens) := b.available now
    (b, .available tokens)
  | .timeUntilNext =>
    let (b, wait) := b.timeUntilNext now
    (b, .timeUntilNext wait)

/-- The bucket after a history of queries, each with its instant. -/
def run (b : TokenBucket α) (queries : List (Nat × Query)) : TokenBucket α :=
  queries.foldl (fun b q => (b.ask q.1 q.2).1) b

/-- The answers to a history of queries, with the same instants. -/
def answers (b : TokenBucket α) : List (Nat × Query) → List (Nat × Answer)
  | [] => []
  | q :: queries => (q.1, (b.ask q.1 q.2).2) :: (b.ask q.1 q.2).1.answers queries

/-- The instants of a history are in order, and none is before `now`. -/
def InOrder (now : Nat) (queries : List (Nat × Query)) : Prop :=
  (now :: queries.map (·.1)).Pairwise (· ≤ ·)

instance (now : Nat) (queries : List (Nat × Query)) : Decidable (InOrder now queries) :=
  inferInstanceAs (Decidable (List.Pairwise _ _))

/-- How many requests pass from one instant to another, both included. -/
def admissions (answers : List (Nat × Answer)) (first last : Nat) : Nat :=
  answers.countP fun a => decide (first ≤ a.1 ∧ a.1 ≤ last) && a.2.admits

/-- How many queries there are from one instant to another. -/
def queriesWithin (queries : List (Nat × Query)) (first last : Nat) : Nat :=
  queries.countP fun q => decide (first ≤ q.1 ∧ q.1 ≤ last)

end TokenBucket

end CapabilityBroker
