import CapabilityBroker.Cache.Recency
/-!
# Histories of a recency tracker

Everything that is done to a tracker and asked of it, as events, with the
answers, and the stamps that it gives. Beside it stands what it is to be
seen as: a list of keys, the least recently used first, on which every
event is an operation of lists (`Listing`).
-/

namespace CapabilityBroker

namespace Recency

/-- What happens to a tracker. -/
inductive Event (κ : Type) where
  /-- A key is used. -/
  | touch (key : κ)
  /-- A key is in use no more. -/
  | erase (key : κ)
  /-- The least recently used key is taken out. -/
  | pop
  /-- Up to `n` keys are asked for, which changes nothing. -/
  | oldest (n : Nat)
  | clear
  deriving DecidableEq, Repr

/-- Whether a key is used. -/
def Event.isTouch {κ : Type} : Event κ → Bool
  | .touch _ => true
  | _ => false

/-- What is answered to an event. -/
inductive Answer (κ : Type) where
  | done
  /-- The key that was taken out, if there was any. -/
  | popped (key : Option κ)
  | keys (keys : List κ)
  deriving DecidableEq, Repr

/-- How often keys are used in a history. -/
def uses {κ : Type} (history : List (Event κ)) : Nat := history.countP (·.isTouch)

variable {κ : Type} [DecidableEq κ]

/-- The tracker after an event, and the answer. -/
def step (r : Recency κ) : Event κ → Recency κ × Answer κ
  | .touch k => (r.touch k, .done)
  | .erase k => (r.erase k, .done)
  | .pop =>
    match r.pop? with
    | none => (r, .popped none)
    | some (k, rest) => (rest, .popped (some k))
  | .oldest n => (r, .keys (r.oldest n))
  | .clear => (r.clear, .done)

/-- The tracker after a history of events. -/
def run (r : Recency κ) (history : List (Event κ)) : Recency κ :=
  history.foldl (fun r e => (r.step e).1) r

/-- The answers to a history of events. -/
def answers (r : Recency κ) : List (Event κ) → List (Answer κ)
  | [] => []
  | e :: later => (r.step e).2 :: (r.step e).1.answers later

/-- The stamp that a key has after an event that uses it. -/
def stampOf (r : Recency κ) : Event κ → Option Nat
  | .touch k => (r.touch k).stamp? k
  | _ => none

/-- The stamps that the uses in a history are given, in order. -/
def stampsGiven (r : Recency κ) : List (Event κ) → List Nat
  | [] => []
  | e :: later => (r.stampOf e).toList ++ (r.step e).1.stampsGiven later

end Recency

namespace Listing

open Recency (Event Answer)

variable {κ : Type} [DecidableEq κ]

/-- A list of keys after an event, and the answer: a key that is used moves
to the end, or is put there, and what is taken out is the first key. -/
def step (keys : List κ) : Event κ → List κ × Answer κ
  | .touch k => (keys.erase k ++ [k], .done)
  | .erase k => (keys.erase k, .done)
  | .pop => (keys.tail, .popped keys.head?)
  | .oldest n => (keys, .keys (keys.take n))
  | .clear => ([], .done)

/-- A list of keys after a history of events. -/
def run (keys : List κ) (history : List (Event κ)) : List κ :=
  history.foldl (fun keys e => (step keys e).1) keys

/-- The answers to a history of events. -/
def answers (keys : List κ) : List (Event κ) → List (Answer κ)
  | [] => []
  | e :: later => (step keys e).2 :: answers (step keys e).1 later

end Listing

end CapabilityBroker
