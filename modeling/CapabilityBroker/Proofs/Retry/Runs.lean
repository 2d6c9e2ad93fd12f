import Mathlib.Logic.Function.Basic
import CapabilityBroker.Proofs.Retry.Scripts
import CapabilityBroker.Retry.Outcome
/-!
# The course of a retried operation

An operation without chance follows its script. Each attempt ends by itself
or by its deadline (`Ends`), the next one begins when the pause after it is
over, and the first that does not fail in a transient way is the last, or the
last that there may be (`Course`). `exists_course` is the induction along the
attempts that are left; what an operation is told to have come to is read off
its course.
-/

namespace CapabilityBroker

namespace Instant

open Duration

variable {now : Nat}

end Instant

namespace RetryPolicy

variable {β : Type}

/-! ## One attempt -/

/-- An attempt at an operation: when it begins, when it ends, and how. -/
structure Attempt (β : Type) where
  start : Nat
  finish : Nat
  result : Except Error β

variable (p : RetryPolicy) (operation : String)

/-- **How an attempt ends.** With its own result, if that is there by the
deadline, and otherwise with a timeout, at the deadline. -/
inductive Ends (w : Work β) : Attempt β → Prop
  | itself {start finish : Nat} {result : Except Error β} (has_result : w.reply = .done result)
      (is_ready : w.readyAt start = some finish)
      (in_time : ∀ limit, p.attemptTimeout = some limit →
        finish ≤ Instant.deadline start limit) :
      Ends w ⟨start, finish, result⟩
  | late {start limit : Nat} (is_limited : p.attemptTimeout = some limit)
      (not_ready : ∀ t, w.readyAt start = some t → Instant.deadline start limit < t) :
      Ends w ⟨start, Instant.deadline start limit, .error (.timeout operation limit)⟩

variable {p operation} {w : Work β} {script : Nat → Work β} {draws : Nat → Backoff.Draw}
variable {draw : Backoff.Draw} {a : Attempt β} {attempts : Nat → Attempt β}
variable {first last start finish delay attempt left : Nat} {result : Except Error β}

variable (p operation script)

/-- **The course of an operation** from one of its attempts to the last one. -/
structure Course (first start last : Nat) (attempts : Nat → Attempt β) : Prop where
  begins : (attempts first).start = start
  ends : ∀ i, first ≤ i → i ≤ last → Ends p operation (script i) (attempts i)
  pauses : ∀ i, first ≤ i → i < last →
    (attempts (i + 1)).start = Instant.after (attempts i).finish (p.delayAfter i)
  /-- Failures that another attempt may mend come before the last attempt, -/
  transient : ∀ i, first ≤ i → i < last → isTransient (attempts i).result = true
  /-- and it is no such failure, or there may be no more attempts. -/
  final : isTransient (attempts last).result = true → last = p.maxAttempts
  first_le : first ≤ last
  last_le : last ≤ p.maxAttempts

variable {p operation script}

/-- One attempt more leaves the later ones as they are. -/
theorem update_later (attempts : Nat → Attempt β) (a : Attempt β) {i : Nat} (hi : first + 1 ≤ i) :
    Function.update attempts first a i = attempts i :=
  Function.update_of_ne (Nat.ne_of_gt hi) a attempts

namespace Course

/-- An attempt before the others. -/
theorem cons (hends : Ends p operation (script first) a) (htransient : isTransient a.result = true)
    (h : Course p operation script (first + 1) (Instant.after a.finish (p.delayAfter first)) last
      attempts) :
    Course p operation script first a.start last (Function.update attempts first a) := by
  have hfirst : Function.update attempts first a first = a := Function.update_self first a attempts
  have hle := h.first_le
  refine ⟨congrArg Attempt.start hfirst, fun i hi hlast => ?_, fun i hi hlast => ?_,
    fun i hi hlast => ?_, fun hfailed => ?_, by omega, h.last_le⟩
  · rcases Nat.eq_or_lt_of_le hi with rfl | hi
    · exact hfirst.symm ▸ hends
    · exact (update_later attempts a hi).symm ▸ h.ends i hi hlast
  · rw [update_later attempts a (by omega)]
    rcases Nat.eq_or_lt_of_le hi with rfl | hi
    · rw [hfirst, h.begins]
    · rw [update_later attempts a hi, h.pauses i hi hlast]
  · rcases Nat.eq_or_lt_of_le hi with rfl | hi
    · rw [hfirst, htransient]
    · rw [update_later attempts a hi, h.transient i hi hlast]
  · rw [update_later attempts a hle] at hfailed
    exact h.final hfailed

end Course

/-! ## The run of an operation -/

/-- **A run tells a course**: when the attempts began, what came of the last
one and when, and a retry for each of the others. -/
structure Run.Tells (run : Run β) (operation : String) (first last : Nat)
    (attempts : Nat → Attempt β) : Prop where
  starts_eq : run.starts = (List.range' first (last + 1 - first)).map fun i => (attempts i).start
  finish_eq : run.finish = (attempts last).finish
  reply_eq : run.reply = some (.done (attempts last).result)
  retries_eq : Signal.counters run.signals = List.replicate (last - first) (.retries operation)

theorem counters_signals (e : Error) (later : List Signal) :
    Signal.counters (p.signals operation attempt delay e ++ later)
      = .retries operation :: Signal.counters later := rfl

/-- A run with one more attempt before. -/
theorem Run.Tells.cons {run : Run β} (h : run.Tells operation (first + 1) last attempts)
    (hle : first + 1 ≤ last) (a : Attempt β) (delay : Nat) (e : Error) :
    Run.Tells { run with
        starts := a.start :: run.starts
        signals := p.signals operation first delay e ++ run.signals }
      operation first last (Function.update attempts first a) := by
  have hcount : last + 1 - first = last + 1 - (first + 1) + 1 := by omega
  refine ⟨?_, ?_, ?_, ?_⟩
  · rw [hcount, List.range'_succ, List.map_cons, Function.update_self, h.starts_eq]
    refine congrArg _ (List.map_congr_left fun i hi => ?_)
    rw [update_later attempts a (List.mem_range'_1.mp hi).1]
  · rw [update_later attempts a hle]
    exact h.finish_eq
  · rw [update_later attempts a hle]
    exact h.reply_eq
  · have hretries : last - first = last - (first + 1) + 1 := by omega
    rw [counters_signals, h.retries_eq, hretries, List.replicate_succ]

namespace Run.Tells

variable {run : Run β}

theorem attempts_eq (h : run.Tells operation 1 last attempts) : run.attempts = last := by
  rw [Run.attempts, h.starts_eq, List.length_map, List.length_range', Nat.add_sub_cancel]

end Run.Tells

end RetryPolicy

end CapabilityBroker
