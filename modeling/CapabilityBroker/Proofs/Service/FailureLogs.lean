import CapabilityBroker.Proofs.Redaction.Errors
import CapabilityBroker.Proofs.Service.Twins
/-!
# What the logs of a service tell of errors

Two histories of a service that differ in the texts of the errors alone
that the resolver replies with. What is logged differs in the lines of the
calls that failed alone, and there only where the errors leave different
things over (`LogsAlike`): the lines of the retry loop tell of transient
errors, which leave nothing over.
-/

namespace CapabilityBroker

namespace Service

/-! ## The logs, and what is left over of the errors -/

/-- The line of the log that an occurrence is. -/
def Occurrence.logLine? : Occurrence → Option LogLine
  | .reported (.log line) => some line
  | _ => none

/-- What is left over of the error that a call ends with. -/
def Occurrence.leftover? : Occurrence → Option String
  | .answered _ (.error e) => some (Redaction.leftover e)
  | _ => none

/-- The lines of the log among those of a journal. -/
def logged (ls : List JournalLine) : List LogLine := ls.filterMap (·.occurrence.logLine?)

/-- What is left over of the errors that calls ended with. -/
def leftovers (ls : List JournalLine) : List String := ls.filterMap (·.occurrence.leftover?)

variable {α : Type} {as as' bs bs' : List JournalLine} {now : Nat}

theorem logged_append : logged (as ++ bs) = logged as ++ logged bs := List.filterMap_append

theorem leftovers_append : leftovers (as ++ bs) = leftovers as ++ leftovers bs :=
  List.filterMap_append

theorem logged_reports (signals : List Signal) :
    logged (reports now signals) = (Signal.lines signals).reverse := by
  rw [logged, reports, List.filterMap_reverse, List.filterMap_map]
  refine congrArg List.reverse (List.filterMap_congr fun x _ => ?_)
  cases x <;> rfl

theorem leftovers_reports (signals : List Signal) : leftovers (reports now signals) = [] := by
  simp [leftovers, reports, Occurrence.leftover?]

/-- The lines of the log, in order, are those of the journal. -/
theorem lines_signals (s : Service α) :
    Signal.lines s.signals = (logged s.journal).reverse := by
  rw [Signal.lines, signals, history, List.filterMap_filterMap, logged, ← List.filterMap_reverse]
  refine List.filterMap_congr fun l _ => ?_
  cases l with
  | mk time occurrence =>
    cases occurrence with
    | reported x => cases x <;> rfl
    | _ => rfl

theorem leftovers_history (s : Service α) :
    leftovers s.history = (leftovers s.journal).reverse := by
  rw [leftovers, history, List.filterMap_reverse, leftovers]

/-! ## Alike logs -/

/-- **Two lists of lines are alike**: as much is logged and as many calls
end with errors, and what is logged is the same exactly if the errors leave
the same over. -/
structure LogsAlike (as bs : List JournalLine) : Prop where
  length_logged : (logged as).length = (logged bs).length
  length_leftovers : (leftovers as).length = (leftovers bs).length
  logged_iff : logged as = logged bs ↔ leftovers as = leftovers bs

namespace LogsAlike

theorem refl (ls : List JournalLine) : LogsAlike ls ls where
  length_logged := rfl
  length_leftovers := rfl
  logged_iff := by simp

theorem append (h : LogsAlike as as') (h' : LogsAlike bs bs') :
    LogsAlike (as ++ bs) (as' ++ bs') where
  length_logged := by
    rw [logged_append, logged_append, List.length_append, List.length_append, h.length_logged,
      h'.length_logged]
  length_leftovers := by
    rw [leftovers_append, leftovers_append, List.length_append, List.length_append,
      h.length_leftovers, h'.length_leftovers]
  -- both sides are as long, so they can be taken apart at the same place
  logged_iff := by
    rw [logged_append, logged_append, leftovers_append, leftovers_append,
      List.append_eq_append_iff_of_size_eq_left h.length_logged,
      List.append_eq_append_iff_of_size_eq_left h.length_leftovers, h.logged_iff, h'.logged_iff]

theorem of_eq (h : as = bs) : LogsAlike as bs := h ▸ refl as

end LogsAlike

/-! ## The lines of a call that fails -/

theorem lines_resultSignals (recorded : Bool) (elapsed : Nat)
    (result : Except Error CapabilitySet) :
    Signal.lines (resultSignals recorded elapsed result) = [] := by
  cases recorded <;> rfl

variable {e e' : Error} {host : Host} {captured id elapsed : Nat} {recorded : Bool} {r : Request}

theorem leftovers_failureLines (e : Error) :
    leftovers (failureLines host captured now id recorded elapsed r e) =
      [Redaction.leftover e] := by
  rw [failureLines, leftovers, List.filterMap_cons]
  exact congrArg _ (leftovers_reports _)

/-- One line of the log tells of the error. -/
theorem logged_failureLines (h : e ≠ .disposed) :
    logged (failureLines host captured now id recorded elapsed r e) =
      (Signal.lines (captureSignals host captured (.failed e r.browserEnabled))).reverse ++
        [r.failureLine e] := by
  rw [failureLines, if_neg h, logged, List.filterMap_cons]
  change logged (reports now _) = _
  rw [logged_reports, Signal.lines, List.filterMap_append, List.filterMap_cons]
  change (Signal.lines _ ++ r.failureLine e :: Signal.lines _).reverse = _
  rw [lines_resultSignals, List.nil_append, List.reverse_cons]

/-- Calls that fail with errors of one shape. -/
theorem LogsAlike.failureLines (h : e.SameShape e') :
    LogsAlike (failureLines host captured now id recorded elapsed r e)
      (failureLines host captured now id recorded elapsed r e') := by
  by_cases hdisposed : e = .disposed
  · obtain rfl : e' = .disposed := h.disposed_iff.mp hdisposed
    exact of_eq (by rw [hdisposed])
  · have hdisposed' : e' ≠ .disposed := fun h' => hdisposed (h.disposed_iff.mpr h')
    have hline := r.failureLine_eq_iff_leftover h
    have hevent := TelemetryEvent.failed_eq h r.browserEnabled
    constructor
    · simp [logged_failureLines hdisposed, logged_failureLines hdisposed', hevent]
    · simp [leftovers_failureLines]
    · simp [logged_failureLines hdisposed, logged_failureLines hdisposed',
        leftovers_failureLines, hevent, hline]

/-- A service is compared with itself: its resolver may reply with other
errors of the same shapes. -/
def textsAside (host : Host) : Comparison where
  host := host
  host' := host
  errors := Error.SameShape
  lines := LogsAlike
  resolverName_eq := rfl
  samples_eq := rfl
  draws_eq := rfl
  lines_refl := LogsAlike.refl
  lines_append := LogsAlike.append
  errors_refl _ := rfl
  errors_root h := h.root
  isRetryable_eq h := h.isRetryable_eq.symm
  disposed_iff h := h.disposed_iff.symm
  attempted _ _ _ := ⟨rfl, rfl, iff_of_true rfl rfl⟩
  retried p now attempt delay h hretryable :=
    .of_eq (by rw [RetryPolicy.signals_eq h hretryable])
  captured _ _ _ := LogsAlike.refl _
  answered _ _ _ _ _ _ h := LogsAlike.failureLines h

/-- **What the logs tell of the errors of a resolver.** Two errors of one
shape are redacted to the same, and the lines of a request that failed with
them are the same, exactly if sanitizing leaves the same of the texts that
redaction does not replace; the lines of the retry loop always are. The
text of an error cannot be told from what it is redacted to exactly if
there is none or it is replaced. In two histories of a service that differ
in the texts of the replied errors, the logs are the same exactly if the
errors leave the same over that the calls ended with, one by one. -/
theorem logs_tell_leftovers [Scalar α] (host : Host) (s : Service α)
    (events events' : List (Nat × Event)) (e e' : Error)
    (hevents : List.Forall₂ (EventsAlike Error.SameShape) events events')
    (hshape : e.SameShape e') :
    (Redaction.error e = Redaction.error e' ↔ Redaction.leftover e = Redaction.leftover e') ∧
    (∀ r : Request, r.failureLine e = r.failureLine e' ↔
      Redaction.leftover e = Redaction.leftover e') ∧
    (e.isRetryable = true → ∀ (p : RetryPolicy) (operation : String) (attempt delay : Nat),
      p.signals operation attempt delay e = p.signals operation attempt delay e') ∧
    ((∀ other : Error, other.SameShape e → Redaction.error other = Redaction.error e) ↔
      e.repeats = false) ∧
    (Signal.lines (s.run host events).signals = Signal.lines (s.run host events').signals ↔
      leftovers (s.run host events).history = leftovers (s.run host events').history) := by
  refine ⟨Redaction.error_eq_iff hshape, fun r => r.failureLine_eq_iff_leftover hshape, ?_,
    Redaction.determined_iff, ?_⟩
  · intro hretryable p operation attempt delay
    exact RetryPolicy.signals_eq hshape hretryable p operation attempt delay
  · obtain ⟨journal, hrun, halike⟩ := (Twins.refl (textsAside host) s).run hevents
    have hjournal : journal = (s.run host events').journal := (congrArg Service.journal hrun).symm
    rw [lines_signals, lines_signals, leftovers_history, leftovers_history, List.reverse_inj,
      List.reverse_inj, ← hjournal]
    exact halike.logged_iff

/-- A resolver that names a model when it fails, first for a while and then
for good. -/
def echoes (name : String) : List (Nat × Event) :=
  [(0, .ask { configuration := some {} }), (0, .reply 0 (.done (.error (.capability name)))),
    (Duration.ofSecs 2, .poll 0),
    (Duration.ofSecs 2, .reply 0 (.done (.error (.configuration name))))]

theorem echoes_alike (name name' : String)
    (h : Redaction.identifier name = Redaction.identifier name') :
    List.Forall₂ (EventsAlike Error.SameShape) (echoes name) (echoes name') := by
  refine .cons (.same _) (.cons ?_ (.cons (.same _) (.cons ?_ .nil)))
  · exact .replied _ _ (.error (congrArg Error.capability h))
  · exact .replied _ _ (.error (congrArg Error.configuration h))

/-- Two spellings of a name that differ in a hyphen are logged alike, and
another name is logged otherwise, though not by the retry loop. -/
theorem hyphens_are_not_logged :
    let after name := (Service.start silentHost {} false false 0 : Service Rat).run silentHost
      (echoes name)
    let retried name := ({} : RetryPolicy).signals operation 1 0 (.capability name)
    Signal.lines (after "gpt-5").signals = Signal.lines (after "gpt5").signals ∧
      Signal.lines (after "gpt-5").signals ≠ Signal.lines (after "opus").signals ∧
      retried "gpt-5" = retried "opus" := by
  intro after retried
  have htold (name : String) (h : Redaction.identifier "gpt-5" = Redaction.identifier name) :=
    logs_tell_leftovers silentHost (Service.start silentHost {} false false 0 : Service Rat)
      (echoes "gpt-5") (echoes name) (.capability "gpt-5") (.capability name)
      (echoes_alike "gpt-5" name h) (congrArg Error.capability h)
  obtain ⟨-, -, -, -, hsame⟩ := htold "gpt5" rfl
  obtain ⟨-, -, hretried, -, hother⟩ := htold "opus" rfl
  have hleft : leftovers (after "gpt-5").history = leftovers (after "gpt5").history := by
    decide +kernel
  have hleft' : leftovers (after "gpt-5").history ≠ leftovers (after "opus").history := by
    decide +kernel
  exact ⟨hsame.mpr hleft, fun hlines => hleft' (hother.mp hlines), hretried rfl _ _ _ _⟩

/-- Two errors of one shape that are redacted to the names that they hold,
and so are the lines of a request that failed with them. -/
theorem model_name_is_logged :
    let unknown name : Error := .configuration name
    (unknown "gpt5").SameShape (unknown "opus") ∧
      Redaction.error (unknown "gpt5") = "configuration error gpt5" ∧
      Redaction.error (unknown "opus") = "configuration error opus" ∧
      ∀ r : Request, r.failureLine (unknown "gpt5") ≠ r.failureLine (unknown "opus") := by
  intro unknown
  have hshape : (unknown "gpt5").SameShape (unknown "opus") := rfl
  have hleft : Redaction.leftover (unknown "gpt5") ≠ Redaction.leftover (unknown "opus") := by
    decide
  refine ⟨hshape, by decide, by decide, fun r hline => ?_⟩
  exact hleft ((r.failureLine_eq_iff_leftover hshape).mp hline)

end Service

end CapabilityBroker
