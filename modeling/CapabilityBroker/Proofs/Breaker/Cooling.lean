import CapabilityBroker.Proofs.Breaker.Counting
/-!
# The pause of an open circuit

A circuit that opens stays as it is until its pause is over, whatever is
reported meanwhile and however often calls come (`noEffect_of_open`): no
report prolongs the pause, and none ends it early. The first call after
the pause is the trial, and from then on calls are refused until something
else happens than that another one comes (`noEffect_of_taken`). Both are said
once, as histories in which nothing has an effect (`run_of_noEffect`).
-/

namespace CapabilityBroker

namespace CircuitBreaker

variable {b : CircuitBreaker} {now t : Nat} {i : Input} {inputs : List (Nat × Input)}

/-! ## Inputs without effect -/

/-- An input has no effect: it leaves the breaker as it was, and if it is a
call, the call is refused. -/
structure NoEffect (b : CircuitBreaker) (now : Nat) (i : Input) : Prop where
  apply_eq : b.apply now i = b
  refused : i = .call → (b.receive now).2 = .refused

/-- A call that is refused has no effect. -/
theorem noEffect_of_refused (h : (b.receive now).2 = .refused) : b.NoEffect now .call :=
  ⟨receive_of_refused h, fun _ => h⟩

/-- **A history without effect** leaves the breaker as it was, and all its
calls are refused. -/
theorem run_of_noEffect (h : ∀ e ∈ inputs, b.NoEffect e.1 e.2) :
    b.run inputs = b ∧ ∀ r ∈ b.receptions inputs, r.2 = .refused := by
  induction inputs with
  | nil => exact ⟨rfl, fun r hr => nomatch hr⟩
  | cons e inputs ih =>
    obtain ⟨he, hinputs⟩ := List.forall_mem_cons.mp h
    obtain ⟨hrun, hrefused⟩ := ih hinputs
    obtain ⟨now, i⟩ := e
    have hsame : b.apply now i = b := he.apply_eq
    refine ⟨?_, ?_⟩
    · change (b.apply now i).run inputs = b
      rw [hsame, hrun]
    · cases i with
      | call =>
        change ∀ r ∈ (now, (b.receive now).2) :: (b.apply now .call).receptions inputs, _
        rw [hsame]
        exact List.forall_mem_cons.mpr ⟨he.refused rfl, hrefused⟩
      | _ =>
        simp only [receptions, hsame]
        exact hrefused

/-! ## While the circuit is open -/

/-- Before its pause is over an open circuit refuses calls, -/
theorem receive_of_cooling (hopen : b.circuit = .open)
    (hnow : now - b.changedAt < b.limits.resetTimeout) : (b.receive now).2 = .refused := by
  simp only [receive, hopen, if_pos hnow]

/-- and after it the first call is the trial. -/
theorem receive_of_cooled (hopen : b.circuit = .open)
    (hnow : b.limits.resetTimeout ≤ now - b.changedAt) :
    b.receive now =
      ({ b with circuit := .halfOpen, changedAt := now, trialTaken := true }, .trial) := by
  simp [receive, turn, hopen, Nat.not_lt_of_le hnow]

/-- **Reports have no effect on an open circuit**, and no calls that come
before its pause is over. -/
theorem noEffect_of_open (hopen : b.circuit = .open) (hreset : i ≠ .reset)
    (hcall : i = .call → now - b.changedAt < b.limits.resetTimeout) : b.NoEffect now i := by
  cases i with
  | call => exact noEffect_of_refused (receive_of_cooling hopen (hcall rfl))
  | success => exact ⟨by simp only [apply, recordSuccess, hopen], fun h => by cases h⟩
  | failure => exact ⟨by simp only [apply, recordFailure, hopen], fun h => by cases h⟩
  | release => exact ⟨by simp [apply, releaseTrial, hopen], fun h => by cases h⟩
  | reset => exact absurd rfl hreset

/-! ## While the trial is on its way -/

/-- **Calls have no effect on a half-open circuit** whose place is taken. -/
theorem noEffect_of_taken (hhalf : b.circuit = .halfOpen) (htaken : b.trialTaken = true)
    (now : Nat) : b.NoEffect now .call :=
  noEffect_of_refused (by simp only [receive, hhalf, htaken, if_true])

/-! ## How the pause begins -/

/-- The latest input of a history opens the circuit, at an instant. -/
structure OpensAt (b : CircuitBreaker) (past : List (Nat × Input)) (t : Nat) : Prop where
  last : ∃ earlier i, past = earlier ++ [(t, i)] ∧ (b.run earlier).circuit ≠ .open
  circuit_eq : (b.run past).circuit = .open

/-- The pause of a circuit starts with the input that opens it. -/
theorem changedAt_of_opens (hbefore : b.circuit ≠ .open)
    (hopen : (b.apply now i).circuit = .open) : (b.apply now i).changedAt = now := by
  cases i with
  | call =>
    rcases receive_cases b now with heq | ⟨hclosed, heq⟩ | ⟨b', heq, -, -, hexpects⟩
    · simp only [apply, heq] at hopen
      exact absurd hopen hbefore
    · simp [apply, heq, hclosed] at hopen
    · simp only [apply, heq] at hopen
      simp [expectsTrial, hopen] at hexpects
  | success =>
    cases hcircuit : b.circuit with
    | closed => simp [apply, recordSuccess, hcircuit] at hopen
    | «open» => exact absurd hcircuit hbefore
    | halfOpen => simp [apply, recordSuccess, hcircuit] at hopen
  | failure =>
    cases hcircuit : b.circuit with
    | closed =>
      rcases recordFailure_cases now hcircuit with ⟨-, hchanged⟩ | ⟨hcounted, -⟩
      · exact hchanged
      · simp [apply, hcounted, countFailure, hcircuit] at hopen
    | «open» => exact absurd hcircuit hbefore
    | halfOpen => exact (recordFailure_of_halfOpen now hcircuit).2
  | release => exact absurd ((releaseTrial_circuit b).symm.trans hopen) hbefore
  | reset => simp [apply, reset] at hopen

theorem OpensAt.changedAt_eq {past : List (Nat × Input)} (h : b.OpensAt past t) :
    (b.run past).changedAt = t := by
  obtain ⟨earlier, i, rfl, hbefore⟩ := h.last
  have hopen := h.circuit_eq
  rw [run_append] at hopen ⊢
  exact changedAt_of_opens hbefore hopen

/-- **Nothing hurries the pause of an open circuit, and nothing prolongs
it.** After every history that ends with the opening of the circuit, an
instant `t`, whatever happens from then on but a reset and calls after the
pause leaves the breaker as it is, and the calls are refused. The first
call after the pause passes as the trial of a half-open circuit, and as
long as only calls come after it, they are refused and change nothing. -/
theorem pause_runs_its_course (limits : BreakerLimits) (start t : Nat)
    (past : List (Nat × Input)) (hopens : (new limits start).OpensAt past t) :
    let b := (new limits start).run past
    ∀ meanwhile : List (Nat × Input),
      (∀ e ∈ meanwhile,
        t ≤ e.1 ∧ e.2 ≠ .reset ∧ (e.2 = .call → e.1 < t + limits.resetTimeout)) →
      (b.run meanwhile = b ∧ ∀ r ∈ b.receptions meanwhile, r.2 = .refused) ∧
      ∀ now, t + limits.resetTimeout ≤ now → ∃ tried,
        (b.run meanwhile).receive now = (tried, .trial) ∧
        tried = { b with circuit := .halfOpen, changedAt := now, trialTaken := true } ∧
        ∀ calls : List (Nat × Input), (∀ e ∈ calls, e.2 = .call) →
          tried.run calls = tried ∧ ∀ r ∈ tried.receptions calls, r.2 = .refused := by
  intro b meanwhile hmeanwhile
  have hopen : b.circuit = .open := hopens.circuit_eq
  have hsince : b.changedAt = t := hopens.changedAt_eq
  have hlimits : b.limits = limits := limits_run past
  have hpause : b.run meanwhile = b ∧ ∀ r ∈ b.receptions meanwhile, r.2 = .refused :=
    run_of_noEffect fun e he => by
      obtain ⟨hafter, hreset, hcall⟩ := hmeanwhile e he
      refine noEffect_of_open hopen hreset fun hi => ?_
      have hbefore := hcall hi
      rw [hsince, hlimits]
      omega
  refine ⟨hpause, fun now hnow => ⟨_, ?_, rfl, fun calls hcalls => ?_⟩⟩
  · rw [hpause.1]
    refine receive_of_cooled hopen ?_
    rw [hsince, hlimits]
    omega
  · refine run_of_noEffect fun e he => ?_
    rw [hcalls e he]
    exact noEffect_of_taken rfl rfl e.1

/-- A circuit that opens at 5, for a pause of 100. -/
def opened : List (Nat × Input) := [(0, .call), (0, .call), (5, .failure)]

/-- A late success, a late failure and a call do not end its pause, which is
over at 105. -/
theorem late_reports_do_not_count :
    (new ⟨1, 100⟩ 0).OpensAt opened 5 ∧
      ((new ⟨1, 100⟩ 0).run opened).run [(60, .success), (70, .failure), (104, .call)] =
        (new ⟨1, 100⟩ 0).run opened ∧
      ∃ tried, (((new ⟨1, 100⟩ 0).run opened).run
          [(60, .success), (70, .failure), (104, .call)]).receive 105 = (tried, .trial) ∧
        tried = ⟨⟨1, 100⟩, .halfOpen, 1, 105, true⟩ ∧
        tried.run [(105, .call), (300, .call)] = tried := by
  have hopens : (new ⟨1, 100⟩ 0).OpensAt opened 5 :=
    ⟨⟨[(0, .call), (0, .call)], .failure, rfl, by decide⟩, by decide⟩
  obtain ⟨⟨hsame, -⟩, hafter⟩ := pause_runs_its_course ⟨1, 100⟩ 0 5 opened hopens
    [(60, .success), (70, .failure), (104, .call)] (by decide)
  obtain ⟨tried, hreceive, htried, hcalls⟩ := hafter 105 (by decide)
  exact ⟨hopens, hsame, tried, hreceive, htried, (hcalls [(105, .call), (300, .call)] (by decide)).1⟩

end CircuitBreaker

end CapabilityBroker
