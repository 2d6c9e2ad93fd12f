import CapabilityBroker.Proofs.Retry.Scripts
import CapabilityBroker.Proofs.Service.Steps
/-!
# What is told of a call

Everything that a journal tells of a call has one form (`Career`): a call
that passes the circuit makes its attempts, one after the other, each
failing in a transient way but the last; then the circuit learns how it
went, the answer of the resolver is stored if there is one, and the call is
answered with what the last attempt came to. Every step of a service keeps
the form (`Recounted`).
-/

namespace CapabilityBroker

namespace Service

/-! ## The lines about a call -/

/-- The call that an occurrence is about, if it is about one. -/
def Occurrence.caller? : Occurrence → Option Nat
  | .asked id _ | .rated id _ | .passed id _ | .invoked id _ | .attempted id _ | .recorded id _
  | .stored id _ _ _ | .answered id _ | .abandoned id | .panicked id => some id
  | .reclaimed | .reported _ => none

/-- What is told of a call, in the order of the lines. -/
def told (lines : List JournalLine) (id : Nat) : List Occurrence :=
  (lines.map (·.occurrence)).filter (·.caller? = some id)

variable {journal lines : List JournalLine} {now id j : Nat} {o : Occurrence} {k : CacheKey}
  {r : Request} {isTrial kept : Bool} {result : Except Error CapabilitySet}

theorem told_append : told (lines ++ journal) id = told lines id ++ told journal id := by
  simp [told]

theorem told_of_about (habout : ∀ l ∈ lines, l.occurrence.caller? = some id) :
    told lines j = if j = id then lines.map (·.occurrence) else [] := by
  unfold told
  split
  · next hj =>
    rw [List.filter_eq_self]
    simpa [hj] using habout
  · next hj =>
    rw [List.filter_eq_nil_iff]
    simp only [List.mem_map, decide_eq_true_eq, forall_exists_index, and_imp]
    rintro o l hl rfl
    simp [habout l hl, Ne.symm hj]

theorem told_reverse : told journal.reverse id = (told journal id).reverse := by
  simp [told, List.filter_reverse]

theorem told_filter :
    told (journal.filter fun l => !l.occurrence.isReport) id = told journal id := by
  unfold told
  rw [List.filter_map, List.filter_map, List.filter_filter]
  congr 1
  apply List.filter_congr
  rintro ⟨t, o⟩ -
  cases o <;> simp [Occurrence.caller?, Occurrence.isReport]

/-! ## The form of what is told -/

/-- An attempt that is over: whether the resolver was asked, and what came
of it. -/
structure Attempt where
  wasAsked : Bool
  result : Except Error CapabilitySet

/-- What is told of an attempt, the latest first. -/
def Attempt.told (id : Nat) (k : CacheKey) (a : Attempt) : List Occurrence :=
  .attempted id a.result :: if a.wasAsked then [.invoked id k] else []

/-- What is told of a call that passed the circuit until the end of its
latest attempt, the latest first. -/
def tried (id : Nat) (r : Request) (isTrial : Bool) (attempts : List Attempt) :
    List Occurrence :=
  attempts.flatMap (·.told id r.cacheKey) ++ [.passed id isTrial, .rated id true, .asked id r]

/-- How many attempts are going on at a stage. -/
def Stage.attempts : Stage → Nat
  | .pausing _ => 0
  | _ => 1

/-- What is told of the attempt that goes on at a stage. -/
def Stage.told (id : Nat) (k : CacheKey) : Stage → List Occurrence
  | .resolving .. => [.invoked id k]
  | _ => []

/-- What is told of the end of a call whose last attempt came to a result,
the latest first. -/
def ending (id : Nat) (k : CacheKey) (kept : Bool) : Except Error CapabilitySet → List Occurrence
  | .ok v => [.answered id (.ok v), .stored id k v kept, .recorded id true]
  | .error e => [.answered id (.error e.root), .recorded id false]

/-- **What becomes of a call** that may make a limited number of attempts:
what it is on its way, if it is, and what is told of it, the latest
first. -/
inductive Career (limit id : Nat) : Option Call → List Occurrence → Prop
  /-- It has not begun, or ended before it came past the circuit. -/
  | turnedAway {os : List Occurrence} (not_passed : ∀ isTrial, .passed id isTrial ∉ os) :
      Career limit id none os
  | underway (c : Call) (attempts : List Attempt)
      (transient : ∀ a ∈ attempts, RetryPolicy.isTransient a.result = true)
      (number : c.attempt = attempts.length + c.stage.attempts) (left : attempts.length < limit) :
      Career limit id (some c)
        (c.stage.told id c.request.cacheKey ++ tried id c.request c.isTrial attempts)
  | ended (r : Request) (isTrial kept : Bool) (last : Attempt) (attempts : List Attempt)
      (transient : ∀ a ∈ attempts, RetryPolicy.isTransient a.result = true)
      (left : attempts.length < limit)
      (final : RetryPolicy.isTransient last.result = true → attempts.length + 1 = limit) :
      Career limit id none
        (ending id r.cacheKey kept last.result ++ tried id r isTrial (last :: attempts))
  | givenUp {os : List Occurrence} (not_answered : ∀ result, .answered id result ∉ os)
      (given_up : .abandoned id ∈ os ∨ .panicked id ∈ os) : Career limit id none os

variable {limit : Nat} {attempts : List Attempt} {c : Call} {c? : Option Call}
  {os : List Occurrence}

theorem tried_cons (a : Attempt) (attempts : List Attempt) :
    tried id r isTrial (a :: attempts) =
      a.told id r.cacheKey ++ tried id r isTrial attempts := by
  rw [tried, List.flatMap_cons, List.append_assoc, ← tried]

theorem not_answered_tried : .answered id result ∉ tried id r isTrial attempts := by
  simp [tried, Attempt.told]

theorem not_answered_stage {stage : Stage} : .answered id result ∉ stage.told id k := by
  cases stage <;> simp [Stage.told]

/-- A call on its way is not answered. -/
theorem Career.not_answered (h : Career limit id (some c) os) : .answered id result ∉ os := by
  cases h with
  | underway => exact fun h => (List.mem_append.mp h).elim not_answered_stage not_answered_tried

/-- A call in line or at rest. -/
theorem Career.attempts_before (h : Career limit id (some c) os)
    (hstage : c.stage.told id c.request.cacheKey = []) :
    ∃ attempts, (∀ a ∈ attempts, RetryPolicy.isTransient a.result = true) ∧
      c.attempt = attempts.length + c.stage.attempts ∧ attempts.length < limit ∧
      os = tried id c.request c.isTrial attempts := by
  cases h with
  | @underway _ attempts htransient hnumber hleft =>
    rw [hstage]
    exact ⟨attempts, htransient, hnumber, hleft, rfl⟩

/-- The attempt that a call is at ends. -/
theorem Career.attempt_ends (h : Career limit id (some c) os) (hstage : c.stage.attempts = 1)
    (result : Except Error CapabilitySet) :
    ∃ wasAsked attempts, (∀ a ∈ attempts, RetryPolicy.isTransient a.result = true) ∧
      c.attempt = attempts.length + 1 ∧ attempts.length < limit ∧
      .attempted id result :: os =
        tried id c.request c.isTrial (⟨wasAsked, result⟩ :: attempts) := by
  cases h with
  | @underway _ attempts htransient hnumber hleft =>
    rw [hstage] at hnumber
    cases hc : c.stage with
    | waiting => exact ⟨false, attempts, htransient, hnumber, hleft, rfl⟩
    | resolving => exact ⟨true, attempts, htransient, hnumber, hleft, rfl⟩
    | pausing => simp [hc, Stage.attempts] at hstage

/-! ## The invariant -/

variable {α : Type} {s t u : Service α} {host : Host} {d : Call} {settings : ServiceSettings}

theorem AttemptEnds.attempts_eq {event : Event} (h : AttemptEnds now s id c event result) :
    c.stage.attempts = 1 := by
  cases h with
  | replied _ hc => rw [hc]; rfl
  | lockTimedOut hc => rw [hc]; rfl
  | timedOut hc => rcases hc with hc | ⟨_, _, hc⟩ <;> rw [hc] <;> rfl

/-- **Every call has a career.** -/
structure Recounted (settings : ServiceSettings) (s : Service α) : Prop where
  settings_eq : s.settings = settings
  career (id : Nat) :
    Career settings.retry.maxAttempts id (s.call? id) (told s.journal id)
  unseen {id : Nat} : s.asked ≤ id → told s.journal id = []

/-- An attempt of a call begins, and that is all. -/
structure Tries (id : Nat) (c : Call) (s t : Service α) : Prop where
  settings_eq : t.settings = s.settings
  asked_eq : t.asked = s.asked
  goes_on : ∃ (now : Nat) (stage : Stage), stage.attempts = 1 ∧
    (∀ j, t.call? j = if j = id then some { c with stage } else s.call? j) ∧
    t.journal = (stage.told id c.request.cacheKey).map (⟨now, ·⟩) ++ s.journal

theorem tries_invoke (lock : Lock Nat) (now id : Nat) (c : Call) (limit : Option WaitLimit) :
    Tries id c s ({ s with lock }.invoke now id c limit) where
  settings_eq := rfl
  asked_eq := rfl
  goes_on := ⟨now, _, rfl, fun _ => call?_setCall, rfl⟩

theorem tries_beginAttempt (now id : Nat) (c : Call) :
    Tries id c s (s.beginAttempt now id c) := by
  obtain ⟨lock, limit, heq | heq⟩ := beginAttempt_cases s now id c
  · rw [heq]
    exact ⟨rfl, rfl, now, .waiting _, rfl, fun _ => call?_setCall, rfl⟩
  · rw [heq]
    exact tries_invoke _ _ _ _ _

namespace Recounted

/-- Lines about one call are written down, and it ends or is at another
stage. -/
theorem change (h : Recounted settings s) (id : Nat) (c? : Option Call) (lines : List JournalLine)
    (habout : ∀ l ∈ lines, l.occurrence.caller? = some id)
    (hjournal : t.journal = lines ++ s.journal)
    (hcall : ∀ j, t.call? j = if j = id then c? else s.call? j)
    (hcareer : Career settings.retry.maxAttempts id c?
      (lines.map (·.occurrence) ++ told s.journal id))
    (hsettings : t.settings = s.settings) (hasked : s.asked ≤ t.asked) (hid : id < t.asked) :
    Recounted settings t where
  settings_eq := hsettings.trans h.settings_eq
  career j := by
    rw [hcall, hjournal, told_append, told_of_about habout]
    split
    · next hj => exact hj ▸ hcareer
    · exact h.career j
  unseen {j} hj := by
    rw [hjournal, told_append, told_of_about habout, if_neg (by omega)]
    exact h.unseen (by omega)

/-- A number that is not given yet is that of no call. -/
theorem call?_of_le (h : Recounted settings s) (hid : s.asked ≤ id) : s.call? id = none := by
  have hcareer := h.career id
  rw [h.unseen hid] at hcareer
  cases hc : s.call? id with
  | none => rfl
  | some c =>
    rw [hc] at hcareer
    generalize hos : ([] : List Occurrence) = os at hcareer
    cases hcareer with
    | underway => simp [tried] at hos

theorem lt_of_call (h : Recounted settings s) (hc : s.call? id = some c) : id < s.asked :=
  Nat.lt_of_not_le fun hle => by simp [h.call?_of_le hle] at hc

theorem career_of_call (h : Recounted settings s) (hc : s.call? id = some c) :
    Career settings.retry.maxAttempts id (some c) (told s.journal id) :=
  hc ▸ h.career id

/-- Nothing but the calls and the journal matters. -/
theorem of_eq (h : Recounted settings s) (hsettings : t.settings = s.settings)
    (hcalls : t.calls = s.calls) (hasked : t.asked = s.asked)
    (htold : ∀ id, told t.journal id = told s.journal id) : Recounted settings t where
  settings_eq := hsettings.trans h.settings_eq
  career id := by
    rw [call?_congr hcalls, htold]
    exact h.career id
  unseen hid := by
    rw [htold]
    exact h.unseen (hasked ▸ hid)

/-! ## The parts of a step -/

/-- A call begins that does not pass the circuit. -/
theorem turnAway (h : Recounted settings s) (lines : List JournalLine)
    (habout : ∀ l ∈ lines, l.occurrence.caller? = some s.asked)
    (hnot : ∀ isTrial, ∀ l ∈ lines, l.occurrence ≠ .passed s.asked isTrial)
    (hjournal : u.journal = lines ++ s.journal) (hcalls : u.calls = s.calls)
    (hsettings : u.settings = s.settings) (hasked : u.asked = s.asked + 1) :
    Recounted settings (u.finish now s.asked result) := by
  refine h.change s.asked none (⟨now, .answered s.asked result⟩ :: lines) ?_ ?_ (fun j => ?_) ?_
    hsettings ?_ ?_
  · exact List.forall_mem_cons.mpr ⟨rfl, habout⟩
  · exact congrArg _ hjournal
  · change (u.dropCall s.asked).call? j = _
    rw [call?_dropCall, call?_congr hcalls]
  · rw [h.unseen (Nat.le_refl _), List.append_nil]
    refine .turnedAway fun isTrial hpassed => ?_
    obtain ⟨l, hl, ho⟩ := List.mem_map.mp hpassed
    rcases List.mem_cons.mp hl with rfl | hl
    · cases ho
    · exact hnot isTrial l hl ho
  · exact hasked ▸ Nat.le_succ s.asked
  · exact hasked ▸ Nat.lt_succ_self s.asked

/-- An attempt of a call begins, after lines about it were written down. -/
theorem tries (h : Recounted settings s) (htries : Tries id d u t)
    (lines : List JournalLine) (habout : ∀ l ∈ lines, l.occurrence.caller? = some id)
    (hjournal : u.journal = lines ++ s.journal) (hcalls : u.calls = s.calls)
    (hsettings : u.settings = s.settings) (hasked : s.asked ≤ u.asked) (hid : id < u.asked)
    (attempts : List Attempt)
    (htold : lines.map (·.occurrence) ++ told s.journal id =
      tried id d.request d.isTrial attempts)
    (htransient : ∀ a ∈ attempts, RetryPolicy.isTransient a.result = true)
    (hnumber : d.attempt = attempts.length + 1)
    (hleft : attempts.length < settings.retry.maxAttempts) : Recounted settings t := by
  obtain ⟨now, stage, hstage, hcall, ht⟩ := htries.goes_on
  refine h.change id (some { d with stage })
    ((stage.told id d.request.cacheKey).map (⟨now, ·⟩) ++ lines) ?_ ?_ (fun j => ?_) ?_
    (htries.settings_eq.trans hsettings) (htries.asked_eq ▸ hasked) (htries.asked_eq ▸ hid)
  · refine List.forall_mem_append.mpr ⟨?_, habout⟩
    cases stage <;> simp [Stage.told, Occurrence.caller?]
  · rw [ht, hjournal, List.append_assoc]
  · rw [hcall, call?_congr hcalls]
  · rw [List.map_append, List.append_assoc, htold, List.map_map]
    simp only [Function.comp_def, List.map_id']
    exact .underway { d with stage } attempts htransient (by rw [hstage, ← hnumber]) hleft

/-- An attempt of a call begins that waited for it. -/
theorem goesOn (h : Recounted settings s) (hc : s.call? id = some c)
    (hstage : c.stage.told id c.request.cacheKey = []) (htries : Tries id d u t)
    (hrequest : d.request = c.request) (htrial : d.isTrial = c.isTrial)
    (hattempt : d.attempt + c.stage.attempts = c.attempt + 1) (hjournal : u.journal = s.journal)
    (hcalls : u.calls = s.calls) (hsettings : u.settings = s.settings)
    (hasked : u.asked = s.asked) : Recounted settings t := by
  obtain ⟨attempts, htransient, hnumber, hleft, htold⟩ :=
    (h.career_of_call hc).attempts_before hstage
  refine h.tries htries [] (by simp) hjournal hcalls hsettings (Nat.le_of_eq hasked.symm)
    (hasked ▸ h.lt_of_call hc) attempts ?_ htransient (by omega) hleft
  rw [hrequest, htrial, ← htold]
  rfl

/-- The last attempt of a call ends, and so does the call. -/
theorem settles (h : Recounted settings s) (now : Nat) (hc : s.call? id = some c)
    (hstage : c.stage.attempts = 1) (result : Except Error CapabilitySet) (kept : Bool)
    (hfinal : RetryPolicy.isTransient result = true → settings.retry.maxAttempts ≤ c.attempt)
    (hjournal : t.journal =
      (ending id c.request.cacheKey kept result).map (⟨now, ·⟩) ++
        ⟨now, .attempted id result⟩ :: s.journal)
    (hcall : ∀ j, t.call? j = if j = id then none else s.call? j)
    (hsettings : t.settings = s.settings) (hasked : t.asked = s.asked) :
    Recounted settings t := by
  obtain ⟨wasAsked, attempts, htransient, hnumber, hleft, htold⟩ :=
    (h.career_of_call hc).attempt_ends hstage result
  refine h.change id none
    ((ending id c.request.cacheKey kept result).map (⟨now, ·⟩) ++ [⟨now, .attempted id result⟩])
    ?_ (by rw [hjournal, List.append_assoc]; rfl) hcall ?_ hsettings
    (Nat.le_of_eq hasked.symm) (hasked ▸ h.lt_of_call hc)
  · cases result <;> simp [ending, Occurrence.caller?]
  · rw [List.map_append, List.append_assoc, List.map_map]
    simp only [Function.comp_def, List.map_id', List.map_singleton, List.singleton_append, htold]
    exact .ended _ _ _ ⟨wasAsked, result⟩ attempts htransient hleft fun hresult =>
      Nat.le_antisymm hleft (hnumber ▸ hfinal hresult)

/-- A call begins. -/
theorem begins [Scalar α] (h : Recounted settings s) (hs : Begins now s r t) :
    Recounted settings t := by
  have hpositive : 0 < settings.retry.maxAttempts :=
    Nat.lt_min.mpr ⟨Nat.succ_pos _, by decide⟩
  cases hs with
  | disposed | invalid =>
    exact h.turnAway (u := s.begin now r) [⟨now, .asked s.asked r⟩] (by simp [Occurrence.caller?])
      (by simp) rfl rfl rfl rfl
  | limited =>
    exact h.turnAway [⟨now, .rated s.asked false⟩, ⟨now, .asked s.asked r⟩]
      (by simp [Occurrence.caller?]) (by simp) rfl rfl rfl rfl
  | hit =>
    exact h.turnAway (u := s.arrive now r) [⟨now, .rated s.asked true⟩, ⟨now, .asked s.asked r⟩]
      (by simp [Occurrence.caller?]) (by simp) rfl rfl rfl rfl
  | refused =>
    exact h.turnAway (u := (s.arrive now r).meetCircuit now)
      [⟨now, .rated s.asked true⟩, ⟨now, .asked s.asked r⟩] (by simp [Occurrence.caller?])
      (by simp) rfl rfl rfl rfl
  | @passed isTrial =>
    refine h.tries (tries_beginAttempt _ _ _)
      [⟨now, .passed s.asked isTrial⟩, ⟨now, .rated s.asked true⟩, ⟨now, .asked s.asked r⟩]
      (by simp [Occurrence.caller?]) rfl rfl rfl (Nat.le_succ _) (Nat.lt_succ_self _)
      [] ?_ (by simp) rfl hpositive
    rw [h.unseen (Nat.le_refl _)]
    rfl

/-- **A step keeps the careers.** -/
theorem advance [Scalar α] {event : Event} (h : Recounted settings s)
    (hs : Advance host now s event t) : Recounted settings t := by
  cases hs with
  | began hbegins => exact h.begins hbegins
  | granted hc hline =>
    exact h.goesOn hc (by rw [hline]; rfl) (tries_invoke _ _ _ _ _) rfl rfl
      (by rw [hline]; rfl) rfl rfl rfl rfl
  | @resumed id c wakeAt hc hrest =>
    exact h.goesOn (d := { c with attempt := c.attempt + 1 }) hc (by rw [hrest]; rfl)
      (tries_beginAttempt _ _ _) rfl rfl (by rw [hrest]; rfl) rfl rfl rfl rfl
  | @paused _ id c e delay hc hends hverdict =>
    obtain ⟨htransient, hleft⟩ := RetryPolicy.of_verdict_again hverdict
    obtain ⟨wasAsked, attempts, hbefore, hnumber, -, htold⟩ :=
      (h.career_of_call hc).attempt_ends hends.attempts_eq (.error e)
    refine h.change id (some { c with stage := .pausing (Instant.after now delay) })
      [⟨now, .attempted id (.error e)⟩] (by simp [Occurrence.caller?]) rfl
      (fun _ => call?_setCall) ?_ rfl (Nat.le_refl _) (h.lt_of_call hc)
    rw [List.map_singleton, List.singleton_append, htold]
    refine .underway { c with stage := .pausing _ } (⟨wasAsked, .error e⟩ :: attempts) ?_
      hnumber ?_
    · exact List.forall_mem_cons.mpr ⟨htransient, hbefore⟩
    · rw [← h.settings_eq, List.length_cons, ← hnumber]
      exact hleft
  | @failed _ id c e hc hends hverdict =>
    refine h.settles now hc hends.attempts_eq (.error e) false
      (fun htransient => h.settings_eq ▸ RetryPolicy.of_verdict_final hverdict htransient) ?_
      (fun _ => call?_dropCall) rfl rfl
    rw [ending, ← RetryPolicy.root_exhausted (n := c.attempt)]
    rfl
  | @succeeded _ id c v hc hends =>
    exact h.settles now hc hends.attempts_eq (.ok v) (s.cache.insert now c.request.cacheKey v).2.isKept
      nofun rfl (fun _ => call?_dropCall) rfl rfl
  | @gaveUp _ id c o hc hgives =>
    have ho : o = .panicked id ∨ o = .abandoned id := by
      cases hgives <;> simp
    refine h.change id none [⟨now, o⟩] ?_ rfl (fun _ => call?_dropCall) ?_ rfl (Nat.le_refl _)
      (h.lt_of_call hc)
    · rcases ho with rfl | rfl <;> simp [Occurrence.caller?]
    · refine .givenUp (fun result hanswered => ?_) ?_
      · rcases List.mem_cons.mp hanswered with heq | hanswered
        · rcases ho with rfl | rfl <;> cases heq
        · exact (h.career_of_call hc).not_answered hanswered
      · rcases ho with rfl | rfl <;> simp
  | tended ht =>
    refine h.of_eq ht.settings_eq ht.calls_eq ht.asked_eq fun id => ?_
    rcases ht.journal_eq with hj | hj <;> rw [hj]
    rfl

/-- **And so does a history.** -/
theorem run [Scalar α] (h : Recounted settings s.quiet) (events : List (Nat × Event)) :
    Recounted settings (s.run host events).quiet :=
  run_induction (fun _ _ _ _ h hs => h.advance hs) h

/-- A service starts without calls. -/
theorem start [Scalar α] (settings : ServiceSettings) (canReclaim background : Bool) (now : Nat) :
    Recounted settings
      (Service.start host settings canReclaim background now : Service α).quiet := by
  have hidle : Recounted settings (idle settings canReclaim now : Service α).quiet := {
    settings_eq := rfl
    career := fun _ => .turnedAway (by simp [told, idle, quiet])
    unseen := fun _ => rfl }
  rw [Service.start, quiet_report]
  cases background with
  | true => exact hidle.of_eq rfl rfl rfl fun _ => rfl
  | false => exact hidle

end Recounted

end Service

end CapabilityBroker
