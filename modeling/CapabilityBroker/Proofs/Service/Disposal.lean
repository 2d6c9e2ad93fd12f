import CapabilityBroker.Proofs.Service.Exclusion
import CapabilityBroker.Proofs.Service.Exits
/-!
# After the shutdown

A service that is shut down empties its cache and turns away whoever comes
later. The calls on their way go on, and the answer of each of them is
stored like any other. So nothing gets into the cache any more but what
those calls bring (`LeftOver`), and the cache is sure to stay empty exactly
if there is no such call, or if it keeps nothing at all
(`stays_empty_iff`). Any call on its way can bring something: once the
others have given up, nobody keeps it from the lock.
-/

namespace CapabilityBroker

namespace Service

variable {α : Type} {host : Host} {s t u : Service α} {now id : Nat} {c d : Call} {event : Event}

/-! ## The calls that are left -/

/-- Every call on its way was on its way before, with the same request. -/
def NoNewCalls (s t : Service α) : Prop :=
  ∀ id c, t.call? id = some c → ∃ d, s.call? id = some d ∧ d.request = c.request

namespace NoNewCalls

theorem of_eq (h : t.calls = s.calls) : NoNewCalls s t :=
  fun _ c hc => ⟨c, call?_congr h ▸ hc, rfl⟩

theorem trans (h : NoNewCalls s t) (h' : NoNewCalls t u) : NoNewCalls s u := by
  intro id c hc
  obtain ⟨d, hd, hrequest⟩ := h' id c hc
  obtain ⟨b, hb, hrequest'⟩ := h id d hd
  exact ⟨b, hb, hrequest'.trans hrequest⟩

/-- A call goes over to another stage. -/
theorem setCall (hc : s.call? id = some c) (hcalls : t.calls = (s.setCall id d).calls)
    (hrequest : d.request = c.request) : NoNewCalls s t := by
  intro j b hb
  rw [call?_congr hcalls, call?_setCall] at hb
  split at hb
  · next hj =>
    obtain rfl := Option.some.inj hb
    exact ⟨c, hj ▸ hc, hrequest.symm⟩
  · exact ⟨b, hb, rfl⟩

/-- A call ends. -/
theorem dropCall (hcalls : t.calls = (s.dropCall id).calls) : NoNewCalls s t := by
  intro j b hb
  rw [call?_congr hcalls, call?_dropCall] at hb
  split at hb
  · cases hb
  · exact ⟨b, hb, rfl⟩

end NoNewCalls

/-! ## What a step does after the shutdown -/

/-- **What may be done to a service that is shut down.** The cache is
tended, unless the resolver has replied to a call. -/
structure WindsDown (now : Nat) (s : Service α) (event : Event) (t : Service α) : Prop where
  isDisposed : t.isDisposed = true
  noNewCalls : NoNewCalls s t
  cache : s.cache.Tended now t.cache ∨ ∃ id c v, s.call? id = some c ∧
    event = .reply id (.done (.ok v)) ∧ t.cache = (s.cache.insert now c.request.cacheKey v).1

/-- A call that goes over to another stage leaves everything else alone but
the lock. -/
theorem windsDown_setCall (hs : s.isDisposed = true) (hc : s.call? id = some c)
    (hcalls : t.calls = (s.setCall id d).calls) (hrequest : d.request = c.request)
    (hcache : t.cache = s.cache) (hdisposed : t.isDisposed = s.isDisposed) :
    WindsDown now s event t where
  isDisposed := hdisposed.trans hs
  noNewCalls := .setCall hc hcalls hrequest
  cache := Or.inl (hcache ▸ .untouched)

theorem windsDown_dropCall (hs : s.isDisposed = true) (hcalls : t.calls = (s.dropCall id).calls)
    (hcache : t.cache = s.cache) (hdisposed : t.isDisposed = s.isDisposed) :
    WindsDown now s event t where
  isDisposed := hdisposed.trans hs
  noNewCalls := .dropCall hcalls
  cache := Or.inl (hcache ▸ .untouched)

/-- A call that comes to the lock has another stage then. -/
theorem beginAttempt_eq (s : Service α) (now id : Nat) (c : Call) : ∃ stage,
    (s.beginAttempt now id c).calls = (s.setCall id { c with stage }).calls ∧
      (s.beginAttempt now id c).cache = s.cache ∧
      (s.beginAttempt now id c).isDisposed = s.isDisposed := by
  obtain ⟨lock, limit, heq | heq⟩ := beginAttempt_cases s now id c
  all_goals
    rw [heq]
    exact ⟨_, rfl, rfl, rfl⟩

/-- **A service that is shut down winds down**, step by step. -/
theorem Advance.windsDown [Scalar α] (h : Advance host now s event t) (hs : s.isDisposed = true) :
    WindsDown now s event t := by
  cases h with
  | began hbegins =>
    cases hbegins with
    | disposed => exact windsDown_dropCall hs rfl rfl rfl
    | invalid hopen => simp [hs] at hopen
    | limited hopen => simp [hs] at hopen
    | hit hopen => simp [hs] at hopen
    | refused hopen => simp [hs] at hopen
    | passed hopen => simp [hs] at hopen
  | granted hc => exact windsDown_setCall hs hc rfl rfl rfl rfl
  | @resumed id c _ hc =>
    obtain ⟨stage, hcalls, hcache, hdisposed⟩ :=
      beginAttempt_eq s now id { c with attempt := c.attempt + 1 }
    exact windsDown_setCall hs hc hcalls rfl hcache hdisposed
  | paused hc => exact windsDown_setCall hs hc rfl rfl rfl rfl
  | failed => exact windsDown_dropCall hs rfl rfl rfl
  | gaveUp => exact windsDown_dropCall hs rfl rfl rfl
  | succeeded hc hends =>
    cases hends with
    | replied => exact ⟨hs, .dropCall rfl, Or.inr ⟨_, _, _, hc, rfl, rfl⟩⟩
  | tended ht => exact ⟨ht.isDisposed_mono hs, .of_eq ht.calls_eq, Or.inl ht.cache_tended⟩

theorem windsDown_step [Scalar α] (hs : s.isDisposed = true) (event : Event) :
    WindsDown now s event (s.step host now event) := by
  have h : WindsDown now s.quiet event (s.step host now event).quiet :=
    (advance_step s event).windsDown hs
  exact ⟨h.isDisposed, h.noNewCalls, h.cache⟩

/-! ## After any events -/

/-- **What is left of a service that was shut down in a state**: calls that
were on their way then, and answers of the resolver to such calls. -/
structure LeftOver (s : Service α) (events : List (Nat × Event)) (t : Service α) : Prop where
  isDisposed : t.isDisposed = true
  noNewCalls : NoNewCalls s t
  entry {k : CacheKey} {e : Cache.Entry} : t.cache.find? k = some e →
    ∃ id d, s.call? id = some d ∧ d.request.cacheKey = k ∧
      (e.createdAt, .reply id (.done (.ok e.value))) ∈ events

theorem LeftOver.step {events : List (Nat × Event)} (h : LeftOver s events t)
    (hevent : (now, event) ∈ events) (hu : WindsDown now t event u) : LeftOver s events u where
  isDisposed := hu.isDisposed
  noNewCalls := h.noNewCalls.trans hu.noNewCalls
  entry {k e} he := by
    rcases hu.cache with htended | ⟨id, c, v, hc, rfl, hcache⟩
    · exact h.entry (htended.within.find? he)
    · rw [hcache] at he
      rcases Cache.find?_insert he with ⟨rfl, rfl, rfl, -⟩ | ⟨-, hbefore⟩
      · obtain ⟨d, hd, hrequest⟩ := h.noNewCalls id c hc
        exact ⟨id, d, hd, congrArg Request.cacheKey hrequest, hevent⟩
      · exact h.entry hbefore

theorem LeftOver.run [Scalar α] {events later : List (Nat × Event)} (h : LeftOver s events t)
    (hlater : later ⊆ events) : LeftOver s events (t.run host later) := by
  induction later generalizing t with
  | nil => exact h
  | cons e later ih =>
    obtain ⟨he, hlater⟩ := List.cons_subset.mp hlater
    exact ih (h.step he (windsDown_step h.isDisposed e.2)) hlater

/-! ## Where nothing comes any more -/

/-- A service that is shut down, and whose cache is empty and stays so: no
call is on its way, or whatever they bring is refused. -/
structure Bare (t : Service α) : Prop where
  isDisposed : t.isDisposed = true
  isEmpty : t.cache.IsEmpty
  nothing_comes : (∀ id, t.call? id = none) ∨ t.cache.KeepsNothing

theorem Bare.step (h : t.Bare) (hu : WindsDown now t event u) : u.Bare := by
  have hcache : u.cache = t.cache := by
    rcases hu.cache with htended | ⟨id, c, v, hc, -, hinsert⟩
    · exact h.isEmpty.tended_eq htended
    · rcases h.nothing_comes with hnone | hnothing
      · rw [hnone id] at hc
        cases hc
      · exact hinsert.trans (h.isEmpty.insert_eq hnothing _ _ _)
  refine ⟨hu.isDisposed, hcache ▸ h.isEmpty, ?_⟩
  rcases h.nothing_comes with hnone | hnothing
  · refine Or.inl fun id => Option.eq_none_iff_forall_ne_some.mpr fun c hc => ?_
    obtain ⟨d, hd, -⟩ := hu.noNewCalls id c hc
    rw [hnone id] at hd
    cases hd
  · exact Or.inr (hcache ▸ hnothing)

theorem Bare.run [Scalar α] (h : t.Bare) (later : List (Nat × Event)) :
    (t.run host later).Bare := by
  induction later generalizing t with
  | nil => exact h
  | cons e later ih => exact ih (h.step (windsDown_step h.isDisposed e.2))

/-! ## A call that is left alone -/

/-- All events happen at one instant. -/
def AllAt (now : Nat) (events : List (Nat × Event)) : Prop := ∀ e ∈ events, e.1 = now

theorem AllAt.append {events later : List (Nat × Event)} (h : AllAt now events)
    (h' : AllAt now later) : AllAt now (events ++ later) :=
  List.forall_mem_append.mpr ⟨h, h'⟩

theorem AllAt.inOrder {start : Nat} {events : List (Nat × Event)} (h : AllAt now events)
    (hle : start ≤ now) : InOrder start events := by
  have hall : ∀ t ∈ events.map (·.1), t = now := List.forall_mem_map.mpr h
  refine List.pairwise_cons.mpr ⟨fun t ht => hall t ht ▸ hle, ?_⟩
  exact List.pairwise_of_forall_mem_list fun t ht u hu =>
    Nat.le_of_eq ((hall t ht).trans (hall u hu).symm)

section Alone

variable [Scalar α] (host : Host)

/-- A caller that gives up takes its call away, and nothing from the cache. -/
theorem step_abandon (s : Service α) (now id : Nat) :
    (∀ j, (s.step host now (.abandon id)).call? j = if j = id then none else s.call? j) ∧
      (s.step host now (.abandon id)).cache = s.cache := by
  simp only [step, abandon?]
  cases hc : s.call? id with
  | none =>
    refine ⟨fun j => ?_, rfl⟩
    split
    · next hj => exact hj ▸ hc
    · rfl
  | some c => exact ⟨fun j => call?_dropCall, rfl⟩

/-- And so do several. -/
theorem run_abandon (s : Service α) (now : Nat) (ids : List Nat) :
    let t := s.run host (ids.map fun id => (now, .abandon id))
    (∀ j, t.call? j = if j ∈ ids then none else s.call? j) ∧ t.cache = s.cache := by
  induction ids generalizing s with
  | nil => exact ⟨fun j => (if_neg List.not_mem_nil).symm, rfl⟩
  | cons id ids ih =>
    obtain ⟨hcall, hcache⟩ := step_abandon host s now id
    obtain ⟨hcalls, hcaches⟩ := ih (s.step host now (.abandon id))
    refine ⟨fun j => (hcalls j).trans ?_, hcaches.trans hcache⟩
    rw [hcall j]
    by_cases hj : j = id
    · simp [hj]
    · simp [hj]

/-- **One call is left**, if all others are given up. -/
theorem exists_alone (hc : s.call? id = some c) (now : Nat) :
    ∃ later : List (Nat × Event), AllAt now later ∧ (s.run host later).call? id = some c ∧
      (∀ j, j ≠ id → (s.run host later).call? j = none) ∧
      (s.run host later).cache = s.cache := by
  obtain ⟨hcall, hcache⟩ := run_abandon host s now ((s.calls.map (·.1)).filter (· ≠ id))
  refine ⟨_, List.forall_mem_map.mpr fun _ _ => rfl, ?_, fun j hj => ?_, hcache⟩
  · rw [hcall, if_neg (by simp), hc]
  · rw [hcall]
    split
    · rfl
    · next hmem =>
      refine Option.eq_none_iff_forall_ne_some.mpr fun b hb => hmem ?_
      obtain ⟨p, hp, -⟩ := Option.map_eq_some_iff.mp hb
      have hkey : p.1 = j := by simpa using List.find?_some hp
      simpa [hj] using ⟨p.2, hkey ▸ List.mem_of_find?_eq_some hp⟩

variable {host} in
theorem run_poll (h : s.poll? host now id = some t) : s.run host [(now, .poll id)] = t := by
  simp [run, step, h]

/-- A call of a service is at the resolver. -/
def AtResolver (s : Service α) (id : Nat) : Prop :=
  ∃ c, s.call? id = some c ∧ c.stage.isResolving = true

omit [Scalar α] in
theorem atResolver_invoke (s : Service α) (now id : Nat) (c : Call) (limit : Option WaitLimit) :
    (s.invoke now id c limit).AtResolver id :=
  ⟨_, call?_setCall.trans (if_pos rfl), rfl⟩

/-- A call that comes to a free lock asks the resolver at once. -/
theorem exists_of_pausing {wakeAt : Nat} (hc : s.call? id = some c)
    (hstage : c.stage = .pausing wakeAt) (hawake : wakeAt ≤ now) (hfree : s.lock.held = false) :
    ∃ later : List (Nat × Event), AllAt now later ∧
      (s.run host later).AtResolver id ∧ (s.run host later).cache = s.cache := by
  have hpoll : s.poll? host now id =
      some (s.beginAttempt now id { c with attempt := c.attempt + 1 }) := by
    simp [poll?, hc, hstage, hawake]
  refine ⟨[(now, .poll id)], List.forall_mem_singleton.mpr rfl, ?_⟩
  rw [run_poll hpoll, beginAttempt, Lock.enter_of_free hfree]
  exact ⟨atResolver_invoke _ _ _ _ _, rfl⟩

/-- And so does one that looks and finds that it has been handed the lock. -/
theorem exists_of_granted {limit granted : Option WaitLimit} (hc : s.call? id = some c)
    (hstage : c.stage = .waiting limit) (hstake : s.lock.stake? id = some (.granted granted))
    (now : Nat) :
    ∃ later : List (Nat × Event), AllAt now later ∧
      (s.run host later).AtResolver id ∧ (s.run host later).cache = s.cache := by
  have hpoll : s.poll? host now id =
      some ({ s with lock := s.lock.setStake id .holding }.invoke now id c limit) := by
    simp [poll?, hc, hstage, Lock.look, hstake]
  refine ⟨[(now, .poll id)], List.forall_mem_singleton.mpr rfl, ?_⟩
  rw [run_poll hpoll]
  exact ⟨atResolver_invoke _ _ _ _ _, rfl⟩

/-- **A call that is left alone gets to the resolver**, when its pause is
over. The lock is free, or it has been handed to the call. -/
theorem exists_resolving (h : s.Housed) (hc : s.call? id = some c)
    (halone : ∀ j, j ≠ id → s.call? j = none)
    (hawake : ∀ wakeAt, c.stage = .pausing wakeAt → wakeAt ≤ now) :
    ∃ later : List (Nat × Event), AllAt now later ∧
      (s.run host later).AtResolver id ∧ (s.run host later).cache = s.cache := by
  have hplace := h.place_of_call hc
  have hothers : ∀ j, j ≠ id → s.lock.place j = .outside := fun j hj => by
    rw [h.place_eq, halone j hj]
    rfl
  cases hstage : c.stage with
  | resolving =>
    exact ⟨[], List.forall_mem_nil _, ⟨c, hc, by simp [hstage, Stage.isResolving]⟩, rfl⟩
  | pausing wakeAt =>
    refine exists_of_pausing host hc hstage (hawake wakeAt hstage)
      (h.sound.free_of_outside fun j => ?_).1
    by_cases hj : j = id
    · rw [hj, hplace, hstage]
      rfl
    · exact hothers j hj
  | waiting limit =>
    -- it cannot be waiting for anybody else
    have hnobody : ∀ j, s.lock.Owns j → j = id := by
      rintro j ⟨stake, hstake, -⟩
      by_cases hj : j = id
      · exact hj
      · rw [Lock.stake?_eq_none_iff.mpr (hothers j hj)] at hstake
        cases hstake
    have hinLine : s.lock.place id = .inLine := by
      rw [hplace, hstage]
      rfl
    cases hstake : s.lock.stake? id with
    | none => simp [Lock.place, Lock.Place.of, hstake] at hinLine
    | some stake =>
      cases stake with
      | holding => simp [Lock.place, Lock.Place.of, hstake] at hinLine
      | granted granted => exact exists_of_granted host hc hstage hstake now
      | waiting _ =>
        have hqueue := (h.sound.mem_queue id).mpr ⟨_, hstake⟩
        have hheld : s.lock.held = true := by
          cases hheld : s.lock.held with
          | true => rfl
          | false => simp [h.sound.queue_eq_nil hheld] at hqueue
        obtain ⟨j, hj⟩ := h.sound.held_iff.mp hheld
        obtain rfl := hnobody j hj
        exact absurd ⟨_, hstake⟩ hj.not_waits

/-- From some instant on the pause of a call is over, if it has one. -/
theorem exists_awake (stage : Stage) (start : Nat) :
    ∃ now, start ≤ now ∧ ∀ wakeAt, stage = .pausing wakeAt → wakeAt ≤ now := by
  cases stage with
  | waiting | resolving => exact ⟨start, Nat.le_refl start, nofun⟩
  | pausing wakeAt =>
    refine ⟨max start wakeAt, Nat.le_max_left _ _, fun wakeAt' h => ?_⟩
    obtain rfl := Stage.pausing.inj h
    exact Nat.le_max_right _ _

/-- **What the resolver replies is stored**, whether the service is shut
down or not. -/
theorem cache_reply (h : s.AtResolver id) (now : Nat) (v : CapabilitySet) : ∃ k,
    (s.step host now (.reply id (.done (.ok v)))).cache = (s.cache.insert now k v).1 := by
  obtain ⟨c, hc, hresolving⟩ := h
  cases hstage : c.stage with
  | waiting => simp [hstage, Stage.isResolving] at hresolving
  | pausing => simp [hstage, Stage.isResolving] at hresolving
  | resolving invocation since limit =>
    have hreply : s.step host now (.reply id (.done (.ok v))) =
        (s.leaveLock id).endAttempt host now id c (.ok v) := by
      simp [step, reply?, hc, hstage]
    have hquiet : ((s.leaveLock id).endAttempt host now id c (.ok v)).quiet.cache =
        (s.cache.insert now c.request.cacheKey v).1 := by
      rw [quiet_endAttempt_ok]
      rfl
    exact ⟨c.request.cacheKey, hreply ▸ hquiet⟩

/-- **Every call on its way can fill an empty cache**, if the cache keeps
anything. -/
theorem exists_entry (h : s.Housed) (hc : s.call? id = some c) (hempty : s.cache.IsEmpty)
    (hkeeps : ¬ s.cache.KeepsNothing) (start : Nat) :
    ∃ later : List (Nat × Event), InOrder start later ∧
      (s.run host later).cache.entries ≠ [] := by
  obtain ⟨now, hstart, hawake⟩ := exists_awake c.stage start
  obtain ⟨giveUps, hat, hmine, halone, hgiveUps⟩ := exists_alone host hc now
  obtain ⟨polls, hat', hthere, hpolls⟩ :=
    exists_resolving host (h.run giveUps) hmine halone hawake
  obtain ⟨v, hv⟩ := hempty.exists_insert hkeeps
  obtain ⟨k, hstored⟩ := cache_reply host hthere now v
  have hreply : AllAt now [(now, .reply id (.done (.ok v)))] := List.forall_mem_singleton.mpr rfl
  refine ⟨giveUps ++ (polls ++ [(now, .reply id (.done (.ok v)))]),
    (hat.append (hat'.append hreply)).inOrder hstart, ?_⟩
  rw [run_append, run_append]
  change (((s.run host giveUps).run host polls).step host now
    (.reply id (.done (.ok v)))).cache.entries ≠ []
  rw [hstored, hpolls, hgiveUps]
  exact hv now k

end Alone

/-! ## The shutdown -/

/-- The cache of a service that is shut down is empty at once. -/
theorem isEmpty_dispose (hopen : s.isDisposed = false) (now : Nat) :
    (s.dispose now).isDisposed = true ∧ (s.dispose now).calls = s.calls ∧
      (s.dispose now).cache = s.cache.clear := by
  simp only [dispose, hopen]
  exact ⟨rfl, rfl, rfl⟩

/-- **What the shutdown of a service comes to.** Its cache is empty then.
Later calls are answered that the service is shut down, and change none of
its parts. Whatever gets into the cache later was replied to a call that
was on its way. So the cache is sure to hold nothing from then on exactly
if no call was on its way, or if it keeps nothing at all; and then it holds
nothing whatever happens. -/
theorem stays_empty_iff [Scalar α] (host : Host) (settings : ServiceSettings)
    (canReclaim background : Bool) (start : Nat) (events : List (Nat × Event)) (now : Nat)
    (hopen : ((Service.start host settings canReclaim background start : Service α).run host
      events).isDisposed = false) :
    let s := (Service.start host settings canReclaim background start : Service α).run host events
    let d := s.dispose now
    (d.cache.entries = [] ∧ d.cache.budget.current = 0) ∧
    (∀ later : List (Nat × Event),
      (∀ now r, ((d.run host later).ask host now r).quiet =
        (d.run host later).quiet.turnAway now r none (.error .disposed)) ∧
      ∀ k e, (d.run host later).cache.find? k = some e → ∃ id c, s.call? id = some c ∧
        c.request.cacheKey = k ∧ (e.createdAt, .reply id (.done (.ok e.value))) ∈ later) ∧
    ((∀ later : List (Nat × Event), InOrder now later → (d.run host later).cache.entries = [] ∧
        (d.run host later).cache.budget.current = 0) ↔
      s.calls = [] ∨ s.cache.KeepsNothing) ∧
    (s.calls = [] ∨ s.cache.KeepsNothing → ∀ later : List (Nat × Event),
      (d.run host later).cache.entries = [] ∧ (d.run host later).cache.budget.current = 0) := by
  intro s d
  obtain ⟨hdisposed, hcalls, hcache⟩ := isEmpty_dispose hopen now
  have hempty : d.cache.IsEmpty := hcache ▸ Cache.IsEmpty.clear _
  have hkeeps : d.cache.KeepsNothing ↔ s.cache.KeepsNothing := by
    rw [hcache]
    exact Iff.rfl
  have hhoused : s.Housed := (Housed.start settings canReclaim background start).run events
  have hleft : ∀ later, LeftOver s later (d.run host later) := fun later =>
    LeftOver.run ⟨hdisposed, .of_eq hcalls, fun he => by simp [hempty.find?_eq_none] at he⟩
      (List.Subset.refl later)
  have hbare : s.calls = [] ∨ s.cache.KeepsNothing → ∀ later : List (Nat × Event),
      (d.run host later).cache.entries = [] ∧ (d.run host later).cache.budget.current = 0 := by
    intro hnothing later
    have hbare : d.Bare := by
      refine ⟨hdisposed, hempty, hnothing.imp (fun hs id => ?_) hkeeps.mpr⟩
      rw [call?_congr hcalls, call?, hs]
      rfl
    have hempty' : (d.run host later).cache.IsEmpty := (hbare.run later).isEmpty
    exact ⟨hempty'.entries_eq, hempty'.current_eq⟩
  refine ⟨⟨hempty.entries_eq, hempty.current_eq⟩, fun later => ⟨fun now r => ?_, ?_⟩,
    ⟨fun hstays => ?_, fun hnothing later _ => hbare hnothing later⟩, hbare⟩
  · exact quiet_ask_of_disposed (hleft later).isDisposed
  · exact fun k e => (hleft later).entry
  · refine Classical.or_iff_not_imp_right.mpr fun hkept => ?_
    cases hs : s.calls with
    | nil => rfl
    | cons p rest =>
      -- a call on its way could fill the cache
      have hp : s.call? p.1 = some p.2 := call?_of_mem hhoused.nodup (by simp [hs])
      have hd : d.call? p.1 = some p.2 := (call?_congr hcalls).trans hp
      have hhoused' : (s.run host [(now, .dispose)]).Housed := hhoused.run _
      obtain ⟨later, horder, hfilled⟩ :=
        exists_entry host hhoused' hd hempty (fun h => hkept (hkeeps.mp h)) now
      exact absurd (hstays later horder).1 hfilled

/-- A service with a call at the resolver. -/
def busyService : Service Rat :=
  (Service.start silentHost {} false false 0).run silentHost
    [(0, .ask { configuration := some {} })]

/-- That call may fill the cache after the shutdown. -/
theorem call_outlives_shutdown :
    busyService.isDisposed = false ∧
      ¬ ∀ later : List (Nat × Event), InOrder 0 later →
        ((busyService.dispose 0).run silentHost later).cache.entries = [] ∧
          ((busyService.dispose 0).run silentHost later).cache.budget.current = 0 := by
  have hopen : busyService.isDisposed = false := by decide +kernel
  obtain ⟨-, -, hiff, -⟩ := stays_empty_iff silentHost {} false false 0 _ 0 hopen
  refine ⟨hopen, fun hstays => ?_⟩
  rcases hiff.mp hstays with hnone | hnone | hroom
  · have hcalls : busyService.calls.length = 1 := by decide +kernel
    have hnone : busyService.calls = [] := hnone
    simp [hnone] at hcalls
  · have hsome : busyService.cache.limits.maxEntries ≠ 0 := by decide +kernel
    exact hsome hnone
  · have hfits : CapabilitySet.empty.byteSize ≤ busyService.cache.budget.maxBytes := by
      decide +kernel
    exact absurd (hroom .empty) (Nat.not_lt_of_le hfits)

/-- Its answer is stored where the shutdown has emptied the cache. -/
theorem late_answer_is_kept :
    (busyService.dispose 0).cache.size = 0 ∧
      ((busyService.dispose 0).run silentHost
        [(1, .reply 0 (.done (.ok .empty)))]).isDisposed = true ∧
      ((busyService.dispose 0).run silentHost
        [(1, .reply 0 (.done (.ok .empty)))]).cache.size = 1 ∧
      ((busyService.dispose 0).run silentHost
        [(1, .reply 0 (.done (.ok .empty)))]).cache.budget.current = 45 := by
  decide +kernel

end Service

end CapabilityBroker
