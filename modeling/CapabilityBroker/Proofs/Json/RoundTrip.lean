import CapabilityBroker.Capability.Codec
import CapabilityBroker.Proofs.Json.Documents
import CapabilityBroker.Request.Codec
/-!
# Sets and requests come back from their texts

The text of a capability set is read as that set, whether its three tables
agree or not, and the text of a request is read as that request. A reader
of one kind of value and its JSON form belong together (`ReadsBack`); for
optional values, records and tables it is enough that their parts do. So
what is written determines what it was written from
(`texts_determine_values`).
-/

namespace CapabilityBroker

namespace Document

/-- A reader makes of the document that a JSON value is written as the
value it was made from. -/
def ReadsBack {α : Type} (read : Document → Option α) (j : Json) (a : α) : Prop :=
  ∃ d, j.document? = some d ∧ read d = some a

variable {α : Type} {read : Document → Option α}

/-- **A reader that belongs to a JSON form** reads its text. -/
theorem ReadsBack.ofString? {j : Json} {a : α} (h : ReadsBack read j a) :
    (Document.ofString? j.render).bind read = some a := by
  obtain ⟨d, hd, ha⟩ := h
  rw [ofString?_render hd]
  exact ha

/-! ## Parts -/

theorem readsBack_string (s : String) : ReadsBack string? (.string s) s := ⟨_, rfl, rfl⟩

theorem readsBack_bool (b : Bool) : ReadsBack bool? (.bool b) b := ⟨_, rfl, rfl⟩

/-- A natural number is read back up to the limit of its field. -/
theorem readsBack_nat {n limit : Nat} (h : n ≤ limit) (hlimit : limit ≤ Numeral.significandLimit) :
    ReadsBack (nat? limit) (.nat n) n := by
  refine ⟨.number (.ofInt n), rfl, ?_⟩
  rw [nat?, Numeral.value?_ofInt (Nat.le_trans h hlimit)]
  exact if_pos h

theorem readsBack_contextWindow (n : UInt32) :
    ReadsBack ModelInfo.contextWindow? (.nat n.toNat) n := by
  have hn : n.toNat ≤ UInt32.size - 1 := Nat.le_pred_of_lt n.toNat_lt
  obtain ⟨d, hd, hread⟩ := readsBack_nat hn (by decide)
  refine ⟨d, hd, ?_⟩
  rw [ModelInfo.contextWindow?, hread, Option.map_some, UInt32.ofNat_toNat]

/-- A part that may be missing is written as null if it is, which no
reader takes for a part. -/
theorem ReadsBack.optional {f : α → Json} (hnull : read .null = none)
    (h : ∀ a, ReadsBack read (f a) a) (a : Option α) :
    ReadsBack (fun d => optional? read (some d)) (.ofOption f a) a := by
  cases a with
  | none => exact ⟨.null, rfl, rfl⟩
  | some a =>
    obtain ⟨d, hd, ha⟩ := h a
    refine ⟨d, hd, ?_⟩
    cases d with
    | null =>
      rw [hnull] at ha
      cases ha
    | _ => simp [optional?, ha]

/-- Items are read back if each of them is. -/
theorem ReadsBack.items {f : α → Json} (h : ∀ a, ReadsBack read (f a) a) (as : List α) :
    ∃ ds, Json.itemDocuments? (as.map f) = some ds ∧ ds.mapM read = some as := by
  induction as with
  | nil => exact ⟨[], rfl, rfl⟩
  | cons a as ih =>
    obtain ⟨d, hd, ha⟩ := h a
    obtain ⟨ds, hds, has⟩ := ih
    refine ⟨d :: ds, Json.itemDocuments?_cons.mpr ⟨d, ds, hd, hds, rfl⟩, ?_⟩
    simp [List.mapM_cons, ha, has]

/-! ## Records -/

/-- The members of an object are written each for itself. -/
theorem memberDocuments?_zip (names : List String) {values : List Json} {ds : List Document}
    (hds : Json.itemDocuments? values = some ds) :
    Json.memberDocuments? (names.zip values) = some ((names.map some).zip ds) := by
  induction values generalizing names ds with
  | nil =>
    obtain rfl := Option.some.inj hds
    cases names <;> rfl
  | cons v vs ih =>
    obtain ⟨d, ds, hd, htail, rfl⟩ := Json.itemDocuments?_cons.mp hds
    cases names with
    | nil => rfl
    | cons name names => exact Json.memberDocuments?_cons.mpr ⟨d, _, hd, ih names htail, rfl⟩

/-- A name that no member has is not found among them. -/
theorem filter_zip_eq_nil {name : String} {names : List String} (h : name ∉ names)
    (ds : List Document) : ((names.map some).zip ds).filter (·.1 == some name) = [] := by
  rw [List.filter_eq_nil_iff]
  intro m hm
  obtain ⟨n, hn, heq⟩ := List.mem_map.mp (List.of_mem_zip hm).1
  have hne : n ≠ name := fun hname => h (hname ▸ hn)
  simpa [← heq] using hne

/-- The member of a name is found where no other member has it. -/
theorem field?_zip {names : List String} (hnames : names.Nodup) {name : String} {ds : List Document}
    {d : Document} (h : (name, d) ∈ names.zip ds) :
    field? name ((names.map some).zip ds) = some (some d) := by
  have hfilter : ((names.map some).zip ds).filter (·.1 == some name) = [(some name, d)] := by
    induction names generalizing ds with
    | nil => cases h
    | cons n names ih =>
      obtain ⟨hn, hnames⟩ := List.nodup_cons.mp hnames
      cases ds with
      | nil => cases h
      | cons e ds =>
        rw [List.map_cons, List.zip_cons_cons]
        rcases List.mem_cons.mp h with heq | h
        · obtain ⟨rfl, rfl⟩ := Prod.mk.inj heq
          rw [List.filter_cons_of_pos (by simp), filter_zip_eq_nil hn]
        · have hne : n ≠ name := fun hname => hn (hname ▸ (List.of_mem_zip h).1)
          rw [List.filter_cons_of_neg (by simpa using hne), ih hnames h]
  rw [field?, hfilter]

theorem mapM_field? {names : List String} {ds : List Document}
    {members : List (Option String × Document)} (hlength : ds.length = names.length)
    (h : ∀ p ∈ names.zip ds, field? p.1 members = some (some p.2)) :
    names.mapM (fun name => field? name members) = some (ds.map some) := by
  induction names generalizing ds with
  | nil =>
    obtain rfl := List.length_eq_zero_iff.mp hlength
    rfl
  | cons name names ih =>
    cases ds with
    | nil => cases hlength
    | cons d ds =>
      have hname := h (name, d) List.mem_cons_self
      have hrest := ih (Nat.succ.inj hlength) fun p hp => h p (List.mem_cons_of_mem _ hp)
      simp [List.mapM_cons, hname, hrest]

/-- **The fields of a record** are found under their names. -/
theorem record?_object {names : List String} (hnames : names.Nodup) {ds : List Document}
    (hlength : ds.length = names.length) :
    record? names (.object ((names.map some).zip ds)) = some (ds.map some) := by
  have hnamed : ((names.map some).zip ds).any (·.1.isNone) = false := by
    rw [List.any_eq_false]
    intro m hm
    obtain ⟨n, -, heq⟩ := List.mem_map.mp (List.of_mem_zip hm).1
    simp [← heq]
  simp only [record?, hnamed, Bool.false_eq_true, if_false]
  exact mapM_field? hlength fun p hp => field?_zip hnames hp

/-- A record is read back if the list of its fields is. -/
theorem ReadsBack.record (names : List String) {values : List Json} {ds : List Document}
    {a : α} (hnames : names.Nodup) (hds : Json.itemDocuments? values = some ds)
    (hlength : ds.length = names.length)
    (hread : ∀ d, record? names d = some (ds.map some) → read d = some a) :
    ReadsBack read (.object (names.zip values)) a := by
  refine ⟨.object ((names.map some).zip ds), ?_, hread _ (record?_object hnames hlength)⟩
  rw [Json.document?, memberDocuments?_zip names hds]
  rfl

end Document

open Document

namespace Configuration

theorem readsBack (c : Configuration) : ReadsBack ofDocument? c.toJson c := by
  obtain ⟨provider, hprovider, hread⟩ := ReadsBack.optional rfl readsBack_string c.provider
  obtain ⟨modelId, hmodelId, hread'⟩ := ReadsBack.optional rfl readsBack_string c.modelId
  have hds : Json.itemDocuments?
      [.ofOption .string c.provider, .ofOption .string c.modelId] = some [provider, modelId] := by
    simp [Json.itemDocuments?, hprovider, hmodelId]
  exact ReadsBack.record ["provider", "model_id"] (by decide) hds rfl fun d hd => by
    simp [ofDocument?, hd, hread, hread']

end Configuration

namespace ModelInfo

theorem readsBack (m : ModelInfo) : ReadsBack ofDocument? m.toJson m := by
  obtain ⟨id, hid, hreadId⟩ := ReadsBack.optional rfl readsBack_string m.id
  obtain ⟨computerUse, hcomputerUse, hreadComputerUse⟩ :=
    ReadsBack.optional rfl readsBack_bool m.supportsComputerUse
  obtain ⟨images, himages, hreadImages⟩ := ReadsBack.optional rfl readsBack_bool m.supportsImages
  obtain ⟨promptCache, hpromptCache, hreadPromptCache⟩ :=
    ReadsBack.optional rfl readsBack_bool m.supportsPromptCache
  obtain ⟨window, hwindow, hreadWindow⟩ :=
    ReadsBack.optional rfl readsBack_contextWindow m.contextWindow
  have hds : Json.itemDocuments? [.ofOption .string m.id, .ofOption .bool m.supportsComputerUse,
      .ofOption .bool m.supportsImages, .ofOption .bool m.supportsPromptCache,
      .ofOption (.nat ·.toNat) m.contextWindow] =
      some [id, computerUse, images, promptCache, window] := by
    simp [Json.itemDocuments?, hid, hcomputerUse, himages, hpromptCache, hwindow]
  exact ReadsBack.record ["id", "supports_computer_use", "supports_images",
    "supports_prompt_cache", "context_window"] (by decide) hds rfl fun d hd => by
    simp [ofDocument?, hd, hreadId, hreadComputerUse, hreadImages, hreadPromptCache, hreadWindow]

end ModelInfo

namespace Request

theorem readsBack (r : Request) : ReadsBack ofDocument? r.toJson r := by
  obtain ⟨configuration, hconfiguration, hread⟩ :=
    ReadsBack.optional rfl Configuration.readsBack r.configuration
  obtain ⟨modelInfo, hmodelInfo, hread'⟩ := ReadsBack.optional rfl ModelInfo.readsBack r.modelInfo
  have hds : Json.itemDocuments? [.ofOption Configuration.toJson r.configuration,
      .ofOption ModelInfo.toJson r.modelInfo, .bool r.browserEnabled] =
      some [configuration, modelInfo, .bool r.browserEnabled] := by
    simp [Json.itemDocuments?, Json.document?, hconfiguration, hmodelInfo]
  exact ReadsBack.record ["configuration", "model_info", "browser_enabled"]
    (by decide) hds rfl fun d hd => by
    simp [ofDocument?, hd, hread, hread', flag?, bool?]

/-- **A request is read back from its text.** -/
theorem ofText?_render (r : Request) : ofText? r.render = some r := r.readsBack.ofString?

end Request

namespace CapabilitySet

/-! ## Sets -/

theorem readsBack_capability (c : Capability) :
    ReadsBack (variant? Capability.ofName?) (.string c.name) c :=
  ⟨_, rfl, Capability.ofName?_name c⟩

theorem readsBack_supported (cs : List Capability) :
    ReadsBack supported? (.array (cs.map fun c => .string c.name)) cs := by
  obtain ⟨ds, hds, hread⟩ := ReadsBack.items readsBack_capability cs
  exact ⟨.array ds, by rw [Json.document?, hds]; rfl, hread⟩

/-- The entry of a capability is the last one for it among the entries of
the listed capabilities. -/
theorem readsBack_entries {α : Type} {read : Document → Option α} {f : α → Json}
    (h : ∀ a, ReadsBack read (f a) a) (table : Capability → Option α) (cs : List Capability) :
    ∃ es, Json.memberDocuments?
        (cs.filterMap fun c => (table c).map fun a => (c.name, f a)) = some es ∧
      ∀ start : Capability → Option α,
        es.foldlM (fun table m => do
          let c ← Capability.ofName? (← m.1)
          let a ← read m.2
          return fun d => if d = c then some a else table d) start =
        some fun d => if d ∈ cs then (table d).or (start d) else start d := by
  induction cs with
  | nil => exact ⟨[], rfl, fun start => by simp⟩
  | cons c cs ih =>
    obtain ⟨es, hes, hfold⟩ := ih
    cases hc : table c with
    | none =>
      refine ⟨es, by simp [hc, hes], fun start => (hfold start).trans (congrArg some ?_)⟩
      funext d
      by_cases hd : d = c
      · simp [hd, hc]
      · simp [hd]
    | some a =>
      obtain ⟨e, he, ha⟩ := h a
      refine ⟨(some c.name, e) :: es, ?_, fun start => ?_⟩
      · simp only [List.filterMap_cons, hc, Option.map_some]
        exact Json.memberDocuments?_cons.mpr ⟨e, es, he, hes, rfl⟩
      · simp only [List.foldlM_cons, bind, Option.bind, Capability.ofName?_name, ha, pure]
        refine (hfold _).trans (congrArg some ?_)
        funext d
        by_cases hd : d = c
        · simp [hd, hc]
        · simp [hd]

theorem readsBack_table {α : Type} {read : Document → Option α} {f : α → Json}
    (h : ∀ a, ReadsBack read (f a) a) (table : Capability → Option α) :
    ReadsBack (table? read) (.object (entries table f)) table := by
  obtain ⟨es, hes, hfold⟩ := readsBack_entries h table Capability.all
  refine ⟨.object es, by rw [Json.document?, entries, hes]; rfl, ?_⟩
  refine (hfold fun _ => none).trans (congrArg some ?_)
  funext d
  simp [Capability.mem_all]

theorem readsBack_strength (s : Strength) :
    ReadsBack (variant? Strength.ofName?) (.string s.name) s :=
  ⟨_, rfl, Strength.ofName?_name s⟩

theorem readsBack (s : CapabilitySet) : ReadsBack ofDocument? s.toJson s := by
  obtain ⟨supported, hsupported, hread⟩ := readsBack_supported s.toList
  obtain ⟨versions, hversions, hread'⟩ := readsBack_table readsBack_string s.version
  obtain ⟨strengths, hstrengths, hread''⟩ := readsBack_table readsBack_strength s.strength
  have hds : Json.itemDocuments? [.array (s.toList.map fun c => .string c.name),
      .object (entries s.version .string), .object (entries s.strength fun x => .string x.name)] =
      some [supported, versions, strengths] := by
    simp only [Json.itemDocuments?, hsupported, hversions, hstrengths]
    rfl
  exact ReadsBack.record ["supported", "versions", "strengths"] (by decide) hds rfl
    fun d hd => by simp [ofDocument?, hd, hread, hread', hread'', mem_toList]

/-- **A set is read back from its text**, also where its tables do not
agree. -/
theorem ofText?_render (s : CapabilitySet) : ofText? s.render = some s := s.readsBack.ofString?

end CapabilitySet

/-! ## Texts -/

/-- A text rewritten: what is read from it is written again. -/
def rewrite? {α : Type} (read : String → Option α) (write : α → String) (text : String) :
    Option String :=
  (read text).map write

section Rewriting

variable {α : Type} {read : String → Option α} {write : α → String}

/-- Values that are read back are told apart by their texts. -/
theorem write_inj (h : ∀ a, read (write a) = some a) {a b : α} : write a = write b ↔ a = b :=
  ⟨fun heq => Option.some.inj ((h a).symm.trans ((congrArg read heq).trans (h b))), congrArg write⟩

/-- A text that was rewritten is not changed by rewriting it once more. -/
theorem rewrite?_bind_rewrite? (h : ∀ a, read (write a) = some a) (text : String) :
    (rewrite? read write text).bind (rewrite? read write) = rewrite? read write text := by
  cases hread : read text with
  | none => simp [rewrite?, hread]
  | some a => simp [rewrite?, hread, h]

end Rewriting

/-- **Texts determine values.** Every capability set and every request is
read back from its compact text. So two of them with one text are equal,
and to read what any accepted text says and to write it again gives a text
that doing so once more does not change. -/
theorem texts_determine_values :
    (∀ s : CapabilitySet, CapabilitySet.ofText? s.render = some s) ∧
    (∀ r : Request, Request.ofText? r.render = some r) ∧
    (∀ s t : CapabilitySet, s.render = t.render ↔ s = t) ∧
    (∀ q r : Request, q.render = r.render ↔ q = r) ∧
    (∀ text : String,
      (rewrite? CapabilitySet.ofText? CapabilitySet.render text).bind
          (rewrite? CapabilitySet.ofText? CapabilitySet.render) =
        rewrite? CapabilitySet.ofText? CapabilitySet.render text) ∧
    ∀ text : String,
      (rewrite? Request.ofText? Request.render text).bind
          (rewrite? Request.ofText? Request.render) =
        rewrite? Request.ofText? Request.render text :=
  ⟨CapabilitySet.ofText?_render, Request.ofText?_render,
    fun _ _ => write_inj CapabilitySet.ofText?_render, fun _ _ => write_inj Request.ofText?_render,
    rewrite?_bind_rewrite? CapabilitySet.ofText?_render,
    rewrite?_bind_rewrite? Request.ofText?_render⟩

end CapabilityBroker
