import CapabilityBroker.Proofs.Json.Lexemes
/-!
# The document that a text is

A value without floating-point numbers is written as the text of one
document (`Json.document?`), and that document is what is read from the
text (`ofString?_render`). The reader takes a bounded number of steps; one
for each character of the text is enough, whatever follows the value.
-/

namespace CapabilityBroker

/-! ## What is written -/

namespace Json

mutual

/-- The document that a value is written as, if no number of it is a
floating-point number. -/
def document? : Json → Option Document
  | .null => some .null
  | .bool b => some (.bool b)
  | .number (.integer n) => some (.number (.ofInt n))
  | .number (.float _) => none
  | .string s => some (.string (some s))
  | .array items => (itemDocuments? items).map .array
  | .object members => (memberDocuments? members).map .object

/-- The documents that items are written as. -/
def itemDocuments? : List Json → Option (List Document)
  | [] => some []
  | v :: vs => do
    let d ← document? v
    let ds ← itemDocuments? vs
    return d :: ds

/-- The documents that members are written as, with their names. -/
def memberDocuments? : List (String × Json) → Option (List (Option String × Document))
  | [] => some []
  | (name, v) :: ms => do
    let d ← document? v
    let ds ← memberDocuments? ms
    return (some name, d) :: ds

end

variable {v : Json} {vs : List Json} {ds : List Document} {name : String}
  {ms : List (String × Json)} {es : List (Option String × Document)}

theorem itemDocuments?_cons : itemDocuments? (v :: vs) = some ds ↔
    ∃ d ds', v.document? = some d ∧ itemDocuments? vs = some ds' ∧ d :: ds' = ds := by
  simp [itemDocuments?, Option.bind_eq_some_iff]

theorem memberDocuments?_cons : memberDocuments? ((name, v) :: ms) = some es ↔
    ∃ d es', v.document? = some d ∧ memberDocuments? ms = some es' ∧
      (some name, d) :: es' = es := by
  simp [memberDocuments?, Option.bind_eq_some_iff]

end Json

namespace Document

variable {cs rest : List Char} {bound : Nat}

/-! ## How texts begin and go on -/

theorem skip_cons {c : Char} (h : isSpace c = false) : skip (c :: cs) = c :: cs := by
  simp [skip, h]

/-- No number goes on with the end of an array, or with the next item. -/
theorem endsNumber_itemsText (vs : List Json) : EndsNumber (Json.itemsText vs ++ rest) := by
  cases vs <;> · rintro c ⟨⟩; decide

theorem endsNumber_membersText (ms : List (String × Json)) :
    EndsNumber (Json.membersText ms ++ rest) := by
  cases ms <;> · rintro c ⟨⟩; decide

theorem isDigit_or_minus_ne {c e : Char} (h : c.isDigit = true ∨ c = '-')
    (he : e.isDigit = false ∧ e ≠ '-') : c ≠ e := by
  rintro rfl
  rcases h with h | h
  · simp [he.1] at h
  · exact he.2 h

theorem isSpace_of_isDigit_or_minus {c : Char} (h : c.isDigit = true ∨ c = '-') :
    isSpace c = false := by
  have hne {e : Char} (he : e.isDigit = false ∧ e ≠ '-') : c ≠ e := isDigit_or_minus_ne h he
  simp [isSpace, hne (e := ' ') (by decide), hne (e := '\n') (by decide),
    hne (e := '\t') (by decide), hne (e := '\r') (by decide)]

/-- A text of a value neither begins with a blank nor closes an array. -/
theorem text_cons {j : Json} {d : Document} (h : j.document? = some d) :
    ∃ c cs, j.text = c :: cs ∧ isSpace c = false ∧ c ≠ ']' := by
  cases j with
  | null => exact ⟨'n', _, rfl, by decide, by decide⟩
  | bool b =>
    cases b
    · exact ⟨'f', _, rfl, by decide, by decide⟩
    · exact ⟨'t', _, rfl, by decide, by decide⟩
  | number n =>
    cases n with
    | integer n =>
      obtain ⟨c, cs, hcs, hc⟩ := text_integer_cons n
      exact ⟨c, cs, hcs, isSpace_of_isDigit_or_minus hc, isDigit_or_minus_ne hc (by decide)⟩
    | float x => cases h
  | string s => exact ⟨'"', _, rfl, by decide, by decide⟩
  | array items => cases items <;> exact ⟨'[', _, rfl, by decide, by decide⟩
  | object members => cases members <;> exact ⟨'\x7b', _, rfl, by decide, by decide⟩

/-! ## One step of the reader -/

/-- A number is what begins with a digit or a sign. -/
theorem readValue_number {c : Char} (h : c.isDigit = true ∨ c = '-') :
    readValue (bound + 1) (c :: cs) =
      (readNumeral (c :: cs)).bind fun p => some (.number p.1, p.2) := by
  have hne {e : Char} (he : e.isDigit = false ∧ e ≠ '-') : c ≠ e := isDigit_or_minus_ne h he
  rw [readValue, skip_cons (isSpace_of_isDigit_or_minus h)]
  split
  · next heq => exact absurd (List.cons.inj heq).1 (hne (by decide))
  · next heq => exact absurd (List.cons.inj heq).1 (hne (by decide))
  · next heq => exact absurd (List.cons.inj heq).1 (hne (by decide))
  · next heq => exact absurd (List.cons.inj heq).1 (hne (by decide))
  · next heq => exact absurd (List.cons.inj heq).1 (hne (by decide))
  · next heq => exact absurd (List.cons.inj heq).1 (hne (by decide))
  · rfl

theorem readValue_string :
    readValue (bound + 1) ('"' :: cs) =
      (readString cs).bind fun p => some (.string p.1, p.2) := rfl

/-- An array that does not close at once has items. -/
theorem readValue_array {c : Char} (hspace : isSpace c = false) (hclose : c ≠ ']') :
    readValue (bound + 1) ('[' :: c :: cs) =
      (readItems bound (c :: cs)).bind fun p => some (.array p.1, p.2) := by
  rw [readValue, skip_cons (by decide)]
  simp only [skip_cons hspace]
  split
  · next heq => exact absurd (List.cons.inj heq).1 hclose
  · rfl

theorem readValue_object :
    readValue (bound + 1) ('\x7b' :: '"' :: cs) =
      (readMembers bound ('"' :: cs)).bind fun p => some (.object p.1, p.2) := rfl

/-- After an item come the other items, -/
theorem readItems_of_comma {d : Document} (h : readValue bound cs = some (d, ',' :: rest)) :
    readItems (bound + 1) cs = (readItems bound rest).bind fun p => some (d :: p.1, p.2) := by
  rw [readItems, h]
  simp [skip_cons (c := ',') (by decide)]

/-- or the end of the array. -/
theorem readItems_of_close {d : Document} (h : readValue bound cs = some (d, ']' :: rest)) :
    readItems (bound + 1) cs = some ([d], rest) := by
  rw [readItems, h]
  simp [skip_cons (c := ']') (by decide)]

/-- What stands before the value of a member. -/
def memberHead (name : String) : List Char := Json.stringText name.toList ++ [':']

theorem readMembers_of_comma {name : String} {d : Document}
    (h : readValue bound cs = some (d, ',' :: rest)) :
    readMembers (bound + 1) (memberHead name ++ cs) =
      (readMembers bound rest).bind fun p => some ((some name, d) :: p.1, p.2) := by
  simp [readMembers, memberHead, Json.stringText, readString_stringText, h,
    skip_cons (c := '"') (by decide), skip_cons (c := ':') (by decide),
    skip_cons (c := ',') (by decide)]

theorem readMembers_of_close {name : String} {d : Document}
    (h : readValue bound cs = some (d, '\x7d' :: rest)) :
    readMembers (bound + 1) (memberHead name ++ cs) = some ([(some name, d)], rest) := by
  simp [readMembers, memberHead, Json.stringText, readString_stringText, h,
    skip_cons (c := '"') (by decide), skip_cons (c := ':') (by decide),
    skip_cons (c := '\x7d') (by decide)]

/-! ## What is read -/

/-- Values are read back in a number of steps. -/
def ReadsValues (bound : Nat) : Prop :=
  ∀ {j : Json} {d : Document} {rest : List Char}, j.document? = some d → j.text.length ≤ bound →
    EndsNumber rest → readValue bound (j.text ++ rest) = some (d, rest)

/-- Items are read back in a number of steps, up to the end of their
array. -/
def ReadsItems (bound : Nat) : Prop :=
  ∀ {v : Json} {vs : List Json} {ds : List Document} {rest : List Char},
    Json.itemDocuments? (v :: vs) = some ds → (v.text ++ Json.itemsText vs).length ≤ bound →
    readItems bound (v.text ++ (Json.itemsText vs ++ rest)) = some (ds, rest)

/-- Members are read back in a number of steps, up to the end of their
object. -/
def ReadsMembers (bound : Nat) : Prop :=
  ∀ {name : String} {v : Json} {ms : List (String × Json)}
    {es : List (Option String × Document)} {rest : List Char},
    Json.memberDocuments? ((name, v) :: ms) = some es →
    (memberHead name ++ (v.text ++ Json.membersText ms)).length ≤ bound →
    readMembers bound (memberHead name ++ (v.text ++ (Json.membersText ms ++ rest))) =
      some (es, rest)

theorem readsItems_succ (hvalues : ReadsValues bound) (hitems : ReadsItems bound) :
    ReadsItems (bound + 1) := by
  intro v vs ds rest hds hbound
  obtain ⟨d, ds, hd, htail, rfl⟩ := Json.itemDocuments?_cons.mp hds
  have hpositive : 0 < (Json.itemsText vs).length := by cases vs <;> exact Nat.succ_pos _
  rw [List.length_append] at hbound
  have hv : readValue bound (v.text ++ (Json.itemsText vs ++ rest)) =
      some (d, Json.itemsText vs ++ rest) := hvalues hd (by omega) (endsNumber_itemsText vs)
  cases vs with
  | nil =>
    obtain rfl := Option.some.inj htail
    exact readItems_of_close hv
  | cons w vs =>
    simp only [Json.itemsText, List.cons_append, List.append_assoc] at hv
    have hshorter : (w.text ++ Json.itemsText vs).length ≤ bound := by
      simp only [Json.itemsText, List.length_cons] at hbound
      omega
    simp only [Json.itemsText, List.cons_append, List.append_assoc]
    rw [readItems_of_comma hv, hitems htail hshorter]
    rfl

theorem readsMembers_succ (hvalues : ReadsValues bound) (hmembers : ReadsMembers bound) :
    ReadsMembers (bound + 1) := by
  intro name v ms es rest hes hbound
  obtain ⟨d, es, hd, htail, rfl⟩ := Json.memberDocuments?_cons.mp hes
  have hpositive : 0 < (memberHead name).length := by simp [memberHead]
  rw [List.length_append, List.length_append] at hbound
  have hv : readValue bound (v.text ++ (Json.membersText ms ++ rest)) =
      some (d, Json.membersText ms ++ rest) := hvalues hd (by omega) (endsNumber_membersText ms)
  cases ms with
  | nil =>
    obtain rfl := Option.some.inj htail
    exact readMembers_of_close hv
  | cons m ms =>
    obtain ⟨name', w⟩ := m
    have htext : Json.membersText ((name', w) :: ms) =
        ',' :: (memberHead name' ++ (w.text ++ Json.membersText ms)) := by
      simp [Json.membersText, memberHead]
    simp only [htext, List.cons_append, List.append_assoc] at hv
    have hshorter : (memberHead name' ++ (w.text ++ Json.membersText ms)).length ≤ bound := by
      rw [htext, List.length_cons] at hbound
      omega
    simp only [htext, List.cons_append, List.append_assoc]
    rw [readMembers_of_comma hv, hmembers htail hshorter]
    rfl

theorem readsValues_succ (hitems : ReadsItems bound) (hmembers : ReadsMembers bound) :
    ReadsValues (bound + 1) := by
  intro j d rest hd hbound hrest
  cases j with
  | null =>
    obtain rfl := Option.some.inj hd
    rfl
  | bool b =>
    obtain rfl := Option.some.inj hd
    cases b <;> rfl
  | number n =>
    cases n with
    | integer n =>
      obtain rfl := Option.some.inj hd
      obtain ⟨c, cs, hcs, hc⟩ := text_integer_cons n
      have hread := readNumeral_text n hrest
      rw [hcs, List.cons_append] at hread
      rw [Json.text, hcs, List.cons_append, readValue_number hc, hread]
      rfl
    | float x => cases hd
  | string s =>
    obtain rfl := Option.some.inj hd
    simp [Json.text, Json.stringText, readValue_string, readString_stringText]
  | array items =>
    obtain ⟨ds, hds, rfl⟩ := Option.map_eq_some_iff.mp hd
    cases items with
    | nil =>
      obtain rfl := Option.some.inj hds
      rfl
    | cons v vs =>
      obtain ⟨d, -, hv, -, -⟩ := Json.itemDocuments?_cons.mp hds
      obtain ⟨c, cs, hcs, hspace, hclose⟩ := text_cons hv
      have hread : readItems bound (v.text ++ (Json.itemsText vs ++ rest)) = some (ds, rest) :=
        hitems hds (Nat.le_of_succ_le_succ hbound)
      simp only [Json.text, List.cons_append, List.append_assoc]
      rw [hcs, List.cons_append] at hread ⊢
      rw [readValue_array hspace hclose, hread]
      rfl
  | object members =>
    obtain ⟨es, hes, rfl⟩ := Option.map_eq_some_iff.mp hd
    cases members with
    | nil =>
      obtain rfl := Option.some.inj hes
      rfl
    | cons m ms =>
      obtain ⟨name, v⟩ := m
      have htext : (Json.object ((name, v) :: ms)).text =
          '\x7b' :: (memberHead name ++ (v.text ++ Json.membersText ms)) := by
        simp [Json.text, memberHead]
      rw [htext, List.length_cons] at hbound
      have hread : readMembers bound (memberHead name ++ (v.text ++ (Json.membersText ms ++ rest))) =
          some (es, rest) := hmembers hes (Nat.le_of_succ_le_succ hbound)
      simp only [htext, List.cons_append, List.append_assoc]
      simp only [memberHead, Json.stringText, List.cons_append] at hread ⊢
      rw [readValue_object, hread]
      rfl

/-- **Whatever is written is read back**, in one step for each
character. -/
theorem reads (bound : Nat) : ReadsValues bound ∧ ReadsItems bound ∧ ReadsMembers bound := by
  induction bound with
  | zero =>
    refine ⟨fun hd hbound => ?_, fun hds hbound => ?_, fun hes hbound => ?_⟩
    · obtain ⟨c, cs, hcs, -⟩ := text_cons hd
      simp [hcs] at hbound
    · obtain ⟨d, -, hd, -⟩ := Json.itemDocuments?_cons.mp hds
      obtain ⟨c, cs, hcs, -⟩ := text_cons hd
      simp [hcs] at hbound
    · simp [memberHead] at hbound
  | succ bound ih =>
    obtain ⟨hvalues, hitems, hmembers⟩ := ih
    exact ⟨readsValues_succ hitems hmembers, readsItems_succ hvalues hitems,
      readsMembers_succ hvalues hmembers⟩

/-- **A text is read as the document it was written as.** -/
theorem ofString?_render {j : Json} {d : Document} (h : j.document? = some d) :
    ofString? j.render = some d := by
  have hread : readValue (2 * j.text.length + 2) (j.text ++ []) = some (d, []) :=
    (reads _).1 h (by omega) (by rintro c ⟨⟩)
  rw [List.append_nil] at hread
  rw [ofString?, Json.render, String.toList_ofList, ofChars?, hread]
  rfl

end Document

end CapabilityBroker
