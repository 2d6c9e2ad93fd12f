import CapabilityBroker.Text.Blank
import Mathlib.Data.List.TakeWhile
/-!
# Words

The words of a text are what stands between its blanks. Taking the next
word off a text takes off the first one there is (`nextWord_fst`), and
leaves the others (`words_nextWord_snd`).
-/

namespace CapabilityBroker

namespace Text

/-- The words of a text. -/
def words (cs : List Char) : List (List Char) := (cs.splitOnP isBlank).filter (!·.isEmpty)

variable {c : Char} {cs word rest : List Char}

theorem words_nil : words [] = [] := rfl

/-- A blank in front belongs to no word. -/
theorem words_blank (hc : isBlank c = true) : words (c :: cs) = words cs := by
  rw [words, List.splitOnP_cons_eq_if_modifyHead, if_pos hc]
  rfl

theorem words_trimLeft (cs : List Char) : words (trimLeft cs) = words cs := by
  induction cs with
  | nil => rfl
  | cons c cs ih =>
    cases hc : isBlank c with
    | true => rw [trimLeft_blank hc, words_blank hc, ih]
    | false => rw [trimLeft_cons hc]

/-- A word ends at the next blank. -/
theorem words_append (hword : word ≠ []) (hletters : ∀ c ∈ word, isBlank c = false)
    (hrest : ∀ c ∈ rest.head?, isBlank c = true) : words (word ++ rest) = word :: words rest := by
  cases rest with
  | nil =>
    rw [List.append_nil, words, List.splitOnP_eq_singleton hletters]
    simp [hword, words_nil]
  | cons c cs =>
    have hc : isBlank c = true := hrest c rfl
    rw [words, List.splitOnP_append_cons_of_forall_mem hletters c hc, words_blank hc]
    simp [hword, words]

theorem not_of_mem_head?_dropWhile {p : Char → Bool} (hc : c ∈ (cs.dropWhile p).head?) :
    p c = false := by
  have hhead := List.head?_dropWhile_not p cs
  rwa [hc] at hhead

/-- No word is taken off only if there is none. -/
theorem trimLeft_eq_nil (h : (nextWord cs).1 = []) : trimLeft cs = [] := by
  cases hrest : trimLeft cs with
  | nil => rfl
  | cons c ds =>
    have hhead : c ∈ (cs.dropWhile isBlank).head? := by
      rw [← trimLeft, hrest]
      rfl
    have hc : isBlank c = false := not_of_mem_head?_dropWhile hhead
    rw [nextWord, hrest, List.takeWhile_cons_of_pos (by simp [hc])] at h
    cases h

/-- The words of a text are its next word, if there is one, and the words
of what follows. -/
theorem words_eq_nextWord (cs : List Char) :
    words cs = if (nextWord cs).1 = [] then [] else (nextWord cs).1 :: words (nextWord cs).2 := by
  rw [← words_trimLeft cs]
  split
  · next hnone => rw [trimLeft_eq_nil hnone, words_nil]
  · next hsome =>
    have hsplit : (nextWord cs).1 ++ (nextWord cs).2 = trimLeft cs :=
      List.takeWhile_append_dropWhile
    rw [← hsplit]
    refine words_append hsome (fun c hc => ?_) fun c hc => ?_
    · simpa using List.mem_takeWhile_imp hc
    · simpa using not_of_mem_head?_dropWhile hc

/-- **The next word** is the first one, -/
theorem nextWord_fst (cs : List Char) : (nextWord cs).1 = (words cs).headD [] := by
  rw [words_eq_nextWord]
  split
  · assumption
  · rfl

/-- and the others follow it. -/
theorem words_nextWord_snd (cs : List Char) : words (nextWord cs).2 = (words cs).tail := by
  rw [words_eq_nextWord cs]
  split
  · next hnone =>
    rw [nextWord, trimLeft_eq_nil hnone]
    rfl
  · rfl

end Text

end CapabilityBroker
