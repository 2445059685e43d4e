import DiskArray.Text.Blank
import Mathlib.Data.List.TakeWhile

/-!
# Trimmed text and words

Trimming takes blanks away at both ends, and leaves none there (`stripped_trim`). The words of a text are what its gaps
separate, where it is not empty (`words_eq_splitOnP`).
-/

namespace DiskArray.Text

/-! ### Trimming -/

/-- The second text is the first one without the blanks at its ends. -/
structure Stripped (cs inner : List Char) : Prop where
  split : ∃ before after, cs = before ++ inner ++ after ∧ (∀ c ∈ before, isBlank c) ∧ ∀ c ∈ after, isBlank c
  head : ∀ c ∈ inner.head?, ¬ isBlank c
  last : ∀ c ∈ inner.getLast?, ¬ isBlank c

theorem not_of_mem_head?_dropWhile {α : Type} {p : α → Bool} {l : List α} {a : α}
    (h : a ∈ (l.dropWhile p).head?) : ¬ p a := by
  have hhead := List.head?_dropWhile_not p l
  rw [Option.mem_def.1 h] at hhead
  simpa using hhead

theorem stripped_trim (s : String) : Stripped s.toList (trim s).toList := by
  rw [trim, String.toList_ofList, trimChars]
  generalize s.toList = cs
  -- what is left after the front is dropped, and after the back of that is dropped
  obtain ⟨middle, hmiddle⟩ : ∃ middle, middle = cs.dropWhile isBlank := ⟨_, rfl⟩
  obtain ⟨back, hback⟩ : ∃ back, back = middle.reverse.dropWhile isBlank := ⟨_, rfl⟩
  rw [← hmiddle, ← hback]
  have hsplit : middle = back.reverse ++ (middle.reverse.takeWhile isBlank).reverse := by
    rw [← List.reverse_append, hback, List.takeWhile_append_dropWhile, List.reverse_reverse]
  refine ⟨⟨cs.takeWhile isBlank, (middle.reverse.takeWhile isBlank).reverse, ?_, ?_, ?_⟩, ?_, ?_⟩
  · rw [List.append_assoc, ← hsplit, hmiddle, List.takeWhile_append_dropWhile]
  · intro c hc
    exact List.mem_takeWhile_imp hc
  · intro c hc
    exact List.mem_takeWhile_imp (List.mem_reverse.1 hc)
  · intro c hc
    have hmem : c ∈ middle.head? := by
      rw [hsplit]
      cases hrest : back.reverse with
      | nil =>
        rw [hrest] at hc
        cases hc
      | cons c' rest =>
        rw [hrest] at hc
        exact hc
    exact not_of_mem_head?_dropWhile (hmiddle ▸ hmem)
  · intro c hc
    rw [List.getLast?_reverse] at hc
    exact not_of_mem_head?_dropWhile (hback ▸ hc)

theorem dropWhile_of_head? {α : Type} {p : α → Bool} {l : List α} (h : ∀ a ∈ l.head?, ¬ p a) : l.dropWhile p = l := by
  cases l with
  | nil => rfl
  | cons a l => exact List.dropWhile_cons_of_neg (h a rfl)

theorem dropWhile_of_forall_not {α : Type} {p : α → Bool} {l : List α} (h : ∀ a ∈ l, ¬ p a) :
    l.dropWhile p = l :=
  dropWhile_of_head? fun a ha => h a (List.mem_of_mem_head? ha)

theorem Stripped.eq_trimChars {cs inner : List Char} (h : Stripped cs inner) : inner = trimChars cs := by
  obtain ⟨⟨before, after, rfl, hbefore, hafter⟩, hhead, hlast⟩ := h
  have hafter' : ∀ c ∈ after.reverse, isBlank c := fun c hc => hafter c (List.mem_reverse.1 hc)
  have hback : inner.reverse.dropWhile isBlank = inner.reverse := by
    apply dropWhile_of_head?
    rwa [List.head?_reverse]
  rw [trimChars, List.append_assoc, List.dropWhile_append_of_pos hbefore]
  cases inner with
  | nil =>
    rw [List.nil_append, List.dropWhile_eq_nil_iff.2 hafter]
    rfl
  | cons c inner =>
    rw [List.cons_append, List.dropWhile_cons_of_neg (hhead c rfl), ← List.cons_append, List.reverse_append,
      List.dropWhile_append_of_pos hafter', hback, List.reverse_reverse]

theorem stripped_iff {s : String} {inner : List Char} : Stripped s.toList inner ↔ inner = (trim s).toList := by
  constructor
  · intro h
    rw [h.eq_trimChars, trim, String.toList_ofList]
  · rintro rfl
    exact stripped_trim s

theorem trim_eq_self {s : String} (h : ∀ c ∈ s.toList, ¬ isBlank c) : trim s = s := by
  have hreverse : ∀ c ∈ s.toList.reverse, ¬ isBlank c := fun c hc => h c (List.mem_reverse.1 hc)
  rw [trim, trimChars, dropWhile_of_forall_not h, dropWhile_of_forall_not hreverse, List.reverse_reverse,
    String.ofList_toList]

/-! ### Words -/

theorem wordsOfChars_eq_splitOnP (cs : List Char) :
    wordsOfChars cs = (cs.splitOnP isGap).filter (· ≠ []) := by
  fun_induction wordsOfChars cs with
  | case1 => rfl
  | case2 c rest hgap ih =>
    rw [List.splitOnP_cons_eq_if_modifyHead, if_pos hgap, List.filter_cons_of_neg (by simp), ih]
  | case3 c rest hgap ih =>
    -- the first word ends with the text, or at the gap that follows it
    have hword : ∀ x ∈ c :: rest.takeWhile (!isGap ·), isGap x = false := by
      intro x hx
      rcases List.mem_cons.1 hx with rfl | hx
      · simpa using hgap
      · simpa using List.mem_takeWhile_imp hx
    have hsplit : c :: rest = (c :: rest.takeWhile (!isGap ·)) ++ rest.dropWhile (!isGap ·) := by
      rw [List.cons_append, List.takeWhile_append_dropWhile]
    rw [ih, hsplit]
    cases hrest : rest.dropWhile (!isGap ·) with
    | nil =>
      rw [List.append_nil, List.splitOnP_eq_singleton hword]
      rfl
    | cons sep later =>
      have hsep : isGap sep := by
        have hhead : sep ∈ (rest.dropWhile (!isGap ·)).head? := by rw [hrest]; rfl
        simpa using not_of_mem_head?_dropWhile hhead
      rw [List.splitOnP_append_cons_of_forall_mem hword sep hsep, List.splitOnP_cons_eq_if_modifyHead, if_pos hsep,
        List.filter_cons_of_neg (by simp), List.filter_cons_of_pos (by simp)]

theorem words_eq_splitOnP (s : String) :
    words s = ((s.toList.splitOnP isGap).filter (· ≠ [])).map String.ofList := by
  rw [words, wordsOfChars_eq_splitOnP]

end DiskArray.Text
