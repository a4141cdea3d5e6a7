import ClusterLink.Key
import Mathlib.Data.List.TakeWhile

/-! Keys and the texts that show them. A text shows a key that is `Plain` just if it has one slash
and characters on both sides of it, and reading it gives that key; every other text is refused. -/

namespace ClusterLink.Key

/-- Both parts are given, and neither holds the slash that stands between them in a text. -/
structure Plain (k : Key) : Prop where
  complete : k.isComplete
  space : '/' ∉ k.space.toList
  name : '/' ∉ k.name.toList

/-- A text with one slash in it, and at least one character on each side of that. -/
def IsKeyText (text : String) : Prop :=
  text.toList.count '/' = 1 ∧
    ∃ before after, before ≠ [] ∧ after ≠ [] ∧ text.toList = before ++ '/' :: after

variable {k : Key} {text : String}

theorem isComplete_iff : k.isComplete ↔ k.space.toList ≠ [] ∧ k.name.toList ≠ [] := by
  simp [isComplete]

theorem toList_text (k : Key) : k.text.toList = k.space.toList ++ '/' :: k.name.toList := by
  simp [Key.text]

/-- What is read from a text depends on what stands before and after its first slash. -/
theorem parse_of_append {before after : List Char} (ht : text.toList = before ++ '/' :: after)
    (hb : '/' ∉ before) : parse text =
      if before ≠ [] ∧ after ≠ [] ∧ '/' ∉ after then
        .ok ⟨String.ofList before, String.ofList after⟩
      else .error ⟨text⟩ := by
  have hne : ∀ c ∈ before, (c != '/') = true := fun c hc =>
    bne_iff_ne.2 fun he => hb (he ▸ hc)
  have htake : text.toList.takeWhile (· != '/') = before := by
    rw [ht, List.takeWhile_append_of_pos hne]
    simp
  have hdrop : text.toList.dropWhile (· != '/') = '/' :: after := by
    rw [ht, List.dropWhile_append_of_pos hne]
    simp
  unfold parse
  simp only [htake, hdrop]
  -- the program tests for the opposite
  have hiff : (before.isEmpty || after.isEmpty || after.contains '/') = true ↔
      ¬(before ≠ [] ∧ after ≠ [] ∧ '/' ∉ after) := by
    simp only [Bool.or_eq_true, List.isEmpty_iff, List.contains_iff_mem, not_and_or, not_not,
      or_assoc, ne_eq]
  simp only [hiff, ite_not]

theorem parse_of_not_mem (h : '/' ∉ text.toList) : parse text = .error ⟨text⟩ := by
  have hdrop : text.toList.dropWhile (· != '/') = [] :=
    List.dropWhile_eq_nil_iff.2 fun c hc => bne_iff_ne.2 fun he => h (he ▸ hc)
  unfold parse
  simp only [hdrop]

theorem Plain.parse_text (h : k.Plain) : parse k.text = .ok k := by
  obtain ⟨hspace, hname⟩ := isComplete_iff.1 h.complete
  rw [parse_of_append k.toList_text h.space, if_pos ⟨hspace, hname, h.name⟩, String.ofList_toList,
    String.ofList_toList]

/-- A text is refused, or it is that of the key that is read. -/
theorem parse_cases (text : String) :
    parse text = .error ⟨text⟩ ∨ ∃ k : Key, k.Plain ∧ k.text = text ∧ parse text = .ok k := by
  by_cases hmem : '/' ∈ text.toList
  · obtain ⟨before, after, ht, hb⟩ := List.eq_append_cons_of_mem hmem
    rw [parse_of_append ht hb]
    split
    next h =>
      refine .inr ⟨_, ⟨isComplete_iff.2 ?_, ?_, ?_⟩, ?_, rfl⟩
      · simpa using ⟨h.1, h.2.1⟩
      · simpa using hb
      · simpa using h.2.2
      · apply String.toList_inj.1
        rw [toList_text, ht, String.toList_ofList, String.toList_ofList]
    next => exact .inl rfl
  · exact .inl (parse_of_not_mem hmem)

theorem Plain.of_parse (h : parse text = .ok k) : k.Plain ∧ k.text = text := by
  rcases parse_cases text with he | ⟨k', hk', ht, he⟩
  · cases he.symm.trans h
  · cases he.symm.trans h
    exact ⟨hk', ht⟩

theorem isKeyText_iff : IsKeyText text ↔ ∃ k : Key, k.Plain ∧ k.text = text := by
  constructor
  · rintro ⟨hcount, before, after, hb, ha, ht⟩
    rw [ht, List.count_append, List.count_cons_self] at hcount
    have hbefore : '/' ∉ before := List.count_eq_zero.1 (by omega)
    have hafter : '/' ∉ after := List.count_eq_zero.1 (by omega)
    exact ⟨_, Plain.of_parse ((parse_of_append ht hbefore).trans (if_pos ⟨hb, ha, hafter⟩))⟩
  · rintro ⟨k, hk, rfl⟩
    obtain ⟨hspace, hname⟩ := isComplete_iff.1 hk.complete
    refine ⟨?_, _, _, hspace, hname, k.toList_text⟩
    rw [toList_text, List.count_append, List.count_cons_self, List.count_eq_zero.2 hk.space,
      List.count_eq_zero.2 hk.name]

/-- Reading takes just the texts with one slash and something on both sides of it, gives a complete
key with that text, and is the inverse of showing on keys whose parts are not empty and hold no
slash; so such keys have different texts. -/
theorem parse_inverts_text :
    (∀ text, (∃ k, parse text = .ok k) ↔ IsKeyText text) ∧
      (∀ text k, parse text = .ok k → k.text = text ∧ k.isComplete) ∧
      (∀ text, ¬IsKeyText text → parse text = .error ⟨text⟩) ∧
      (∀ k : Key, k.Plain → parse k.text = .ok k) ∧
      ∀ k k' : Key, k.Plain → k'.Plain → k.text = k'.text → k = k' := by
  refine ⟨fun text => ?_, fun text k h => ?_, fun text h => ?_, fun k h => h.parse_text,
    fun k k' h h' he => ?_⟩
  · rw [isKeyText_iff]
    constructor
    · exact fun ⟨k, h⟩ => ⟨k, Plain.of_parse h⟩
    · rintro ⟨k, h, rfl⟩
      exact ⟨k, h.parse_text⟩
  · have hk := Plain.of_parse h
    exact ⟨hk.2, hk.1.complete⟩
  · refine (parse_cases text).resolve_right ?_
    rintro ⟨k, hk, ht, -⟩
    exact h (isKeyText_iff.2 ⟨k, hk, ht⟩)
  · have hsame := h.parse_text.symm.trans (he ▸ h'.parse_text)
    exact Except.ok.inj hsame

/-- The parts of a key may hold blanks and points, but not be cut at a second slash. -/
theorem parse_inverts_text_of_blanks :
    (⟨"a b", "c."⟩ : Key).Plain ∧ parse "a b/c." = .ok ⟨"a b", "c."⟩ ∧
      ¬IsKeyText "a b/c./d" ∧ parse "a b/c./d" = .error ⟨"a b/c./d"⟩ := by
  obtain ⟨-, -, hrefused, hread, -⟩ := parse_inverts_text
  have hplain : (⟨"a b", "c."⟩ : Key).Plain := ⟨by decide, by decide, by decide⟩
  have htwo : ¬IsKeyText "a b/c./d" := fun h => absurd h.1 (by decide)
  exact ⟨hplain, hread _ hplain, htwo, hrefused _ htwo⟩

end ClusterLink.Key
