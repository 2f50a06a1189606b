import Mathlib.Data.List.SplitBy
import Mathlib.Data.List.TakeWhile

/-!
# Words between separators

The words of a list are its maximal runs of elements that are no separators. A word in front of a separator is the
first of them (`words_append`). Joined with a separator `s` they give the list back, if `s` is the only separator
that occurs, and it stands neither at an end nor beside another (`intercalate_words`); joined in any other way they
contain no other separator (`mem_intercalate`).
-/

namespace Locus.Lib

variable {α : Type*} {p : α → Bool}

/-- The maximal runs of elements without `p`. -/
def words (p : α → Bool) (l : List α) : List (List α) :=
  (l.splitBy fun a b => p a == p b).filter fun w => !w.any p

theorem words_free {l w : List α} (hw : w ∈ words p l) : ∀ a ∈ w, p a = false := by
  have hfree := (List.mem_filter.mp hw).2
  simpa using hfree

theorem isChain_free {w : List α} (hw : ∀ a ∈ w, p a = false) : w.IsChain fun a b => (p a == p b) = true := by
  refine List.Pairwise.isChain (List.pairwise_of_forall_mem_list fun a ha b hb => ?_)
  rw [hw a ha, hw b hb]
  rfl

theorem words_of_free {w : List α} (hne : w ≠ []) (hw : ∀ a ∈ w, p a = false) : words p w = [w] := by
  have hany : w.any p = false := by simpa using hw
  rw [words, List.splitBy_of_isChain hne (isChain_free hw), List.filter_singleton, hany]
  rfl

theorem words_append {w l : List α} {s : α} (hne : w ≠ []) (hw : ∀ a ∈ w, p a = false) (hs : p s = true)
    (hl : ∀ a ∈ l.head?, p a = false) : words p (w ++ s :: l) = w :: words p l := by
  have hbefore : ∀ a ∈ w.getLast?, (p a == p s) = false := by
    intro a ha
    rw [hw a (List.mem_of_mem_getLast? ha), hs]
    rfl
  have hbehind : ∀ a ∈ [s].getLast?, ∀ b ∈ l.head?, (p a == p b) = false := by
    intro a ha b hb
    obtain rfl : s = a := Option.some.inj ha
    rw [hs, hl b hb]
    rfl
  have hword := words_of_free hne hw
  unfold words at hword ⊢
  rw [List.splitBy_append_cons l hbefore, List.filter_append, hword, ← List.singleton_append (l := l),
    List.splitBy_append hbehind, List.filter_append]
  simp [List.splitBy, List.splitBy.loop, hs]

theorem first_separator (p : α → Bool) (l : List α) : (∀ a ∈ l, p a = false) ∨
    ∃ w a rest, l = w ++ a :: rest ∧ (∀ a ∈ w, p a = false) ∧ p a = true := by
  induction l with
  | nil => exact .inl fun a ha => nomatch ha
  | cons b l ih =>
    cases hb : p b with
    | true => exact .inr ⟨[], b, l, rfl, fun a ha => (nomatch ha), hb⟩
    | false =>
      rcases ih with hfree | ⟨w, a, rest, rfl, hfree, ha⟩
      · exact .inl (List.forall_mem_cons.mpr ⟨hb, hfree⟩)
      · exact .inr ⟨b :: w, a, rest, rfl, List.forall_mem_cons.mpr ⟨hb, hfree⟩, ha⟩

/-- **The words joined with the only separator** are the list, if it has none at its ends, nor two together. -/
theorem intercalate_words {l : List α} {s : α} (hsep : ∀ a ∈ l, p a = true → a = s)
    (hhead : ∀ a ∈ l.head?, p a = false) (hlast : ∀ a ∈ l.getLast?, p a = false)
    (htwo : l.IsChain fun a b => ¬ (p a = true ∧ p b = true)) : [s].intercalate (words p l) = l := by
  -- the induction is on the words: the first one is what stands before the first separator
  induction hn : l.length using Nat.strong_induction_on generalizing l with
  | _ n ih =>
    rcases first_separator p l with hfree | ⟨w, a, rest, rfl, hfree, ha⟩
    · by_cases hne : l = []
      · rw [hne]
        rfl
      · rw [words_of_free hne hfree, List.intercalate_singleton]
    · obtain rfl : a = s := hsep a (by simp) ha
      have hne : w ≠ [] := by
        rintro rfl
        rw [hhead a rfl] at ha
        cases ha
      obtain ⟨-, hchain, -⟩ := List.isChain_append.mp htwo
      have hrestHead : ∀ b ∈ rest.head?, p b = false := by
        intro b hb
        have hpair := (List.isChain_cons.mp hchain).1 b hb
        cases hpb : p b with
        | true => exact absurd ⟨ha, hpb⟩ hpair
        | false => rfl
      have hrestNe : rest ≠ [] := by
        rintro rfl
        rw [hlast a (by simp)] at ha
        cases ha
      have hrestWords : [a].intercalate (words p rest) = rest := by
        refine ih rest.length ?_ (fun b hb => hsep b (by simp [hb])) hrestHead (fun b hb => hlast b ?_)
          hchain.tail rfl
        · rw [← hn, List.length_append, List.length_cons]
          omega
        · rw [List.getLast?_append_of_ne_nil _ (List.cons_ne_nil a rest), List.getLast?_cons_of_ne_nil hrestNe]
          exact hb
      have hwordsNe : words p rest ≠ [] := by
        intro hnil
        rw [hnil] at hrestWords
        exact hrestNe hrestWords.symm
      rw [words_append hne hfree ha hrestHead, List.intercalate_cons_of_ne_nil hwordsNe, hrestWords,
        List.append_assoc, List.singleton_append]

theorem mem_intercalate {ws : List (List α)} {s a : α} (h : a ∈ [s].intercalate ws) : a = s ∨ ∃ w ∈ ws, a ∈ w := by
  induction ws with
  | nil => cases h
  | cons w ws ih =>
    by_cases hne : ws = []
    · subst hne
      rw [List.intercalate_singleton] at h
      exact .inr ⟨w, List.mem_cons_self, h⟩
    · rw [List.intercalate_cons_of_ne_nil hne, List.mem_append, List.mem_append] at h
      rcases h with (h | h) | h
      · exact .inr ⟨w, List.mem_cons_self, h⟩
      · exact .inl (List.mem_singleton.mp h)
      · exact (ih h).imp id fun ⟨v, hv, ha⟩ => ⟨v, List.mem_cons_of_mem w hv, ha⟩

end Locus.Lib
