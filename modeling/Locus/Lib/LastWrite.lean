import Mathlib.Data.Finset.Card
import Mathlib.Data.List.Dedup
import Mathlib.Algebra.GroupWithZero.Nat
import Mathlib.Algebra.Order.Group.Nat
import Mathlib.Algebra.BigOperators.Group.List.Lemmas

/-!
# Tables of last writes

A log of writes `(key, value)`, and a table with one row a key: the write of a key that has a row replaces
the value there, the write of another key adds a row. `Represents` says that the rows hold the last write
of each key of the log and nothing else. Both forms of a write keep it, and what is counted over the rows
is counted over the keys of the log.
-/

namespace Locus.Lib

variable {K V R : Type*} [DecidableEq K]

/-- The value last written under a key. -/
def lastWrite (k : K) (log : List (K × V)) : Option V :=
  (log.filter (·.1 = k)).getLast?.map (·.2)

def written (log : List (K × V)) : Finset K := (log.map (·.1)).toFinset

@[simp] theorem lastWrite_nil (k : K) : lastWrite k ([] : List (K × V)) = none := rfl

theorem lastWrite_snoc (k : K) (log : List (K × V)) (w : K × V) :
    lastWrite k (log ++ [w]) = if w.1 = k then some w.2 else lastWrite k log := by
  unfold lastWrite
  rw [List.filter_append]
  by_cases h : w.1 = k
  · simp [h]
  · simp [h]

theorem mem_written {k : K} {log : List (K × V)} : k ∈ written log ↔ ∃ v, lastWrite k log = some v := by
  induction log using List.reverseRecOn with
  | nil => simp [written]
  | append_singleton log w ih =>
    rw [lastWrite_snoc]
    by_cases h : w.1 = k
    · simp [written, h]
    · simp only [h, if_false, ← ih]
      simp [written, Ne.symm h]

theorem sum_group_lengths [DecidableEq V] (value : R → V) (rows : List R) :
    (((rows.map value).dedup).map fun v => (rows.filter fun row => value row = v).length).sum =
      rows.length := by
  have hcount : ∀ v, (rows.filter fun row => value row = v).length = (rows.map value).count v := by
    intro v
    rw [List.count_eq_countP, List.countP_map, List.countP_eq_length_filter]
    congr 1
  simp only [hcount]
  rw [List.sum_map_count_dedup_eq_length, List.length_map]

/-- The rows hold the last write of each key of the log. -/
structure Represents (key : R → K) (value : R → V) (rows : List R) (log : List (K × V)) : Prop where
  nodup : (rows.map key).Nodup
  last : ∀ k v, lastWrite k log = some v ↔ ∃ row ∈ rows, key row = k ∧ value row = v

namespace Represents

variable {key : R → K} {value : R → V} {rows : List R} {log : List (K × V)}

theorem nil : Represents key value [] [] := ⟨List.nodup_nil, by simp⟩

theorem add (h : Represents key value rows log) {row : R} (hnew : ∀ r ∈ rows, key r ≠ key row) :
    Represents key value (rows ++ [row]) (log ++ [(key row, value row)]) := by
  refine ⟨?_, fun k v => ?_⟩
  · rw [List.map_append, List.nodup_append]
    refine ⟨h.nodup, List.nodup_singleton _, ?_⟩
    simp only [List.mem_map, List.map_cons, List.map_nil, List.mem_singleton]
    rintro _ ⟨r, hr, rfl⟩ _ rfl
    exact hnew r hr
  · rw [lastWrite_snoc]
    by_cases hk : key row = k
    · subst hk
      simp only [if_true, Option.some.injEq, List.mem_append, List.mem_singleton]
      constructor
      · intro hv
        exact ⟨row, .inr rfl, rfl, hv⟩
      · rintro ⟨r, hr | rfl, hkey, hv⟩
        · exact absurd hkey (hnew r hr)
        · exact hv
    · simp only [hk, if_false, h.last, List.mem_append, List.mem_singleton]
      constructor
      · rintro ⟨r, hr, hkey, hv⟩
        exact ⟨r, .inl hr, hkey, hv⟩
      · rintro ⟨r, hr | rfl, hkey, hv⟩
        · exact ⟨r, hr, hkey, hv⟩
        · exact absurd hkey hk

/-- The write of a key with a row replaces the value of the row. -/
theorem replace (h : Represents key value rows log) {k : K} {v : V} {set : R → R}
    (hthere : ∃ row ∈ rows, key row = k) (hkey : ∀ row, key (set row) = key row)
    (hvalue : ∀ row ∈ rows, value (set row) = if key row = k then v else value row) :
    Represents key value (rows.map set) (log ++ [(k, v)]) := by
  refine ⟨?_, fun k' v' => ?_⟩
  · rw [List.map_map, show key ∘ set = key from funext hkey]
    exact h.nodup
  · rw [lastWrite_snoc]
    simp only [List.mem_map, exists_exists_and_eq_and, hkey]
    by_cases hk : k = k'
    · subst hk
      simp only [if_true, Option.some.injEq]
      constructor
      · intro hv
        obtain ⟨row, hrow, hkey⟩ := hthere
        exact ⟨row, hrow, hkey, by rw [hvalue row hrow, if_pos hkey, hv]⟩
      · rintro ⟨row, hrow, hkey, hv⟩
        rwa [hvalue row hrow, if_pos hkey] at hv
    · simp only [hk, if_false, h.last]
      refine exists_congr fun row => and_congr_right fun hrow => and_congr_right fun hkey => ?_
      rw [hvalue row hrow, if_neg fun hk' => hk (hk'.symm.trans hkey)]

/-- The rows with a value are the keys with that last write. -/
theorem count [DecidableEq V] (h : Represents key value rows log) (v : V) :
    (rows.filter fun row => value row = v).length =
      ((written log).filter fun k => lastWrite k log = some v).card := by
  have hnodup : ((rows.filter fun row => value row = v).map key).Nodup :=
    h.nodup.sublist (List.filter_sublist.map key)
  rw [← List.length_map key, ← List.toFinset_card_of_nodup hnodup]
  congr 1
  ext k
  simp only [List.mem_toFinset, List.mem_map, List.mem_filter, decide_eq_true_eq, Finset.mem_filter,
    mem_written]
  constructor
  · rintro ⟨row, ⟨hrow, hv⟩, hk⟩
    have hlast := (h.last k v).mpr ⟨row, hrow, hk, hv⟩
    exact ⟨⟨v, hlast⟩, hlast⟩
  · rintro ⟨-, hlast⟩
    obtain ⟨row, hrow, hk, hv⟩ := (h.last k v).mp hlast
    exact ⟨row, ⟨hrow, hv⟩, hk⟩

theorem length (h : Represents key value rows log) : rows.length = (written log).card := by
  rw [← List.length_map key, ← List.toFinset_card_of_nodup h.nodup]
  congr 1
  ext k
  simp only [List.mem_toFinset, List.mem_map, mem_written, h.last]
  constructor
  · rintro ⟨row, hrow, hk⟩
    exact ⟨_, row, hrow, hk, rfl⟩
  · rintro ⟨v, row, hrow, hk, -⟩
    exact ⟨row, hrow, hk⟩

theorem perm (h : Represents key value rows log) {rows' : List R} (hperm : rows'.Perm rows) :
    Represents key value rows' log :=
  ⟨(hperm.map key).nodup_iff.mpr h.nodup, fun k v => by simp only [h.last, hperm.mem_iff]⟩

end Represents

end Locus.Lib
