import Mathlib.Data.List.Nodup

/-!
# Tables that grow

Rows are added behind the others, and a row that is there changes only in ways that `keep` allows: then the rows
of a later time hold those of an earlier one at their places (`Grows`), whatever happened in between. Keys that differ
(`Unique`) and references that are resolved (`References`) are kept by the same steps: a row with a new key, a change
that leaves the key, a target that grows.
-/

namespace Locus.Lib

variable {α : Type} {keep : α → α → Prop} {rows rows' rows'' : List α}

/-- Every row is still at its place, changed as `keep` allows. -/
def Grows (keep : α → α → Prop) (rows rows' : List α) : Prop :=
  ∀ (i : ℕ) (a : α), rows[i]? = some a → ∃ b, rows'[i]? = some b ∧ keep a b

namespace Grows

theorem refl (hrefl : ∀ a, keep a a) (rows : List α) : Grows keep rows rows :=
  fun _ a h => ⟨a, h, hrefl a⟩

theorem trans (htrans : ∀ {a b c}, keep a b → keep b c → keep a c) (h : Grows keep rows rows')
    (h' : Grows keep rows' rows'') : Grows keep rows rows'' := by
  intro i a ha
  obtain ⟨b, hb, hab⟩ := h i a ha
  obtain ⟨c, hc, hbc⟩ := h' i b hb
  exact ⟨c, hc, htrans hab hbc⟩

theorem append (hrefl : ∀ a, keep a a) (rows new : List α) : Grows keep rows (rows ++ new) := by
  intro i a ha
  have hlt : i < rows.length := (List.getElem?_eq_some_iff.mp ha).1
  exact ⟨a, (List.getElem?_append_left hlt).trans ha, hrefl a⟩

theorem map {f : α → α} (h : ∀ a ∈ rows, keep a (f a)) : Grows keep rows (rows.map f) := by
  intro i a ha
  exact ⟨f a, by rw [List.getElem?_map, ha]; rfl, h a (List.mem_of_getElem? ha)⟩

theorem mem (h : Grows keep rows rows') {a : α} (ha : a ∈ rows) : ∃ b ∈ rows', keep a b := by
  obtain ⟨i, hi⟩ := List.mem_iff_getElem?.mp ha
  obtain ⟨b, hb, hkeep⟩ := h i a hi
  exact ⟨b, List.mem_of_getElem? hb, hkeep⟩

theorem length_le (h : Grows keep rows rows') : rows.length ≤ rows'.length := by
  by_contra hle
  have hlt : rows'.length < rows.length := by omega
  have hget : rows[rows'.length]? = some rows[rows'.length] := List.getElem?_eq_getElem hlt
  obtain ⟨b, hb, -⟩ := h _ _ hget
  rw [List.getElem?_eq_none (Nat.le_refl rows'.length)] at hb
  cases hb

/-- A list read off what `keep` does not change is a prefix of the later one. -/
theorem prefix_map {β : Type} {f : α → β} (hf : ∀ {a b}, keep a b → f b = f a) (h : Grows keep rows rows') :
    rows.map f <+: rows'.map f := by
  rw [List.prefix_iff_getElem?]
  intro i hi
  rw [List.length_map] at hi
  obtain ⟨b, hb, hkeep⟩ := h i rows[i] (List.getElem?_eq_getElem hi)
  rw [List.getElem?_map, hb, List.getElem_map, Option.map_some, hf hkeep]

/-- Where no row was added, a test that passes later passed before. -/
theorem countP_le {p : α → Bool} (h : Grows keep rows rows') (hlength : rows'.length = rows.length)
    (hp : ∀ {a b}, keep a b → p b → p a) : rows'.countP p ≤ rows.countP p := by
  induction rows generalizing rows' with
  | nil =>
    obtain rfl := List.eq_nil_of_length_eq_zero hlength
    exact Nat.le_refl _
  | cons a rows ih =>
    obtain ⟨b, hb, hkeep⟩ := h 0 a rfl
    cases rows' with
    | nil => cases hb
    | cons b' rows' =>
      obtain rfl : b' = b := Option.some.inj hb
      have hrest := ih (fun i c hc => h (i + 1) c hc) (Nat.succ.inj hlength)
      rw [List.countP_cons, List.countP_cons]
      refine Nat.add_le_add hrest ?_
      split
      · rename_i hpass
        exact Nat.le_of_eq (if_pos (hp hkeep hpass)).symm
      · exact Nat.zero_le _

end Grows

/-! ### Keys -/

section
variable {κ : Type} {key : α → κ} {new : α}

/-- No two rows have one key. -/
def Unique (key : α → κ) (rows : List α) : Prop := (rows.map key).Nodup

namespace Unique

instance [DecidableEq κ] : Decidable (Unique key rows) := inferInstanceAs (Decidable (rows.map key).Nodup)

theorem append (h : Unique key rows) (hnew : ∀ a ∈ rows, key a ≠ key new) : Unique key (rows ++ [new]) := by
  unfold Unique at *
  rw [List.map_append, List.map_singleton, List.nodup_append]
  refine ⟨h, List.nodup_singleton _, fun k hk k' hk' => ?_⟩
  obtain ⟨a, ha, rfl⟩ := List.mem_map.mp hk
  rw [List.mem_singleton.mp hk']
  exact hnew a ha

theorem map {f : α → α} (h : Unique key rows) (hf : ∀ a, key (f a) = key a) : Unique key (rows.map f) := by
  unfold Unique
  rw [List.map_map, show key ∘ f = key from funext hf]
  exact h

theorem filter (h : Unique key rows) (p : α → Bool) : Unique key (rows.filter p) :=
  h.sublist (List.filter_sublist.map key)

/-- Keys that no row changes, where no row was added. -/
theorem grow {keep : α → α → Prop} (h : Unique key rows) (hgrow : Grows keep rows rows')
    (hkeep : ∀ {a b}, keep a b → key b = key a) (hlength : rows'.length = rows.length) : Unique key rows' := by
  have hsame : rows.map key = rows'.map key :=
    (hgrow.prefix_map (f := key) hkeep).eq_of_length (by rw [List.length_map, List.length_map, hlength])
  rw [Unique, ← hsame]
  exact h

theorem eq_of_key (h : Unique key rows) {a b : α} (ha : a ∈ rows) (hb : b ∈ rows) (hkey : key a = key b) : a = b :=
  List.inj_on_of_nodup_map h ha hb hkey

end Unique

end

/-! ### References -/

section
variable {β κ : Type} {ref : α → κ} {id : β → κ} {targets targets' : List β} {new : α}

/-- Every row names a target that there is. -/
def References (ref : α → κ) (id : β → κ) (rows : List α) (targets : List β) : Prop :=
  ∀ a ∈ rows, ∃ b ∈ targets, id b = ref a

namespace References

instance [DecidableEq κ] : Decidable (References ref id rows targets) :=
  inferInstanceAs (Decidable (∀ a ∈ rows, ∃ b ∈ targets, id b = ref a))

theorem append (h : References ref id rows targets) (hnew : ∃ b ∈ targets, id b = ref new) :
    References ref id (rows ++ [new]) targets := by
  intro a ha
  rcases List.mem_append.mp ha with ha | ha
  · exact h a ha
  · rw [List.mem_singleton.mp ha]
    exact hnew

theorem map {f : α → α} (h : References ref id rows targets) (hf : ∀ a, ref (f a) = ref a) :
    References ref id (rows.map f) targets := by
  intro b hb
  obtain ⟨a, ha, rfl⟩ := List.mem_map.mp hb
  rw [hf]
  exact h a ha

theorem filter (h : References ref id rows targets) (p : α → Bool) : References ref id (rows.filter p) targets :=
  fun a ha => h a (List.mem_filter.mp ha).1

theorem grow {keep : β → β → Prop} (h : References ref id rows targets) (hgrow : Grows keep targets targets')
    (hkeep : ∀ {b b'}, keep b b' → id b' = id b) : References ref id rows targets' := by
  intro a ha
  obtain ⟨b, hb, hid⟩ := h a ha
  obtain ⟨b', hb', hkept⟩ := hgrow.mem hb
  exact ⟨b', hb', (hkeep hkept).trans hid⟩

end References

end

end Locus.Lib
