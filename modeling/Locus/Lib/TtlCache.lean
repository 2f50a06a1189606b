import Mathlib.Data.Finset.Card
import Mathlib.Data.Set.Function

/-!
# Caches whose entries expire

A cache is an association list with at most the first entry of a key in use; an entry carries the time at
which it was put. `get` drops an entry that is older than the time to live. Whatever the clock says, a cache
hands out nothing but what was put under the same key (`mem_of_get`), and renaming the keys by a function that
tells them apart changes nothing (`get_mapKeys`, `put_mapKeys`). Starting empty it has one entry a key at most
(`Keyed`); an entry that has expired goes when its key is looked up or put again, and no sooner (`Keyed.get_fresh`,
`mem_get_of_ne`).
-/

namespace Locus.Lib.TtlCache

variable {K K' E : Type} [DecidableEq K] [DecidableEq K']

/-- The entry of a key if it is not older than `ttl`, and the cache afterwards. -/
def get (ts : E → ℕ) (ttl now : ℕ) (key : K) (c : List (K × E)) : Option E × List (K × E) :=
  match c.lookup key with
  | none => (none, c)
  | some e => if ttl < now - ts e then (none, c.filter fun x => x.1 ≠ key) else (some e, c)

def put (key : K) (e : E) (c : List (K × E)) : List (K × E) := (key, e) :: c.filter fun x => x.1 ≠ key

variable {ts : E → ℕ} {ttl now : ℕ} {key : K} {c : List (K × E)}

theorem mem_of_lookup {e : E} (h : c.lookup key = some e) : (key, e) ∈ c := by
  obtain ⟨l₁, l₂, hl, -⟩ := List.lookup_eq_some_iff.mp h
  simp [hl]

theorem mem_of_get {e : E} (h : (get ts ttl now key c).1 = some e) : (key, e) ∈ c := by
  unfold get at h
  split at h
  · cases h
  · rename_i e' hlookup
    split at h
    · cases h
    · cases h
      exact mem_of_lookup hlookup

theorem get_subset : ∀ x ∈ (get ts ttl now key c).2, x ∈ c := by
  intro x hx
  unfold get at hx
  split at hx
  · exact hx
  · split at hx
    · exact (List.mem_filter.mp hx).1
    · exact hx

theorem mem_put {e : E} {x : K × E} (h : x ∈ put key e c) : x = (key, e) ∨ x ∈ c := by
  rcases List.mem_cons.mp h with hx | hx
  · exact .inl hx
  · exact .inr (List.mem_filter.mp hx).1

/-- What holds of every entry holds of those that a `get` leaves, and of the one that it hands out. -/
theorem get_forall (ts : E → ℕ) (ttl now : ℕ) (key : K) {P : K × E → Prop} (h : ∀ x ∈ c, P x) :
    (∀ x ∈ (get ts ttl now key c).2, P x) ∧ ∀ e, (get ts ttl now key c).1 = some e → P (key, e) :=
  ⟨fun x hx => h x (get_subset x hx), fun _ he => h _ (mem_of_get he)⟩

theorem put_forall {P : K × E → Prop} {e : E} (h : ∀ x ∈ c, P x) (he : P (key, e)) :
    ∀ x ∈ put key e c, P x := by
  intro x hx
  obtain rfl | hx := mem_put hx
  · exact he
  · exact h x hx

/-! ### One entry a key -/

/-- The keys of a cache are distinct. -/
def Keyed (c : List (K × E)) : Prop := (c.map (·.1)).Nodup

theorem get_sublist : (get ts ttl now key c).2.Sublist c := by
  unfold get
  split
  · exact List.Sublist.refl c
  · split
    · exact List.filter_sublist
    · exact List.Sublist.refl c

theorem Keyed.get (h : Keyed c) : Keyed (get ts ttl now key c).2 := h.sublist (get_sublist.map _)

theorem Keyed.put (h : Keyed c) (e : E) : Keyed (put key e c) := by
  unfold Keyed TtlCache.put
  rw [List.map_cons, List.nodup_cons]
  refine ⟨fun hmem => ?_, h.sublist (List.filter_sublist.map _)⟩
  obtain ⟨x, hx, hkey⟩ := List.mem_map.mp hmem
  have hne := (List.mem_filter.mp hx).2
  simp [hkey] at hne

/-- A key with distinct keys around it is looked up where it stands. -/
theorem Keyed.lookup (h : Keyed c) {x : K × E} (hx : x ∈ c) : c.lookup x.1 = some x.2 := by
  induction c with
  | nil => cases hx
  | cons y c ih =>
    obtain ⟨hy, hc⟩ := List.nodup_cons.mp (show (y.1 :: c.map (·.1)).Nodup from h)
    rcases List.mem_cons.mp hx with rfl | hx
    · rw [List.lookup_cons, beq_self_eq_true]
    · have hne : (x.1 == y.1) = false := by
        rw [beq_eq_false_iff_ne]
        intro heq
        exact hy (heq ▸ List.mem_map_of_mem hx)
      rw [List.lookup_cons, hne]
      exact ih hc hx

/-- A `get` leaves no entry under its key that is older than the time to live. -/
theorem Keyed.get_fresh (h : Keyed c) {x : K × E} (hx : x ∈ (TtlCache.get ts ttl now key c).2) (hkey : x.1 = key) :
    now ≤ ts x.2 + ttl := by
  have hlookup := h.lookup (get_subset x hx)
  rw [hkey] at hlookup
  unfold TtlCache.get at hx
  rw [hlookup] at hx
  dsimp only at hx
  split at hx
  · have hne := (List.mem_filter.mp hx).2
    simp [hkey] at hne
  · omega

theorem mem_get_of_ne {x : K × E} (hkey : x.1 ≠ key) : x ∈ (get ts ttl now key c).2 ↔ x ∈ c := by
  refine ⟨get_subset x, fun hx => ?_⟩
  unfold get
  split
  · exact hx
  · split
    · exact List.mem_filter.mpr ⟨hx, by simpa using hkey⟩
    · exact hx

theorem mem_put_of_ne {e : E} {x : K × E} (hkey : x.1 ≠ key) : x ∈ put key e c ↔ x ∈ c := by
  constructor
  · intro hx
    rcases mem_put hx with rfl | hx
    · exact absurd rfl hkey
    · exact hx
  · intro hx
    exact List.mem_cons_of_mem _ (List.mem_filter.mpr ⟨hx, by simpa using hkey⟩)

/-- The entry that is put is the only one under its key. -/
theorem eq_of_mem_put {e : E} {x : K × E} (hx : x ∈ put key e c) (hkey : x.1 = key) : x = (key, e) := by
  rcases List.mem_cons.mp hx with hx | hx
  · exact hx
  · have hne := (List.mem_filter.mp hx).2
    simp [hkey] at hne

theorem Keyed.length_le (h : Keyed c) {keys : Finset K} (hkeys : ∀ x ∈ c, x.1 ∈ keys) : c.length ≤ keys.card := by
  have hcard : (c.map (·.1)).toFinset.card = c.length := by
    rw [List.toFinset_card_of_nodup h, List.length_map]
  rw [← hcard]
  refine Finset.card_le_card fun k hk => ?_
  obtain ⟨x, hx, rfl⟩ := List.mem_map.mp (List.mem_toFinset.mp hk)
  exact hkeys x hx

/-! ### Renaming the keys -/

def mapKeys (g : K → K') (c : List (K × E)) : List (K' × E) := c.map fun x => (g x.1, x.2)

variable {g : K → K'} {S : Set K} (hg : Set.InjOn g S)

include hg

theorem lookup_mapKeys (hkey : key ∈ S) (hc : ∀ x ∈ c, x.1 ∈ S) :
    (mapKeys g c).lookup (g key) = c.lookup key := by
  induction c with
  | nil => rfl
  | cons x c ih =>
    have hiff : (g key == g x.1) = (key == x.1) := by
      rw [Bool.eq_iff_iff, beq_iff_eq, beq_iff_eq, hg.eq_iff hkey (hc x List.mem_cons_self)]
    rw [mapKeys, List.map_cons, List.lookup_cons, List.lookup_cons, hiff]
    cases hx : key == x.1 with
    | true => rfl
    | false => exact ih fun y hy => hc y (List.mem_cons_of_mem _ hy)

theorem filter_mapKeys (hkey : key ∈ S) (hc : ∀ x ∈ c, x.1 ∈ S) :
    (mapKeys g c).filter (fun x => x.1 ≠ g key) = mapKeys g (c.filter fun x => x.1 ≠ key) := by
  unfold mapKeys
  rw [List.filter_map]
  refine congrArg (List.map _) (List.filter_congr fun x hx => ?_)
  simp [hg.eq_iff (hc x hx) hkey]

theorem get_mapKeys (hkey : key ∈ S) (hc : ∀ x ∈ c, x.1 ∈ S) :
    get ts ttl now (g key) (mapKeys g c) =
      ((get ts ttl now key c).1, mapKeys g (get ts ttl now key c).2) := by
  unfold get
  rw [lookup_mapKeys hg hkey hc, filter_mapKeys hg hkey hc]
  cases c.lookup key with
  | none => rfl
  | some e =>
    dsimp only
    split <;> rfl

theorem put_mapKeys (hkey : key ∈ S) (hc : ∀ x ∈ c, x.1 ∈ S) (e : E) :
    put (g key) e (mapKeys g c) = mapKeys g (put key e c) := by
  rw [put, put, filter_mapKeys hg hkey hc]
  rfl

end Locus.Lib.TtlCache
