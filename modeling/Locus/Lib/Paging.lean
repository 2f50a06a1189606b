import Mathlib.Data.List.Nodup
import Mathlib.Data.List.Perm.Basic
import Mathlib.Data.List.Sort
import Mathlib.Order.Lattice

/-!
# Pages of a list whose order has ties

Rows are listed by a key, the greatest first, and rows with equal keys stand in any order among themselves
(`Ordered`). A row then stands behind the rows with a greater key and before those with a smaller one
(`Ordered.position`), and in some order it stands at each place between (`exists_at`). A page is a window of the
list (`page`), so a row is on a page in some order exactly when the places of its tie meet the window
(`exists_mem_page_iff`).

When each page is taken from an order of its own, the pages together hold every row once, whatever the orders,
exactly when no tie is cut by the end of a page (`pages_perm_iff`).
-/

namespace Locus.Lib.Paging

open scoped List

variable {α κ : Type*} [LinearOrder κ] (key : α → κ) (rows : List α)

def Ordered (l : List α) : Prop := l.Perm rows ∧ l.Pairwise fun a b => key b ≤ key a

/-- How many rows stand before `a` in every order. -/
def above (a : α) : ℕ := rows.countP fun b => key a < key b

/-- How many rows have the key of `a`. -/
def tied (a : α) : ℕ := rows.countP fun b => key b = key a

/-- The window of `size` rows from `start` on. -/
def page (start size : ℕ) (l : List α) : List α := (l.drop start).take size

variable {key rows}

/-! ### One page -/

theorem mem_page {start size : ℕ} {l : List α} {a : α} :
    a ∈ page start size l ↔ ∃ i, start ≤ i ∧ i < start + size ∧ l[i]? = some a := by
  unfold page
  rw [List.mem_iff_getElem?]
  constructor
  · rintro ⟨i, hi⟩
    rw [List.getElem?_take] at hi
    split at hi
    · rw [List.getElem?_drop] at hi
      exact ⟨start + i, by omega, by omega, hi⟩
    · cases hi
  · rintro ⟨i, hstart, hsize, hi⟩
    refine ⟨i - start, ?_⟩
    rw [List.getElem?_take, if_pos (by omega), List.getElem?_drop, ← hi]
    congr 1
    omega

theorem length_page (start size : ℕ) (l : List α) : (page start size l).length = min size (l.length - start) := by
  rw [page, List.length_take, List.length_drop]

theorem page_sublist (start size : ℕ) (l : List α) : (page start size l).Sublist l :=
  (List.take_sublist ..).trans (List.drop_sublist ..)

theorem page_eq_nil {start : ℕ} {l : List α} (h : l.length ≤ start) (size : ℕ) : page start size l = [] := by
  rw [page, List.drop_eq_nil_of_le h, List.take_nil]

/-! ### The place of a row -/

theorem countP_le_eq (a : α) : (rows.countP fun b => key a ≤ key b) = above key rows a + tied key rows a := by
  unfold above tied
  induction rows with
  | nil => rfl
  | cons b rows ih =>
    simp only [List.countP_cons, ih, decide_eq_true_eq]
    rcases lt_trichotomy (key a) (key b) with h | h | h
    · rw [if_pos h.le, if_pos h, if_neg h.ne']
      omega
    · rw [if_pos h.le, if_neg h.not_lt, if_pos h.symm]
      omega
    · rw [if_neg h.not_ge, if_neg h.asymm, if_neg h.ne]
      rfl

theorem tied_pos (key : α → κ) {a : α} (ha : a ∈ rows) : 0 < tied key rows a :=
  List.countP_pos_iff.mpr ⟨a, ha, by simp⟩

theorem above_add_tied_le (key : α → κ) (rows : List α) (a : α) : above key rows a + tied key rows a ≤ rows.length := by
  rw [← countP_le_eq]
  exact List.countP_le_length

theorem getElem?_prefix {P : α → Bool} {l : List α} (hl : l.Pairwise fun a b => P b = true → P a = true) {i : ℕ}
    {a : α} (hi : l[i]? = some a) : P a = true ↔ i < l.countP P := by
  induction l generalizing i with
  | nil => cases hi
  | cons b l ih =>
    obtain ⟨hb, hl⟩ := List.pairwise_cons.mp hl
    cases hP : P b with
    | true =>
      rw [List.countP_cons_of_pos hP]
      cases i with
      | zero =>
        obtain rfl : b = a := Option.some.inj hi
        simp [hP]
      | succ i =>
        rw [ih hl hi]
        omega
    | false =>
      have hnone : ∀ c ∈ l, ¬ P c = true := by
        intro c hc hPc
        rw [hb c hc hPc] at hP
        cases hP
      have hzero : (b :: l).countP P = 0 := by
        refine List.countP_eq_zero.mpr fun c hc => ?_
        rcases List.mem_cons.mp hc with rfl | hc
        · simp [hP]
        · exact hnone c hc
      have ha : ¬ P a = true := by
        rcases List.mem_cons.mp (List.mem_of_getElem? hi) with rfl | ha
        · simp [hP]
        · exact hnone a ha
      rw [hzero]
      exact ⟨fun h => absurd h ha, fun h => absurd h (Nat.not_lt_zero i)⟩

theorem Ordered.lt_iff {l : List α} (hl : Ordered key rows l) (a : α) {i : ℕ} {b : α} (hi : l[i]? = some b) :
    (key a < key b ↔ i < above key rows a) ∧ (key a ≤ key b ↔ i < above key rows a + tied key rows a) := by
  have hgreater := getElem?_prefix (P := fun b => decide (key a < key b))
    (hl.2.imp fun h hb => decide_eq_true ((of_decide_eq_true hb).trans_le h)) hi
  have hgreaterEq := getElem?_prefix (P := fun b => decide (key a ≤ key b))
    (hl.2.imp fun h hb => decide_eq_true ((of_decide_eq_true hb).trans h)) hi
  rw [hl.1.countP_eq, decide_eq_true_iff] at hgreater hgreaterEq
  rw [← countP_le_eq]
  exact ⟨hgreater, hgreaterEq⟩

/-- **A row stands behind those with a greater key, and before those with a smaller one.** -/
theorem Ordered.position {l : List α} (hl : Ordered key rows l) {i : ℕ} {a : α} (hi : l[i]? = some a) :
    above key rows a ≤ i ∧ i < above key rows a + tied key rows a := by
  obtain ⟨hlt, hle⟩ := hl.lt_iff a hi
  exact ⟨le_of_not_gt fun h => lt_irrefl _ (hlt.mpr h), hle.mp le_rfl⟩

theorem exists_ordered (key : α → κ) (rows : List α) : ∃ l, Ordered key rows l := by
  have hsorted : (rows.mergeSort fun a b => decide (key b ≤ key a)).Pairwise fun a b => decide (key b ≤ key a) = true :=
    List.pairwise_mergeSort
      (fun a b c hab hbc => decide_eq_true ((of_decide_eq_true hbc).trans (of_decide_eq_true hab)))
      (fun a b => by simpa using le_total (key b) (key a)) rows
  exact ⟨_, List.mergeSort_perm .., hsorted.imp of_decide_eq_true⟩

theorem Ordered.reorder {before tie tie' behind : List α} {k : κ} (hl : Ordered key rows (before ++ (tie ++ behind)))
    (htie : ∀ b ∈ tie, key b = k) (hperm : tie'.Perm tie) : Ordered key rows (before ++ (tie' ++ behind)) := by
  have hmem : ∀ b, b ∈ tie' ++ behind ↔ b ∈ tie ++ behind := fun b => (hperm.append_right behind).mem_iff
  obtain ⟨hbefore, hrest, hcross⟩ := List.pairwise_append.mp hl.2
  obtain ⟨-, hbehind, htie'⟩ := List.pairwise_append.mp hrest
  refine ⟨((hperm.append_right behind).append_left before).trans hl.1, List.pairwise_append.mpr
    ⟨hbefore, List.pairwise_append.mpr ⟨?_, hbehind, ?_⟩, ?_⟩⟩
  · refine List.pairwise_of_forall_mem_list fun b hb c hc => ?_
    rw [htie b (hperm.mem_iff.mp hb), htie c (hperm.mem_iff.mp hc)]
  · intro b hb c hc
    exact htie' b (hperm.mem_iff.mp hb) c hc
  · intro b hb c hc
    exact hcross b hb c ((hmem c).mp hc)

theorem Ordered.mem_tie {l : List α} (hl : Ordered key rows l) {a b : α}
    (hb : b ∈ page (above key rows a) (tied key rows a) l) : key b = key a := by
  obtain ⟨i, hlow, hhigh, hi⟩ := mem_page.mp hb
  obtain ⟨hlt, hle⟩ := hl.lt_iff a hi
  refine le_antisymm (le_of_not_gt fun h => ?_) (hle.mpr hhigh)
  have := hlt.mp h
  omega

/-- **In some order the row stands at each of these places.** -/
theorem exists_at {a : α} (ha : a ∈ rows) {i : ℕ} (habove : above key rows a ≤ i)
    (hi : i < above key rows a + tied key rows a) : ∃ l, Ordered key rows l ∧ l[i]? = some a := by
  obtain ⟨l, hl⟩ := exists_ordered key rows
  have hbound := above_add_tied_le key rows a
  have hlength : l.length = rows.length := hl.1.length_eq
  -- the row is taken out of its tie and put back at its new place
  obtain ⟨j, hj⟩ := List.mem_iff_getElem?.mp (hl.1.mem_iff.mpr ha)
  obtain ⟨hlow, hhigh⟩ := hl.position hj
  obtain ⟨tie₁, tie₂, htie⟩ := List.append_of_mem (mem_page.mpr ⟨j, hlow, hhigh, hj⟩)
  have hlengthTie : tied key rows a = tie₁.length + (tie₂.length + 1) := by
    have := congrArg List.length htie
    rw [length_page, List.length_append, List.length_cons] at this
    omega
  have hplace : i - above key rows a ≤ (tie₁ ++ tie₂).length := by
    rw [List.length_append]
    omega
  have hmoved : ((tie₁ ++ tie₂).insertIdx (i - above key rows a) a).Perm
      (page (above key rows a) (tied key rows a) l) := by
    rw [htie]
    exact (List.perm_insertIdx a _ hplace).trans List.perm_middle.symm
  have hparts : l = l.take (above key rows a) ++ (page (above key rows a) (tied key rows a) l ++
      l.drop (above key rows a + tied key rows a)) := by
    rw [page, ← List.drop_drop, List.take_append_drop, List.take_append_drop]
  have hbefore : (l.take (above key rows a)).length = above key rows a := by
    rw [List.length_take]
    omega
  have hmovedAt : i - above key rows a < ((tie₁ ++ tie₂).insertIdx (i - above key rows a) a).length := by
    rw [List.length_insertIdx_of_le_length hplace, List.length_append]
    omega
  refine ⟨_, Ordered.reorder (hparts ▸ hl) (fun b hb => hl.mem_tie hb) hmoved, ?_⟩
  rw [List.getElem?_append_right (by omega), hbefore, List.getElem?_append_left hmovedAt,
    List.getElem?_insertIdx_self, if_pos hplace]

/-- **A row is on a page in some order exactly when the places of its tie meet the page.** -/
theorem exists_mem_page_iff {a : α} (ha : a ∈ rows) {start size : ℕ} (hsize : 0 < size) :
    (∃ l, Ordered key rows l ∧ a ∈ page start size l) ↔
      above key rows a < start + size ∧ start < above key rows a + tied key rows a := by
  have htied := tied_pos key ha
  constructor
  · rintro ⟨l, hl, hpage⟩
    obtain ⟨i, hstart, hend, hi⟩ := mem_page.mp hpage
    obtain ⟨hlow, hhigh⟩ := hl.position hi
    omega
  · rintro ⟨hend, hstart⟩
    obtain ⟨l, hl, hi⟩ := exists_at ha (le_max_left (above key rows a) start) (by omega)
    exact ⟨l, hl, mem_page.mpr ⟨_, le_max_right .., by omega, hi⟩⟩

/-! ### All pages -/

/-- The first `n` pages of `size` rows, the `i`th from the `i`th list. -/
def pages (size n : ℕ) (lists : ℕ → List α) : List α :=
  (List.range n).flatMap fun i => page (i * size) size (lists i)

theorem pages_const (size n : ℕ) (l : List α) : pages size n (fun _ => l) = l.take (n * size) := by
  unfold pages page
  induction n with
  | zero => simp
  | succ n ih =>
    rw [List.range_succ, List.flatMap_append, ih, Nat.succ_mul, List.take_add]
    simp

/-- The tie of `a` lies on one page. -/
def OnePage (key : α → κ) (rows : List α) (size : ℕ) (a : α) : Prop :=
  above key rows a / size = (above key rows a + tied key rows a - 1) / size

instance (key : α → κ) (rows : List α) (size : ℕ) (a : α) : Decidable (OnePage key rows size a) :=
  inferInstanceAs (Decidable (_ = _))

theorem mem_page_iff {size i : ℕ} (hsize : 0 < size) {l : List α} (hl : Ordered key rows l) {a : α}
    (ha : OnePage key rows size a) : a ∈ page (i * size) size l ↔ a ∈ rows ∧ above key rows a / size = i := by
  have hdiv : ∀ j, j / size = i ↔ i * size ≤ j ∧ j < i * size + size := by
    intro j
    rw [Nat.div_eq_iff hsize]
    omega
  rw [mem_page]
  constructor
  · rintro ⟨j, hlow, hhigh, hj⟩
    obtain ⟨habove, htied⟩ := hl.position hj
    refine ⟨hl.1.mem_iff.mp (List.mem_of_getElem? hj), le_antisymm ?_ ?_⟩
    · calc above key rows a / size ≤ j / size := Nat.div_le_div_right habove
        _ = i := (hdiv j).mpr ⟨hlow, hhigh⟩
    · calc i = j / size := ((hdiv j).mpr ⟨hlow, hhigh⟩).symm
        _ ≤ (above key rows a + tied key rows a - 1) / size := Nat.div_le_div_right (by omega)
        _ = above key rows a / size := ha.symm
  · rintro ⟨hrows, hi⟩
    obtain ⟨j, hj⟩ := List.mem_iff_getElem?.mp (hl.1.mem_iff.mpr hrows)
    obtain ⟨habove, htied⟩ := hl.position hj
    have hpage : j / size = i := by
      refine le_antisymm ?_ ?_
      · calc j / size ≤ (above key rows a + tied key rows a - 1) / size := Nat.div_le_div_right (by omega)
          _ = above key rows a / size := ha.symm
          _ = i := hi
      · calc i = above key rows a / size := hi.symm
          _ ≤ j / size := Nat.div_le_div_right habove
    obtain ⟨hlow, hhigh⟩ := (hdiv j).mp hpage
    exact ⟨j, hlow, hhigh, hj⟩

theorem page_perm {size : ℕ} (hsize : 0 < size) (hrows : rows.Nodup) (hone : ∀ a ∈ rows, OnePage key rows size a)
    {l l' : List α} (hl : Ordered key rows l) (hl' : Ordered key rows l') (i : ℕ) :
    (page (i * size) size l).Perm (page (i * size) size l') := by
  have hnodup : ∀ {l}, Ordered key rows l → (page (i * size) size l).Nodup :=
    fun hl => (page_sublist ..).nodup (hl.1.nodup_iff.mpr hrows)
  have hsub : ∀ {l}, Ordered key rows l → ∀ a ∈ page (i * size) size l, a ∈ rows :=
    fun hl a ha => hl.1.mem_iff.mp ((page_sublist ..).subset ha)
  refine (List.perm_ext_iff_of_nodup (hnodup hl) (hnodup hl')).mpr fun a => ?_
  constructor
  · intro ha
    have hone := hone a (hsub hl a ha)
    exact (mem_page_iff hsize hl' hone).mpr ((mem_page_iff hsize hl hone).mp ha)
  · intro ha
    have hone := hone a (hsub hl' a ha)
    exact (mem_page_iff hsize hl hone).mpr ((mem_page_iff hsize hl' hone).mp ha)

theorem pages_perm {size n : ℕ} (hsize : 0 < size) (hn : rows.length ≤ n * size) (hrows : rows.Nodup)
    (hone : ∀ a ∈ rows, OnePage key rows size a) {lists : ℕ → List α} (hlists : ∀ i, Ordered key rows (lists i)) :
    (pages size n lists).Perm rows := by
  obtain ⟨l, hl⟩ := exists_ordered key rows
  calc pages size n lists
      ~ pages size n fun _ => l :=
        List.Perm.flatMap_left _ fun i _ => page_perm hsize hrows hone (hlists i) hl i
    _ = l := by rw [pages_const, List.take_of_length_le (hl.1.length_eq.trans_le hn)]
    _ ~ rows := hl.1

theorem pages_not_nodup {size n : ℕ} (hsize : 0 < size) (hn : rows.length ≤ n * size) {a : α} (ha : a ∈ rows)
    (hcut : ¬ OnePage key rows size a) :
    ∃ lists : ℕ → List α, (∀ i, Ordered key rows (lists i)) ∧ ¬ (pages size n lists).Nodup := by
  have htied := tied_pos key ha
  have hbound := above_add_tied_le key rows a
  -- the row is the first of its tie on the page `p`, and the last on the page `q`
  have hat : ∀ i, above key rows a ≤ i → i < above key rows a + tied key rows a →
      ∃ l, Ordered key rows l ∧ l[i]? = some a := fun i => exists_at ha
  obtain ⟨first, hfirst, hfirstAt⟩ := hat (above key rows a) le_rfl (by omega)
  obtain ⟨last, hlast, hlastAt⟩ := hat (above key rows a + tied key rows a - 1) (by omega) (by omega)
  let p := above key rows a / size
  let q := (above key rows a + tied key rows a - 1) / size
  have hpq : p < q := lt_of_le_of_ne (Nat.div_le_div_right (by omega)) hcut
  have hq : q < n := Nat.div_lt_of_lt_mul (by rw [Nat.mul_comm]; omega)
  have hmem : ∀ {l : List α} {i : ℕ}, l[i]? = some a → a ∈ page (i / size * size) size l := by
    intro l i hi
    refine mem_page.mpr ⟨i, Nat.div_mul_le_self i size, ?_, hi⟩
    have := Nat.lt_mul_div_succ i hsize
    rw [Nat.mul_succ, Nat.mul_comm] at this
    exact this
  refine ⟨fun i => if i = p then first else last, fun i => ?_, fun hnodup => ?_⟩
  · dsimp only
    split_ifs
    · exact hfirst
    · exact hlast
  · have hdisjoint := (List.nodup_flatMap.mp hnodup).2
    have hpages := List.pairwise_iff_getElem.mp hdisjoint p q (by simp; omega) (by simp; omega) hpq
    simp only [Function.onFun, List.getElem_range, if_true, if_neg hpq.ne'] at hpages
    exact hpages (hmem hfirstAt) (hmem hlastAt)

/-- **Pages of independent orders hold every row once, whatever the orders, exactly when no page cuts a tie.** -/
theorem pages_perm_iff {size n : ℕ} (hsize : 0 < size) (hn : rows.length ≤ n * size) (hrows : rows.Nodup) :
    (∀ lists : ℕ → List α, (∀ i, Ordered key rows (lists i)) → (pages size n lists).Perm rows) ↔
      ∀ a ∈ rows, OnePage key rows size a := by
  constructor
  · intro h a ha
    by_contra hcut
    obtain ⟨lists, hlists, hnot⟩ := pages_not_nodup hsize hn ha hcut
    exact hnot ((h lists hlists).nodup_iff.mpr hrows)
  · exact fun hone lists hlists => pages_perm hsize hn hrows hone hlists

end Locus.Lib.Paging
