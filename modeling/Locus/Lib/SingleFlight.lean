import Locus.Lib.System
import Mathlib.Logic.Function.Basic

/-!
# Single flight

Parties that need the same thing at the same time: the first one fetches it, those that come while it is
busy wait in a queue, and when the fetch is over the queue is released. A fetch that failed releases the
queue first and closes later, and is busy until then.

Whoever joins before the release is released by the flight it joined (`waiter_step`). Whoever joins
between the release and the close is not: that a queue has a leader (`Flight.Led`) is kept by a join only
if the leader has not failed yet (`Flight.inTime`).
-/

namespace Locus.Lib

inductive Role
  | free
  | waiting
  | leading
  /-- The fetch has failed, and the queue is released. -/
  | closing
deriving DecidableEq

/-- The flag is up. -/
def Role.flies : Role → Bool
  | .leading | .closing => true
  | _ => false

@[simp] theorem flies_free : Role.free.flies = false := rfl
@[simp] theorem flies_waiting : Role.waiting.flies = false := rfl
@[simp] theorem flies_leading : Role.leading.flies = true := rfl
@[simp] theorem flies_closing : Role.closing.flies = true := rfl

structure Flight (ι : Type*) where
  role : ι → Role
  busy : Bool
  queue : List ι

inductive FlightEvent (ι : Type*)
  | lead (i : ι)
  | join (i : ι)
  | land (i : ι)
  | fail (i : ι)
  | close (i : ι)

variable {ι : Type*} [DecidableEq ι]

/-- The queue is released, and party `i` goes on. -/
def Flight.release (f : Flight ι) (i : ι) (r : Role) (busy : Bool) : Flight ι :=
  { role := Function.update (fun j => if j ∈ f.queue then .free else f.role j) i r, busy, queue := [] }

def singleFlight (ι : Type*) [DecidableEq ι] : System (Flight ι) (FlightEvent ι) where
  Init f := f = ⟨fun _ => .free, false, []⟩
  step f
    | .lead i =>
      if f.role i = .free ∧ f.busy = false then
        some { f with role := Function.update f.role i .leading, busy := true }
      else none
    | .join i =>
      if f.role i = .free ∧ f.busy = true then
        some { f with role := Function.update f.role i .waiting, queue := f.queue ++ [i] }
      else none
    | .land i => if f.role i = .leading then some (f.release i .free false) else none
    | .fail i => if f.role i = .leading then some (f.release i .closing f.busy) else none
    | .close i =>
      if f.role i = .closing then some { f with role := Function.update f.role i .free, busy := false }
      else none

namespace Flight

/-- The queue holds those that wait, once each; the flag is up while one party flies, and only one does. -/
structure Inv (f : Flight ι) : Prop where
  waits : ∀ i, i ∈ f.queue ↔ f.role i = .waiting
  nodup : f.queue.Nodup
  one : ∀ i j, (f.role i).flies → (f.role j).flies → i = j
  busy : f.busy = true ↔ ∃ i, (f.role i).flies

/-- Who waits, waits for a leader. -/
def Led (f : Flight ι) : Prop := f.queue ≠ [] → ∃ i, f.role i = .leading

/-- Nobody joins a flight that has failed. -/
def inTime (f : Flight ι) : FlightEvent ι → Prop
  | .join _ => ∃ i, f.role i = .leading
  | _ => True

omit [DecidableEq ι] in
theorem Inv.init {f : Flight ι} (h : f = ⟨fun _ => .free, false, []⟩) : f.Inv := by
  subst h
  exact ⟨fun i => by simp, List.nodup_nil, fun i j hi => by simp  at hi,
    by simp⟩

/-- A party that does not wait takes a role in which it does not, the others and the queue stay. -/
theorem Inv.turn {f : Flight ι} (h : f.Inv) {i : ι} {r : Role} {b : Bool} (hi : f.role i ≠ .waiting)
    (hr : r ≠ .waiting) (hflies : ∀ j, j ≠ i → r.flies → ¬ (f.role j).flies)
    (hbusy : b = true ↔ r.flies ∨ ∃ j, j ≠ i ∧ (f.role j).flies) :
    Inv { f with role := Function.update f.role i r, busy := b } := by
  refine ⟨fun j => ?_, h.nodup, fun j k hj hk => ?_, ?_⟩
  · by_cases hji : j = i
    · subst hji
      have hnot : j ∉ f.queue := fun hmem => hi ((h.waits j).mp hmem)
      simp [hnot, hr]
    · simpa [Function.update_of_ne hji] using h.waits j
  · by_cases hji : j = i <;> by_cases hki : k = i
    · exact hji.trans hki.symm
    · subst hji
      simp only [Function.update_self, Function.update_of_ne hki] at hj hk
      exact absurd hk (hflies k hki hj)
    · subst hki
      simp only [Function.update_self, Function.update_of_ne hji] at hj hk
      exact absurd hj (hflies j hji hk)
    · simp only [Function.update_of_ne hji, Function.update_of_ne hki] at hj hk
      exact h.one j k hj hk
  · refine hbusy.trans ⟨?_, ?_⟩
    · rintro (hr | ⟨j, hji, hj⟩)
      · exact ⟨i, by simpa using hr⟩
      · exact ⟨j, by simpa [Function.update_of_ne hji] using hj⟩
    · rintro ⟨j, hj⟩
      by_cases hji : j = i
      · subst hji
        exact .inl (by simpa using hj)
      · exact .inr ⟨j, hji, by simpa [Function.update_of_ne hji] using hj⟩

theorem Inv.released_flies {f : Flight ι} (h : f.Inv) (j : ι) :
    (if j ∈ f.queue then Role.free else f.role j).flies = (f.role j).flies := by
  split
  · rename_i hj
    rw [(h.waits j).mp hj]
    rfl
  · rfl

theorem Inv.released {f : Flight ι} (h : f.Inv) :
    Inv { f with role := fun j => if j ∈ f.queue then .free else f.role j, queue := [] } := by
  have hflies := h.released_flies
  refine ⟨fun j => ⟨fun hmem => by simp at hmem, fun hj => ?_⟩, List.nodup_nil, fun j k hj hk => ?_, ?_⟩
  · dsimp only at hj
    split at hj
    · cases hj
    · rename_i hnot
      exact absurd ((h.waits j).mpr hj) hnot
  · exact h.one j k (hflies j ▸ hj) (hflies k ▸ hk)
  · simpa only [hflies] using h.busy

theorem Inv.step {f f' : Flight ι} {e : FlightEvent ι} (h : f.Inv)
    (hstep : (singleFlight ι).step f e = some f') : f'.Inv := by
  -- who flies is the only one who does
  have hother : ∀ i, (f.role i).flies → ∀ j, j ≠ i → ¬ (f.role j).flies :=
    fun i hi j hji hj => hji (h.one j i hj hi)
  cases e with
  | lead i =>
    simp only [singleFlight, Option.ite_none_right_eq_some, Option.some.injEq] at hstep
    obtain ⟨⟨hfree, hidle⟩, rfl⟩ := hstep
    have hnone : ∀ j, ¬ (f.role j).flies := fun j hj => by
      have hbusy := h.busy.mpr ⟨j, hj⟩
      simp [hidle] at hbusy
    exact h.turn (by simp [hfree]) (by simp) (fun j _ _ => hnone j) (by simp)
  | join i =>
    simp only [singleFlight, Option.ite_none_right_eq_some, Option.some.injEq] at hstep
    obtain ⟨⟨hfree, hbusy⟩, rfl⟩ := hstep
    have hflies : ∀ j, ((Function.update f.role i .waiting j).flies : Bool) = (f.role j).flies := by
      intro j
      by_cases hji : j = i
      · subst hji
        simp [hfree]
      · rw [Function.update_of_ne hji]
    have hnot : i ∉ f.queue := fun hmem => by simpa [hfree] using (h.waits i).mp hmem
    refine ⟨fun j => ?_, ?_, fun j k hj hk => h.one j k (hflies j ▸ hj) (hflies k ▸ hk), ?_⟩
    · by_cases hji : j = i
      · subst hji
        simp
      · simpa [Function.update_of_ne hji, hji] using h.waits j
    · simpa [List.nodup_append, hnot] using ⟨h.nodup, fun a ha hai => hnot (hai ▸ ha)⟩
    · simpa only [hflies] using h.busy
  | land i =>
    simp only [singleFlight, Option.ite_none_right_eq_some, Option.some.injEq] at hstep
    obtain ⟨hlead, rfl⟩ := hstep
    have hfly : (f.role i).flies := by simp [hlead]
    have hnot : i ∉ f.queue := fun hmem => by simpa [hlead] using (h.waits i).mp hmem
    refine h.released.turn (by simp [hnot, hlead]) (by simp) (by simp) ?_
    simp only [Bool.false_eq_true, flies_free, false_or, false_iff, not_exists, not_and]
    exact fun j hji hj => hother i hfly j hji (h.released_flies j ▸ hj)
  | fail i =>
    simp only [singleFlight, Option.ite_none_right_eq_some, Option.some.injEq] at hstep
    obtain ⟨hlead, rfl⟩ := hstep
    have hfly : (f.role i).flies := by simp [hlead]
    have hnot : i ∉ f.queue := fun hmem => by simpa [hlead] using (h.waits i).mp hmem
    refine h.released.turn (by simp [hnot, hlead]) (by simp) ?_ ?_
    · exact fun j hji _ hj => hother i hfly j hji (h.released_flies j ▸ hj)
    · simpa using h.busy.mpr ⟨i, hfly⟩
  | close i =>
    simp only [singleFlight, Option.ite_none_right_eq_some, Option.some.injEq] at hstep
    obtain ⟨hclose, rfl⟩ := hstep
    have hfly : (f.role i).flies := by simp [hclose]
    refine h.turn (by simp [hclose]) (by simp) (by simp) ?_
    simpa using fun j hji => by simpa using hother i hfly j hji

theorem Led.step {f f' : Flight ι} {e : FlightEvent ι} (hinv : f.Inv) (h : f.Led) (hC : f.inTime e)
    (hstep : (singleFlight ι).step f e = some f') : f'.Led := by
  intro hqueue
  cases e with
  | lead i =>
    simp only [singleFlight, Option.ite_none_right_eq_some, Option.some.injEq] at hstep
    obtain ⟨-, rfl⟩ := hstep
    exact ⟨i, by simp⟩
  | join i =>
    simp only [singleFlight, Option.ite_none_right_eq_some, Option.some.injEq] at hstep
    obtain ⟨⟨hfree, -⟩, rfl⟩ := hstep
    obtain ⟨r, hr⟩ := hC
    have hri : r ≠ i := fun hri => by simp [hri ▸ hr] at hfree
    exact ⟨r, by simpa [Function.update_of_ne hri] using hr⟩
  | land i | fail i =>
    simp only [singleFlight, Option.ite_none_right_eq_some, Option.some.injEq] at hstep
    obtain ⟨-, rfl⟩ := hstep
    exact absurd rfl hqueue
  | close i =>
    simp only [singleFlight, Option.ite_none_right_eq_some, Option.some.injEq] at hstep
    obtain ⟨hclose, rfl⟩ := hstep
    -- the leader of the queue would fly beside `i`
    obtain ⟨r, hr⟩ := h hqueue
    have hri := hinv.one r i (by simp [hr]) (by simp [hclose])
    simp [← hri, hr] at hclose

/-- **A waiter waits for its leader**: it goes on waiting behind the same one, or that one releases the
queue. -/
theorem waiter_step {f f' : Flight ι} {e : FlightEvent ι} (hinv : f.Inv) {j r : ι} (hj : j ∈ f.queue)
    (hr : f.role r = .leading) (hstep : (singleFlight ι).step f e = some f') :
    (j ∈ f'.queue ∧ f'.role r = .leading) ∨ e = .land r ∨ e = .fail r := by
  have honly : ∀ i, (f.role i).flies → i = r := fun i hi => hinv.one i r hi (by simp [hr])
  cases e with
  | lead i =>
    simp only [singleFlight, Option.ite_none_right_eq_some, Option.some.injEq] at hstep
    have hbusy := hinv.busy.mpr ⟨r, by simp [hr]⟩
    simp [hbusy] at hstep
  | join i =>
    simp only [singleFlight, Option.ite_none_right_eq_some, Option.some.injEq] at hstep
    obtain ⟨⟨hfree, -⟩, rfl⟩ := hstep
    have hri : r ≠ i := fun hri => by simp [← hri, hr] at hfree
    exact .inl ⟨List.mem_append_left _ hj, by simpa [Function.update_of_ne hri] using hr⟩
  | land i =>
    simp only [singleFlight, Option.ite_none_right_eq_some, Option.some.injEq] at hstep
    obtain rfl := honly i (by simp [hstep.1])
    exact .inr (.inl rfl)
  | fail i =>
    simp only [singleFlight, Option.ite_none_right_eq_some, Option.some.injEq] at hstep
    obtain rfl := honly i (by simp [hstep.1])
    exact .inr (.inr rfl)
  | close i =>
    simp only [singleFlight, Option.ite_none_right_eq_some, Option.some.injEq] at hstep
    obtain rfl := honly i (by simp [hstep.1])
    simp [hr] at hstep

end Flight

end Locus.Lib
