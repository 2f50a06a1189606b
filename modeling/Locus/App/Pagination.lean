import Locus.Lib.System
import Mathlib.Data.Int.Notation

/-!
# Endless lists

`usePagination` numbers the pages of a list. A call of `loadNextPage` reads `page`, `hasMore` and `isLoadingMore` as
they were at the render that it was taken from, and fetches page `page + 1`; the updates behind the response are
relative to what the states are by then. Two calls of one render fetch one page twice and leave the next one out
(`page_twice`), and a fetch that was started before a `reset` counts for the new list (`page_of_old_list`).

The pages are certain to come one after the other exactly when a call that is not turned away has no other fetch
beside it and reads the page of now, and no `reset` overtakes a fetch (`pages_consecutive_iff`).
-/

namespace Locus.App

open Lib

/-! ### The hook -/

structure UsePaginationOptions where
  initialPage : ℤ := 1
  pageSize : ℤ := 20

structure PageValues where
  page : ℤ
  hasMore : Bool := true
  isLoadingMore : Bool := false
deriving DecidableEq

/-- A call of `fetchFn` that is pending. -/
structure PageFetch where
  page : ℤ
  /-- No `reset` since it was started. -/
  current : Bool := true
deriving DecidableEq

structure Pagination where
  /-- The states with all updates applied. -/
  values : PageValues
  /-- The values of each render so far. -/
  renders : List PageValues
  fetches : List PageFetch := []
  /-- The pages that came back with results since the last `reset`. -/
  delivered : List ℤ := []
  /-- A fetch started since the last `reset` returned fewer than `pageSize` items. -/
  ranShort : Bool := false
deriving DecidableEq

namespace Pagination

/-- Updates of the states one after the other. React renders once behind them, or (`sync`) behind each of them. -/
def update (s : Pagination) (sync : Bool) (updates : List (PageValues → PageValues)) : Pagination :=
  { s with
    values := updates.foldl (fun v f => f v) s.values
    renders := if sync then s.renders ++ (updates.scanl (fun v f => f v) s.values).tail else s.renders }

variable (options : UsePaginationOptions)

/-- `reset()` -/
def reset (s : Pagination) (sync : Bool) : Pagination :=
  { s.update sync [fun v => { v with page := options.initialPage }, fun v => { v with hasMore := true }] with
    fetches := s.fetches.map fun f => { f with current := false }
    delivered := []
    ranShort := false }

/-- `loadNextPage` of the render with the values `v`, up to its `await`. -/
def loadNextPage (s : Pagination) (v : PageValues) (sync : Bool) : Pagination :=
  if !v.hasMore || v.isLoadingMore then s
  else { s.update sync [fun w => { w with isLoadingMore := true }] with fetches := s.fetches ++ [{ page := v.page + 1 }] }

/-- Its rest when the fetch `f` returns `length` results. -/
def resolve (s : Pagination) (f : PageFetch) (length : ℕ) (sync : Bool) : Pagination :=
  { s.update sync ((if length < options.pageSize then [fun v => { v with hasMore := false }] else []) ++
      (if 0 < length then [fun v => { v with page := v.page + 1 }] else []) ++
      [fun v => { v with isLoadingMore := false }]) with
    delivered := if 0 < length then s.delivered ++ [f.page] else s.delivered
    ranShort := s.ranShort || (f.current && length < options.pageSize) }

/-- Its `finally` when the fetch fails. -/
def reject (s : Pagination) (sync : Bool) : Pagination := s.update sync [fun v => { v with isLoadingMore := false }]

end Pagination

inductive PaginationEvent
  | render
  /-- A call of `loadNextPage`, taken from a render. -/
  | loadNextPage (render : ℕ) (sync : Bool)
  | resolve (fetch length : ℕ) (sync : Bool)
  | reject (fetch : ℕ) (sync : Bool)
  | reset (sync : Bool)

def usePagination (options : UsePaginationOptions) : System Pagination PaginationEvent where
  Init s := s = { values := { page := options.initialPage }, renders := [{ page := options.initialPage }] }
  step s
    | .render => some { s with renders := s.renders ++ [s.values] }
    | .loadNextPage render sync => s.renders[render]?.map fun v => s.loadNextPage v sync
    | .resolve fetch length sync => s.fetches[fetch]?.map fun f =>
        { s with fetches := s.fetches.eraseIdx fetch }.resolve options f length sync
    | .reject fetch sync => s.fetches[fetch]?.map fun _ =>
        { s with fetches := s.fetches.eraseIdx fetch }.reject sync
    | .reset sync => some (s.reset options sync)

section
variable (options : UsePaginationOptions)

/-! ### Consecutive pages -/

/-- The pages `initialPage + 1`, `initialPage + 2` and so on. -/
def pagesFrom (n : ℕ) : List ℤ := (List.range n).map fun i => options.initialPage + 1 + i

/-- The list since the last `reset` is made of consecutive pages, and ends only where a fetch for it ran short. -/
structure Consecutive (s : Pagination) : Prop where
  pages : s.delivered = pagesFrom options s.delivered.length
  more : s.values.hasMore = false → s.ranShort = true

def EndsFetch : Pagination → PaginationEvent → Prop
  | _, .resolve .. | _, .reject .. => True
  | _, _ => False

/-- A call that is not turned away has no other fetch beside it and reads the page of now. A `reset` overtakes no
fetch; one for the first page of a list that no fetch can run short of does no harm. -/
def TakesTurns (s : Pagination) : PaginationEvent → Prop
  | .loadNextPage render _ => ∀ v ∈ s.renders[render]?, v.hasMore = true → v.isLoadingMore = false →
      s.fetches = [] ∧ v.page = s.values.page
  | .reset _ => ∀ f ∈ s.fetches, f.page = options.initialPage + 1 ∧ options.pageSize ≤ 0
  | _ => True

/-- The list is consecutive, and the one fetch that may be pending is for its next page. -/
structure NextPage (s : Pagination) : Prop where
  consecutive : Consecutive options s
  fetches : s.fetches = [] ∨ ∃ f, s.fetches = [f] ∧ f.page = s.values.page + 1 ∧
    (f.current = true ∨ options.pageSize ≤ 0 ∨ s.ranShort = true)

/-- `page` counts the pages of the list. -/
def CountsPages (s : Pagination) : Prop := s.values.page = options.initialPage + s.delivered.length

variable {options} {s : Pagination}

theorem pagesFrom_succ (n : ℕ) : pagesFrom options (n + 1) = pagesFrom options n ++ [options.initialPage + 1 + n] := by
  simp [pagesFrom, List.range_succ]

theorem pagesFrom_append {l : List ℤ} {page : ℤ} (hl : l = pagesFrom options l.length) :
    l ++ [page] = pagesFrom options (l ++ [page]).length ↔ page = options.initialPage + 1 + l.length := by
  rw [List.length_append, List.length_singleton, pagesFrom_succ, ← hl]
  simp

theorem resolve_values (f : PageFetch) (length : ℕ) (sync : Bool) :
    (s.resolve options f length sync).values =
      ⟨if 0 < length then s.values.page + 1 else s.values.page,
        if length < options.pageSize then false else s.values.hasMore, false⟩ := by
  unfold Pagination.resolve Pagination.update
  by_cases hshort : (length : ℤ) < options.pageSize <;> by_cases hsome : 0 < length <;> simp [hshort, hsome]

theorem countsPages_resolve (h : CountsPages options s) (f : PageFetch) (length : ℕ) (sync : Bool) :
    CountsPages options (s.resolve options f length sync) := by
  unfold CountsPages at h ⊢
  rw [resolve_values]
  by_cases hsome : 0 < length
  · simp only [Pagination.resolve, hsome, if_true, List.length_append, List.length_singleton]
    omega
  · simp only [Pagination.resolve, hsome, if_false]
    exact h

theorem countsPages_step {s' : Pagination} {e : PaginationEvent} (h : CountsPages options s)
    (hstep : (usePagination options).step s e = some s') : CountsPages options s' := by
  cases e with
  | render =>
    obtain rfl := Option.some.inj hstep
    exact h
  | loadNextPage render sync =>
    obtain ⟨v, -, rfl⟩ := Option.map_eq_some_iff.mp hstep
    unfold Pagination.loadNextPage
    split
    · exact h
    · exact h
  | resolve fetch length sync =>
    obtain ⟨f, -, rfl⟩ := Option.map_eq_some_iff.mp hstep
    exact countsPages_resolve (s := { s with fetches := s.fetches.eraseIdx fetch }) h f length sync
  | reject fetch sync =>
    obtain ⟨f, -, rfl⟩ := Option.map_eq_some_iff.mp hstep
    exact h
  | reset sync =>
    obtain rfl := Option.some.inj hstep
    simp [CountsPages, Pagination.reset, Pagination.update]

/-! ### The steps -/

theorem NextPage.resolve {f : PageFetch} (hI : CountsPages options s) (h : Consecutive options s)
    (hpage : f.page = s.values.page + 1) (hcurrent : f.current = true ∨ options.pageSize ≤ 0 ∨ s.ranShort = true)
    (hnone : s.fetches = []) (length : ℕ) (sync : Bool) :
    NextPage options (s.resolve options f length sync) := by
  refine ⟨⟨?_, ?_⟩, .inl hnone⟩
  · unfold Pagination.resolve
    by_cases hsome : 0 < length
    · simp only [hsome, if_true]
      refine (pagesFrom_append h.pages).mpr ?_
      unfold CountsPages at hI
      omega
    · simp only [hsome, if_false]
      exact h.pages
  · rw [resolve_values]
    intro hmore
    simp only [Pagination.resolve, Bool.or_eq_true, Bool.and_eq_true, decide_eq_true_eq]
    by_cases hshort : (length : ℤ) < options.pageSize
    · rcases hcurrent with hcurrent | hsize | hran
      · exact .inr ⟨hcurrent, hshort⟩
      · omega
      · exact .inl hran
    · rw [if_neg hshort] at hmore
      exact .inl (h.more hmore)

theorem NextPage.only (h : NextPage options s) {fetch : ℕ} {f : PageFetch} (hf : s.fetches[fetch]? = some f) :
    f.page = s.values.page + 1 ∧ (f.current = true ∨ options.pageSize ≤ 0 ∨ s.ranShort = true) ∧
      s.fetches.eraseIdx fetch = [] := by
  rcases h.fetches with hnone | ⟨g, hg, hpage, hcurrent⟩
  · rw [hnone] at hf
    cases hf
  · rw [hg, List.getElem?_singleton] at hf
    split at hf
    · rename_i hzero
      obtain rfl := Option.some.inj hf
      rw [hg, hzero]
      exact ⟨hpage, hcurrent, rfl⟩
    · cases hf

theorem nextPage_step {s' : Pagination} {e : PaginationEvent} (hI : CountsPages options s) (h : NextPage options s)
    (hstep : (usePagination options).step s e = some s') : NextPage options s' ↔ TakesTurns options s e := by
  cases e with
  | render =>
    obtain rfl := Option.some.inj hstep
    exact ⟨fun _ => trivial, fun _ => ⟨⟨h.consecutive.pages, h.consecutive.more⟩, h.fetches⟩⟩
  | loadNextPage render sync =>
    obtain ⟨v, hv, rfl⟩ := Option.map_eq_some_iff.mp hstep
    simp only [TakesTurns, hv, Option.mem_def, Option.some.injEq, forall_eq']
    unfold Pagination.loadNextPage
    split
    · rename_i hturned
      refine ⟨fun _ hmore hloading => ?_, fun _ => h⟩
      simp [hmore, hloading] at hturned
    · rename_i hpass
      obtain ⟨hmore, hloading⟩ : v.hasMore = true ∧ v.isLoadingMore = false := by simpa using hpass
      constructor
      · intro h' _ _
        rcases h'.fetches with hnone | ⟨f, hf, hpage, -⟩
        · exact absurd hnone (List.append_ne_nil_of_right_ne_nil _ (List.cons_ne_nil _ _))
        · have hlist : s.fetches ++ [{ page := v.page + 1 }] = [] ++ [f] := hf
          obtain ⟨hfetches, hlast⟩ := List.append_inj' hlist rfl
          obtain rfl := List.head_eq_of_cons_eq hlast
          have hv' : v.page + 1 = s.values.page + 1 := hpage
          exact ⟨hfetches, by omega⟩
      · intro hturn
        obtain ⟨hnone, hpage⟩ := hturn hmore hloading
        refine ⟨⟨h.consecutive.pages, h.consecutive.more⟩, .inr ⟨{ page := v.page + 1 }, ?_, ?_, .inl rfl⟩⟩
        · show s.fetches ++ _ = _
          rw [hnone, List.nil_append]
        · show v.page + 1 = s.values.page + 1
          rw [hpage]
  | resolve fetch length sync =>
    obtain ⟨f, hf, rfl⟩ := Option.map_eq_some_iff.mp hstep
    refine ⟨fun _ => trivial, fun _ => ?_⟩
    obtain ⟨hpage, hcurrent, hnone⟩ := h.only hf
    exact NextPage.resolve (s := { s with fetches := s.fetches.eraseIdx fetch }) hI
      ⟨h.consecutive.pages, h.consecutive.more⟩ hpage hcurrent hnone length sync
  | reject fetch sync =>
    obtain ⟨f, hf, rfl⟩ := Option.map_eq_some_iff.mp hstep
    refine ⟨fun _ => trivial, fun _ => ?_⟩
    obtain ⟨-, -, hnone⟩ := h.only hf
    exact ⟨⟨h.consecutive.pages, h.consecutive.more⟩, .inl hnone⟩
  | reset sync =>
    obtain rfl := Option.some.inj hstep
    constructor
    · rintro h' f hf
      rcases h'.fetches with hnone | ⟨g, hg, hpage, hcurrent⟩
      · rw [List.map_eq_nil_iff.mp hnone] at hf
        cases hf
      · -- the fetch is not of the new list
        obtain ⟨f', hf', rfl⟩ := List.map_eq_singleton_iff.mp hg
        rw [hf', List.mem_singleton] at hf
        subst hf
        refine ⟨hpage, ?_⟩
        rcases hcurrent with hcurrent | hsize | hran
        · cases hcurrent
        · exact hsize
        · cases hran
    · intro hturn
      refine ⟨⟨rfl, fun hmore => ?_⟩, ?_⟩
      · cases hmore
      · rcases h.fetches with hnone | ⟨f, hf, -, -⟩
        · exact .inl (List.map_eq_nil_iff.mpr hnone)
        · obtain ⟨hpage, hsize⟩ := hturn f (by rw [hf]; exact List.mem_singleton_self f)
          refine .inr ⟨{ f with current := false }, ?_, hpage, .inr (.inl hsize)⟩
          show s.fetches.map _ = _
          rw [hf, List.map_singleton]

/-! ### Fetches that end -/

theorem Consecutive.page_of_certain (hI : CountsPages options s)
    (h : (usePagination options).Certain EndsFetch (Consecutive options) s) {fetch : ℕ} {f : PageFetch}
    (hf : s.fetches[fetch]? = some f) : f.page = s.values.page + 1 := by
  have hends : EndsFetch s (.resolve fetch 1 true) := trivial
  have hstep : (usePagination options).step s (.resolve fetch 1 true) =
      some ({ s with fetches := s.fetches.eraseIdx fetch }.resolve options f 1 true) := by
    simp only [usePagination, hf, Option.map_some]
  have hafter := (h.step hends hstep).now
  have hpage := (pagesFrom_append h.now.pages).mp hafter.pages
  unfold CountsPages at hI
  omega

theorem nextPage_of_certain (hI : CountsPages options s)
    (h : (usePagination options).Certain EndsFetch (Consecutive options) s) : NextPage options s := by
  refine ⟨h.now, ?_⟩
  match hfetches : s.fetches with
  | [] => exact .inl rfl
  | f :: rest =>
    have hf : s.fetches[0]? = some f := by rw [hfetches]; rfl
    have hpage := Consecutive.page_of_certain hI h hf
    have hends : ∀ length, EndsFetch s (.resolve 0 length true) := fun _ => trivial
    have hresolve : ∀ length, (usePagination options).step s (.resolve 0 length true) =
        some ({ s with fetches := rest }.resolve options f length true) := by
      intro length
      simp only [usePagination, hfetches, List.getElem?_cons_zero, Option.map_some, List.eraseIdx_cons_zero]
    cases rest with
    | cons g rest =>
      -- both are for the page behind the list, and the second comes behind the first
      have hg : s.fetches[1]? = some g := by rw [hfetches]; rfl
      have hpage' := Consecutive.page_of_certain hI h hg
      have hI' := countsPages_step hI (hresolve 1)
      have hfirst : ({ s with fetches := g :: rest }.resolve options f 1 true).fetches[0]? = some g := rfl
      have hnext := Consecutive.page_of_certain hI' (h.step (hends 1) (hresolve 1)) hfirst
      rw [resolve_values] at hnext
      simp only [Nat.zero_lt_one, if_true] at hnext
      omega
    | nil =>
      refine .inr ⟨f, rfl, hpage, ?_⟩
      by_contra hneither
      simp only [not_or, Bool.not_eq_true, Int.not_le] at hneither
      obtain ⟨hcurrent, hsize, hran⟩ := hneither
      -- no result at all runs short, and nothing of the new list did
      have hempty := (h.step (hends 0) (hresolve 0)).now.more
      rw [resolve_values] at hempty
      simp [Pagination.resolve, hcurrent, hran, hsize] at hempty

end

/-- **The pages are consecutive**, whatever becomes of the pending fetches, in all states of a run if and only if a
call that is not turned away has no other fetch beside it and reads the page of now, and no `reset` overtakes a
fetch. -/
theorem pages_consecutive_iff (options : UsePaginationOptions) {s₀ s : Pagination} {tr : List PaginationEvent}
    (h₀ : (usePagination options).Init s₀) (h : (usePagination options).Run System.Any s₀ tr s) :
    (usePagination options).Throughout ((usePagination options).Certain EndsFetch (Consecutive options)) s₀ tr ↔
      (usePagination options).Run (TakesTurns options) s₀ tr s := by
  obtain rfl : s₀ = { values := { page := options.initialPage }, renders := [{ page := options.initialPage }] } := h₀
  refine h.certain_iff (CountsPages options) (NextPage options) (Consecutive options) ?_ ?_
    (fun _ _ _ hI hstep => countsPages_step hI hstep) (fun _ hJ => hJ.consecutive) ?_
    (fun _ hI hcertain => nextPage_of_certain hI hcertain) fun _ _ _ hI hJ _ hstep => nextPage_step hI hJ hstep
  · simp [CountsPages]
  · exact ⟨⟨rfl, fun hmore => by cases hmore⟩, .inl rfl⟩
  · intro s e s' hI hJ he hstep
    refine (nextPage_step hI hJ hstep).mpr ?_
    cases e with
    | resolve | reject => trivial
    | render | loadNextPage | reset => exact he.elim

/-! ### Two runs -/

/-- Page 2 is fetched and rendered, and page 3 is the last one. -/
theorem pages_consecutive_iff_two :
    (usePagination {}).Throughout ((usePagination {}).Certain EndsFetch (Consecutive {}))
      { values := { page := 1 }, renders := [{ page := 1 }] }
      [.loadNextPage 0 false, .resolve 0 20 false, .render, .loadNextPage 1 false, .resolve 0 5 false] := by
  have hrun : (usePagination {}).Run (TakesTurns {}) { values := { page := 1 }, renders := [{ page := 1 }] }
      [.loadNextPage 0 false, .resolve 0 20 false, .render, .loadNextPage 1 false, .resolve 0 5 false]
      { values := { page := 3, hasMore := false }, renders := [{ page := 1 }, { page := 2 }], delivered := [2, 3],
        ranShort := true } := by
    refine .cons ?_ rfl (.cons trivial rfl (.cons trivial rfl (.cons ?_ rfl (.single trivial rfl))))
    · rintro v ⟨⟩ - -
      exact ⟨rfl, rfl⟩
    · rintro v ⟨⟩ - -
      exact ⟨rfl, rfl⟩
  exact (pages_consecutive_iff {} rfl (hrun.mono fun _ _ _ => trivial)).mpr hrun

/-- **Page 2 twice**: two calls of one render, before React has rendered `isLoadingMore`. -/
theorem page_twice :
    ¬ ∀ tr s, (usePagination {}).Run System.Any { values := { page := 1 }, renders := [{ page := 1 }] } tr s →
      Consecutive {} s := by
  intro hclaim
  have hrun : (usePagination {}).Run System.Any { values := { page := 1 }, renders := [{ page := 1 }] }
      [.loadNextPage 0 false, .loadNextPage 0 false, .resolve 0 20 false, .resolve 0 20 false]
      { values := { page := 3 }, renders := [{ page := 1 }], delivered := [2, 2] } :=
    .cons trivial rfl (.cons trivial rfl (.cons trivial rfl (.single trivial rfl)))
  exact absurd (hclaim _ _ hrun).pages (by decide)

/-- **A page of the old list**: the fetch that a `reset` overtakes ends the new list. -/
theorem page_of_old_list :
    ¬ ∀ tr s, (usePagination {}).Run System.Any { values := { page := 1 }, renders := [{ page := 1 }] } tr s →
      Consecutive {} s := by
  intro hclaim
  have hrun : (usePagination {}).Run System.Any { values := { page := 1 }, renders := [{ page := 1 }] }
      [.loadNextPage 0 false, .reset false, .resolve 0 0 false]
      { values := { page := 1, hasMore := false }, renders := [{ page := 1 }] } :=
    .cons trivial rfl (.cons trivial rfl (.single trivial rfl))
  exact absurd ((hclaim _ _ hrun).more rfl) (by decide)

end Locus.App
