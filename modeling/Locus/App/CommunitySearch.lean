import Locus.Lib.System

/-!
# The search box of the community list

`CommunitiesScreen` keeps the text of its box in `search`, and the text that its query sends in
`debouncedSearch`. An edit starts a timer of 400 ms, which copies the text. The clear button empties both and
leaves the timer running: if it goes off before the next edit, the cleared text comes back to `debouncedSearch`
under an empty box (`clear_comes_back`). That is the only way for the two to differ while no timer is pending
(`search_converges_iff`).
-/

namespace Locus.App

open Lib

/-! ### The screen -/

inductive SortOption
  | rating
  | memberCount
  | availableRooms
  | createdAt
deriving DecidableEq

def SortOption.value : SortOption → String
  | rating => "rating"
  | memberCount => "member_count"
  | availableRooms => "available_rooms"
  | createdAt => "created_at"

/-- `opts[(opts.indexOf(sort) + 1) % opts.length]` -/
def SortOption.next : SortOption → SortOption
  | rating => memberCount
  | memberCount => availableRooms
  | availableRooms => createdAt
  | createdAt => rating

/-- The values of `TYPE_FILTERS`. -/
inductive TypeFilter
  | all
  | urban
  | suburban
  | rural
  | resort
deriving DecidableEq

def TypeFilter.value : TypeFilter → String
  | all => "all"
  | urban => "urban"
  | suburban => "suburban"
  | rural => "rural"
  | resort => "resort"

/-- The states of `CommunitiesScreen`, and its timer. -/
structure CommunitiesScreen where
  search : String := ""
  debouncedSearch : String := ""
  typeFilter : TypeFilter := .all
  sort : SortOption := .rating
  /-- `text` of the callback `() => setDebouncedSearch(text)` that is pending. -/
  searchTimeout : Option String := none
deriving DecidableEq

namespace CommunitiesScreen

/-- `handleSearch(text)`: an older timer is cleared. -/
def handleSearch (s : CommunitiesScreen) (text : String) : CommunitiesScreen :=
  { s with search := text, searchTimeout := some text }

/-- The button `close`: `setSearch(''); setDebouncedSearch('')`. -/
def clear (s : CommunitiesScreen) : CommunitiesScreen := { s with search := "", debouncedSearch := "" }

/-- The parameters that `queryFn` sends with `GET /communities`. -/
def params (s : CommunitiesScreen) (pageParam : ℕ) : List (String × String) :=
  [("page", toString pageParam), ("limit", "15"), ("sort", s.sort.value)] ++
    (if s.debouncedSearch ≠ "" then [("search", s.debouncedSearch)] else []) ++
    (if s.typeFilter ≠ .all then [("type", s.typeFilter.value)] else [])

end CommunitiesScreen

inductive SearchEvent
  | edit (text : String)
  | pressClear
  /-- The timer goes off. -/
  | fire
  | pressType (value : TypeFilter)
  | pressSort
deriving DecidableEq

def communitiesScreen : System CommunitiesScreen SearchEvent where
  Init s := s = {}
  step s
    | .edit text => some (s.handleSearch text)
    -- the button is there while `search.length > 0`
    | .pressClear => if s.search ≠ "" then some s.clear else none
    | .fire => s.searchTimeout.map fun text => { s with debouncedSearch := text, searchTimeout := none }
    | .pressType value => some { s with typeFilter := value }
    | .pressSort => some { s with sort := s.sort.next }

/-! ### Convergence -/

/-- The parameters ask for the communities that match the text, or for all if there is none. -/
def AsksFor (params : List (String × String)) (text : String) : Prop :=
  params.lookup "search" = if text = "" then none else some text

/-- While no timer is pending, the query is for the text in the box. -/
def Converged (s : CommunitiesScreen) : Prop :=
  s.searchTimeout = none → s.debouncedSearch = s.search ∧ ∀ pageParam, AsksFor (s.params pageParam) s.search

/-- If the timer goes off, then with the text in the box. -/
def FiresCurrent (s : CommunitiesScreen) : SearchEvent → Prop
  | .fire => s.searchTimeout = some s.search
  | _ => True

theorem params_asksFor (s : CommunitiesScreen) (pageParam : ℕ) : AsksFor (s.params pageParam) s.debouncedSearch := by
  unfold AsksFor CommunitiesScreen.params
  by_cases hsearch : s.debouncedSearch = ""
  · by_cases htype : s.typeFilter = .all <;> simp [hsearch, htype, List.lookup_cons]
  · simp [hsearch, List.lookup_cons]

theorem converged_iff {s : CommunitiesScreen} :
    Converged s ↔ (s.searchTimeout = none → s.debouncedSearch = s.search) := by
  constructor
  · intro h hnone
    exact (h hnone).1
  · intro h hnone
    have hsame := h hnone
    exact ⟨hsame, fun pageParam => hsame ▸ params_asksFor s pageParam⟩

theorem converged_step {s s' : CommunitiesScreen} {e : SearchEvent} (hs : Converged s)
    (hstep : communitiesScreen.step s e = some s') : Converged s' ↔ FiresCurrent s e := by
  rw [converged_iff] at hs ⊢
  cases e with
  | edit text =>
    obtain rfl := Option.some.inj hstep
    simp [CommunitiesScreen.handleSearch, FiresCurrent]
  | pressClear =>
    simp only [communitiesScreen] at hstep
    split at hstep
    · obtain rfl := Option.some.inj hstep
      simp [CommunitiesScreen.clear, FiresCurrent]
    · cases hstep
  | fire =>
    obtain ⟨text, htext, rfl⟩ := Option.map_eq_some_iff.mp hstep
    simp [FiresCurrent, htext]
  | pressType value =>
    obtain rfl := Option.some.inj hstep
    exact ⟨fun _ => trivial, fun _ => hs⟩
  | pressSort =>
    obtain rfl := Option.some.inj hstep
    exact ⟨fun _ => trivial, fun _ => hs⟩

/-- **The search converges** in all states of a run if and only if the timer never goes off with a text that is no
longer in the box. -/
theorem search_converges_iff {s₀ s : CommunitiesScreen} {tr : List SearchEvent} (h₀ : communitiesScreen.Init s₀)
    (h : communitiesScreen.Run System.Any s₀ tr s) :
    communitiesScreen.Throughout Converged s₀ tr ↔ communitiesScreen.Run FiresCurrent s₀ tr s := by
  obtain rfl : s₀ = {} := h₀
  have hinit : Converged {} := converged_iff.mpr fun _ => rfl
  exact h.throughout_iff (fun _ => True) Converged trivial hinit (fun _ _ _ _ _ => trivial)
    fun s e s' _ hs _ hstep => converged_step hs hstep

/-- `ab` is typed, and the timer goes off. -/
theorem search_converges_iff_ab :
    communitiesScreen.Throughout Converged {} [.edit "ab", .fire] := by
  have hrun : communitiesScreen.Run FiresCurrent {} [.edit "ab", .fire]
      { search := "ab", debouncedSearch := "ab" } :=
    .cons trivial rfl (.single rfl rfl)
  exact (search_converges_iff rfl (hrun.mono fun _ _ _ => trivial)).mpr hrun

/-- **The text that was cleared comes back**: the box is empty, and the list is for `ab`. -/
theorem clear_comes_back :
    ¬ ∀ tr s, communitiesScreen.Run System.Any {} tr s → Converged s := by
  intro hclaim
  have hrun : communitiesScreen.Run System.Any {} [.edit "ab", .pressClear, .fire]
      { search := "", debouncedSearch := "ab" } :=
    .cons trivial rfl (.cons trivial rfl (.single trivial rfl))
  have hsame := converged_iff.mp (hclaim _ _ hrun) rfl
  exact absurd hsame (by decide)

end Locus.App
