import Locus.Lib.System
import Locus.Server.Json

/-!
# The search box of the map

An edit of the box on `MapScreen` starts a timer of 400 ms, in place of the one that is pending; when it goes off,
the text is sent to the geocoder, and the response fills the list of suggestions. A request that has been sent is
never cancelled, and its response is shown whatever the box holds by then: the suggestions for a text that was
deleted appear under the empty box (`deleted_text_suggested`). The suggestions answer the current text in all
states of a run exactly when the last response to arrive, unless it is empty, is for the text in the box and no
suggestion was chosen since the last edit (`suggestions_current_iff`).
-/

namespace Locus.App

open Lib Server

/-! ### The geocoder -/

/-- `item.address`. -/
structure NominatimAddress where
  city : Option String := none
  town : Option String := none
  county : Option String := none

/-- One item of the response of Nominatim. -/
structure NominatimItem where
  address : Option NominatimAddress := none
  name : Option String := none
  lat : Option String := none
  lon : Option String := none
  display_name : Option String := none
  type : Option String := none

inductive GeocodingType
  | city
  | address
  | region
deriving DecidableEq

structure GeocodingResult where
  name : String
  /-- A JavaScript number, as it prints. -/
  lat : String
  lng : String
  displayName : Option String
  type : GeocodingType
deriving DecidableEq

/-- `a || b` of an optional string and a string. -/
def orText (a : Option String) (b : String) : String :=
  match a with
  | some s => if s = "" then b else s
  | none => b

namespace GeocodingService

/-- `!query || query.trim().length < 2` -/
def tooShort (query : String) : Bool := query = "" ∨ jsLength (jsTrim query) < 2

variable (parseFloat : Option String → String)

def result (query : String) (item : NominatimItem) : GeocodingResult where
  name := orText (item.address.bind (·.city)) (orText (item.address.bind (·.town))
    (orText (item.address.bind (·.county)) (orText item.name query)))
  lat := parseFloat item.lat
  lng := parseFloat item.lon
  displayName := item.display_name
  type := if item.type = some "city" then .city else if item.type = some "administrative" then .region else .address

/-- What `search(query)` resolves to; `none` is a failed request or a response that cannot be read. -/
def results (query : String) (answer : Option (List NominatimItem)) : List GeocodingResult :=
  if tooShort query then [] else
    match answer with
    | some data => data.map (result parseFloat query)
    | none => []

end GeocodingService

/-! ### The screen -/

structure Region where
  latitude : String
  longitude : String
  latitudeDelta : String
  longitudeDelta : String
deriving DecidableEq

def INITIAL_REGION : Region := ⟨"34.0522", "-118.2437", "0.15", "0.15"⟩

def DEFAULT_DELTA : String := "0.05"

/-- What the user did last to the box. -/
inductive UserAction
  | edit
  | select
deriving DecidableEq

/-- The states of `MapScreen` that the search uses, with its timer and the requests that are in flight. -/
structure MapSearch where
  searchQuery : String := ""
  searchResults : List GeocodingResult := []
  showSuggestions : Bool := false
  isSearching : Bool := false
  region : Region := INITIAL_REGION
  /-- `text` of the callback that is pending. -/
  searchTimeout : Option String := none
  /-- `text` of each callback that awaits its response. -/
  requests : List String := []
  /-- The text that `searchResults` are the response to. -/
  answered : Option String := none
  lastAction : Option UserAction := none
deriving DecidableEq

namespace MapSearch

/-- `handleSearchChange(text)` -/
def handleSearchChange (s : MapSearch) (text : String) : MapSearch :=
  let s := { s with searchQuery := text, searchTimeout := none, lastAction := some .edit }
  if jsLength (jsTrim text) < 2 then { s with searchResults := [], showSuggestions := false, answered := none }
  else { s with searchTimeout := some text }

/-- `handleSelectResult(result)` -/
def handleSelectResult (s : MapSearch) (result : GeocodingResult) : MapSearch :=
  { s with
    searchQuery := result.name
    showSuggestions := false
    region := ⟨result.lat, result.lng, DEFAULT_DELTA, DEFAULT_DELTA⟩
    lastAction := some .select }

/-- What the callback does with the results for `text`. -/
def showResults (s : MapSearch) (text : String) (results : List GeocodingResult) : MapSearch :=
  { s with
    searchResults := results
    showSuggestions := 0 < results.length
    isSearching := false
    answered := some text }

/-- The callback up to its `await`; a text that is too short is not sent. -/
def startSearch (s : MapSearch) (text : String) : MapSearch :=
  let s := { s with searchTimeout := none, isSearching := true }
  if GeocodingService.tooShort text then s.showResults text [] else { s with requests := s.requests ++ [text] }

end MapSearch

inductive MapSearchEvent
  | edit (text : String)
  /-- A suggestion of the list is pressed. -/
  | select (index : ℕ)
  /-- The timer goes off. -/
  | fire
  /-- The response to one of the requests arrives. -/
  | respond (index : ℕ) (answer : Option (List NominatimItem))

variable (parseFloat : Option String → String)

/-- The screen from its first rendering on. -/
def mapSearch : System MapSearch MapSearchEvent where
  Init s := s = {}
  step s
    | .edit text => some (s.handleSearchChange text)
    | .select index => if s.showSuggestions then s.searchResults[index]?.map s.handleSelectResult else none
    | .fire => s.searchTimeout.map s.startSearch
    | .respond index answer => s.requests[index]?.map fun text =>
        { s with requests := s.requests.eraseIdx index }.showResults text
          (GeocodingService.results parseFloat text answer)

/-! ### Suggestions for the current text -/

/-- No timer is pending and no request is in flight. -/
def MapSearch.Quiet (s : MapSearch) : Prop := s.searchTimeout = none ∧ s.requests = []

instance (s : MapSearch) : Decidable s.Quiet := inferInstanceAs (Decidable (_ ∧ _))

/-- The visible suggestions answer the text in the box. -/
structure SuggestionsCurrent (s : MapSearch) : Prop where
  current : s.Quiet → s.showSuggestions → s.answered = some s.searchQuery
  long : s.Quiet → nonBlank s.searchQuery < 2 → s.showSuggestions = false
  chosen : s.Quiet → s.lastAction = some .select → s.showSuggestions = false

/-- The last response to arrive is empty, or for the text in the box with no suggestion chosen since. -/
def AnswersCurrent (s : MapSearch) : MapSearchEvent → Prop
  | .respond index answer => s.searchTimeout = none → s.requests.eraseIdx index = [] →
      ∀ text ∈ s.requests[index]?, GeocodingService.results parseFloat text answer = [] ∨
        (text = s.searchQuery ∧ s.lastAction ≠ some .select)
  | _ => True

/-- Only texts that are long enough wait for the timer or for a response. -/
structure LongTexts (s : MapSearch) : Prop where
  timer : ∀ text ∈ s.searchTimeout, 2 ≤ jsLength (jsTrim text)
  requests : ∀ text ∈ s.requests, 2 ≤ jsLength (jsTrim text)

theorem tooShort_eq_false {text : String} (h : 2 ≤ jsLength (jsTrim text)) :
    GeocodingService.tooShort text = false := by
  have hne : text ≠ "" := by
    rintro rfl
    exact absurd h (by decide)
  simp only [GeocodingService.tooShort, decide_eq_false_iff_not, not_or]
  exact ⟨hne, by omega⟩

variable {parseFloat}

theorem longTexts_step {s s' : MapSearch} {e : MapSearchEvent} (hs : LongTexts s)
    (hstep : (mapSearch parseFloat).step s e = some s') : LongTexts s' := by
  cases e with
  | edit text =>
    obtain rfl := Option.some.inj hstep
    unfold MapSearch.handleSearchChange
    split
    · exact ⟨fun _ h => (nomatch h), hs.requests⟩
    · rename_i hlong
      refine ⟨?_, hs.requests⟩
      rintro _ ⟨⟩
      omega
  | select index =>
    simp only [mapSearch] at hstep
    split at hstep
    · obtain ⟨result, -, rfl⟩ := Option.map_eq_some_iff.mp hstep
      exact ⟨hs.timer, hs.requests⟩
    · cases hstep
  | fire =>
    obtain ⟨text, htext, rfl⟩ := Option.map_eq_some_iff.mp hstep
    have hlong := hs.timer text htext
    rw [MapSearch.startSearch, tooShort_eq_false hlong]
    refine ⟨fun _ h => (nomatch h), fun t ht => ?_⟩
    rcases List.mem_append.mp ht with ht | ht
    · exact hs.requests t ht
    · obtain rfl := List.mem_singleton.mp ht
      exact hlong
  | respond index answer =>
    obtain ⟨text, -, rfl⟩ := Option.map_eq_some_iff.mp hstep
    exact ⟨hs.timer, fun t ht => hs.requests t (List.mem_of_mem_eraseIdx ht)⟩

theorem suggestionsCurrent_of {s : MapSearch} (h : s.Quiet → s.showSuggestions = false) : SuggestionsCurrent s := by
  constructor
  · intro hquiet hshow
    rw [h hquiet] at hshow
    cases hshow
  · exact fun hquiet _ => h hquiet
  · exact fun hquiet _ => h hquiet

theorem suggestionsCurrent_showResults (s : MapSearch) {text : String} (results : List GeocodingResult)
    (hlong : 2 ≤ jsLength (jsTrim text)) :
    SuggestionsCurrent (s.showResults text results) ↔
      (s.searchTimeout = none → s.requests = [] →
        results = [] ∨ (text = s.searchQuery ∧ s.lastAction ≠ some .select)) := by
  constructor
  · intro h htimer hrequests
    have hquiet : (s.showResults text results).Quiet := ⟨htimer, hrequests⟩
    rcases List.eq_nil_or_concat results with hnil | ⟨front, last, hresults⟩
    · exact .inl hnil
    · have hshow : (s.showResults text results).showSuggestions = true := by
        simp [MapSearch.showResults, hresults]
      refine .inr ⟨Option.some.inj (h.current hquiet hshow), fun hselect => ?_⟩
      rw [h.chosen hquiet hselect] at hshow
      cases hshow
  · intro h
    constructor
    · rintro ⟨htimer, hrequests⟩ hshow
      rcases h htimer hrequests with rfl | ⟨rfl, -⟩
      · cases hshow
      · rfl
    · rintro ⟨htimer, hrequests⟩ hshort
      rcases h htimer hrequests with rfl | ⟨rfl, -⟩
      · rfl
      · have hnonBlank := two_le_nonBlank hlong
        simp only [MapSearch.showResults] at hshort
        omega
    · rintro ⟨htimer, hrequests⟩ hselect
      rcases h htimer hrequests with rfl | ⟨-, hnot⟩
      · rfl
      · exact absurd hselect hnot

theorem suggestionsCurrent_step {s s' : MapSearch} {e : MapSearchEvent} (hlong : LongTexts s)
    (hstep : (mapSearch parseFloat).step s e = some s') : SuggestionsCurrent s' ↔ AnswersCurrent parseFloat s e := by
  cases e with
  | edit text =>
    obtain rfl := Option.some.inj hstep
    refine ⟨fun _ => trivial, fun _ => suggestionsCurrent_of fun hquiet => ?_⟩
    unfold MapSearch.handleSearchChange at hquiet ⊢
    split at hquiet
    · rename_i hshort
      rw [if_pos hshort]
    · cases hquiet.1
  | select index =>
    refine ⟨fun _ => trivial, fun _ => suggestionsCurrent_of fun _ => ?_⟩
    simp only [mapSearch] at hstep
    split at hstep
    · obtain ⟨result, -, rfl⟩ := Option.map_eq_some_iff.mp hstep
      rfl
    · cases hstep
  | fire =>
    obtain ⟨text, htext, rfl⟩ := Option.map_eq_some_iff.mp hstep
    refine ⟨fun _ => trivial, fun _ => suggestionsCurrent_of fun hquiet => ?_⟩
    rw [MapSearch.startSearch, tooShort_eq_false (hlong.timer text htext)] at hquiet
    exact absurd hquiet.2 (List.append_ne_nil_of_right_ne_nil _ (List.cons_ne_nil _ _))
  | respond index answer =>
    obtain ⟨text, htext, rfl⟩ := Option.map_eq_some_iff.mp hstep
    have htextLong := hlong.requests text (List.mem_of_getElem? htext)
    rw [suggestionsCurrent_showResults _ _ htextLong]
    simp only [AnswersCurrent, htext, Option.mem_def, Option.some.injEq, forall_eq']

variable (parseFloat)

/-- **The suggestions answer the current text** in all states of a run if and only if every last response that
arrives is empty, or for the text in the box with no suggestion chosen since the last edit. -/
theorem suggestions_current_iff {s₀ s : MapSearch} {tr : List MapSearchEvent}
    (h₀ : (mapSearch parseFloat).Init s₀) (h : (mapSearch parseFloat).Run System.Any s₀ tr s) :
    (mapSearch parseFloat).Throughout SuggestionsCurrent s₀ tr ↔
      (mapSearch parseFloat).Run (AnswersCurrent parseFloat) s₀ tr s := by
  obtain rfl : s₀ = {} := h₀
  have hlong : LongTexts {} := ⟨fun _ h => (nomatch h), fun _ h => (nomatch h)⟩
  have hcurrent : SuggestionsCurrent {} := suggestionsCurrent_of fun _ => rfl
  exact h.throughout_iff LongTexts SuggestionsCurrent hlong hcurrent (fun _ _ _ hs => longTexts_step hs)
    fun _ _ _ hlong _ _ => suggestionsCurrent_step hlong

/-! ### Paris -/

/-- `parseFloat` of a text that prints as it is. -/
def readFloat (text : Option String) : String := text.getD "NaN"

def paris : NominatimItem where
  address := some { city := some "Paris" }
  lat := some "48.8535"
  lon := some "2.3484"
  display_name := some "Paris, France"
  type := some "city"

/-- The states in which a text was typed and its request is in flight. -/
def asked (text : String) : MapSearch :=
  { searchQuery := text, isSearching := true, requests := [text], lastAction := some .edit }

theorem asked_pa : (mapSearch readFloat).Run (AnswersCurrent readFloat) {} [.edit "pa", .fire] (asked "pa") :=
  .cons trivial rfl (.single trivial rfl)

/-- `pa` is typed, sent and answered. -/
theorem suggestions_current_iff_pa :
    (mapSearch readFloat).Throughout SuggestionsCurrent {} [.edit "pa", .fire, .respond 0 (some [paris])] := by
  have hanswer : AnswersCurrent readFloat (asked "pa") (.respond 0 (some [paris])) := by
    rintro - - text ⟨⟩
    exact .inr ⟨rfl, by decide⟩
  have hrun := asked_pa.snoc hanswer rfl
  exact (suggestions_current_iff readFloat rfl (hrun.mono fun _ _ _ => trivial)).mpr hrun

/-- **Suggestions for a deleted text**: `pa` is deleted while its request is in flight, and Paris is suggested under
the empty box. -/
theorem deleted_text_suggested :
    ¬ ∀ tr s, (mapSearch readFloat).Run System.Any {} tr s → SuggestionsCurrent s := by
  intro hclaim
  have hasked : (mapSearch readFloat).Run System.Any {} [.edit "pa", .fire] (asked "pa") :=
    asked_pa.mono fun _ _ _ => trivial
  have hrun := (hasked.snoc (e := .edit "") trivial rfl).snoc (e := .respond 0 (some [paris])) trivial rfl
  have hcurrent := (hclaim _ _ hrun).current ⟨rfl, rfl⟩ rfl
  exact absurd hcurrent (by decide)

end Locus.App
