import Locus.App.MapSearch
import Locus.Lib.PercentEncoding

/-!
# What the geocoder is asked

Whatever is typed into the search box of the map, a request asks the geocoder for just that: the query of its URL
reads back as the trimmed text and the three parameters of the app, and the rest of the URL is fixed. No character of
the text ends the parameter, adds one or leads to another path (`search_asks_typed`).
-/

namespace Locus.App

open Lib Server

namespace GeocodingService

def NOMINATIM_URL : String := "https://nominatim.openstreetmap.org"

/-- The characters that `encodeURIComponent` leaves as they are. -/
def unreserved (c : Char) : Bool := c.isAlphanum || "-_.!~*'()".toList.contains c

def encodeURIComponent (text : String) : String := String.ofList (Percent.encode unreserved text.toList)

/-- The URL that `search(query)` fetches, unless the query is too short. -/
def searchUrl (query : String) : Option String :=
  if tooShort query then none
  else
    let encoded := encodeURIComponent (jsTrim query)
    some (NOMINATIM_URL ++ "/search?q=" ++ encoded ++ "&format=json&limit=5&addressdetails=1")

/-- What the service is asked for. -/
def params (query : String) : List (String × String) :=
  [("q", jsTrim query), ("format", "json"), ("limit", "5"), ("addressdetails", "1")]

theorem unreserved_separates : Percent.Separates unreserved := by
  intro c hc
  simp only [List.mem_cons, List.not_mem_nil, or_false] at hc
  rcases hc with rfl | rfl | rfl | rfl | rfl <;> decide

theorem searchUrl_eq {query : String} (h : tooShort query = false) :
    ∃ url, searchUrl query = some url ∧
      url.toList = (NOMINATIM_URL ++ "/search").toList ++ '?' :: Percent.query unreserved (params query) := by
  refine ⟨_, by rw [searchUrl, h, if_neg Bool.false_ne_true], ?_⟩
  have hfixed : ["q", "format", "json", "limit", "5", "addressdetails", "1"].all fun text =>
      Percent.encode unreserved text.toList = text.toList := by decide
  simp only [List.all_cons, List.all_nil, Bool.and_true, Bool.and_eq_true, decide_eq_true_eq] at hfixed
  obtain ⟨hq, hformat, hjson, hlimit, hfive, haddress, hone⟩ := hfixed
  simp only [params, Percent.query, Percent.param, List.map_cons, List.map_nil, hq, hformat, hjson, hlimit, hfive,
    haddress, hone]
  simp [encodeURIComponent, NOMINATIM_URL]

/-- **The query of the URL is read back.** -/
theorem searchUrl_asks {query : String} (h : tooShort query = false) :
    ∃ url, searchUrl query = some url ∧ url.toList.takeWhile (· ≠ '?') = (NOMINATIM_URL ++ "/search").toList ∧
      Percent.parse (Percent.queryOf url.toList) = (params query).map fun p => (some p.1, some p.2) := by
  obtain ⟨url, hurl, heq⟩ := searchUrl_eq h
  have hfixed : (NOMINATIM_URL ++ "/search").toList.all fun c => c ≠ '?' ∧ c ≠ '#' := by decide
  have hpath : ∀ c ∈ (NOMINATIM_URL ++ "/search").toList, c ≠ '?' ∧ c ≠ '#' := fun c hc =>
    of_decide_eq_true (List.all_eq_true.mp hfixed c hc)
  refine ⟨url, hurl, ?_, ?_⟩
  · rw [heq, List.takeWhile_append_of_pos fun c hc => decide_eq_true (hpath c hc).1,
      List.takeWhile_cons_of_neg (by decide), List.append_nil]
  · have hne : params query ≠ [] := List.cons_ne_nil _ _
    rw [heq, Percent.queryOf_append hpath (Percent.hash_not_mem_query unreserved_separates _),
      Percent.parse_query unreserved_separates hne]

end GeocodingService

/-! ### Runs -/

section
variable {parseFloat : Option String → String} {C : MapSearch → MapSearchEvent → Prop} {s₀ s : MapSearch}
  {tr : List MapSearchEvent}

/-- What the timer and the requests wait with was typed. -/
def Typed (tr : List MapSearchEvent) (s : MapSearch) : Prop :=
  (∀ text ∈ s.searchTimeout, .edit text ∈ tr) ∧ ∀ text ∈ s.requests, .edit text ∈ tr

theorem typed_step {s' : MapSearch} {e : MapSearchEvent} (h : Typed tr s)
    (hstep : (mapSearch parseFloat).step s e = some s') : Typed (tr ++ [e]) s' := by
  have htimer : ∀ text ∈ s.searchTimeout, .edit text ∈ tr ++ [e] := fun text ht => List.mem_append_left _ (h.1 text ht)
  have hrequests : ∀ text ∈ s.requests, .edit text ∈ tr ++ [e] := fun text ht => List.mem_append_left _ (h.2 text ht)
  cases e with
  | edit text =>
    obtain rfl := Option.some.inj hstep
    unfold MapSearch.handleSearchChange
    split
    · exact ⟨fun text h => absurd h (Option.not_mem_none text), hrequests⟩
    · refine ⟨?_, hrequests⟩
      rintro _ ⟨⟩
      exact List.mem_append_right _ (List.mem_singleton_self _)
  | select index =>
    simp only [mapSearch] at hstep
    split at hstep
    · obtain ⟨result, -, rfl⟩ := Option.map_eq_some_iff.mp hstep
      exact ⟨htimer, hrequests⟩
    · cases hstep
  | fire =>
    obtain ⟨text, htext, rfl⟩ := Option.map_eq_some_iff.mp hstep
    unfold MapSearch.startSearch
    split
    · exact ⟨fun text h => absurd h (Option.not_mem_none text), hrequests⟩
    · refine ⟨fun text h => absurd h (Option.not_mem_none text), fun t ht => ?_⟩
      rcases List.mem_append.mp ht with ht | ht
      · exact hrequests t ht
      · obtain rfl := List.mem_singleton.mp ht
        exact htimer t htext
  | respond index answer =>
    obtain ⟨text, -, rfl⟩ := Option.map_eq_some_iff.mp hstep
    exact ⟨htimer, fun t ht => hrequests t (List.mem_of_mem_eraseIdx ht)⟩

/-- **A request asks for what was typed, and for nothing else**: whatever is typed, pressed and answered, each request
in flight is for a text that was typed, and its URL is that of the search with the four parameters `q`, `format`,
`limit` and `addressdetails`, of which `q` is that text without the white space around it. -/
theorem search_asks_typed (hinit : (mapSearch parseFloat).Init s₀) (h : (mapSearch parseFloat).Run C s₀ tr s)
    {text : String} (htext : text ∈ s.requests) : .edit text ∈ tr ∧ ∃ url, GeocodingService.searchUrl text = some url ∧
      url.toList.takeWhile (· ≠ '?') = (GeocodingService.NOMINATIM_URL ++ "/search").toList ∧
      Percent.parse (Percent.queryOf url.toList) = [(some "q", some (jsTrim text)), (some "format", some "json"),
        (some "limit", some "5"), (some "addressdetails", some "1")] := by
  obtain rfl := hinit
  have htyped : Typed tr s := h.history Typed ⟨fun _ h => (nomatch h), fun _ h => (nomatch h)⟩
    fun tr s e s' hs _ hstep => typed_step hs hstep
  have hlong : LongTexts s := h.invariant LongTexts ⟨fun _ h => (nomatch h), fun _ h => (nomatch h)⟩
    fun s e s' hs _ hstep => longTexts_step hs hstep
  exact ⟨htyped.2 text htext, GeocodingService.searchUrl_asks (tooShort_eq_false (hlong.requests text htext))⟩

/-- A name with an ampersand, a sharp s and a `#` is typed, and the timer goes off. -/
theorem search_asks_typed_street : ∃ url, GeocodingService.searchUrl " Müll & Straße #5 " = some url ∧
    Percent.parse (Percent.queryOf url.toList) = [(some "q", some "Müll & Straße #5"), (some "format", some "json"),
      (some "limit", some "5"), (some "addressdetails", some "1")] := by
  have hexec : ((mapSearch readFloat).exec (fun _ _ => true) {} [.edit " Müll & Straße #5 ", .fire]).map (·.requests) =
      some [" Müll & Straße #5 "] := by decide +kernel
  obtain ⟨s, hs, hrequests⟩ := Option.map_eq_some_iff.mp hexec
  obtain ⟨-, url, hurl, -, hparse⟩ := search_asks_typed rfl (.of_exec hs) (hrequests ▸ List.mem_singleton_self _)
  have htrim : jsTrim " Müll & Straße #5 " = "Müll & Straße #5" := by decide
  exact ⟨url, hurl, htrim ▸ hparse⟩

end

end Locus.App
