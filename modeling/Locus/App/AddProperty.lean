import Locus.Server.Accounts
import Locus.Server.Constraints
import Locus.Server.PasswordRaces

/-!
# A property added in the app

`AddPropertyScreen` keeps a latitude and a longitude that nothing sets, so what it posts has no location. The server
stores the property as it was entered and answers every later request for its id with it. But the Home screen and the
map ask by distance only, and a property without a location is at none: it is in no list nearby and has no pin, ever
(`added_never_near`).
-/

namespace Locus.App

open Lib Server

/-! ### The screen -/

/-- `PROPERTY_TYPES` -/
def PROPERTY_TYPES : List String := ["House", "Apartment", "Room", "Land"]

structure AddPropertyForm where
  title : String := ""
  type : String := "House"
  address : String := ""
  price : String := ""
  description : String := ""
  /-- A number as JavaScript prints it, or null. -/
  lat : Option String := none
  lng : Option String := none
deriving DecidableEq

structure AddPropertyScreen where
  form : AddPropertyForm := {}
  loading : Bool := false
  error : Option String := none
  /-- The forms posted so far. -/
  posted : List AddPropertyForm := []
deriving DecidableEq

inductive AddPropertyEvent
  | setTitle (text : String)
  /-- A press on one of the chips -/
  | setType (type : String)
  | setAddress (text : String)
  | setPrice (text : String)
  | setDescription (text : String)
  /-- A press on the button, which is disabled while it loads -/
  | handleSubmit
  /-- The POST is answered, with or without `success` and `data`. -/
  | answered (added : Bool)
  | failed (message : String)

/-- `handleSubmit` up to its `await`. -/
def AddPropertyScreen.handleSubmit (s : AddPropertyScreen) : AddPropertyScreen :=
  if jsTrim s.form.title = "" then { s with error := some "Property title is required" }
  else { s with error := none, loading := true, posted := s.posted ++ [s.form] }

/-- The screen from its first render on; `_setLat` and `_setLng` have no caller. -/
def addPropertyScreen : System AddPropertyScreen AddPropertyEvent where
  Init s := s = {}
  step s
    | .setTitle text => some { s with form := { s.form with title := text } }
    | .setType type => if type ∈ PROPERTY_TYPES then some { s with form := { s.form with type } } else none
    | .setAddress text => some { s with form := { s.form with address := text } }
    | .setPrice text => some { s with form := { s.form with price := text } }
    | .setDescription text => some { s with form := { s.form with description := text } }
    | .handleSubmit => if s.loading then none else some s.handleSubmit
    | .answered added =>
      if s.loading then
        some { s with loading := false, error := if added then s.error else some "Failed to add property" }
      else none
    | .failed message => if s.loading then some { s with loading := false, error := some message } else none

namespace AddPropertyForm

/-- `text || undefined` -/
def orUndefined (text : String) : Option Json := if text = "" then none else some (.str text)

/-- `JSON.stringify` writes a number that is not finite as null. -/
def jsonNumber (v : String) : Json := if v = "NaN" ∨ v = "Infinity" ∨ v = "-Infinity" then .null else .num v

/-- `price ? parseFloat(price) : undefined` -/
def parsedPrice (svc : Services) (form : AddPropertyForm) : Option Json :=
  if form.price = "" then none else some (jsonNumber (svc.parseFloat (some form.price)))

/-- `payload.location = { lat, lng }` under `lat != null && lng != null` -/
def location (form : AddPropertyForm) : Option Json :=
  match form.lat, form.lng with
  | some lat, some lng => some (.obj [("lat", jsonNumber lat), ("lng", jsonNumber lng)])
  | _, _ => none

/-- The body of `api.post('/properties', payload)`: `JSON.stringify` leaves out what is undefined. -/
def payload (svc : Services) (form : AddPropertyForm) : Json :=
  .obj ([("title", .str (jsTrim form.title)), ("type", .str (jsTrim form.type))] ++
    optional "address" (orUndefined (jsTrim form.address)) ++ optional "price" (form.parsedPrice svc) ++
    optional "description" (orUndefined (jsTrim form.description)) ++ optional "location" form.location)
where
  optional (key : String) (v : Option Json) : List (String × Json) := v.toList.map (key, ·)

/-- What nothing on the screen sets is as it was, and the type is one of the chips. -/
structure Entered (form : AddPropertyForm) : Prop where
  lat : form.lat = none
  lng : form.lng = none
  type : form.type ∈ PROPERTY_TYPES

end AddPropertyForm

/-! ### What is posted -/

section
variable {s : AddPropertyScreen} {D : AddPropertyScreen → AddPropertyEvent → Prop}

def AddPropertyScreen.Submits (s : AddPropertyScreen) : Prop :=
  s.form.Entered ∧ ∀ form ∈ s.posted, form.Entered ∧ jsTrim form.title ≠ ""

theorem addProperty_step {s' : AddPropertyScreen} {e : AddPropertyEvent} (h : s.Submits)
    (hstep : addPropertyScreen.step s e = some s') : s'.Submits := by
  obtain ⟨⟨hlat, hlng, htype⟩, hposted⟩ := h
  cases e with
  | setType type =>
    simp only [addPropertyScreen, Option.ite_none_right_eq_some, Option.some.injEq] at hstep
    obtain ⟨hchip, rfl⟩ := hstep
    exact ⟨⟨hlat, hlng, hchip⟩, hposted⟩
  | handleSubmit =>
    simp only [addPropertyScreen, AddPropertyScreen.handleSubmit] at hstep
    split_ifs at hstep with _ hempty
    · cases hstep
      exact ⟨⟨hlat, hlng, htype⟩, hposted⟩
    · cases hstep
      refine ⟨⟨hlat, hlng, htype⟩, fun form hform => ?_⟩
      rcases List.mem_append.mp hform with hform | hform
      · exact hposted form hform
      · obtain rfl := List.mem_singleton.mp hform
        exact ⟨⟨hlat, hlng, htype⟩, hempty⟩
  | answered added | failed message =>
    simp only [addPropertyScreen, Option.ite_none_right_eq_some, Option.some.injEq] at hstep
    obtain ⟨-, rfl⟩ := hstep
    exact ⟨⟨hlat, hlng, htype⟩, hposted⟩
  | setTitle | setAddress | setPrice | setDescription =>
    cases hstep
    exact ⟨⟨hlat, hlng, htype⟩, hposted⟩

/-- Whatever is entered and pressed, what is posted has a title, one of the types and no coordinates. -/
theorem posted_entered (h : addPropertyScreen.Reachable D s) {form : AddPropertyForm} (hform : form ∈ s.posted) :
    form.Entered ∧ jsTrim form.title ≠ "" := by
  have hsubmits : s.Submits := by
    refine h.invariant _ ?_ fun t e t' ht _ hstep => addProperty_step ht hstep
    rintro _ rfl
    exact ⟨⟨rfl, rfl, by decide⟩, fun form hform => nomatch hform⟩
  exact hsubmits.2 form hform

end

/-! ### What is stored -/

section
variable {svc : Services} {db db' : Db} {row : PropertyRow} {form : AddPropertyForm} {log : List StmtCall}

theorem payload_fields (svc : Services) (form : AddPropertyForm) :
    (form.payload svc).field? "title" = some (.str (jsTrim form.title)) ∧
      (form.payload svc).field? "type" = some (.str (jsTrim form.type)) ∧
      (form.payload svc).field? "address" = AddPropertyForm.orUndefined (jsTrim form.address) ∧
      (form.payload svc).field? "price" = form.parsedPrice svc ∧
      (form.payload svc).field? "description" = AddPropertyForm.orUndefined (jsTrim form.description) ∧
      (form.payload svc).field? "location" = form.location := by
  unfold AddPropertyForm.payload
  generalize AddPropertyForm.orUndefined (jsTrim form.address) = address
  generalize form.parsedPrice svc = price
  generalize AddPropertyForm.orUndefined (jsTrim form.description) = description
  generalize form.location = location
  refine ⟨rfl, rfl, ?_, ?_, ?_, ?_⟩ <;>
    cases address <;> cases price <;> cases description <;> cases location <;> rfl

/-- The number that is sent as the price: JSON has none that is not finite. -/
def AddPropertyForm.sentPrice (svc : Services) (form : AddPropertyForm) : Option String :=
  let v := svc.parseFloat (some form.price)
  if form.price = "" ∨ v = "NaN" ∨ v = "Infinity" ∨ v = "-Infinity" then none else some v

/-- `row` is the property as it was entered: without a text where it was left blank, with the decimal of the price where
that is a number, and at no location. -/
structure StoredAs (svc : Services) (form : AddPropertyForm) (row : PropertyRow) : Prop where
  title : row.title = jsTrim form.title
  type : row.type = some form.type
  address : row.address = (some (jsTrim form.address)).filter (· ≠ "")
  noPrice : form.sentPrice svc = none → row.price = none
  price : ∀ v, form.sentPrice svc = some v → ∃ p, svc.decimal (svc.number (.num v)) = .ok p ∧ row.price = some p
  description : row.description = (some (jsTrim form.description)).filter (· ≠ "")
  location : row.location = none
  status : row.status = "active"

/-- The columns of a row are the arguments of its INSERT, the price as `DECIMAL(10,2)` holds it. -/
structure Columns (svc : Services) (title : String) (type address price description : Option String) (location : Option Json)
    (row : PropertyRow) : Prop where
  title : row.title = title
  type : row.type = type
  address : row.address = address
  price : price.mapM svc.decimal = .ok row.price
  description : row.description = description
  location : row.location = location
  status : row.status = "active"

theorem insertProperty_columns {tick : Tick} {ownerId : Uuid} {title : String}
    {type address price description : Option String} {location : Option Json} {photos : Json}
    (h : insertProperty svc tick db ownerId title type address price description location photos = .ok (row, db')) :
    Columns svc title type address price description location row := by
  unfold insertProperty at h
  cases price with
  | none =>
    split_ifs at h <;> cases h
    exact ⟨rfl, rfl, rfl, rfl, rfl, rfl, rfl⟩
  | some price =>
    cases hdecimal : svc.decimal price with
    | error e =>
      rw [Option.mapM_some, hdecimal] at h
      split_ifs at h <;> cases h
    | ok stored =>
      rw [Option.mapM_some, hdecimal] at h
      split_ifs at h <;> cases h
      refine ⟨rfl, rfl, rfl, ?_, rfl, rfl, rfl⟩
      rw [Option.mapM_some, hdecimal]
      rfl

theorem textOrNull_orUndefined (text : String) :
    textOrNull (AddPropertyForm.orUndefined text) = (some text).filter (· ≠ "") := by
  by_cases h : text = ""
  · subst h
    rfl
  · simp [AddPropertyForm.orUndefined, textOrNull, Json.truthy, Json.toParam, Option.filter, h]

theorem type_stored {form : AddPropertyForm} (h : form.type ∈ PROPERTY_TYPES) :
    textOrNull (some (.str (jsTrim form.type))) = some form.type := by
  simp only [PROPERTY_TYPES, List.mem_cons, List.not_mem_nil, or_false] at h
  rcases h with h | h | h | h <;> rw [h] <;> decide

theorem priceOf_parsedPrice (svc : Services) (form : AddPropertyForm) :
    priceOf svc (form.parsedPrice svc) = some ((form.sentPrice svc).map fun v => svc.number (.num v)) := by
  unfold AddPropertyForm.parsedPrice AddPropertyForm.sentPrice AddPropertyForm.jsonNumber
  by_cases hempty : form.price = ""
  · rw [if_pos hempty, if_pos (.inl hempty)]
    rfl
  · simp only [hempty, false_or, if_false]
    split_ifs <;> rfl

/-- An answered POST of the screen has stored what was entered. -/
theorem postProperties_row {env : NodeEnv} {authorization : Option String} (hform : form.Entered)
    (h : (postProperties svc env authorization (form.payload svc)).Path log (.done ⟨201, .property row⟩)) :
    ∃ ownerId title type address price description location photos,
      ⟨.insertProperty ownerId title type address price description location photos, .ok row⟩ ∈ log ∧
        (Columns svc title type address price description location row → StoredAs svc form row) := by
  obtain ⟨htitle, htype, haddress, hprice, hdescription, hlocation⟩ := payload_fields svc form
  cases hauth : authenticate svc env authorization with
  | none =>
    obtain ⟨text, hrefused⟩ := authMiddleware_none svc env _ hauth
    rw [postProperties, hrefused] at h
    obtain ⟨-, hdone⟩ := Prog.path_done.mp h
    cases hdone
  | some user =>
    rw [postProperties, authMiddleware_some svc env _ hauth] at h
    split at h
    · obtain ⟨-, hdone⟩ := Prog.path_done.mp h
      cases hdone
    rename_i title hname
    obtain ⟨-, hdone⟩ | ⟨price, hpassed, h⟩ := catch500_coerced_path h
    · cases hdone
    obtain ⟨-, hawaits⟩ | ⟨row', log', rfl, hrest⟩ | ⟨err, -, hdone⟩ := catch500_path h
    · exact (not_awaits_done hawaits).elim
    · cases (catch500_pure_path hrest).2
      refine ⟨_, _, _, _, _, _, _, _, List.mem_cons_self, fun hrow => ?_⟩
      rw [htitle] at hname
      rw [hprice, priceOf_parsedPrice] at hpassed
      obtain rfl := Option.some.inj hpassed
      obtain rfl : jsTrim form.title = title := Json.str.inj (Option.some.inj (nonEmptyString_some hname).1)
      exact
        { title := hrow.title.trans (jsTrim_eq_self (jsTrim_head _) (jsTrim_getLast _))
          type := hrow.type.trans (htype ▸ type_stored hform.type)
          address := hrow.address.trans (haddress ▸ textOrNull_orUndefined _)
          noPrice := fun hnone => by
            have hstored := hrow.price
            rw [hnone] at hstored
            exact (Except.ok.inj hstored).symm
          price := fun v hv => by
            have hstored := hrow.price
            rw [hv, Option.map_some, Option.mapM_some] at hstored
            obtain ⟨p, hdecimal, hp⟩ := bind_eq_ok.mp hstored
            exact ⟨p, hdecimal, (Except.ok.inj hp).symm⟩
          description := hrow.description.trans (hdescription ▸ textOrNull_orUndefined _)
          location := by
            rw [hrow.location, hlocation, AddPropertyForm.location, hform.lat]
            rfl
          status := hrow.status }
    · cases hdone

/-- An INSERT that was answered has its row, with its arguments. -/
def PropertyThere (svc : Services) (db : Db) (call : StmtCall) : Prop :=
  ∀ ownerId title type address price description location photos row,
    call = ⟨.insertProperty ownerId title type address price description location photos, .ok row⟩ →
      row ∈ db.properties ∧ Columns svc title type address price description location row

theorem PropertyThere.later {call : StmtCall} (h : db.Grows db') (hcall : PropertyThere svc db call) :
    PropertyThere svc db' call := by
  intro ownerId title type address price description location photos row heq
  obtain ⟨hrow, hcolumns⟩ := hcall ownerId title type address price description location photos row heq
  exact ⟨h.properties.subset hrow, hcolumns⟩

theorem exec_propertyThere {x : Tick} (q : Stmt) : PropertyThere svc (exec svc x db q).2 ⟨q, (exec svc x db q).1⟩ := by
  intro ownerId title type address price description location photos row hcall
  obtain ⟨rfl, hanswer⟩ := Prog.Call.mk.inj hcall
  obtain ⟨a, db', hok, hexec⟩ | ⟨e, hexec, -⟩ :=
    exec_cases svc x db (.insertProperty ownerId title type address price description location photos)
  · rw [hexec] at hanswer ⊢
    cases eq_of_heq hanswer
    obtain ⟨-, -, rfl⟩ := insertProperty_ok hok
    exact ⟨List.mem_append_right _ (List.mem_singleton_self _), insertProperty_columns hok⟩
  · rw [hexec] at hanswer
    cases eq_of_heq hanswer

/-! ### What is shown -/

/-- `row` is found under its id, and near no point. -/
def FoundNotNear (row : PropertyRow) (call : StmtCall) : Prop :=
  (∀ rows, call = ⟨.selectProperty (.uuid row.id), .ok rows⟩ → rows = [row]) ∧
    ∀ lat lng radius limit offset rows, call = ⟨.selectPropertiesNearby lat lng radius limit offset, .ok rows⟩ →
      ∀ near ∈ rows, near.id ≠ row.id

theorem selectNearby_located {f : Float8} {lat lng radius : String} {rows out : List PropertyRow}
    (h : selectNearby f (·.location) lat lng radius rows = .ok out) : ∀ near ∈ out, near.location ≠ none := by
  obtain ⟨p, q, r, rr, -, -, -, -, hfilter⟩ := selectNearby_eq_ok.mp h
  intro near hnear hnone
  rw [(filterNearby_eq_ok.mp hfilter).2] at hnear
  have hwithin := (List.mem_filter.mp hnear).2
  rw [hnone] at hwithin
  cases hwithin

theorem exec_foundNotNear {x : Tick} (hdb : Constrained db) (hrow : row ∈ db.properties) (hnone : row.location = none)
    (q : Stmt) : FoundNotNear row ⟨q, (exec svc x db q).1⟩ := by
  refine ⟨fun rows hcall => ?_, fun lat lng radius limit offset rows hcall near hnear hid => ?_⟩
  · obtain ⟨rfl, hanswer⟩ := Prog.Call.mk.inj hcall
    obtain ⟨db', hok⟩ := exec_ok (eq_of_heq hanswer)
    obtain rfl := Except.ok.inj (ok_of_map hok)
    exact filter_of_nodup_map hdb.properties_pkey hrow
  · obtain ⟨rfl, hanswer⟩ := Prog.Call.mk.inj hcall
    obtain ⟨db', hok⟩ := exec_ok (eq_of_heq hanswer)
    obtain ⟨out, hselect, hpage⟩ := bind_eq_ok.mp (ok_of_map hok)
    have hout := mem_pageOf hpage near hnear
    have hstored := (selectNearby_sublist hselect).subset hout
    obtain rfl : near = row := by
      have hone := filter_of_nodup_map hdb.properties_pkey hrow
      have hmem : near ∈ db.properties.filter fun r => r.id = row.id :=
        List.mem_filter.mpr ⟨hstored, decide_eq_true hid⟩
      rw [hone] at hmem
      exact List.mem_singleton.mp hmem
    exact selectNearby_located hselect near hout hnone

theorem getPropertiesId_row {id : IdParam} {response : Response} (hanswered : response.status ≠ 500)
    (h : (getPropertiesId id).Path log (.done response)) :
    ∃ rows, ⟨.selectProperty id, .ok rows⟩ ∈ log ∧ ∀ row, rows = [row] → response = ⟨200, .property row⟩ := by
  obtain ⟨-, hawaits⟩ | ⟨rows, log', rfl, hrest⟩ | ⟨err, -, hdone⟩ := catch500_path h
  · exact (not_awaits_done hawaits).elim
  · refine ⟨rows, List.mem_cons_self, ?_⟩
    rintro row rfl
    cases (catch500_pure_path hrest).2
    rfl
  · cases hdone
    exact (hanswered rfl).elim

theorem getProperties_near {lq : ListQuery} {page : Page PropertyRow} (hlat : svc.parseFloat lq.lat ≠ "NaN")
    (hlng : svc.parseFloat lq.lng ≠ "NaN")
    (h : (getProperties svc lq).Path log (.done ⟨200, .propertyPage page⟩)) :
    ∃ lat lng radius limit offset, ⟨.selectPropertiesNearby lat lng radius limit offset, .ok page.data⟩ ∈ log := by
  simp only [getProperties, if_pos (And.intro hlat hlng)] at h
  obtain ⟨-, hawaits⟩ | ⟨total, log₁, rfl, h₁⟩ | ⟨err, -, hdone⟩ := catch500_path h
  · exact (not_awaits_done hawaits).elim
  · obtain ⟨-, hawaits⟩ | ⟨rows, log₂, rfl, h₂⟩ | ⟨err, -, hdone⟩ := catch500_path h₁
    · exact (not_awaits_done hawaits).elim
    · cases (catch500_pure_path h₂).2
      exact ⟨_, _, _, _, _, List.mem_cons_of_mem _ List.mem_cons_self⟩
    · cases hdone
  · cases hdone

/-- The pins are those of no row, or of rows that are near. -/
theorem getPropertiesMap_near {lq : ListQuery} {pins : List Pin}
    (h : (getPropertiesMap svc lq).Path log (.done ⟨200, .pins pins⟩)) :
    pins = [] ∨ ∃ lat lng radius limit offset rows,
      ⟨.selectPropertiesNearby lat lng radius limit offset, .ok rows⟩ ∈ log ∧ pins = rows.map (pinOf svc) := by
  simp only [getPropertiesMap] at h
  split at h
  · obtain ⟨-, hdone⟩ := Prog.path_done.mp h
    cases hdone
    exact .inl rfl
  · obtain ⟨-, hawaits⟩ | ⟨rows, log', rfl, hrest⟩ | ⟨err, -, hdone⟩ := catch500_path h
    · exact (not_awaits_done hawaits).elim
    · cases (catch500_pure_path hrest).2
      exact .inr ⟨_, _, _, _, _, rows, List.mem_cons_self, rfl⟩
    · cases hdone

end

/-! ### Runs -/

section
variable {ι : Type} [DecidableEq ι] {svc : Services} {publicBaseUrl : String} {env : ι → NodeEnv} {req : ι → Request}
  {Init : Db → Prop} {C : WholeServer ι → PoolEvent ι Tick → Prop} {s s' : WholeServer ι}
  {tr : List (PoolEvent ι Tick)} {screen : AddPropertyScreen} {D : AddPropertyScreen → AddPropertyEvent → Prop}

/-- **What is added in the app is stored as it was entered, and never near**: every later request for the property
itself answers it, unless it fails, and no later list of what is nearby and no later map has it. -/
theorem added_never_near (hinit : ∀ db, Init db → Constrained db) (hscreen : addPropertyScreen.Reachable D screen)
    {form : AddPropertyForm} (hposted : form ∈ screen.posted)
    (h : (wholeServer svc publicBaseUrl env req Init).Reachable C s) {i j : ι} {authorization : Option String}
    (hreq : req i = .api (.postProperties authorization (form.payload svc))) {row : PropertyRow}
    (hi : (s.thread i).result = some (some ⟨201, .property row⟩)) (hidle : s.thread j = .idle)
    (hrun : (wholeServer svc publicBaseUrl env req Init).Run C s tr s') {response : Response}
    (hj : (s'.thread j).result = some (some response)) :
    StoredAs svc form row ∧
      (req j = .api (.getPropertiesId (.uuid row.id)) → response.status ≠ 500 → response = ⟨200, .property row⟩) ∧
      (∀ lq page, req j = .api (.getProperties lq) → svc.parseFloat lq.lat ≠ "NaN" → svc.parseFloat lq.lng ≠ "NaN" →
        response = ⟨200, .propertyPage page⟩ → ∀ near ∈ page.data, near.id ≠ row.id) ∧
      ∀ lq pins, req j = .api (.getPropertiesMap lq) → response = ⟨200, .pins pins⟩ → ∀ pin ∈ pins, pin.id ≠ row.id := by
  obtain ⟨-, hthere⟩ := Pool.answered (J := fun _ => True) (T := PropertyThere svc) (fun _ _ _ => trivial)
    (fun x db q call _ hcall => hcall.later (exec_grows svc x db q)) (fun x db q _ => exec_propertyThere q)
    (fun _ _ _ _ _ _ _ _ _ => trivial) h
  have hpath := result_path (wholeServer_path h) hi
  rw [hreq] at hpath
  obtain ⟨_, _, _, _, _, _, _, _, hcall, hstored⟩ :=
    postProperties_row (posted_entered hscreen hposted).1 (api_path svc (env i) hpath)
  obtain ⟨hrow, hcolumns⟩ := hthere i _ hcall _ _ _ _ _ _ _ _ _ rfl
  have hentered := hstored hcolumns
  have hnone : ∀ i, i = j → ∀ call ∈ (s.thread i).log, FoundNotNear row call := by
    rintro i rfl call hcall
    rw [hidle] at hcall
    cases hcall
  obtain ⟨hpath', -, hshown⟩ := Pool.answered_run (J := fun db => Constrained db ∧ row ∈ db.properties)
    (T := fun _ => FoundNotNear row) (· = j) (fun _ _ _ _ _ hcall => hcall)
    (fun x db q hdb => exec_foundNotNear hdb.1 hdb.2 hentered.location q)
    (fun i x db q k log hpath _ hdb => ⟨exec_constrained x hdb.1 (hpath.always (wholeServer_sends i)).1.roleFits,
      (exec_grows svc x db q).properties.subset hdb.2⟩)
    (wholeServer_path h) ⟨constraints_hold hinit h, hrow⟩ hnone hrun
  have hend := result_path hpath' hj
  refine ⟨hentered, fun hget hanswered => ?_, ?_, ?_⟩
  · rw [hget] at hend
    obtain ⟨rows, hselect, hresponse⟩ := getPropertiesId_row hanswered (api_path svc (env j) hend)
    exact hresponse row ((hshown j rfl _ hselect).1 rows rfl)
  · rintro lq page hlist hlat hlng rfl
    rw [hlist] at hend
    obtain ⟨lat, lng, radius, limit, offset, hselect⟩ := getProperties_near hlat hlng (api_path svc (env j) hend)
    exact (hshown j rfl _ hselect).2 lat lng radius limit offset _ rfl
  · rintro lq pins hmap rfl pin hpin
    rw [hmap] at hend
    obtain rfl | ⟨lat, lng, radius, limit, offset, rows, hselect, rfl⟩ :=
      getPropertiesMap_near (api_path svc (env j) hend)
    · cases hpin
    · obtain ⟨near, hnear, rfl⟩ := List.mem_map.mp hpin
      exact (hshown j rfl _ hselect).2 lat lng radius limit offset rows rfl near hnear

/-- Ana enters a room of hers and submits it. -/
def anaAdds : List AddPropertyEvent := [.setTitle "Cozy room ", .setType "Room", .setPrice "750", .handleSubmit]

def anaRoom : AddPropertyForm := { title := "Cozy room ", type := "Room", price := "750" }

def anaMaps : Bool → Request
  | false => .api (.postProperties (some "Bearer 1.0.ana@x.org") (anaRoom.payload plainServices))
  | true => .api (.getPropertiesMap { lat := some "10", lng := some "10" })

def propertyOf : Option (Option Response) → Option PropertyRow :=
  dataOf 201 fun | .property row => some row | _ => none

theorem propertyOf_some {r : Option (Option Response)} {row : PropertyRow} (h : propertyOf r = some row) :
    r = some (some ⟨201, .property row⟩) :=
  dataOf_some (by rintro ⟨⟩ a ⟨⟩; rfl) h

def pinsOf : Option (Option Response) → Option (List Pin) :=
  dataOf 200 fun | .pins pins => some pins | _ => none

theorem pinsOf_some {r : Option (Option Response)} {pins : List Pin} (h : pinsOf r = some pins) :
    r = some (some ⟨200, .pins pins⟩) :=
  dataOf_some (by rintro ⟨⟩ a ⟨⟩; rfl) h

theorem added_never_near_ana : ∃ (row : PropertyRow) (pins : List Pin), row.price = some "750.00" ∧
    StoredAs plainServices anaRoom row ∧ ∀ pin ∈ pins, pin.id ≠ row.id := by
  let M := wholeServer plainServices "" (fun _ => ⟨5, "", 0⟩) anaMaps (· = loft)
  obtain ⟨s, hrun, hfacts⟩ := wholeServer_of_exec plainServices "" (fun _ => ⟨5, "", 0⟩) anaMaps loft
    (fun s => ((propertyOf (s.thread false).result).map (·.price), isIdle (s.thread true),
      (M.exec (fun _ _ => true) s [.start true, .answer true {}]).map fun s' =>
        (pinsOf (s'.thread true).result).isSome))
    [.start false, .answer false { uuid := 12 }] (a := (some (some "750.00"), true, some true)) (by decide +kernel)
  obtain ⟨hadded, hrest⟩ := Prod.mk.inj hfacts
  obtain ⟨hidle, hmap⟩ := Prod.mk.inj hrest
  obtain ⟨row, hrow, hprice⟩ := Option.map_eq_some_iff.mp hadded
  obtain ⟨s', hexec, hsome⟩ := Option.map_eq_some_iff.mp hmap
  obtain ⟨pins, hpins⟩ := Option.isSome_iff_exists.mp hsome
  obtain ⟨screen, hscreen, hposted⟩ := addPropertyScreen.reachable_of_exec (fun _ _ => true) (·.posted) anaAdds
    (a := [anaRoom]) rfl (by decide +kernel)
  obtain ⟨hstored, -, -, hnear⟩ := added_never_near (by rintro _ rfl; exact constrained_loft) hscreen
    (hposted ▸ List.mem_singleton_self _) ((wholeServer_start ..).trans hrun) rfl (propertyOf_some hrow)
    (idle_of_isIdle hidle) ((System.Run.of_exec hexec).mono fun _ _ _ => trivial) (pinsOf_some hpins)
  exact ⟨row, pins, hprice, hstored, hnear _ pins rfl rfl⟩

end

end Locus.App
