import Locus.Lib.Words
import Locus.Server.Profile

/-!
# The name on the profile screen

`EditProfileScreen` shows a first and a last name, and the server stores one. `handleSave` joins the two with a
space; the load effect of the screen and `userRowToProfile` take the stored name apart at any white space, the
first word being the first name and the others, joined with spaces, the last. They give back what was typed exactly
if the first name is one word and the last name has no white space but spaces (`edit_name_iff`): `Mary Ann` `Smith`
comes back as `Mary` `Ann Smith` (`mary_ann`).
-/

namespace Locus.App

open Lib Server

/-! ### The screen -/

structure NameParts where
  first : String := ""
  last : String := ""
deriving DecidableEq

/-- The states of `EditProfileScreen` that it loads and saves. -/
structure EditProfileScreen where
  name : String := ""
  email : String := ""
  phone : String := ""
  bio : String := ""
  nameParts : NameParts := {}
  avatarUri : Option String := none
deriving DecidableEq

namespace EditProfileScreen

/-- The effect that loads `data` of `GET /users/me`. -/
def load (s : EditProfileScreen) (data : UserColumns) : EditProfileScreen :=
  let n := jsTrim (data.name.getD "")
  let words := splitWords n
  { s with
    name := data.name.getD ""
    email := data.email
    phone := data.phone.getD ""
    bio := data.bio.getD ""
    avatarUri := if data.avatarUrl.getD "" ≠ "" then data.avatarUrl else s.avatarUri
    nameParts := ⟨words.headD "", String.intercalate " " words.tail⟩ }

/-- `[nameParts.first, nameParts.last].filter(Boolean).join(' ').trim()` -/
def fullName (s : EditProfileScreen) : String :=
  jsTrim (String.intercalate " " ([s.nameParts.first, s.nameParts.last].filter (· ≠ "")))

/-- `avatarUri.startsWith('file://') || avatarUri.startsWith('content://')` -/
def isLocalFile (uri : String) : Bool := uri.startsWith "file://" || uri.startsWith "content://"

/-- `text || null` -/
def orNull (text : String) : Json := if text = "" then .null else .str text

/-- What `handleSave` sends with `PUT /users/profile`, or its error; the server gives an upload its file name. -/
def handleSave (s : EditProfileScreen) (filename : String) : Except String ProfileForm :=
  if s.fullName = "" then .error "Name is required"
  else if s.avatarUri.any isLocalFile then
    .ok { body := .obj [("name", .str s.fullName), ("phone", .str s.phone), ("bio", .str s.bio)]
          multipart := true, file := some filename }
  else
    .ok { body := .obj [("name", .str s.fullName), ("phone", orNull s.phone), ("bio", orNull s.bio),
                        ("avatar_url", orNull (s.avatarUri.getD ""))] }

end EditProfileScreen

/-! ### A name in two parts -/

/-- A name as it is typed: not empty, no white space at its ends, no two together. -/
structure TypedName (s : String) : Prop where
  nonempty : s ≠ ""
  head : ∀ c ∈ s.toList.head?, jsSpace c = false
  last : ∀ c ∈ s.toList.getLast?, jsSpace c = false
  single : s.toList.IsChain fun a b => ¬ (jsSpace a = true ∧ jsSpace b = true)

/-- The first name is one word, and the words of the last name stand between spaces. -/
def Separable (first last : String) : Prop :=
  (∀ c ∈ first.toList, jsSpace c = false) ∧ ∀ c ∈ last.toList, jsSpace c = true → c = ' '

-- as Boolean tests: a quantifier over all characters can be decided too, but not in time
instance (s : String) : Decidable (TypedName s) :=
  decidable_of_iff (s ≠ "" ∧ (s.toList.head?.toList.all fun c => !jsSpace c) = true ∧
    (s.toList.getLast?.toList.all fun c => !jsSpace c) = true ∧
    s.toList.IsChain fun a b => ¬ (jsSpace a = true ∧ jsSpace b = true))
    ⟨fun ⟨hne, hhead, hlast, hsingle⟩ => ⟨hne, by simpa using hhead, by simpa using hlast, hsingle⟩,
      fun h => ⟨h.nonempty, by simpa using h.head, by simpa using h.last, h.single⟩⟩

instance (first last : String) : Decidable (Separable first last) :=
  decidable_of_iff ((first.toList.all fun c => !jsSpace c) = true ∧
    (last.toList.all fun c => !jsSpace c || decide (c = ' ')) = true)
    (and_congr (by simp) (by simp [or_iff_not_imp_left]))

/-- A stored name, taken apart as the load effect and `userRowToProfile` do. -/
def nameOf (name : String) : NameParts :=
  ⟨(splitWords (jsTrim name)).headD "", String.intercalate " " (splitWords (jsTrim name)).tail⟩

theorem splitWords_eq {text : String} (h : text ≠ "") :
    splitWords text = (words jsSpace text.toList).map String.ofList := by
  have hne : text.toList ≠ [] := by
    intro hnil
    exact h (String.toList_eq_nil_iff.mp hnil)
  unfold splitWords words
  split
  · rename_i hnil
    exact absurd (List.splitBy_eq_nil.mp hnil) hne
  · rfl

section
variable {first last : String} (hfirst : TypedName first) (hlast : TypedName last)

include hfirst hlast

theorem joined_trimmed : jsTrim (first ++ " " ++ last) = first ++ " " ++ last := by
  have hne : last.toList ≠ [] := fun hnil => hlast.nonempty (String.toList_eq_nil_iff.mp hnil)
  have hfirstNe : first.toList ≠ [] := fun hnil => hfirst.nonempty (String.toList_eq_nil_iff.mp hnil)
  refine jsTrim_eq_self ?_ ?_
  · intro c hc
    rw [String.toList_append, String.toList_append, List.append_assoc, List.head?_append_of_ne_nil _ hfirstNe] at hc
    exact hfirst.head c hc
  · intro c hc
    rw [String.toList_append, List.getLast?_append_of_ne_nil _ hne] at hc
    exact hlast.last c hc

theorem fullName_eq {s : EditProfileScreen} (hs : s.nameParts = ⟨first, last⟩) :
    s.fullName = first ++ " " ++ last := by
  have hfilter : [first, last].filter (· ≠ "") = [first, last] := by
    simp [hfirst.nonempty, hlast.nonempty]
  rw [EditProfileScreen.fullName, hs, hfilter, String.intercalate_cons_cons, String.intercalate_singleton]
  exact joined_trimmed hfirst hlast

/-- **Taking a joined name apart** gives its parts if and only if they are separable. -/
theorem nameOf_joined_iff : nameOf (first ++ " " ++ last) = ⟨first, last⟩ ↔ Separable first last := by
  have hfirstNe : first.toList ≠ [] := fun hnil => hfirst.nonempty (String.toList_eq_nil_iff.mp hnil)
  have hlist : (first ++ " " ++ last).toList = first.toList ++ ' ' :: last.toList := by simp
  have hne : first ++ " " ++ last ≠ "" := by
    intro hempty
    rw [hempty] at hlist
    exact List.append_ne_nil_of_left_ne_nil hfirstNe _ hlist.symm
  rw [nameOf, joined_trimmed hfirst hlast, splitWords_eq hne, hlist]
  constructor
  · intro h
    obtain ⟨hhead, htail⟩ := NameParts.mk.inj h
    have hfree := fun w => words_free (p := jsSpace) (l := first.toList ++ ' ' :: last.toList) (w := w)
    cases hwords : words jsSpace (first.toList ++ ' ' :: last.toList) with
    | nil =>
      rw [hwords] at hhead
      exact absurd hhead.symm hfirst.nonempty
    | cons w ws =>
      rw [hwords] at hhead htail hfree
      constructor
      · intro c hc
        rw [← hhead, List.map_cons, List.headD_cons, String.toList_ofList] at hc
        exact hfree w List.mem_cons_self c hc
      · intro c hc hspace
        have hmem : c ∈ [' '].intercalate ws := by
          rw [← htail, List.map_cons, List.tail_cons, String.toList_intercalate, List.map_map] at hc
          simpa [Function.comp_def] using hc
        rcases mem_intercalate hmem with hc | ⟨v, hv, hc⟩
        · exact hc
        · rw [hfree v (List.mem_cons_of_mem w hv) c hc] at hspace
          cases hspace
  · rintro ⟨hword, hspaces⟩
    have hjoin := intercalate_words hspaces hlast.head hlast.last hlast.single
    rw [words_append hfirstNe hword (show jsSpace ' ' = true by decide) hlast.head]
    have hlastName : String.intercalate " " ((words jsSpace last.toList).map String.ofList) = last := by
      refine String.toList_inj.mp ?_
      rw [String.toList_intercalate, List.map_map]
      simpa [Function.comp_def] using hjoin
    rw [List.map_cons, List.headD_cons, List.tail_cons, hlastName, String.ofList_toList]

end

/-! ### Saved and loaded again -/

/-- The screen has the two parts of the name again, and `userRowToProfile` reports them. -/
structure RoundTrips (parts : NameParts) (userId : Uuid) (data : UserColumns) (db : Db) : Prop where
  screen : ∀ s : EditProfileScreen, (s.load data).nameParts = parts
  profile : ∀ row ∈ db.users, row.id = userId →
    (userRowToProfile row).firstName = parts.first ∧ (userRowToProfile row).lastName = parts.last

theorem given_name {s : EditProfileScreen} {filename : String} {form : ProfileForm}
    (h : s.handleSave filename = .ok form) (publicBaseUrl : String) :
    form.given publicBaseUrl .name = some (some (jsTrim s.fullName)) := by
  unfold EditProfileScreen.handleSave at h
  split at h
  · cases h
  · split at h
    · cases h
      rfl
    · cases h
      rfl

theorem getUsersMe_row {svc : Services} {env : NodeEnv} {authorization : Option String} {reqUser : AuthUser}
    (hauth : authenticate svc env authorization = some reqUser) {x : ℕ → Tick} {db : Db} {cache : Cache}
    {data : UserColumns}
    (h : ((getUsersMe svc env authorization).run (exec svc) x db cache).1 = ⟨200, .userColumns data⟩) :
    data ∈ selectUserColumns db reqUser.id := by
  rw [getUsersMe, authMiddleware_some svc env _ hauth] at h
  revert h
  refine catch500_run (P := fun out _ => out.1 = ⟨200, .userColumns data⟩ → data ∈ selectUserColumns db reqUser.id)
    (fun rows db' hrows h => ?_) fun e _ h => by cases h
  obtain ⟨rfl, rfl⟩ := Prod.mk.inj (Except.ok.inj hrows)
  cases hselect : selectUserColumns db reqUser.id with
  | nil =>
    rw [hselect] at h
    cases h
  | cons row rest =>
    rw [hselect] at h
    cases h
    exact List.mem_cons_self

theorem saved_name {svc : Services} {publicBaseUrl : String} {reqUser : AuthUser} {first last : String}
    (hfirst : TypedName first) (hlast : TypedName last) {s : EditProfileScreen}
    (htyped : s.nameParts = ⟨first, last⟩) {filename : String} {form : ProfileForm}
    (hsave : s.handleSave filename = .ok form) {x : ℕ → Tick} {db db' : Db} {cache cache' : Cache} {r : Response}
    (hput : (putUsersProfile publicBaseUrl reqUser form).run (exec svc) x db cache = (some r, db', cache'))
    (h200 : r.status = 200) : ∀ row ∈ db'.users, row.id = reqUser.id → row.name = some (first ++ " " ++ last) := by
  obtain ⟨-, hdb'⟩ := update_spec hput h200
  intro row hrow hid
  rw [hdb'] at hrow
  obtain ⟨old, -, rfl⟩ := List.mem_map.mp hrow
  split at hid
  · rename_i hold
    rw [if_pos hold]
    show (form.given publicBaseUrl .name).getD old.name = _
    rw [given_name hsave, Option.getD_some, fullName_eq hfirst hlast htyped, joined_trimmed hfirst hlast]
  · rename_i hold
    exact absurd hid hold

/-- **A name that is saved and loaded again** is what was typed if and only if its parts are separable. -/
theorem edit_name_iff {svc : Services} {publicBaseUrl : String} {reqUser : AuthUser} {first last : String}
    (hfirst : TypedName first) (hlast : TypedName last) {s : EditProfileScreen}
    (htyped : s.nameParts = ⟨first, last⟩) {filename : String} {form : ProfileForm}
    (hsave : s.handleSave filename = .ok form) {x y : ℕ → Tick} {db db' : Db} {cache cache' cacheLater : Cache}
    {r : Response}
    (hput : (putUsersProfile publicBaseUrl reqUser form).run (exec svc) x db cache = (some r, db', cache'))
    (h200 : r.status = 200) {env : NodeEnv} {authorization : Option String}
    (hauth : authenticate svc env authorization = some reqUser) {data : UserColumns}
    (hget : ((getUsersMe svc env authorization).run (exec svc) y db' cacheLater).1 = ⟨200, .userColumns data⟩) :
    RoundTrips ⟨first, last⟩ reqUser.id data db' ↔ Separable first last := by
  have hname := saved_name hfirst hlast htyped hsave hput h200
  have hdata : data.name = some (first ++ " " ++ last) := by
    obtain ⟨row, hrow, rfl⟩ := List.mem_map.mp (getUsersMe_row hauth hget)
    obtain ⟨hmem, hid⟩ := List.mem_filter.mp hrow
    exact hname row hmem (by simpa using hid)
  have hload : ∀ s : EditProfileScreen, (s.load data).nameParts = nameOf (first ++ " " ++ last) := by
    intro s
    show nameOf (data.name.getD "") = _
    rw [hdata, Option.getD_some]
  rw [← nameOf_joined_iff hfirst hlast]
  constructor
  · intro h
    rw [← hload {}]
    exact h.screen {}
  · intro h
    refine ⟨fun s => (hload s).trans h, fun row hrow hid => ?_⟩
    obtain ⟨hhead, htail⟩ := NameParts.mk.inj h
    rw [userRowToProfile, hname row hrow hid, Option.getD_some]
    dsimp only
    rw [hhead, htail, if_neg hfirst.nonempty]
    exact ⟨rfl, rfl⟩

/-! ### Ana Lopez and Mary Ann Smith -/

def nameOnly (name : String) : ProfileForm where
  body := .obj [("name", .str name), ("phone", .null), ("bio", .null), ("avatar_url", .null)]

/-- What `GET /users/me` then answers Ana. -/
def anaNamed (name : String) : UserColumns where
  id := 1
  email := "ana@x.org"
  name := some name
  phone := none
  bio := none
  avatarUrl := none
  createdAt := 0

def anaUser : AuthUser := ⟨1, "ana@x.org"⟩

def anaToken : Option String := some "Bearer 1.0.ana@x.org"

theorem authenticate_ana : authenticate plainServices ⟨0, "", 0⟩ anaToken = some anaUser := by decide +kernel

theorem ana_saves (name : String)
    (h : ((putUsersProfile "https://x.org" anaUser (nameOnly name)).run (exec plainServices) (fun _ => {})
      anaWithAvatar []).1.map (·.status) = some 200) :
    ∃ r db' cache', (putUsersProfile "https://x.org" anaUser (nameOnly name)).run (exec plainServices) (fun _ => {})
      anaWithAvatar [] = (some r, db', cache') ∧ r.status = 200 ∧
      ((getUsersMe plainServices ⟨0, "", 0⟩ anaToken).run (exec plainServices) (fun _ => {}) db' cache').1 =
        ⟨200, .userColumns (anaNamed (jsTrim name))⟩ := by
  rcases hput : (putUsersProfile "https://x.org" anaUser (nameOnly name)).run (exec plainServices) (fun _ => {})
    anaWithAvatar [] with ⟨answer, db', cache'⟩
  rw [hput] at h
  obtain ⟨r, rfl, h200⟩ := Option.map_eq_some_iff.mp h
  refine ⟨r, db', cache', rfl, h200, ?_⟩
  rw [(update_spec hput h200).2, getUsersMe, authMiddleware_some _ _ _ authenticate_ana]
  rfl

/-- `Ana` `Lopez` comes back. -/
theorem edit_name_iff_ana : ∃ r db' cache',
    (putUsersProfile "https://x.org" anaUser (nameOnly "Ana Lopez")).run (exec plainServices) (fun _ => {})
      anaWithAvatar [] = (some r, db', cache') ∧
    RoundTrips ⟨"Ana", "Lopez"⟩ 1 (anaNamed "Ana Lopez") db' := by
  obtain ⟨r, db', cache', hput, h200, hget⟩ := ana_saves "Ana Lopez" (by decide +kernel)
  have htrim : jsTrim "Ana Lopez" = "Ana Lopez" := by decide +kernel
  rw [htrim] at hget
  have hfirst : TypedName "Ana" := by decide +kernel
  have hlast : TypedName "Lopez" := by decide +kernel
  have hsave : EditProfileScreen.handleSave { nameParts := ⟨"Ana", "Lopez"⟩ } "" = .ok (nameOnly "Ana Lopez") := rfl
  have hiff := edit_name_iff hfirst hlast (s := { nameParts := ⟨"Ana", "Lopez"⟩ }) rfl hsave hput h200
    authenticate_ana hget
  exact ⟨r, db', cache', hput, hiff.mpr (by decide +kernel)⟩

/-- **Mary Ann loses her second name** to her last name. -/
theorem mary_ann : ¬ ∀ (svc : Services) (publicBaseUrl : String) (reqUser : AuthUser) (first last : String),
    TypedName first → TypedName last → ∀ (s : EditProfileScreen), s.nameParts = ⟨first, last⟩ →
    ∀ (filename : String) (form : ProfileForm), s.handleSave filename = .ok form →
    ∀ (x y : ℕ → Tick) (db db' : Db) (cache cache' : Cache) (r : Response),
    (putUsersProfile publicBaseUrl reqUser form).run (exec svc) x db cache = (some r, db', cache') → r.status = 200 →
    ∀ (env : NodeEnv) (authorization : Option String), authenticate svc env authorization = some reqUser →
    ∀ data : UserColumns,
    ((getUsersMe svc env authorization).run (exec svc) y db' cache').1 = ⟨200, .userColumns data⟩ →
    RoundTrips ⟨first, last⟩ reqUser.id data db' := by
  intro hclaim
  obtain ⟨r, db', cache', hput, h200, hget⟩ := ana_saves "Mary Ann Smith" (by decide +kernel)
  have hfirst : TypedName "Mary Ann" := by decide +kernel
  have hlast : TypedName "Smith" := by decide +kernel
  have htrips := hclaim plainServices "https://x.org" anaUser "Mary Ann" "Smith" hfirst hlast
    { nameParts := ⟨"Mary Ann", "Smith"⟩ } rfl "" _ rfl _ _ _ _ _ _ _ hput h200 _ _ authenticate_ana _ hget
  have hparts : nameOf (jsTrim "Mary Ann Smith") = ⟨"Mary Ann", "Smith"⟩ := htrips.screen {}
  exact absurd hparts (by decide +kernel)

end Locus.App
